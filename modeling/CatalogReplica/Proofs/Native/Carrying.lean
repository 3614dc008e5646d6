import CatalogReplica.Proofs.Catalog.Operations
import CatalogReplica.Proofs.Coherence.Reads
import CatalogReplica.Proofs.Identity.Tables

/-!
# What lookups and reads keep of native resources

Lookups and reads hold things and release them, make entities, and let things go that
nothing refers to.  Apart from that they change what native resources have nothing to do
with.  Whatever these few changes keep, all of them keep, except where a native descriptor
is taken over.

What is kept may depend on the things that the operation under way holds.

* `World.Aside`: a change that has nothing to do with native resources.
* `World.Carried`: what the changes keep.
* `World.Gives`: an operation keeps it, and holds what it gives.
-/

namespace CatalogReplica.Catalog

open Coherence (Access Computed GateId SlotSpec SlotTable TableView)
open Identity (Cache CacheView Note)
open Lifetime (GuardId)

/-- The provider without what native descriptors have nothing to do with. -/
def Provider.native (provider : Provider) : Provider := {
  extraRecords := provider.extraRecords, records := provider.records
  references := provider.references, released := provider.released
  scope := provider.scope, failures := provider.failures }

namespace World

/-- The state without what native resources have nothing to do with: cells, counters, rows,
    entities, and the tables of all caches but that of lifespans. -/
def native (world : World) : World :=
  { world with
    config := {}
    provider := world.provider.native
    gates := {}
    ledger := { world.ledger with tally := {} }
    heap := []
    caches := { Caches.blank {} with
      descriptors := { (Caches.blank {}).descriptors with claims := world.caches.descriptors.claims } }
    typmods := [] }

/-- A change that native resources have nothing to do with. -/
structure Aside (before after : World) : Prop where
  guards : ∀ id, after.guardOf id = before.guardOf id
  native : after.native = before.native

theorem Aside.refl (world : World) : Aside world world := ⟨fun _ => rfl, rfl⟩

/-- A thing is changed, and not its guard. -/
theorem Aside.onThing (id : ThingId) {f : Thing → Thing} (same : ∀ thing : Thing, (f thing).guard? = thing.guard?)
    (world : World) : Aside world (onThing id f world) := by
  refine ⟨fun other => ?_, rfl⟩
  change ((world.heap.update id f).get? other).bind _ = _
  rw [Numbered.get?_update]
  split
  · rw [Option.bind_map, show Thing.guard? ∘ f = Thing.guard? from funext same]
    rfl
  · rfl

theorem guard?_onTable (f : SlotTable Datum → SlotTable Datum) (thing : Thing) :
    (thing.onTable f).guard? = thing.guard? := by
  cases thing <;> rfl

theorem guard?_onTies (f : Ties → Ties) (thing : Thing) : (thing.onTies f).guard? = thing.guard? := by
  cases thing <;> rfl

/-- What holding, releasing and making things keeps, and what letting them go keeps, of what
    holds of the things that the operation under way holds and of the state. -/
structure Carried (holds : List ThingId → World → Prop) : Prop where
  perm : ∀ {got got' world}, got.Perm got' → holds got world → holds got' world
  less : ∀ {id got world}, holds (id :: got) world → holds got world
  aside : ∀ {got before after}, Aside before after → holds got before → holds got after
  hold : ∀ {got world} id, holds got world → holds (id :: got) (hold id world)
  unhold : ∀ {got world id}, holds (id :: got) world → holds got { world with held := world.held.erase id }
  add : ∀ {got world} {thing : Thing}, thing.guard? = none → holds got world →
    holds (world.nextThing :: got) (world.add thing).2
  gone : ∀ {got world id thing}, world.thing? id = some thing → world.referenced id = false →
    holds got world → holds got (dropGuard thing { world with heap := world.heap.erase id })

/-- What holds when an operation ends that gives things, as far as it does. -/
def After {α : Type} (holds : List ThingId → World → Prop) (refs : α → List ThingId) (got : List ThingId)
    (outcome : Except Interrupt α) (after : World) : Prop :=
  match outcome with
  | .ok value => holds (refs value ++ got) after
  | .error _ => holds got after

/-- The operation keeps what holds, and holds the things that it gives. -/
def Gives {α : Type} (holds : List ThingId → World → Prop) (body : Task World α) (refs : α → List ThingId) : Prop :=
  ∀ got world, holds got world → body.Ends world (After holds refs got)

/-- The operation keeps what holds. -/
abbrev Minds {α : Type} (holds : List ThingId → World → Prop) (body : Task World α) : Prop :=
  Gives holds body fun _ => []

variable {α β : Type} {holds : List ThingId → World → Prop} {refs : α → List ThingId} {refs' : β → List ThingId}
  {got : List ThingId} {world : World} {id : ThingId}

/-! ## Sequences -/

theorem Gives.next {body : Task World α} {next : α → Task World β} (first : Gives holds body refs)
    (before : holds got world)
    (rest : ∀ value after, holds (refs value ++ got) after → (next value).Ends after (After holds refs' got)) :
    (body >>= next).Ends world (After holds refs' got) :=
  (first got world before).bind rest fun _ _ after => after

theorem Gives.bind {body : Task World α} {next : α → Task World β} (first : Minds holds body)
    (rest : ∀ value, Gives holds (next value) refs') : Gives holds (body >>= next) refs' :=
  fun got _ before => first.next before fun value after holds => rest value got after holds

theorem Gives.pure (value : α) : Minds holds (pure value) := fun _ _ before => before

theorem Gives.giving {value : α} (gives : ∀ got world, holds got world → holds (refs value ++ got) world) :
    Gives holds (Pure.pure value) refs := gives

theorem Gives.throw (interrupt : Interrupt) : Gives holds (throw interrupt : Task World α) refs :=
  fun _ _ before => before

theorem Gives.get_bind {next : World → Task World β} (rest : ∀ state, Gives holds (next state) refs') :
    Gives holds (get >>= next) refs' := fun got world before => .next (Task.get_run world) (rest world got world before)

theorem Gives.modify {f : World → World} (step : ∀ got world, holds got world → holds got (f world)) :
    Minds holds (modify f) := step

theorem Gives.ofOutcome (outcome : Except Interrupt α) : Minds holds (Task.ofOutcome outcome) := by
  intro got world before
  cases outcome <;> exact before

theorem Gives.ofExcept (outcome : Except Fault α) : Minds holds (Task.ofExcept outcome) := by
  intro got world before
  cases outcome <;> exact before

theorem Gives.sum {each : β → Task World Nat} {list : List β} (minds : ∀ one ∈ list, Minds holds (each one)) :
    Minds holds (Task.sum each list) := by
  induction list with
  | nil => exact .pure 0
  | cons first rest ih =>
    refine (minds first List.mem_cons_self).bind fun _ => Gives.bind (ih fun one among => ?_) fun _ => .pure _
    exact minds one (List.mem_cons_of_mem _ among)

theorem onLedger_ends_as {body : Task Lifetime.Ledger α} {post : Except Interrupt α → World → Prop}
    (ends : body.Ends world.ledger fun outcome ledger => post outcome (setLedger ledger world)) :
    (onLedger body).Ends world post := by
  unfold Task.Ends onLedger Task.within at *
  cases ran : body world.ledger <;> rw [ran] at ends <;> exact ends

theorem onProvider_ends {body : Task Provider α} {post : Except Interrupt α → World → Prop}
    (ends : body.Ends world.provider fun outcome provider => post outcome { world with provider }) :
    (onProvider body).Ends world post := by
  unfold Task.Ends onProvider Task.within at *
  cases ran : body world.provider <;> rw [ran] at ends <;> exact ends

/-- What is done with the memory of the provider leaves the rest of the provider alone. -/
theorem onMemory_ends (body : Task Storage.Memory α) (provider : Provider) :
    (Provider.onMemory body).Ends provider fun _ after => ∃ memory, after = { provider with memory } := by
  unfold Task.Ends Provider.onMemory Task.within
  cases body provider.memory <;> exact ⟨_, rfl⟩

section carried

variable (carried : Carried holds)

include carried

/-! ## Things -/

theorem Carried.reapWithin (steps : Nat) (ids : List ThingId) (before : holds got world) :
    holds got (World.reapWithin steps ids world) := by
  induction steps generalizing ids world with
  | zero => exact before
  | succ steps ih =>
    cases ids with
    | nil => exact before
    | cons id ids =>
      unfold World.reapWithin
      cases found : world.thing? id with
      | none => exact ih ids before
      | some thing =>
        dsimp only
        split
        · exact ih ids before
        · next unreferenced => exact ih _ (carried.gone found (by simpa using unreferenced) before)

theorem Carried.reap (ids : List ThingId) (before : holds got world) : holds got (World.reap ids world) :=
  carried.reapWithin _ ids before

theorem Carried.release (before : holds (id :: got) world) : holds got (World.release id world) :=
  carried.reap [id] (carried.unhold before)

theorem Carried.holdAll (ids : List ThingId) (before : holds got world) :
    holds (ids ++ got) (ids.foldl (fun world id => World.hold id world) world) := by
  induction ids generalizing got world with
  | nil => exact before
  | cons id ids ih => exact carried.perm List.perm_middle (ih (carried.hold id before))

theorem Carried.releaseAll (ids : List ThingId) (before : holds (ids ++ got) world) :
    holds got (ids.foldl (fun world id => World.release id world) world) := by
  induction ids generalizing world with
  | nil => exact before
  | cons id ids ih => exact ih (carried.release before)

theorem Carried.lessAll (ids : List ThingId) (before : holds (ids ++ got) world) : holds got world := by
  induction ids with
  | nil => exact before
  | cons id ids ih => exact ih (carried.less before)

theorem Carried.tally (tally : Tally) (before : holds got world) :
    holds got { world with ledger := { world.ledger with tally } } :=
  have aside : Aside world { world with ledger := { world.ledger with tally } } := ⟨fun _ => rfl, rfl⟩
  carried.aside aside before

theorem Carried.count (counter : Counter) (before : holds got world) : holds got (World.count counter world) :=
  carried.tally _ before

theorem Carried.onTies (id : ThingId) (f : Ties → Ties) (before : holds got world) :
    holds got (World.onThing id (Thing.onTies f) world) :=
  carried.aside (.onThing id (guard?_onTies f) world) before

theorem Carried.onTable (id : ThingId) (f : SlotTable Datum → SlotTable Datum) (before : holds got world) :
    holds got (World.onTable id f world) :=
  carried.reap _ (carried.aside (.onThing id (guard?_onTable f) world) before)

/-- An operation that gives nothing and does nothing with native resources. -/
theorem Gives.of_aside {body : Task World α} (aside : ∀ world, body.Ends world fun _ after => Aside world after) :
    Minds holds body := by
  intro got world before
  refine (aside world).weaken fun outcome after step => ?_
  cases outcome <;> exact carried.aside step before

/-- Something that was held is released, however the operation ends. -/
theorem Gives.ensuring {body : Task World α}
    (ends : body.Ends world (After holds refs (id :: got))) :
    (Task.ensuring body (World.release id)).Ends world (After holds refs got) := by
  refine .ensuring (ends.weaken fun outcome after step => ?_)
  cases outcome with
  | ok value => exact carried.release (carried.perm List.perm_middle step)
  | error interrupt => exact carried.release step

end carried

/-! ## Caches of things -/

/-- A cache of things in which native resources have to do with claims at most. -/
structure Tended {κ : Type} (view : CacheView World κ ThingId) : Prop where
  store : ∀ notes cache world, cache.claims = (view.get world).claims → Aside world (view.store notes cache world)
  set : ∀ cache world, cache.claims = (view.get world).claims → Aside world (view.set cache world)
  get : ∀ id world, view.get (World.hold id world) = view.get world
  hold : ∀ id, view.hold id = World.hold id
  letGo : ∀ ids, view.letGo ids = World.reap ids

/-- A cache of things that has nothing to do with native resources. -/
structure Ordinary {κ : Type} (view : CacheView World κ ThingId) : Prop extends Tended view where
  claim : ∀ notes cache world, Aside world (view.store notes cache world)
  abandon : ∀ cache world, Aside world (view.set cache world)

theorem claims_put (caches : Caches) (kind : EntityClass) (cache : Cache EntityKey ThingId) :
    (caches.put kind cache).descriptors = caches.descriptors := by
  cases kind <;> rfl

theorem ordinary_entityView (kind : EntityClass) : Ordinary (entityView kind) := by
  have store notes cache world : Aside world ((entityView kind).store notes cache world) :=
    ⟨fun _ => rfl, by simp [native, CacheView.store, entityView, note, claims_put]⟩
  have set cache world : Aside world ((entityView kind).set cache world) :=
    ⟨fun _ => rfl, by simp [native, entityView, claims_put]⟩
  exact ⟨⟨fun notes cache world _ => store notes cache world, fun cache world _ => set cache world,
    fun _ _ => rfl, fun _ => rfl, fun _ => rfl⟩, store, set⟩

theorem ordinary_encodingView : Ordinary encodingView :=
  ⟨⟨fun _ _ _ _ => ⟨fun _ => rfl, rfl⟩, fun _ _ _ => ⟨fun _ => rfl, rfl⟩, fun _ _ => rfl, fun _ => rfl, fun _ => rfl⟩,
    fun _ _ _ => ⟨fun _ => rfl, rfl⟩, fun _ _ => ⟨fun _ => rfl, rfl⟩⟩

theorem tended_descriptorView : Tended descriptorView := by
  refine ⟨fun notes cache world same => ⟨fun _ => rfl, ?_⟩, fun cache world same => ⟨fun _ => rfl, ?_⟩,
    fun _ _ => rfl, fun _ => rfl, fun _ => rfl⟩ <;>
  · simp only [descriptorView] at same
    simp [native, CacheView.store, descriptorView, note, same]

section cached

variable {κ : Type} [DecidableEq κ] {view : CacheView World κ ThingId} (carried : Carried holds)

include carried

/-- Something is looked up, and constructed if it is not there. -/
theorem Carried.lookupIn (hold : ∀ id, view.hold id = World.hold id) (letGo : ∀ ids, view.letGo ids = World.reap ids)
    (store : ∀ {got world} notes cache, holds got world → holds got (view.store notes cache world))
    (set : ∀ {got world} cache, holds got world → holds got (view.set cache world))
    (thread : Nat) (key : κ) {construct : Task World ThingId} (constructs : Gives holds construct fun id => [id]) :
    Gives holds (view.lookup thread key construct) fun id => [id] := by
  intro got world before
  refine CacheView.lookup_ends (fun value _ _ => ?_) (fun interrupt notes after _ _ => store notes after before)
    (fun notes after _ _ _ _ => constructs got _ (store notes after before)) (fun value last held => ?_)
    (fun interrupt last held => set _ held)
  · rw [hold]
    exact carried.hold value (store [.hit] _ before)
  · unfold CacheView.settle
    simp only [letGo]
    exact carried.reap _ (store _ _ held)

theorem Ordinary.lookup (ordinary : Ordinary view) (thread : Nat) (key : κ) {construct : Task World ThingId}
    (constructs : Gives holds construct fun id => [id]) :
    Gives holds (view.lookup thread key construct) fun id => [id] :=
  carried.lookupIn ordinary.hold ordinary.letGo
    (fun notes cache before => carried.aside (ordinary.claim notes cache _) before)
    (fun cache before => carried.aside (ordinary.abandon cache _) before) thread key constructs

theorem Tended.get? (tended : Tended view) (key : κ) (before : holds got world) :
    holds ((view.get? key world).1.toList ++ got) (view.get? key world).2 := by
  have same : ((view.get world).get? (view.alive world) key).2.2.claims = (view.get world).claims := by
    obtain ⟨value, _, _, given⟩ | ⟨_, notes, after, given, _, claims⟩ :=
      Cache.get?_cases (view.get world) (view.alive world) key
    · rw [given]
    · rw [given]
      exact claims
  unfold CacheView.get?
  simp only [tended.hold]
  exact carried.holdAll _ (carried.aside (tended.store _ _ world same) before)

theorem Tended.evict (tended : Tended view) (key : κ) (before : holds got world) :
    holds ((view.evict key world).1.toList ++ got) (view.evict key world).2 := by
  obtain ⟨found, notes, after, given, -, claims, -⟩ := Cache.evict_cases (view.get world) (view.alive world) key
  unfold CacheView.evict
  simp only [tended.hold, given]
  refine carried.aside (tended.store _ _ _ ?_) (carried.holdAll _ before)
  cases found with
  | none => exact claims
  | some id => exact claims.trans (congrArg Cache.claims (tended.get id world)).symm

omit [DecidableEq κ] in
theorem Tended.purge (tended : Tended view) (before : holds got world) : holds got (view.purge world).2 :=
  carried.aside (tended.store _ _ world rfl) before

omit [DecidableEq κ] in
theorem Tended.relieve (tended : Tended view) (before : holds got world) : holds got (view.relieve world).2 := by
  unfold CacheView.relieve
  simp only [tended.letGo]
  exact carried.reap _ (carried.aside (tended.set _ world rfl) before)

end cached

end World

end CatalogReplica.Catalog
