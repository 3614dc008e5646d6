import CatalogReplica.Proofs.Catalog.Lookups

/-!
# What has nothing to do with entities

Encodings, native descriptors and scopes have identity caches of their own.  Looking them
up leaves alone what coherence is about, apart from the things that are constructed.

* `Apart`: a task that leaves it alone altogether.
* `encoding_ends`, `nativeDescriptor_ends`: looking up what is no entity.
-/

namespace CatalogReplica.Catalog.World

open Coherence (SlotTable)
open Identity (Cache CacheView Note)
open Lifetime (Ledger)

variable {world : World} {unsignalled : List EntityKey}

/-! ## Tasks -/

/-- The task leaves what coherence is about alone. -/
def Apart {α : Type} (body : Task World α) : Prop :=
  ∀ world, body.Ends world fun _ after => after.core = world.core

namespace Apart

variable {α β : Type} {body : Task World α}

theorem pure (value : α) : Apart (Pure.pure value) := fun _ => rfl

theorem throw (interrupt : Interrupt) : Apart (MonadExcept.throw interrupt : Task World α) := fun _ => rfl

theorem get : Apart (MonadState.get : Task World World) := fun _ => rfl

theorem bind {next : α → Task World β} (first : Apart body) (second : ∀ value, Apart (next value)) :
    Apart (body >>= next) :=
  fun world => (first world).bind (fun value mid same => (second value mid).weaken fun _ _ same' => same'.trans same)
    fun _ _ same => same

theorem onLedger (body : Task Ledger α) : Apart (World.onLedger body) :=
  fun world => (onLedger_ends body world).weaken fun _ _ => And.left

theorem discard (first : Apart body) : Apart (Functor.discard body) := by
  intro world
  have ends := first world
  unfold Task.Ends at ends ⊢
  rw [Task.discard_run]
  cases ran : body world <;> rw [ran] at ends <;> exact ends

theorem attempt (first : Apart body) : Apart (Task.attempt body) :=
  fun world => (first world).attempt.weaken fun _ _ ⟨_, _, same⟩ => same

theorem ensuring {finish : World → World} (first : Apart body)
    (last : ∀ world, (finish world).core = world.core) : Apart (Task.ensuring body finish) :=
  fun world => .ensuring ((first world).weaken fun _ after same => (last after).trans same)

theorem ofOutcome (outcome : Except Interrupt α) : Apart (Task.ofOutcome outcome) := by
  cases outcome with
  | ok value => exact pure value
  | error interrupt => exact throw interrupt

theorem exec (first : Apart body) (world : World) : (body.exec world).core = world.core := (first world).exec

/-- What the provider notes of its services is apart from its rows. -/
theorem onProvider {body : Task Provider α}
    (ends : ∀ provider, body.Ends provider fun _ after => after.store = provider.store) :
    Apart (World.onProvider body) := by
  intro world
  have ends := ends world.provider
  unfold Task.Ends at ends ⊢
  unfold World.onProvider Task.within
  cases ran : body world.provider <;> rw [ran] at ends <;> simp only [core, ends]

theorem leads (first : Apart body) (stands : world.Stands unsignalled) :
    body.Ends world fun _ after => Leads unsignalled [] world after :=
  (first world).weaken fun _ _ same => .of_core stands same

end Apart

/-! ## Lookups -/

/-- What a lookup gives is held. -/
def got : Except Interrupt ThingId → List ThingId
  | .ok id => [id]
  | .error _ => []

/-- Looking up what is no entity, in a cache apart from those of entities. -/
theorem apart_lookup_ends {κ : Type} [DecidableEq κ] {view : CacheView World κ ThingId} {key : κ}
    {make : Task World ThingId} (stands : world.Stands unsignalled)
    (apart : ∀ cache world, (view.set cache world).core = world.core)
    (note : view.note = World.note) (alive : view.alive = World.alive) (hold : view.hold = World.hold)
    (letGo : view.letGo = reap)
    (makes : ∀ mid, Leads unsignalled [] world mid →
      make.Ends mid fun outcome last => Leads unsignalled (got outcome) world last) :
    (view.lookup mutatorThread key make).Ends world
      fun outcome after => Leads unsignalled (got outcome) world after := by
  have store (notes : List (Note κ)) (cache : Cache κ ThingId) (world : World) :
      (view.store notes cache world).core = world.core := by
    rw [CacheView.store, note]
    exact apart cache world
  refine CacheView.lookup_ends (fun value among live => ?_) (fun interrupt notes cache _ _ => ?_)
    (fun notes cache _ _ _ _ => makes _ (.of_core stands (store notes cache world)))
    (fun value last leads => ?_) (fun interrupt last leads => ?_)
  · have same := store [.hit] (view.get world) world
    have stored := Leads.of_core stands same
    have live : (view.store [.hit] (view.get world) world).alive value = true := by
      rw [alive] at live
      rw [World.alive, show (view.store [.hit] (view.get world) world).heap = world.heap from
        congrArg (·.heap) same]
      exact live
    rw [hold]
    exact stored.trans (.hold stored.stands live)
  · exact .of_core stands (store notes cache world)
  · have stored := Leads.of_core leads.stands (store ((view.get last).settle (view.alive last) key value).2.1
      ((view.get last).settle (view.alive last) key value).2.2 last)
    have went := stored.trans (.reaped stored.stands (reap_reaped
      ((view.get last).settle (view.alive last) key value).1.toList _))
    have both := leads.trans went
    rw [CacheView.settle, letGo]
    exact both
  · have both := leads.trans (.of_core leads.stands (apart ((view.get last).abandon key) last))
    exact both

/-! ## Encodings and native descriptors -/

theorem encoding_ends (stands : world.Stands unsignalled) (number : Int32) :
    (encoding number).Ends world fun outcome after => Leads unsignalled (got outcome) world after := by
  refine apart_lookup_ends stands (fun _ _ => rfl) rfl rfl rfl rfl fun mid leads => ?_
  have fits : mid.Fits {} (.encoding number (.blank 1 [])) := by
    refine ⟨fun other among => ?_, (nomatch ·, ·), (nomatch ·, ·), fun _ _ => (nomatch ·)⟩
    obtain ⟨memo, isKept, -⟩ := List.mem_flatMap.mp among
    obtain ⟨index, isMemo⟩ := SlotTable.mem_kept.mp isKept
    rw [memo?_blank] at isMemo
    cases isMemo
  have both := leads.trans (.add leads.stands fits)
  exact both

/-- Looking for the innermost scope. -/
theorem apart_currentLifespan : Apart currentLifespan := by
  intro world
  have set (cache : Cache Address Lifetime.LifespanId) (world : World) :
      (lifespanView.set cache world).core = world.core := by
    simp only [lifespanView, core, Option.map_map]
    rfl
  have built (notes : List (Note Address)) (cache : Cache Address Lifetime.LifespanId) :
      (onLedger (Task.lift fun ledger =>
        ledger.addLifespan world.provider.scope.1 world.provider.scope.2)).Ends
        (lifespanView.store notes cache world) fun _ after => after.core = world.core :=
    (Apart.onLedger _ _).weaken fun _ _ same => same.trans (set cache world)
  refine .next (Task.get_run world) (CacheView.lookup_ends (fun _ _ _ => set _ world)
    (fun _ _ _ _ _ => set _ world) (fun notes cache _ _ _ _ => built notes cache)
    (fun _ last same => ?_) (fun _ last same => ?_)) <;> exact (set _ last).trans same

theorem apart_readNative (address : Address) : Apart (readNative address) :=
  .bind .get fun _ => .bind (.ofOutcome _) fun _ => .bind (.ofOutcome _) fun _ =>
    .bind (.ofOutcome _) fun _ => .bind (.ofOutcome _) fun _ => .pure _

/-- Taking a reference over makes a descriptor. -/
theorem adopt_ends (address : Address) (world : World) :
    (adopt address).Ends world fun outcome after => after.core = world.core ∧
      ∀ thing, outcome = .ok thing → ∃ descriptor, thing = .descriptor descriptor := by
  have read (guard : Lifetime.GuardId) : Apart (do
      discard (onLedger (Ledger.pin mutatorThread guard))
      Task.ensuring (readNative address) (Task.exec (onLedger (Ledger.unpin mutatorThread guard)))) :=
    .bind (.discard (.onLedger _)) fun _ => .ensuring (apart_readNative address) (Apart.onLedger _).exec
  refine (apart_currentLifespan world).bind (fun lifespan one same => ?_) (fun _ _ same => ⟨same, by simp⟩)
  refine .next (Task.get_run one) ((Apart.onLedger _ one).bind (fun guard two same' => ?_)
    (fun _ _ same' => ⟨same'.trans same, by simp⟩))
  refine ((read guard).attempt two).bind (fun contents three same'' => ?_)
    (fun _ _ same'' => ⟨same''.trans (same'.trans same), by simp⟩)
  have before := same''.trans (same'.trans same)
  cases contents with
  | ok contents => exact .pure ⟨before, fun thing isThing => ⟨_, (Except.ok.inj isThing).symm⟩⟩
  | error interrupt =>
    refine (Apart.onLedger _ three).bind (fun _ four last => ?_) (fun _ _ last => ⟨last.trans before, by simp⟩)
    exact ⟨last.trans before, by simp⟩

theorem fits_descriptor (world : World) (cascade : Cascade) (descriptor : Descriptor) :
    world.Fits cascade (.descriptor descriptor) :=
  ⟨(nomatch ·, ·), (nomatch ·, ·), (nomatch ·, ·), fun _ _ => (nomatch ·)⟩

theorem nativeDescriptor_ends (stands : world.Stands unsignalled) (address : Address) :
    (nativeDescriptor address).Ends world fun outcome after => Leads unsignalled (got outcome) world after := by
  refine .next (Task.get_run world) ?_
  have found : (descriptorView.lookup mutatorThread address (construct (adopt address))).Ends world
      fun outcome after => Leads unsignalled (got outcome) world after := by
    refine apart_lookup_ends stands (fun _ _ => rfl) rfl rfl rfl rfl fun mid leads => ?_
    refine (adopt_ends address mid).bind ?_ fun _ last same => leads.trans (.of_core leads.stands same.1)
    rintro thing last ⟨same, isDescriptor⟩
    obtain ⟨descriptor, rfl⟩ := isDescriptor thing rfl
    have adopted := leads.trans (.of_core leads.stands same)
    exact adopted.trans (.add adopted.stands (fits_descriptor last {} descriptor))
  refine found.bind (fun id mid leads => ?_) fun _ _ leads => leads
  dsimp only
  split
  · exact .next (Task.modify_run _ mid) (.pure (leads.trans (.of_core leads.stands rfl)))
  · exact .pure leads

end CatalogReplica.Catalog.World
