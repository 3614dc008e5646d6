import CatalogReplica.Proofs.Native.Unreleased

/-!
# What goes on

Things come and go, but none turns into another one, and types keep their columns while they
live.  Only a read of the columns of a type makes native descriptors, and only then may a type
keep others; every other operation leaves both as they are.

* `World.Persists`: what stays of things, whatever enters the cache of native descriptors.
* `World.Continues`: what such an operation does.
* `World.Alters.continues`, `World.Edits.continues`, `World.Batched.continues`: lookups, reads and
  signals do so.
* `Operation.apply_continues`: so does every operation that does not write rows or read such
  columns.
-/

namespace CatalogReplica.Catalog

open Coherence (Batch Gates Memo)
open Identity (CacheView Note)
open Lifetime (Happening Ledger)
open Storage (Memory)

/-! ## What is written -/

namespace Provider

/-- The memory, and where the record descriptors are in it. -/
def contents (provider : Provider) : Memory × Assoc Int32 Address × Assoc Int32 Address :=
  (provider.memory, provider.records, provider.extraRecords)

theorem contents_of {before after : Provider} (native : after.native = before.native) (store : after.store = before.store) :
    after.contents = before.contents :=
  Prod.ext (congrArg (·.memory) store :) (Prod.ext (congrArg (·.records) native :) (congrArg (·.extraRecords) native :))

theorem contents_notice (provider : Provider) (happening : Happening) :
    (provider.notice happening).contents = provider.contents := by
  unfold notice
  split <;> rfl

theorem contents_notices (happenings : List Happening) (provider : Provider) :
    (happenings.foldl notice provider).contents = provider.contents := by
  induction happenings generalizing provider with
  | nil => rfl
  | cons happening happenings ih => exact (ih _).trans (provider.contents_notice happening)

theorem contents_lookupRecord (typmod : Int32) (provider : Provider) :
    (lookupRecord typmod).Ends provider fun _ after => after.contents = provider.contents := by
  refine .next (Task.get_run provider) ?_
  cases provider.serve .record () with
  | error fault => exact rfl
  | ok _ =>
    refine .next rfl ?_
    split
    · exact rfl
    · split <;> exact rfl

end Provider

namespace World

variable {α : Type} {base before world mid after : World} {got got' start : List ThingId} {trips : Batch}
  {written : Memory × Assoc Int32 Address × Assoc Int32 Address}

theorem contents_setLedger (ledger : Ledger) (world : World) :
    (setLedger ledger world).provider.contents = world.provider.contents := Provider.contents_notices _ _

theorem contents_onLedger (body : Task Ledger α) : (onLedger body).Keeps fun world => world.provider.contents = written := by
  intro world same
  unfold Task.Ends onLedger Task.within
  cases body world.ledger <;> exact (contents_setLedger _ world).trans same

theorem contents_dropGuard (thing : Thing) (world : World) :
    (dropGuard thing world).provider.contents = world.provider.contents := by
  unfold dropGuard
  split
  · exact (contents_onLedger _ world rfl).exec
  · rfl

theorem contents_reap (ids : List ThingId) (world : World) :
    (reap ids world).provider.contents = world.provider.contents := by
  suffices within : ∀ steps, (reapWithin steps ids world).provider.contents = world.provider.contents from within _
  intro steps
  induction steps generalizing ids world with
  | zero => rfl
  | succ steps ih =>
    cases ids with
    | nil => rfl
    | cons id ids =>
      unfold reapWithin
      split
      · exact ih ids world
      · split
        · exact ih ids world
        · exact (ih _ _).trans (contents_dropGuard _ _)

theorem contents_releaseAll (ids : List ThingId) (world : World) :
    (ids.foldl (fun world id => release id world) world).provider.contents = world.provider.contents := by
  induction ids generalizing world with
  | nil => rfl
  | cons id ids ih => exact (ih _).trans (contents_reap [id] _)

theorem Shelf.provider_set {κ : Type} {view : CacheView World κ ThingId} (shelf : Shelf view) (cache : Identity.Cache κ ThingId)
    (world : World) : (view.set cache world).provider = world.provider := by cases shelf <;> rfl

theorem Shelf.provider_store {κ : Type} {view : CacheView World κ ThingId} (shelf : Shelf view) (notes : List (Note κ))
    (cache : Identity.Cache κ ThingId) (world : World) : (view.store notes cache world).provider = world.provider := by
  cases shelf <;> rfl

/-- Neither lookups nor reads write anything. -/
theorem Edit.contents (edit : Edit got world got' after) : after.provider.contents = world.provider.contents := by
  have held (ids : List ThingId) (world : World) :
      (ids.foldl (fun world id => World.hold id world) world).provider.contents = world.provider.contents := by
    rw [foldl_hold]
  -- An edit that asks the provider keeps its contents, and the rest do not reach it.
  cases edit with
  | asked provider native store => exact Provider.contents_of native store
  | marked id => exact contents_reap _ _
  | kept id index cell other => exact contents_reap _ _
  | served id spec peeked other => exact held _ world
  | released id => exact contents_reap [id] _
  | sought shelf _ thread key => exact congrArg _ (shelf.provider_store _ _ world)
  | found shelf _ hit =>
    obtain ⟨-, rfl⟩ := Prod.mk.inj hit
    exact congrArg _ (shelf.provider_store _ _ world)
  | made shelf _ fresh _ =>
    unfold CacheView.settle
    rw [shelf.letGo]
    exact (contents_reap _ _).trans (congrArg _ (shelf.provider_store _ _ _))
  | abandoned shelf _ key => exact congrArg _ (shelf.provider_set _ world)
  | got? shelf _ key =>
    unfold CacheView.get?
    simp only [shelf.hold]
    exact (held _ _).trans (congrArg _ (shelf.provider_store _ _ world))
  | evicted shelf _ key =>
    unfold CacheView.evict
    rw [shelf.hold]
    exact (congrArg _ (shelf.provider_store _ _ _)).trans (held _ world)
  | dismissed address =>
    refine (contents_releaseAll _ _).trans ?_
    unfold CacheView.evict
    exact (congrArg _ (Shelf.descriptors.provider_store _ _ _)).trans (held _ world)
  | purged shelf => exact congrArg _ (shelf.provider_store _ _ world)
  | relieved shelf =>
    unfold CacheView.relieve
    rw [shelf.letGo]
    exact (contents_reap _ _).trans (congrArg _ (shelf.provider_set _ world))
  | _ => rfl

theorem provider_find (address : Address) (world : World) : (lifespanView.get? address world).2.provider = world.provider := by
  unfold CacheView.get?
  generalize (lifespanView.get world).get? (lifespanView.alive world) address = result
  obtain ⟨_ | _, notes, cache⟩ := result <;> rfl

theorem provider_forget (address : Address) (world : World) :
    (lifespanView.evict address world).2.provider = world.provider := by
  unfold CacheView.evict
  generalize (lifespanView.get world).evict (lifespanView.alive world) address = result
  obtain ⟨_ | _, notes, cache⟩ := result <;> rfl

/-! ## Going on -/

/-- Things that are there were there and kept the same columns, or are new and keep none.  Nothing
    was written, and no cell was reset. -/
structure Persists (before after : World) : Prop where
  next : before.nextThing ≤ after.nextThing
  things : ∀ id thing', after.thing? id = some thing' →
    (∃ thing, before.thing? id = some thing ∧ thing.Same thing' ∧ ∀ memo, thing'.Describes memo ↔ thing.Describes memo) ∨
      before.nextThing ≤ id ∧ id < after.nextThing ∧ ∀ memo, ¬ thing'.Describes memo
  contents : after.provider.contents = before.provider.contents
  gates : before.gates.Onward after.gates

/-- Nor did a native descriptor enter the cache. -/
structure Continues (before after : World) : Prop extends Persists before after where
  entries : after.caches.descriptors.table ⊆ before.caches.descriptors.table

namespace Persists

theorem trans (first : Persists before mid) (second : Persists mid after) : Persists before after where
  next := Nat.le_trans first.next second.next
  things id thing'' found := by
    obtain ⟨thing', there, same', describes'⟩ | ⟨new, known, idle⟩ := second.things id thing'' found
    · obtain ⟨thing, was, same, describes⟩ | ⟨new, known, idle⟩ := first.things id thing' there
      · exact .inl ⟨thing, was, same.trans same', fun memo => (describes' memo).trans (describes memo)⟩
      · exact .inr ⟨new, Nat.lt_of_lt_of_le known second.next, fun memo its => idle memo ((describes' memo).mp its)⟩
    · exact .inr ⟨Nat.le_trans first.next new, known, idle⟩
  contents := second.contents.trans first.contents
  gates := first.gates.trans second.gates

/-- What lives was there, or is new. -/
theorem was_alive (persists : Persists world after) {id : ThingId} (known : id < world.nextThing) (live : after.alive id = true) :
    world.alive id = true := by
  obtain ⟨thing', found⟩ := alive_iff.mp live
  obtain ⟨thing, was, -⟩ | ⟨new, -⟩ := persists.things id thing' found
  · exact alive_iff.mpr ⟨thing, was⟩
  · exact absurd known (Nat.not_lt.mpr new)

end Persists

theorem Alters.continues (alters : Alters got world after) (contents : after.provider.contents = world.provider.contents) :
    Continues world after where
  next := alters.next
  things id thing' found := by
    obtain ⟨thing, was, becomes⟩ | ⟨fresh, rfl, more⟩ := alters.things id thing' found
    · exact .inl ⟨thing, was, becomes.same, becomes.describes⟩
    · exact .inr ⟨Nat.le_refl _, more, fresh.describes⟩
  entries := alters.descriptors
  contents := contents
  gates := alters.grows.onward

namespace Continues

theorem refl (world : World) : Continues world world := (Alters.refl [] world).continues rfl

theorem trans (first : Continues before mid) (second : Continues mid after) : Continues before after :=
  { first.toPersists.trans second.toPersists with entries := fun _ among => first.entries (second.entries among) }

theorem reap (continues : Continues before world) (ids : List ThingId) : Continues before (World.reap ids world) :=
  continues.trans (((Alters.refl [] world).reap ids).continues (contents_reap ids world))

/-- Things, caches and gates are the same. -/
theorem of_beside (beside : Beside world after) (contents : after.provider.contents = world.provider.contents) :
    Continues world after := (beside.alters : Alters [] world after).continues contents

theorem onLedger (continues : Continues before world) (body : Task Ledger α) :
    (World.onLedger body).Ends world fun _ after => Continues before after :=
  ((beside_onLedger body world ⟨rfl, rfl, rfl, rfl⟩).both (contents_onLedger body world rfl)).weaken
    fun _ _ ⟨beside, contents⟩ => continues.trans (of_beside beside contents)

/-- Gates are detached or tripped. -/
theorem of_gates {gates : Gates} (onward : world.gates.Onward gates) : Continues world { world with gates } :=
  { refl world with gates := onward }

end Continues

theorem Edits.continues (edits : Edits start base got world) : Continues base world := by
  induction edits with
  | refl => exact .refl base
  | step _ edit ih => exact ih.trans (edit.alters.continues edit.contents)

theorem Batched.continues (batched : Batched start base trips got world) : Continues base world := by
  induction batched with
  | refl => exact .refl base
  | step _ edit ih => exact ih.trans (edit.alters.continues edit.contents)
  | detached _ gate ih => exact ih.trans (.of_gates (Batch.onward_add _ gate _))
  | tripped _ ih => exact ih.trans (.of_gates (Batch.onward_commit _ _))

/-! ## Bursts -/

theorem continues_teardown (address : Address) (deleted : Bool) : (teardown address deleted).Keeps (Continues base) := by
  refine Task.Keeps.bind (Task.Keeps.lift fun world continues => ?_) fun lifespan => ?_
  · have same {after : World} (beside : Beside world after) (provider : after.provider = world.provider) :
        Continues base after := continues.trans (.of_beside beside (congrArg _ provider))
    have nothing : Beside world world := ⟨rfl, rfl, rfl, rfl⟩
    cases deleted with
    | false => exact same (nothing.find address) (provider_find address world)
    | true => exact same (nothing.forget address) (provider_forget address world)
  · cases lifespan with
    | none => exact .pure 0
    | some lifespan => exact fun _ continues => continues.onLedger _

theorem continues_drain : drain.Keeps (Continues base) := fun world continues =>
  .next (Task.get_run world) (continues.onLedger _)

theorem continues_tearDownAll (teardowns : List (Address × Bool)) : (tearDownAll teardowns).Keeps (Continues base) := by
  intro world continues
  unfold tearDownAll
  split
  · exact continues
  · refine (Task.Keeps.sum (fun entry _ => continues_teardown entry.1 entry.2) world continues).bind ?_ fun _ _ ended => ended
    intro _ torn continues
    refine .next (Task.lift_run _ torn) (.next (Task.lift_run _ _) ?_)
    have swept : Batched [] torn {} [] (evictDescriptors (tripStale torn).2.releasedAddresses (tripStale torn).2).2 :=
      (Batched.refl.tripStale).edits (Edits.refl.evictDescriptors _)
    exact continues.trans swept.continues

theorem continues_dispatch (signals : List Signal) : (dispatch signals).Keeps (Continues base) := by
  intro world continues
  refine .next (Task.lift_run _ world) (.next (Task.lift_run _ _) (.next (Task.lift_run _ _) ?_))
  have delivered : Batched [] world {} [] (evictAll (collectAll signals world).1.evictions
      (tripBatch (collectAll signals world).1.trips (collectAll signals world).2).2).2 :=
    (Batched.refl.collectAll signals).tripBatch.edits (Edits.refl.evictAll _)
  refine (continues_tearDownAll _ _ (continues.trans delivered.continues)).bind (fun _ torn continues => ?_)
    fun _ _ ended => ended
  refine (continues_drain torn continues).bind (fun _ drained continues => ?_) fun _ _ ended => ended
  exact .next (Task.modify_run _ drained) (continues.trans (.of_beside ⟨rfl, rfl, rfl, rfl⟩ rfl))

/-! ## The end of a catalog -/

theorem Continues.closeIfUnheld (continues : Continues base world) : Continues base (closeIfUnheld world) := by
  unfold World.closeIfUnheld
  split
  · exact continues
  · have blank : Continues world { world with caches := .blank world.config } :=
      ((Alters.blank world.config world : Alters [] world _)).continues rfl
    exact (((continues.trans blank).reap _).onLedger _).exec

end World

namespace Operation

open World (Beside Continues Edits)

variable {world : World}

/-- The operation writes rows or has the provider serve others. -/
def Provides : Operation → Prop
  | .put _ | .remove _ | .putEncoding _ | .intern _ _ | .setScope _ _ => True
  | _ => False

/-- The operation reads the columns of a type. -/
def ReadsColumns (world : World) : Operation → Prop
  | .read id field _ => (world.thing? id).bind (Accessor.ofName? · field) = some .typeDescriptor
  | _ => False

/-- Every operation but these leaves native descriptors and the columns of types as they are. -/
theorem apply_continues {operation : Operation} (provides : ¬ operation.Provides) (reads : ¬ operation.ReadsColumns world) :
    Continues world (operation.apply world) := by
  have edits (ends : operation.task.Ends world fun _ after => ∃ got, Edits [] world got after) :
      Continues world (operation.apply world) :=
    have ⟨got, edits⟩ := ends.exec
    edits.continues
  have aside {after : World} (beside : Beside world after) (provider : after.provider = world.provider) :
      Continues world after := .of_beside beside (congrArg _ provider)
  cases operation with
  | put | remove | putEncoding | intern | setScope => exact absurd trivial provides
  | openSession =>
    have opens : World.openSession.Ends world fun _ after => Continues world after :=
      openSession_ends (aside ⟨rfl, rfl, rfl, rfl⟩ rfl) fun _ _ _ _ => aside ⟨rfl, rfl, rfl, rfl⟩ rfl
    exact opens.exec
  | closeSession =>
    refine (closeSession_ends (fun _ => .refl world) fun session _ => Continues.closeIfUnheld (aside ?_ rfl)).exec
    exact ⟨rfl, rfl, rfl, rfl⟩
  | dropCatalog =>
    have dropped : Continues world { world with catalogHeld := false } := aside ⟨rfl, rfl, rfl, rfl⟩ rfl
    exact dropped.closeIfUnheld
  | lookup target => exact edits (.discard (looks_edits target world))
  | read id field access =>
    refine edits (read_ends ⟨[], .refl⟩ fun accessor named => ?_)
    -- A read that decodes a record is excluded, and every other one is an edit.
    have other : accessor ≠ .typeDescriptor := by
      rintro rfl
      exact reads named
    refine (Edits.read id access other [] world .refl).weaken fun outcome after edits => ?_
    cases outcome <;> exact ⟨_, edits⟩
  | drop id =>
    have unheld : Continues world { world with held := world.held.erase id } := aside ⟨rfl, rfl, rfl, rfl⟩ rfl
    exact unheld.reap [id]
  | trip id =>
    exact (trip_ends (.refl world) fun gate _ => .of_gates (Coherence.Gates.onward_trip world.gates gate)).exec
  | pin id =>
    exact (pin_ends (.refl world) (fun _ _ => (Continues.refl world).onLedger _)
      (fun _ _ continues => continues.trans (.of_beside ⟨rfl, rfl, rfl, rfl⟩ rfl)) fun _ _ continues => continues).exec
  | unpin id =>
    refine (unpin_ends (.refl world) (fun _ _ => (Continues.refl world).onLedger _) (fun after continues => ?_)
      fun _ _ continues => continues).exec
    have unheld : Continues world { after with held := after.held.erase id } :=
      continues.trans (.of_beside ⟨rfl, rfl, rfl, rfl⟩ rfl)
    exact unheld.reap [id]
  | dispatch signals => exact (Task.Ends.discard (World.continues_dispatch signals world (.refl world))).exec
  | drain => exact (Task.Ends.discard (World.continues_drain world (.refl world))).exec
  | purge => exact edits (.discard (.lift ⟨[], Edits.refl.purge⟩))
  | relieve => exact edits (.discard (.lift ⟨[], Edits.refl.relieve⟩))
  | lifespan address =>
    have nothing : Beside world world := ⟨rfl, rfl, rfl, rfl⟩
    exact aside (nothing.find address) (World.provider_find address world)
  | currentLifespan =>
    have finds : World.currentLifespan.Keeps (Continues world) := World.currentLifespan_keeps
      (fun _ _ continues => continues.trans (.of_beside ⟨rfl, rfl, rfl, rfl⟩ rfl))
      fun _ _ continues => continues.trans (.of_beside ⟨rfl, rfl, rfl, rfl⟩ (World.contents_setLedger _ _))
    exact (Task.Ends.discard (finds world (.refl world))).exec

end Operation

end CatalogReplica.Catalog
