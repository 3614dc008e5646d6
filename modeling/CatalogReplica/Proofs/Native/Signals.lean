import CatalogReplica.Proofs.Native.Carrying

/-!
# Bursts, reclamation and clean-up

Collecting the signals of a burst, tripping, evicting and reclaiming keep what their few
changes keep.  What a teardown and a drain keep is up to whoever keeps it.

* `World.Carried.collectAll`: the signals of a burst are collected.
* `World.Carried.commit`: a cascade is carried out.
* `World.Carried.purge`, `World.Carried.relieve`: clean-up.
-/

namespace CatalogReplica.Catalog.World

open Coherence (Batch)
open Identity (Cache CacheView)

variable {α : Type} {holds : List ThingId → World → Prop} {got : List ThingId} {world : World} {id : ThingId}
  {state : Cascade × World}

theorem aside_unindexTypmod (key : EntityKey) (world : World) : Aside world (unindexTypmod key world) := by
  unfold unindexTypmod
  split
  · exact .refl world
  · split
    · exact .refl world
    · split <;> exact ⟨fun _ => rfl, rfl⟩

/-- Whatever each step keeps of the state, all of them keep. -/
theorem foldl_keeps {f : Cascade × World → α → Cascade × World} {keeps : World → Prop} (list : List α)
    (step : ∀ state one, keeps state.2 → keeps (f state one).2) (before : keeps state.2) :
    keeps (list.foldl f state).2 := by
  induction list generalizing state with
  | nil => exact before
  | cons one list ih => exact ih (step state one before)

/-- Whatever each of several counted steps keeps, all of them keep. -/
theorem foldl_total_keeps {step : α → World → Nat × World} {keeps : World → Prop} (list : List α) (total : Nat)
    (each : ∀ one world, keeps world → keeps (step one world).2) (before : keeps world) :
    keeps (list.foldl (fun (total, world) one =>
      let (n, world) := step one world
      (total + n, world)) (total, world)).2 := by
  induction list generalizing total world with
  | nil => exact before
  | cons one list ih => exact ih _ (each one world before)

namespace Carried

variable (carried : Carried holds)

include carried

theorem gates (gates : Coherence.Gates) (before : holds got world) : holds got { world with gates } :=
  have aside : Aside world { world with gates } := ⟨fun _ => rfl, rfl⟩
  carried.aside aside before

/-! ## Collecting -/

theorem find (kind : EntityClass) (key : EntityKey) (before : holds got world) : holds got (find kind key world).2 :=
  carried.releaseAll _ ((ordinary_entityView kind).toTended.get? carried key before)

theorem findAll (kind : EntityClass) (keys : List EntityKey) (before : holds got world) :
    holds got (findAll kind keys world).2 := by
  induction keys generalizing world with
  | nil => exact before
  | cons key keys ih => exact ih (carried.find kind key before)

theorem typesOf (oid : Oid) (before : holds got world) : holds got (typesOf oid world).2 :=
  carried.findAll .type (world.typeKeys oid) before

theorem tripThing (id : ThingId) (before : holds got state.2) : holds got (tripThing id state).2 := by
  obtain ⟨cascade, world⟩ := state
  unfold World.tripThing
  dsimp only
  split
  · exact before
  · exact carried.gates _ before

theorem invalidateAlone (change : Change) (id : ThingId) (before : holds got state.2) :
    holds got (invalidateAlone change id state).2 := by
  have tripped := carried.tripThing id before
  unfold World.invalidateAlone
  dsimp only
  split <;> exact tripped

theorem invalidateTypes (oids : List Oid) (cascade : Cascade) (before : holds got world) :
    holds got (invalidateTypes oids (cascade, world)).2 := by
  induction oids generalizing cascade world with
  | nil => exact before
  | cons oid oids ih =>
    unfold World.invalidateTypes
    dsimp only
    refine ih _ (foldl_keeps _ (fun state id before => carried.invalidateAlone .updated id before) ?_)
    exact carried.typesOf oid before

theorem invalidateRoutines (oids : List Oid) (cascade : Cascade) (before : holds got world) :
    holds got (invalidateRoutines oids (cascade, world)).2 := by
  unfold World.invalidateRoutines
  dsimp only
  refine foldl_keeps _ (fun _ id before => carried.invalidateAlone .updated id before) ?_
  exact carried.findAll .routine _ before

theorem invalidate (change : Change) (id : ThingId) (before : holds got state.2) :
    holds got (invalidate change id state).2 := by
  have tripped := carried.tripThing id before
  unfold World.invalidate
  split
  · exact before
  · next entity _ =>
    split
    · have types := carried.invalidateTypes entity.ties.types (World.tripThing id state).1
        (carried.onTies id Ties.withoutTypes tripped)
      dsimp only
      split
      · exact types
      · exact carried.onTies id _ types
    · have routines := carried.invalidateRoutines entity.ties.routines (World.tripThing id state).1
        (carried.onTies id Ties.withoutRoutines tripped)
      dsimp only
      split <;> exact routines
    · exact carried.invalidateAlone change id before

theorem targets (kind : EntityClass) (object : Oid) (before : holds got world) :
    holds got (targets kind object world).2 := by
  unfold World.targets
  dsimp only
  split
  · split <;> exact carried.findAll _ _ before
  · exact before

theorem collectRow (kind : EntityClass) (object : Oid) (change : Change) (before : holds got state.2) :
    holds got (collectRow kind object change state).2 := by
  unfold World.collectRow
  dsimp only
  exact foldl_keeps _ (fun _ id before => carried.invalidate _ id before) (carried.targets kind object before)

theorem collect (signal : Signal) (cascade : Cascade) (before : holds got world) :
    holds got (collect signal (cascade, world)).2 := by
  cases signal with
  | row classOid object change =>
    unfold World.collect
    dsimp only
    split
    · exact carried.collectRow _ object change before
    · exact before
  | scope address deleted => exact before
  | all => exact foldl_keeps _ (fun _ kind before => carried.collectRow kind _ .updated before) before

theorem collectAll (signals : List Signal) (before : holds got world) : holds got (collectAll signals world).2 :=
  foldl_keeps _ (fun state signal before => carried.collect signal state.1 (carried.count .dispatchSignal before)) before

/-! ## Carrying out -/

theorem tripBatch (batch : Batch) (before : holds got world) : holds got (tripBatch batch world).2 :=
  carried.gates _ before

theorem evict (key : EntityKey) (before : holds got world) : holds got (evict key world).2 := by
  unfold World.evict
  split
  · exact before
  · next kind _ =>
    have indexed : holds got (if kind = .type then unindexTypmod key world else world) := by
      split
      · exact carried.aside (aside_unindexTypmod key world) before
      · exact before
    dsimp only
    generalize (if kind = .type then unindexTypmod key world else world) = world at indexed
    have evicted := (ordinary_entityView kind).toTended.evict carried key indexed
    generalize (entityView kind).evict key world = left at evicted
    obtain ⟨_ | id, after⟩ := left
    · exact evicted
    · exact carried.release (carried.onTable id _ evicted)

theorem evictAll (keys : List EntityKey) (before : holds got world) : holds got (evictAll keys world).2 := by
  induction keys generalizing world with
  | nil => exact before
  | cons key keys ih => exact ih (carried.evict key before)

theorem tripStale (before : holds got world) : holds got (tripStale world).2 :=
  carried.tripBatch _ (foldl_keeps _ (fun _ id before => carried.tripThing id before) before)

theorem evictDescriptors (addresses : List Address) (before : holds got world) :
    holds got (evictDescriptors addresses world).2 := by
  induction addresses generalizing world with
  | nil => exact before
  | cons address addresses ih =>
    exact ih (carried.releaseAll _ (tended_descriptorView.evict carried address before))

/-- Scopes are torn down as far as one goes; what holds then is kept by what follows. -/
theorem tearDownAll {teardowns : List (Address × Bool)}
    (torn : (Task.sum (fun entry => teardown entry.1 entry.2) teardowns).Ends world (After holds (fun _ => []) got)) :
    (tearDownAll teardowns).Ends world (After holds (fun _ => []) got) := by
  unfold World.tearDownAll
  cases teardowns with
  | nil => exact torn
  | cons entry teardowns =>
    rw [List.isEmpty_cons, if_neg Bool.false_ne_true]
    refine torn.bind (fun released after held => ?_) fun _ _ after => after
    refine .next (Task.lift_run _ after) (.next (Task.lift_run _ _) ?_)
    exact carried.evictDescriptors _ (carried.tripStale held)

/-- A cascade is carried out: what holds before its teardowns leads to what holds after. -/
theorem commit {holds' : List ThingId → World → Prop} (carried' : Carried holds') (drain : Minds holds' drain)
    (cascade : Cascade) (before : holds got world)
    (torn : ∀ world, holds got world →
      (Task.sum (fun entry => teardown entry.1 entry.2) cascade.teardowns).Ends world (After holds' (fun _ => []) got)) :
    (commit cascade).Ends world (After holds' (fun _ => []) got) := by
  refine .next (Task.lift_run _ world) (.next (Task.lift_run _ _) ?_)
  have evicted := carried.evictAll cascade.evictions (carried.tripBatch cascade.trips before)
  refine (carried'.tearDownAll (torn _ evicted)).bind (fun released after held => ?_) fun _ _ after => after
  refine drain.next held fun drained last held => ?_
  exact carried'.tally _ held

/-- A burst keeps what its teardowns and its drain keep. -/
theorem dispatch (torn : ∀ address deleted, Minds holds (teardown address deleted)) (drain : Minds holds drain)
    (signals : List Signal) : Minds holds (dispatch signals) := by
  intro got world before
  refine .next (Task.lift_run _ world) ?_
  refine carried.commit carried drain _ (carried.collectAll signals before) fun world before => ?_
  have sum (teardowns : List (Address × Bool)) :
      Minds holds (Task.sum (fun entry => teardown entry.1 entry.2) teardowns) :=
    .sum fun entry _ => torn entry.1 entry.2
  exact sum _ got world before

/-! ## Clean-up -/

theorem purge (before : holds got world) : holds got (purge world).2 := by
  have entities := foldl_total_keeps EntityClass.all 0
    (fun kind _ => (ordinary_entityView kind).toTended.purge carried) before
  unfold World.purge
  generalize EntityClass.all.foldl _ _ = state at entities ⊢
  exact ordinary_encodingView.toTended.purge carried (tended_descriptorView.purge carried entities)

theorem relieve (before : holds got world) : holds got (relieve world).2 := by
  have entities := foldl_total_keeps EntityClass.all 0
    (fun kind _ => (ordinary_entityView kind).toTended.relieve carried) before
  unfold World.relieve
  generalize EntityClass.all.foldl _ _ = state at entities ⊢
  exact ordinary_encodingView.toTended.relieve carried (tended_descriptorView.relieve carried entities)

end Carried

end CatalogReplica.Catalog.World
