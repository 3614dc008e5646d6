import CatalogReplica.Proofs.Catalog.Apart
import CatalogReplica.Proofs.Catalog.Evicting

/-!
# Bursts that are delivered

A burst takes effect phase by phase: gates are tripped, keys leave their caches, scopes are
torn down, and types whose columns went with a scope are tripped.  What is left is a catalog
at rest, for which the rows that the burst was about are signalled.

* `tripStale_clearing`: what follows a scope that was torn down.
* `Lingers`: what is kept after the evictions.
* `commit_clearing`: a cascade is carried out.
* `dispatch_clearing`: a burst is delivered.
-/

namespace CatalogReplica.Catalog.World

open Identity (CacheView)
open Lifetime (Ledger)

variable {world after before : World} {cascade : Cascade} {unsignalled signalled evictions : List EntityKey}
  {id : ThingId}

/-! ## Batches -/

theorem evictions_tripThing (id : ThingId) (state : Cascade × World) :
    (tripThing id state).1.evictions = state.1.evictions := by
  obtain ⟨cascade, world⟩ := state
  unfold tripThing
  dsimp only
  split <;> rfl

/-- Things are tripped one after the other. -/
theorem tripThings_collects {owed : List (EntityClass × Oid)} (ids : List ThingId) (state : Cascade × World)
    (underway : Underway unsignalled owed state) :
    Collects unsignalled owed state (ids.foldl (fun state id => tripThing id state) state) ∧
      (ids.foldl (fun state id => tripThing id state) state).1.evictions = state.1.evictions := by
  induction ids generalizing state with
  | nil => exact ⟨.refl underway, rfl⟩
  | cons id ids inductionHypothesis =>
    have first := (tripThing_collects underway id).1
    obtain ⟨rest, same⟩ := inductionHypothesis _ first.underway
    exact ⟨first.trans rest, same.trans (evictions_tripThing id state)⟩

/-- Once its batch is tripped, a collection waits for its evictions only. -/
theorem Underway.tripped {state : Cascade × World} (underway : Underway unsignalled [] state)
    (wanes : Wanes (cascade, before) state) :
    Clearing unsignalled state.1.evictions before (tripBatch state.1.trips state.2).2 where
  sound := { underway.sound.commit with }
  fresh := underway.fresh.commit underway.sound
  entities id later found := by
    obtain ⟨entity, was, turned⟩ := wanes.entities id later found
    exact ⟨entity, was, turned.toSame, congrArg (·.memos) turned.table⟩
  gates := (Coherence.Gates.Onward.of_eq wanes.cells).trans (Coherence.Batch.onward_commit _ _)
  claims := wanes.claims
  store := wanes.store
  available := wanes.available

namespace Clearing

/-- What is at rest can be collected from. -/
theorem underway (clearing : Clearing unsignalled [] before world) : Underway unsignalled [] ({}, world) :=
  ⟨clearing.sound, clearing.fresh, fun _ _ _ among => nomatch among⟩

end Clearing

theorem Apart.clearing {α : Type} {body : Task World α} (first : Apart body) :
    body.Keeps (Clearing unsignalled evictions before) :=
  fun world clearing => (first world).weaken fun _ _ same => clearing.of_core same

/-! ## Scopes that are torn down -/

theorem core_lifespans (cache : Identity.Cache Address Lifetime.LifespanId) (world : World) :
    (lifespanView.set cache world).core = world.core := by
  simp only [lifespanView, core, Option.map_map]
  rfl

theorem core_get?_lifespans (address : Address) (world : World) :
    (lifespanView.get? address world).2.core = world.core := by
  unfold CacheView.get?
  obtain ⟨found, notes, cache⟩ := (lifespanView.get world).get? (lifespanView.alive world) address
  cases found <;> exact core_lifespans cache world

theorem core_evict_lifespans (address : Address) (world : World) :
    (lifespanView.evict address world).2.core = world.core := by
  unfold CacheView.evict
  obtain ⟨found, notes, cache⟩ := (lifespanView.get world).evict (lifespanView.alive world) address
  cases found <;> exact core_lifespans cache world

theorem apart_teardown (address : Address) (deleted : Bool) : Apart (teardown address deleted) := by
  refine .bind (fun world => .lift ?_) fun lifespan => ?_
  · cases deleted
    · exact core_get?_lifespans address world
    · exact core_evict_lifespans address world
  · cases lifespan with
    | none => exact .pure 0
    | some lifespan => exact .onLedger _

/-- Types that keep a released descriptor are tripped. -/
theorem tripStale_clearing (clearing : Clearing unsignalled [] before world) :
    Clearing unsignalled [] before (tripStale world).2 := by
  obtain ⟨collects, none⟩ := tripThings_collects ((world.liveOf .type).filter world.keepsReleased) ({}, world)
    clearing.underway
  have tripped := collects.underway.tripped collects.wanes
  rw [none] at tripped
  exact clearing.trans tripped

/-- A native descriptor leaves its cache, and may go. -/
theorem evictDescriptor_eq {address : Address} {found : Option ThingId} {notes : List (Identity.Note Address)}
    {cache : Identity.Cache Address ThingId}
    (run : world.caches.descriptors.evict world.alive address = (found, notes, cache)) :
    (descriptorView.evict address world).1.toList.foldl (fun world id => release id world)
        (descriptorView.evict address world).2
      = found.toList.foldl (fun world id => reap [id] world) (descriptorView.store notes cache world) := by
  have run' : descriptorView.evict address world = (found, descriptorView.store notes cache
      (found.toList.foldl (fun state value => hold value state) world)) := by
    unfold CacheView.evict
    rw [show descriptorView.get world = world.caches.descriptors from rfl,
      show descriptorView.alive world = world.alive from rfl, run]
    rfl
  rw [run']
  cases found with
  | none => rfl
  | some id =>
    change release id (descriptorView.store notes cache (hold id world)) = reap [id] _
    unfold release
    rw [show (descriptorView.store notes cache (hold id world)).held = id :: world.held from rfl,
      List.erase_cons_head]
    rfl

theorem evictDescriptor_reaped (address : Address) (world : World) :
    Reaped world ((descriptorView.evict address world).1.toList.foldl (fun world id => release id world)
      (descriptorView.evict address world).2) := by
  obtain ⟨found, notes, cache, run, -⟩ := world.caches.descriptors.evict_cases world.alive address
  have stored : Reaped world (descriptorView.store notes cache world) := .of_core rfl
  rw [evictDescriptor_eq run]
  cases found with
  | none => exact stored
  | some id => exact stored.trans (reap_reaped [id] _)

/-- Types are tripped, and nothing else happens. -/
theorem tripStale_gates (world : World) : ∃ gates, (tripStale world).2 = { world with gates } := by
  have tripped (ids : List ThingId) (state : Cascade × World) :
      ∃ gates, (ids.foldl (fun state id => tripThing id state) state).2 = { state.2 with gates } := by
    induction ids generalizing state with
    | nil => exact ⟨state.2.gates, rfl⟩
    | cons id ids inductionHypothesis =>
      obtain ⟨gates, same⟩ := inductionHypothesis (tripThing id state)
      refine ⟨gates, same.trans ?_⟩
      unfold tripThing
      dsimp only
      split <;> rfl
  obtain ⟨gates, same⟩ := tripped ((world.liveOf .type).filter world.keepsReleased) ({}, world)
  unfold tripStale
  dsimp only
  generalize List.foldl _ _ _ = state at same ⊢
  obtain ⟨cascade, _⟩ := state
  cases same
  exact ⟨_, rfl⟩

/-! ## After the evictions -/

/-- What a burst keeps once its entities are evicted: things go that nothing refers to, and types are
    tripped whose columns went. -/
structure Lingers (holds : World → Prop) : Prop where
  reaped : ∀ {world after}, holds world → Reaped world after → holds after
  stale : ∀ {world}, holds world → holds (tripStale world).2

theorem Clearing.lingers : Lingers (Clearing unsignalled [] before) := ⟨Clearing.reaped, tripStale_clearing⟩

namespace Lingers

variable {holds : World → Prop} (lingers : Lingers holds)

include lingers

theorem apart {α : Type} {body : Task World α} (apart : Apart body) : body.Keeps holds :=
  fun world held => (apart world).weaken fun _ _ same => lingers.reaped held (.of_core same)

theorem evictDescriptors (addresses : List Address) (held : holds world) :
    holds (World.evictDescriptors addresses world).2 := by
  induction addresses generalizing world with
  | nil => exact held
  | cons address addresses inductionHypothesis =>
    exact inductionHypothesis (lingers.reaped held (evictDescriptor_reaped address world))

theorem tearDownAll (teardowns : List (Address × Bool)) : (World.tearDownAll teardowns).Keeps holds := by
  unfold World.tearDownAll
  split
  · exact .pure _
  · refine .bind (.sum fun entry _ => lingers.apart (apart_teardown entry.1 entry.2)) fun _ => ?_
    exact .bind (.lift fun _ => lingers.stale) fun _ =>
      .bind (.lift fun _ => lingers.evictDescriptors _) fun _ => .pure _

/-- A cascade is carried out. -/
theorem commit (held : holds (evictAll cascade.evictions (tripBatch cascade.trips world).2).2) :
    (World.commit cascade).Ends world fun _ after => holds after := by
  have rest (teardowns : List (Address × Bool)) (tripped evicted : Nat) :
      (do
        let torn ← World.tearDownAll teardowns
        let drained ← drain
        let tripped := tripped + torn.tripped
        modify fun world => { world with
          ledger := { world.ledger with tally := world.ledger.tally.add .cellTrip tripped } }
        return { tripped, evicted := evicted + torn.evicted, released := torn.released + drained } :
        Task World Dispatched).Keeps holds :=
    .bind (lingers.tearDownAll teardowns) fun _ =>
      .bind (.bind .get fun world => lingers.apart (.onLedger _)) fun _ =>
        .bind (.modify fun _ held => lingers.reaped held (.of_core rfl)) fun _ => .pure _
  exact .next rfl (.next rfl (rest _ _ _ _ held))

end Lingers

/-! ## A burst -/

/-- A cascade is carried out, once its batch is tripped. -/
theorem commit_clearing
    (tripped : Clearing unsignalled cascade.evictions before (tripBatch cascade.trips world).2) :
    (commit cascade).Ends world fun _ after => Clearing unsignalled [] before after :=
  Clearing.lingers.commit (evictAll_clearing tripped)

/-- A burst is delivered: rows that it was about are signalled. -/
theorem dispatch_clearing (stands : world.Stands unsignalled) (signals : List Signal)
    (settled : ∀ key ∈ unsignalled, key ∈ signalled ∨ ∃ signal ∈ signals, signal.Covers key) :
    (dispatch signals).Ends world fun _ after => Clearing signalled [] world after := by
  obtain ⟨collects, reached⟩ := collectAll_collects stands signals
  have underway : Underway signalled [] (collectAll signals world) :=
    collects.underway.settle fun key among => (settled key among).imp_right (reached key)
  exact .next rfl (commit_clearing (underway.tripped collects.wanes))

end CatalogReplica.Catalog.World
