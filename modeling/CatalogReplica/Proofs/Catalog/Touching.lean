import CatalogReplica.Proofs.Catalog.Tidy
import CatalogReplica.Proofs.Native.Recording
import CatalogReplica.Proofs.Native.Unreleased

/-!
# What operations do to things and caches

Edits are the changes that lookups, reads and signals consist of.  The other operations hardly touch things:
native descriptors are looked up and taken over, types keep their columns, callers hold and let go, and the
caches are emptied when the catalog goes.  With these, every operation is a chain of small changes, and what
each of them keeps, every operation keeps.

* `World.Touch`: one change of things, of who holds them, or of caches.
* `World.Touches.typeDescriptor`, `World.Touches.dispatch`: what is not made of edits alone.
* `Operation.touched`: every operation.
-/

namespace CatalogReplica.Catalog

open Coherence (Access Computed)
open Identity (CacheView)
open Lifetime (Ledger)

namespace World

/-- One change, with the things that the operation under way holds before and after. -/
inductive Touch : List ThingId → World → List ThingId → World → Prop
  | edit {got got' : List ThingId} {world after : World} (edit : Edit got world got' after) : Touch got world got' after
  /-- Native resources, rows, gates, sessions or counters change. -/
  | stays {got : List ThingId} {world after : World} (stays : Stays world after) : Touch got world got after
  /-- A native descriptor is looked up. -/
  | sought {got : List ThingId} {world : World} (address : Address) :
      Touch got world got (descriptorView.ask mutatorThread address world).2
  /-- A native descriptor is looked up and found. -/
  | found {got : List ThingId} {world after : World} {address : Address} {id : ThingId}
      (hit : descriptorView.ask mutatorThread address world = (.hit id, after)) : Touch got world (id :: got) (hold id after)
  /-- A native descriptor is made for an address that was looked up. -/
  | made {got : List ThingId} {world : World} {address : Address} {thing : Thing} (refs : thing.refs = [])
      (absent : ∀ entry ∈ (descriptorView.get world).table, entry.1 ≠ address) :
      Touch got world (world.nextThing :: got) (descriptorView.settle address world.nextThing (world.add thing).2)
  | abandoned {got : List ThingId} {world : World} (address : Address) :
      Touch got world got (descriptorView.abandon address world)
  /-- The columns that a type keeps are served. -/
  | served {got : List ThingId} {world : World} {datum : Datum} (id : ThingId)
      (peeked : ((view id).place Catalog.typeDescriptor).peek world = some datum) :
      Touch got world (datum.refs ++ got) (datum.refs.foldl (fun world id => hold id world) world)
  /-- A type keeps its columns. -/
  | kept {got : List ThingId} {world : World} {datum : Datum} (id : ThingId) (cell : Option Coherence.CellId) :
      Touch (datum.refs ++ got) world (datum.refs ++ got)
        (onTable id (·.keep Catalog.typeDescriptor.index ⟨datum, cell⟩) world)
  /-- A caller holds a thing once more. -/
  | pinned {world : World} (id : ThingId) (live : world.alive id = true) : Touch [] world [] (hold id world)
  /-- A caller lets a thing go. -/
  | dropped {world : World} (id : ThingId) : Touch [] world [] (release id world)
  /-- All caches are emptied. -/
  | emptied {got : List ThingId} {world : World} :
      Touch got world got (reap world.heap.ids { world with caches := .blank world.config })

/-- What such changes lead to. -/
inductive Touches (start : List ThingId) (base : World) : List ThingId → World → Prop
  | refl : Touches start base start base
  | step {got got' : List ThingId} {world after : World} (before : Touches start base got world)
      (touch : Touch got world got' after) : Touches start base got' after

/-- What every change keeps, all of them keep. -/
theorem Touches.keeps {holds : List ThingId → World → Prop}
    (each : ∀ {got got' world after}, holds got world → Touch got world got' after → holds got' after)
    {start got : List ThingId} {base world : World} (before : holds start base) (touches : Touches start base got world) :
    holds got world := by
  induction touches with
  | refl => exact before
  | step _ touch ih => exact each ih touch

theorem Stays.trans {world after last : World} (first : Stays world after) (second : Stays after last) : Stays world last :=
  ⟨second.heap.trans first.heap, second.held.trans first.held, second.caches.trans first.caches,
    second.nextThing.trans first.nextThing⟩

namespace Touches

variable {α : Type} {start got got' : List ThingId} {base world after : World} {id : ThingId}

theorem edits (before : Touches start base got world) (edits : Edits got world got' after) : Touches start base got' after := by
  induction edits with
  | refl => exact before
  | step _ edit ih => exact ih.step (.edit edit)

theorem batched {trips : Coherence.Batch} (before : Touches start base got world)
    (batched : Batched got world trips got' after) : Touches start base got' after :=
  @Batched.keeps (fun _ => Touches start base) (fun before edit => before.step (.edit edit))
    (fun _ before => before.step (.stays ⟨rfl, rfl, rfl, rfl⟩)) (fun before => before.step (.stays ⟨rfl, rfl, rfl, rfl⟩))
    _ _ _ _ _ before batched

theorem stays {body : Task World α} (stays : ∀ world, body.Ends world fun _ after => Stays world after) :
    Minds (Touches start base) body := fun got world before =>
  (stays world).weaken fun outcome after stays => by cases outcome <;> exact before.step (.stays stays)

/-- What the operation under way holds may be anything less. -/
theorem less (ids : List ThingId) (touches : Touches start base (ids ++ got) world) : Touches start base got world := by
  induction ids with
  | nil => exact touches
  | cons id ids ih => exact ih (touches.step (.edit .less))

/-- What is made of edits is made of these changes. -/
theorem of_edits {body : Task World α} {refs : α → List ThingId}
    (edits : ∀ {start base}, Gives (Edits start base) body refs) : Gives (Touches start base) body refs :=
  fun got world before => (edits got world .refl).weaken fun outcome after edits => by
    cases outcome <;> exact before.edits edits

end Touches

/-! ## Native resources and rows -/

theorem stays_onProvider {α : Type} (body : Task Provider α) (world : World) :
    (onProvider body).Ends world fun _ after => Stays world after := by
  unfold Task.Ends onProvider Task.within
  cases body world.provider <;> exact ⟨rfl, rfl, rfl, rfl⟩

/-- The session looks for the lifespan of a scope. -/
theorem find_stored (address : Address) (world : World) :
    ∃ notes cache, (lifespanView.get? address world).2 = lifespanView.store notes cache world := by
  unfold CacheView.get?
  generalize (lifespanView.get world).get? (lifespanView.alive world) address = result
  obtain ⟨found, notes, cache⟩ := result
  cases found <;> exact ⟨notes, cache, rfl⟩

/-- The session forgets the lifespan of a scope. -/
theorem forget_stored (address : Address) (world : World) :
    ∃ notes cache, (lifespanView.evict address world).2 = lifespanView.store notes cache world := by
  unfold CacheView.evict
  generalize (lifespanView.get world).evict (lifespanView.alive world) address = result
  obtain ⟨found, notes, cache⟩ := result
  cases found <;> exact ⟨notes, cache, rfl⟩

theorem stays_find (address : Address) (world : World) : Stays world (lifespanView.get? address world).2 := by
  obtain ⟨_, _, same⟩ := find_stored address world
  rw [same]
  exact ⟨rfl, rfl, rfl, rfl⟩

theorem stays_forget (address : Address) (world : World) : Stays world (lifespanView.evict address world).2 := by
  obtain ⟨_, _, same⟩ := forget_stored address world
  rw [same]
  exact ⟨rfl, rfl, rfl, rfl⟩

theorem stays_currentLifespan (world : World) : currentLifespan.Ends world fun _ after => Stays world after :=
  currentLifespan_keeps (fun _ _ stays => stays.trans ⟨rfl, rfl, rfl, rfl⟩) (fun _ _ stays => stays.trans ⟨rfl, rfl, rfl, rfl⟩)
    world ⟨rfl, rfl, rfl, rfl⟩

theorem stays_openSession (world : World) : openSession.Ends world fun _ after => Stays world after :=
  Operation.openSession_ends ⟨rfl, rfl, rfl, rfl⟩ fun _ _ _ _ => ⟨rfl, rfl, rfl, rfl⟩

/-- A scope is torn down. -/
theorem stays_teardown (address : Address) (deleted : Bool) (world : World) :
    (teardown address deleted).Ends world fun _ after => Stays world after := by
  have tears : (teardown address deleted).Keeps (Stays world) := by
    refine Task.Keeps.bind (.lift fun mid stays => ?_) fun lifespan => ?_
    · cases deleted with
      | false => exact stays.trans (stays_find address mid)
      | true => exact stays.trans (stays_forget address mid)
    · cases lifespan with
      | none => exact .pure 0
      | some lifespan => exact fun mid stays => (Stays.onLedger _ mid).weaken fun _ _ later => stays.trans later
  exact tears world ⟨rfl, rfl, rfl, rfl⟩

theorem stays_drain (world : World) : drain.Ends world fun _ after => Stays world after :=
  .next (Task.get_run world) (Stays.onLedger _ world)

namespace Touches

variable {start : List ThingId} {base world : World}

/-! ## Lookups, and columns of types -/

theorem lookup (target : Script.Target) : Gives (Touches start base) target.lookup fun id => [id] :=
  of_edits (Edits.target target)

/-- A native descriptor refers to nothing. -/
theorem adopts (address : Address) (world : World) : (adopt address).Ends world fun outcome after =>
    Stays world after ∧ ∀ thing, outcome = .ok thing → thing.refs = [] := by
  have stays : (adopt address).Keeps (Stays world) := adopt_keeps (fun _ _ stays => stays.trans ⟨rfl, rfl, rfl, rfl⟩)
    (fun _ stays => stays.trans ⟨rfl, rfl, rfl, rfl⟩) address
  refine ((stays world ⟨rfl, rfl, rfl, rfl⟩).both (adopt_takes address world)).weaken fun _ after ended => ⟨ended.1, ?_⟩
  intro thing given
  obtain ⟨descriptor, rfl, -⟩ := ended.2.2 thing given
  rfl

/-- A native descriptor is looked up, and taken over if it is not there. -/
theorem nativeDescriptor (address : Address) : Gives (Touches start base) (nativeDescriptor address) fun id => [id] := by
  have looks : Gives (Touches start base) (descriptorView.lookup mutatorThread address (construct (adopt address)))
      fun id => [id] := by
    intro got world before
    unfold Task.Ends CacheView.lookup
    have sought := before.step (.sought address)
    -- The answer decides which edits follow; only a build constructs, and the address is still absent then.
    cases run : descriptorView.ask mutatorThread address world with | mk asked after =>
    rw [run] at sought
    cases asked with
    | hit id => exact before.step (.found run)
    | reentrant | wait => exact sought
    | build =>
      have absent := Shelf.descriptors.absent run
      have ends := adopts address after
      dsimp only
      unfold construct
      unfold Task.Ends at ends
      rw [Task.bind_run]
      cases made : adopt address after with
      | ok thing last =>
        rw [made] at ends
        obtain ⟨stays, refs⟩ := ends
        rw [← Shelf.descriptors.get_congr stays.caches] at absent
        exact (sought.step (.stays stays)).step (.made (refs thing rfl) absent)
      | error interrupt last =>
        rw [made] at ends
        exact (sought.step (.stays ends.1)).step (.abandoned address)
  refine .get_bind fun state got world before => looks.next before fun id after touches => ?_
  split
  · exact .next (Task.modify_run _ after) (touches.step (.stays ⟨rfl, rfl, rfl, rfl⟩))
  · exact touches

theorem recordDescriptor (typmod : Int32) :
    Gives (Touches start base) (recordDescriptor typmod) fun computed => computed.value.refs := by
  refine Gives.requireOpen.bind fun _ => (stays (stays_onProvider _)).bind fun found => ?_
  cases found with
  | none => exact .giving fun _ _ before => before
  | some address => exact fun got world before => (nativeDescriptor address).next before fun id after touches => touches

/-- The columns of a type are looked for. -/
theorem columns (id : ThingId) (access : Access) :
    Gives (Touches start base) (typeColumns id access) fun computed => computed.value.refs := by
  refine (Gives.requireEntity id).bind fun type => ?_
  split
  · exact recordDescriptor type.key.sub
  · exact of_edits (Edits.compositeColumns id access)

theorem typeDescriptor (id : ThingId) (access : Access) :
    Gives (Touches start base) (typeDescriptor id access) Option.toList := by
  have counted {got : List ThingId} {world : World} (before : Touches start base got world) (counter : Counter) :
      Touches start base got (count counter world) := before.step (.stays ⟨rfl, rfl, rfl, rfl⟩)
  have reads : Gives (Touches start base) (readSlot id Catalog.typeDescriptor access _) Datum.refs :=
    fun got world before => Edits.readSlot_ends (fun _ peeked =>
        (counted before .slotHit).step (.served id peeked))
      (fun _ => before) (fun _ => columns id access got world before)
      (fun _ cell _ _ touches => (counted touches .slotCompute).step (.kept id cell))
      (fun _ _ touches => counted touches .slotTransient) fun _ _ touches => touches
  intro got world before
  refine reads.next before fun datum after touches => ?_
  cases datum with
  | link target => exact touches
  | address | column | encoding => exact touches

/-! ## Bursts -/

theorem tearDownAll (teardowns : List (Address × Bool)) : Minds (Touches start base) (tearDownAll teardowns) := by
  unfold World.tearDownAll
  split
  · exact .pure _
  · refine Gives.bind (.sum fun entry _ => stays (stays_teardown entry.1 entry.2)) fun _ got world before => ?_
    refine .next (Task.lift_run _ world) (.next (Task.lift_run _ _) ?_)
    exact (before.batched (@Batched.refl got world).tripStale).edits (Edits.refl.evictDescriptors _)

/-- A burst is delivered. -/
theorem dispatch (signals : List Signal) : Minds (Touches start base) (dispatch signals) := by
  intro got world before
  refine .next (Task.lift_run _ world) (.next (Task.lift_run _ _) (.next (Task.lift_run _ _) ?_))
  have delivered : Batched got world {} got (evictAll (collectAll signals world).1.evictions
      (tripBatch (collectAll signals world).1.trips (collectAll signals world).2).2).2 :=
    (Batched.refl.collectAll signals).tripBatch.edits (Edits.refl.evictAll _)
  refine (tearDownAll _).bind (fun torn => (stays stays_drain).bind fun drained => ?_) got _ (before.batched delivered)
  exact Gives.bind (.modify fun _ _ touches => touches.step (.stays ⟨rfl, rfl, rfl, rfl⟩)) fun _ => .pure _

/-! ## The catalog and its sessions -/

theorem closeIfUnheld (before : Touches start base [] world) : Touches start base [] (World.closeIfUnheld world) := by
  unfold World.closeIfUnheld
  split
  · exact before
  · exact (before.step .emptied).step (.stays (Stays.onLedger _ _).exec)

end Touches

end World

namespace Operation

open World (Stays Touches Edits Minds Gives)

/-- Every operation is a chain of such changes. -/
theorem touched (operation : Operation) (world : World) : Touches [] world [] (operation.apply world) := by
  have ends (ends : operation.task.Ends world fun _ after => Touches [] world [] after) :
      Touches [] world [] (operation.apply world) := ends.exec
  have minds (minds : Minds (Touches [] world) operation.task) : Touches [] world [] (operation.apply world) :=
    ends ((minds [] world .refl).weaken fun outcome _ touches => by cases outcome <;> exact touches)
  -- callers go on holding what they are given
  have gives {α : Type} {body : Task World α} {refs : α → List ThingId} (gives : Gives (Touches [] world) body refs) :
      Minds (Touches [] world) (discard body) := fun got mid before =>
    .discard ((gives got mid before).weaken fun outcome _ touches => by
      cases outcome with
      | ok value => exact touches.less (refs value)
      | error interrupt => exact touches)
  have provides {α : Type} (body : Task Provider α) : Minds (Touches [] world) (World.onProvider body) :=
    Touches.stays (World.stays_onProvider body)
  cases operation with
  | put plan => exact minds (gives (provides _))
  | remove key => exact minds (gives (provides _))
  | putEncoding info => exact minds (provides _)
  | intern typmod types => exact minds (gives (provides _))
  | setScope address kind => exact minds (provides _)
  | openSession => exact minds (Touches.stays World.stays_openSession)
  | closeSession =>
    exact ends (closeSession_ends (fun _ => .refl) fun session _ =>
      Touches.closeIfUnheld (Touches.refl.step (.stays ⟨rfl, rfl, rfl, rfl⟩)))
  | dropCatalog => exact Touches.closeIfUnheld (Touches.refl.step (.stays ⟨rfl, rfl, rfl, rfl⟩))
  | lookup target => exact minds (gives (Touches.lookup target))
  | read id field access =>
    refine minds (.get_bind fun state => ?_)
    split
    · next accessor _ =>
      by_cases same : accessor = .typeDescriptor
      · subst same
        exact gives (World.Carried.reading .thing (fun _ => rfl) (Touches.typeDescriptor id access))
      · exact gives (Touches.of_edits (Edits.read id access same))
    · exact .pure _
  | drop id => exact Touches.refl.step (.dropped id)
  | trip id => exact ends (trip_ends .refl fun gate _ => Touches.refl.step (.stays ⟨rfl, rfl, rfl, rfl⟩))
  | pin id =>
    refine ends (pin_ends .refl (fun guard own => (Stays.onLedger _ world).weaken fun _ after stays =>
      (⟨stays, ?_⟩ : Stays world after ∧ after.alive id = true))
      (fun _ after pinned => (Touches.refl.step (.stays pinned.1)).step (.pinned id pinned.2))
      fun _ _ pinned => Touches.refl.step (.stays pinned.1))
    -- only what has a guard is pinned, so the thing is there
    obtain ⟨thing, found, -⟩ := Option.bind_eq_some_iff.mp own
    rw [stays.alive]
    exact World.alive_iff.mpr ⟨thing, found⟩
  | unpin id =>
    exact ends (unpin_ends .refl (fun _ _ => Stays.onLedger _ world)
      (fun after stays => (Touches.refl.step (.stays stays)).step (.dropped id))
      fun _ _ stays => Touches.refl.step (.stays stays))
  | dispatch signals => exact minds (gives (Touches.dispatch signals))
  | drain => exact minds (gives (Touches.stays World.stays_drain))
  | purge => exact ends (.discard (.lift (Touches.refl.edits Edits.refl.purge)))
  | relieve => exact ends (.discard (.lift (Touches.refl.edits Edits.refl.relieve)))
  | lifespan address => exact Touches.refl.step (.stays (World.stays_find address world))
  | currentLifespan => exact minds (gives (Touches.stays World.stays_currentLifespan))

end Operation

end CatalogReplica.Catalog
