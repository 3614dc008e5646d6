import CatalogReplica.Proofs.Coherence.Batches
import CatalogReplica.Proofs.Native.ScopeEnds
import CatalogReplica.Proofs.Native.Served

/-!
# Released descriptors are not served

Teardowns release native descriptors wherever they are.  What is delivered with them then
trips the types that keep one of those, and dismisses the addresses at which the cache has
one, so that between operations none is left that could be served.

* `World.tripStale_took`: the gates of types that keep one are tripped.
* `World.tripStale_types`: no type keeps a released descriptor that is valid.
* `World.evictDescriptors_clean`: addresses are dismissed.
* `World.Gained.dispatch`, `Operation.apply_gained`: every operation leaves the places of native
  descriptors without released ones.
* `Operation.released_not_served`: the result.
-/

namespace CatalogReplica.Catalog

open Coherence (Access Batch GateId Gates Memo)
open Identity (Cache CacheView)
open Lifetime (GuardId Ledger)

namespace World

variable {base world after : World} {got : List ThingId} {trips : Batch} {id : ThingId} {address : Address}
  {cascade : Cascade}

/-! ## Stale types -/

/-- The gate of a type that keeps a released descriptor. -/
def Stale (world : World) (gate : GateId) : Prop :=
  ∃ id ∈ (world.liveOf .type).filter world.keepsReleased, (world.thing? id).bind (·.gate?) = some gate

theorem tripThing_none (its : (world.thing? id).bind (·.gate?) = none) (cascade : Cascade) :
    tripThing id (cascade, world) = (cascade, world) := by
  unfold tripThing
  dsimp only
  rw [its]

theorem tripThing_some {gate : GateId} (its : (world.thing? id).bind (·.gate?) = some gate) (cascade : Cascade) :
    tripThing id (cascade, world) = ({ cascade with trips := (cascade.trips.add gate world.gates).1 },
      { world with gates := (cascade.trips.add gate world.gates).2 }) := by
  unfold tripThing
  dsimp only
  rw [its]

/-- Gates of things are added to a batch, and nothing else happens. -/
theorem tripThings_took {asked : GateId → Prop} {before gates : Gates} (took : Batch.Took before asked trips gates)
    (ids : List ThingId) (world : World) : ∃ trips' gates',
      ids.foldl (fun state id => tripThing id state) ({ trips }, { world with gates })
        = ({ trips := trips' }, { world with gates := gates' }) ∧
      Batch.Took before (fun gate => asked gate ∨ ∃ id ∈ ids, (world.thing? id).bind (·.gate?) = some gate) trips' gates' := by
  induction ids generalizing asked trips gates with
  | nil => exact ⟨trips, gates, rfl, took.congr (by simp)⟩
  | cons id ids ih =>
    rw [List.foldl_cons]
    have same : ({ world with gates } : World).thing? id = world.thing? id := rfl
    cases its : (world.thing? id).bind (·.gate?) with
    | none =>
      rw [tripThing_none (same ▸ its)]
      obtain ⟨trips', gates', run, took'⟩ := ih took
      exact ⟨trips', gates', run, took'.congr fun gate => by simp [its]⟩
    | some gate =>
      rw [tripThing_some (same ▸ its)]
      obtain ⟨trips', gates', run, took'⟩ := ih (took.add gate)
      exact ⟨trips', gates', run, took'.congr fun other => by simp [its, or_assoc, eq_comm]⟩

/-- The types that keep a released descriptor are tripped. -/
theorem tripStale_took (sound : world.gates.Sound {}) : ∃ trips gates,
    tripStale world = ((trips.commit gates).1, { world with gates := (trips.commit gates).2 }) ∧
      Batch.Took world.gates world.Stale trips gates := by
  obtain ⟨trips, gates, run, took⟩ := tripThings_took (.start sound)
    ((world.liveOf .type).filter world.keepsReleased) world
  refine ⟨trips, gates, ?_, took.congr fun gate => by simp [Stale]⟩
  unfold tripStale
  rw [show ({ world with gates := world.gates } : World) = world from rfl] at run
  dsimp only
  rw [show (({} : Cascade), world) = ({ trips := {} }, world) from rfl, run]
  rfl

/-- Types that keep a released descriptor are tripped, so that none keeps one that is valid. -/
theorem tripStale_types (kept : Kept {} got world) : ∀ entry ∈ (tripStale world).2.caches.types.table,
    (tripStale world).2.keepsReleased entry.2 = false := by
  obtain ⟨trips, gates, run, took⟩ := tripStale_took kept.formed.gates
  rw [run]
  intro entry among
  refine Bool.eq_false_iff.mpr fun keeps => ?_
  obtain ⟨thing, memo, other, there, describes, valid, ref, released⟩ := keepsReleased_iff.mp keeps
  have there : world.thing? entry.2 = some thing := there
  have was : memo.isValid world.gates = true := took.onward_commit.valid_before valid
  have before : world.keepsReleased entry.2 = true :=
    keepsReleased_iff.mpr ⟨thing, memo, other, there, describes, was, ref, released⟩
  have live : entry.2 ∈ world.liveOf .type :=
    List.mem_map_of_mem (List.mem_filter.mpr ⟨among, alive_iff.mpr ⟨thing, there⟩⟩)
  -- a valid memo has the cell of its gate, which is among those that are tripped
  obtain ⟨-, gate, its, cell, -, same, governed⟩ := kept.formed.described entry.2 thing memo there describes
  have stale : world.Stale gate := ⟨entry.2, List.mem_filter.mpr ⟨live, before⟩, by rw [there]; exact its⟩
  rw [Memo.isValid_cell same, Bool.not_eq_true'] at was valid
  have tripped := (took.isTripped_commit cell).mpr (.inr ⟨gate, stale, (governed was).2 List.not_mem_nil⟩)
  cases valid.symm.trans tripped

/-! ## Addresses that are dismissed -/

theorem caches_releaseAll (ids : List ThingId) (world : World) :
    (ids.foldl (fun world id => release id world) world).caches = world.caches := by
  induction ids generalizing world with
  | nil => rfl
  | cons id ids ih => exact (ih _).trans (caches_reap [id] { world with held := world.held.erase id })

/-- Native descriptors are dismissed by their addresses, and the others are served on. -/
theorem evictDescriptors_clean (addresses : List Address) (kept : Kept {} got world) (clean : Clean addresses world) :
    Clean [] (evictDescriptors addresses world).2 := by
  induction addresses generalizing world with
  | nil => exact clean
  | cons address addresses ih =>
    have edit : Edit got world got _ := .dismissed address
    refine ih (kept.edit edit) { kept.clean_edit clean edit with entries := fun entry among => ?_ }
    obtain address' | usable := (kept.clean_edit clean edit).entries entry among
    · refine .inl ((List.mem_cons.mp address').resolve_left ?_)
      rw [caches_releaseAll] at among
      have left : entry ∈ (descriptorView.get (descriptorView.evict address world).2).table := among
      exact (Cache.mem_of_evict left).2
    · exact .inr usable

/-! ## Bursts -/

theorem Gained.beside (gained : Gained {} got [] world) (beside : Beside world after) (followed : Followed base got after)
    (calm : world.ledger.Calm after.ledger) : Gained {} got [] after := gained.alters beside.alters followed calm

theorem calm_onLedger {α : Type} {body : Task Ledger α} (calm : body.Ends world.ledger fun _ after => world.ledger.Calm after) :
    (onLedger body).Ends world fun _ after => world.ledger.Calm after.ledger :=
  onLedger_ends_as (calm.weaken fun _ _ calm => calm)

theorem Beside.find (beside : Beside base world) (address : Address) : Beside base (lifespanView.get? address world).2 := by
  unfold CacheView.get?
  generalize (lifespanView.get world).get? (lifespanView.alive world) address = result
  obtain ⟨found, notes, cache⟩ := result
  cases found <;> exact ⟨beside.heap, beside.caches, beside.nextThing, beside.gates⟩

theorem calm_find (world : World) (address : Address) : world.ledger.Calm (lifespanView.get? address world).2.ledger := by
  unfold CacheView.get?
  generalize (lifespanView.get world).get? (lifespanView.alive world) address = result
  obtain ⟨found, notes, cache⟩ := result
  cases found <;> exact .of_guards rfl

theorem Beside.forget (beside : Beside base world) (address : Address) : Beside base (lifespanView.evict address world).2 := by
  unfold CacheView.evict
  generalize (lifespanView.get world).evict (lifespanView.alive world) address = result
  obtain ⟨found, notes, cache⟩ := result
  cases found <;> exact ⟨beside.heap, beside.caches, beside.nextThing, beside.gates⟩

theorem beside_teardown (address : Address) (deleted : Bool) : (teardown address deleted).Keeps (Beside base) := by
  refine Task.Keeps.bind (Task.Keeps.lift fun world beside => ?_) fun lifespan => ?_
  · cases deleted with
    | false => exact beside.find address
    | true => exact beside.forget address
  · cases lifespan with
    | none => exact .pure 0
    | some lifespan => exact beside_onLedger _

/-- Scopes are torn down, and no descriptor is served that was released with them. -/
theorem tearDownAll_gained (teardowns : List (Address × Bool)) (gained : Gained {} [] [] world)
    (inSession : world.session.isSome = true) :
    (tearDownAll teardowns).Ends world fun _ after => Gained {} [] [] after := by
  unfold tearDownAll
  split
  · exact gained
  · have tears := (teardowns_tracked teardowns gained.followed.self inSession).both
      ((Task.Keeps.sum fun entry _ => beside_teardown entry.1 entry.2) world ⟨rfl, rfl, rfl, rfl⟩)
    refine tears.bind (fun count torn ended => ?_) fun _ _ ⟨⟨⟨_, broken⟩, _⟩, _⟩ => by cases broken
    obtain ⟨⟨-, tracked, -⟩, beside⟩ := ended
    have kept : Kept {} [] torn := gained.kept.alters beside.alters (tracked.weaken fun _ _ => trivial)
    have stale : Batched [] torn {} [] (tripStale torn).2 := Batched.refl.tripStale
    have tripped := stale.kept kept
    have clean : Clean (tripStale torn).2.releasedAddresses (tripStale torn).2 := by
      refine ⟨fun entry among => ?_, tripStale_types kept⟩
      cases released : (tripStale torn).2.isReleased entry.2 with
      | false => exact .inr rfl
      | true =>
        obtain ⟨guard, -, its, -⟩ := isReleased_iff.mp released
        obtain ⟨thing, there, -⟩ := Option.bind_eq_some_iff.mp its
        exact .inl (List.mem_map_of_mem (List.mem_filter.mpr
          ⟨List.mem_filter.mpr ⟨among, alive_iff.mpr ⟨thing, there⟩⟩, released⟩))
    refine .next (Task.lift_run _ torn) ?_
    generalize (tripStale torn).2 = world at tripped clean
    have dismissed : Batched [] world {} [] (evictDescriptors world.releasedAddresses world).2 :=
      (Edits.refl.evictDescriptors _).batched
    exact (dismissed.kept tripped).gained (evictDescriptors_clean _ tripped clean)

theorem drain_gained (gained : Gained {} [] [] world) : drain.Ends world fun _ after => Gained {} [] [] after := by
  refine .next (Task.get_run world) ?_
  have drains := ((gained.followed.onLedger (Ledger.drain_proceeds gained.followed.sound world.queue)
    (fun _ _ => trivial) fun _ _ _ => not_false).both (calm_onLedger (Ledger.drain_calm gained.followed.sound world.queue))).both
      (beside_onLedger _ world ⟨rfl, rfl, rfl, rfl⟩)
  exact drains.weaken fun _ _ ⟨⟨followed, calm⟩, beside⟩ => gained.beside beside followed calm

/-- A burst is delivered. -/
theorem dispatch_gained (signals : List Signal) (gained : Gained {} [] [] world) (inSession : world.session.isSome = true) :
    (dispatch signals).Ends world fun _ after => Gained {} [] [] after := by
  refine .next (Task.lift_run _ world) (.next (Task.lift_run _ _) (.next (Task.lift_run _ _) ?_))
  have delivered : Batched [] world {} [] (evictAll (collectAll signals world).1.evictions
      (tripBatch (collectAll signals world).1.trips (collectAll signals world).2).2).2 :=
    (Batched.refl.collectAll signals).tripBatch.edits (Edits.refl.evictAll _)
  have kept := delivered.kept gained.kept
  obtain ⟨session, its⟩ := ((tracked_carried (fun _ => True) world).batched gained.followed delivered).inSession inSession
  refine (tearDownAll_gained _ (kept.gained (delivered.clean gained.kept gained.clean)) (its ▸ rfl)).bind
    (fun _ torn gained => ?_) fun _ _ gained => gained
  refine (drain_gained gained).bind (fun _ drained gained => ?_) fun _ _ gained => gained
  refine .next (Task.modify_run _ drained) ?_
  exact gained.carried (Edit.counted _ : Edit [] drained [] _).alters fun carried before => carried.tally _ before

/-! ## The catalog and its sessions -/

/-- Caches lose their entries. -/
theorem Alters.blank (config : Config) (world : World) : Alters got world { world with caches := .blank config } := by
  refine ⟨Nat.le_refl _, fun _ thing found => .inl ⟨thing, found, .refl got thing⟩, fun shelf entry among => ?_, .inl rfl⟩
  cases shelf with
  | entities kind => cases kind <;> cases among
  | descriptors => cases among
  | encodings => cases among

theorem closeIfUnheld_gained (gained : Gained {} [] [] world) : Gained {} [] [] (closeIfUnheld world) := by
  unfold closeIfUnheld
  split
  · exact gained
  · have blank : Followed world [] { world with caches := .blank world.config } :=
      gained.followed.congr (fun _ => rfl) rfl rfl ⟨rfl, rfl, rfl, rfl, rfl⟩ rfl rfl rfl rfl
    have reaped : Gained {} [] [] (reap world.heap.ids { world with caches := .blank world.config }) :=
      (gained.alters (.blank _ world) blank (.refl _)).carried ((Alters.refl [] _).reap _) fun carried => carried.reap _
    have lets := ((reaped.followed.onLedger (Ledger.letQueueGo_proceeds reaped.followed.sound world.queue)
      (fun _ => False.elim) fun _ _ _ => not_false).both (calm_onLedger
        (Ledger.letQueueGo_calm reaped.followed.sound world.queue))).both (beside_onLedger _ _ ⟨rfl, rfl, rfl, rfl⟩)
    obtain ⟨⟨followed, calm⟩, beside⟩ := lets.exec
    exact reaped.beside beside followed calm

/-- A thing is let go that is held more often than it has to be. -/
theorem Gained.release (gained : Gained {} [] [] world) (freed : Followed base [id] world) :
    Gained {} [] [] (World.release id world) :=
  have ⟨followed, calm⟩ := (calm_carried world).release ⟨freed.self, .refl _⟩
  gained.alters ((Alters.refl [] world).release id) followed calm

end World

namespace Operation

open World (Batched Beside Edits Followed Formed Gained Kept Settled After Gives Alters mutatorThread tracked_carried)

variable {world : World}

/-! ## Operations -/

theorem start_gained (config : Config) : Gained {} [] [] (World.start config) := by
  have nothing {id : ThingId} {thing : Thing} (found : (World.start config).thing? id = some thing) : False := by
    cases found
  refine ⟨(World.settled_start config).followed, ?_, fun _ among => absurd among List.not_mem_nil, ?_,
    fun _ among => absurd among List.not_mem_nil⟩
  · refine ⟨fun id live => ?_, fun _ _ _ found => (nothing found).elim, fun shelf ordinary entry among => ?_, fun entry among => ?_,
      fun _ _ _ found => (nothing found).elim, fun _ _ _ found => (nothing found).elim, Coherence.Gates.sound_blank⟩
    · obtain ⟨thing, found⟩ := World.alive_iff.mp live
      exact (nothing found).elim
    · cases shelf with
      | entities kind => cases kind <;> cases among
      | descriptors => cases among
      | encodings => cases among
    · cases among
  · exact ⟨fun _ among => (List.not_mem_nil among).elim, fun _ among => (List.not_mem_nil among).elim⟩

/-- What a provider does leaves things alone. -/
theorem onProvider_beside {α : Type} (body : Task Provider α) : (World.onProvider body).Ends world fun _ after =>
    Beside world after ∧ world.ledger.Calm after.ledger := by
  refine World.onProvider_ends ?_
  unfold Task.Ends
  cases body world.provider <;> exact ⟨⟨rfl, rfl, rfl, rfl⟩, .refl _⟩

/-- A target is looked up by edits. -/
theorem looks_edits (target : Script.Target) (world : World) :
    target.lookup.Ends world fun _ after => ∃ got, Edits [] world got after :=
  (Edits.target target [] world .refl).weaken fun outcome _ edits => by cases outcome <;> exact ⟨_, edits⟩

/-- Every operation leaves the places of native descriptors without released ones. -/
theorem apply_gained {operation : Operation} (allowed : operation.Allowed world) (settled : Settled world)
    (gained : Gained {} [] [] world) : Gained {} [] [] (operation.apply world) := by
  have followed := (apply_succeeds allowed settled).settled.followed
  -- An operation stays beside the things (`beside`), edits them (`edits`), or has its own lemma.
  have beside (ends : operation.task.Ends world fun _ after => Beside world after ∧ world.ledger.Calm after.ledger) :
      Gained {} [] [] (operation.apply world) :=
    have ⟨beside, calm⟩ := ends.exec
    gained.beside beside followed calm
  have edits (ends : operation.task.Ends world fun _ after => ∃ got, Edits [] world got after) :
      Gained {} [] [] (operation.apply world) :=
    have ⟨got, edits⟩ := ends.exec
    ⟨followed.self, (edits.batched.kept gained.kept).formed, nofun, edits.batched.clean gained.kept gained.clean, nofun⟩
  have nothing : Beside world world ∧ world.ledger.Calm world.ledger := ⟨⟨rfl, rfl, rfl, rfl⟩, .refl _⟩
  cases operation with
  | put plan => exact beside (.discard (onProvider_beside _))
  | remove key => exact beside (.discard (onProvider_beside _))
  | putEncoding info => exact beside (onProvider_beside _)
  | intern typmod types => exact beside (.discard (onProvider_beside _))
  | setScope address kind => exact beside (onProvider_beside _)
  | openSession =>
    exact beside (openSession_ends ⟨⟨rfl, rfl, rfl, rfl⟩, .refl _⟩ fun _ _ _ _ => ⟨⟨rfl, rfl, rfl, rfl⟩, .of_guards rfl⟩)
  | closeSession =>
    refine (closeSession_ends (fun _ => gained) fun session _ => ?_).exec
    have left := World.unbind_followed settled.followed session.mutator
    dsimp only at left
    refine World.closeIfUnheld_gained (gained.beside ?_ left (.of_guards rfl))
    exact ⟨rfl, rfl, rfl, rfl⟩
  | dropCatalog =>
    have dropped : Followed world [] { world with catalogHeld := false } :=
      gained.followed.congr (fun _ => rfl) rfl rfl ⟨rfl, rfl, rfl, rfl, rfl⟩ rfl rfl rfl rfl
    exact World.closeIfUnheld_gained (gained.beside ⟨rfl, rfl, rfl, rfl⟩ dropped (.refl _))
  | lookup target => exact edits (.discard (looks_edits target world))
  | read id field access =>
    by_cases its : ((world.thing? id).bind (Accessor.ofName? · field)) = some .typeDescriptor
    · refine (read_ends gained fun accessor named => ?_).exec
      cases its.symm.trans named
      exact (World.typeDescriptor_serves gained access allowed.2).bind (fun _ _ ended => ended.1.gained ended.2.1)
        fun _ _ ended => ended.1.gained ended.2.1
    · refine edits (read_ends ⟨[], .refl⟩ fun accessor named => ?_)
      have other : accessor ≠ .typeDescriptor := fun same => its (same ▸ named)
      refine (Edits.read id access other [] world .refl).weaken fun outcome after edits => ?_
      cases outcome <;> exact ⟨_, edits⟩
  | drop id => exact gained.release (drop_frees gained.followed allowed)
  | trip id =>
    exact (trip_ends gained fun gate _ => (gained.kept.gates (gained.formed.detached gate).tripped).gained
      (gained.clean.gates (Coherence.Gates.onward_trip world.gates gate))).exec
  | pin id =>
    have pins (guard : GuardId) : (World.onLedger (Ledger.pin mutatorThread guard)).Ends world fun _ after =>
        Beside world after ∧ world.ledger.Calm after.ledger :=
      (World.beside_onLedger _ world ⟨rfl, rfl, rfl, rfl⟩).both
        (World.calm_onLedger ((Ledger.pin_calm mutatorThread guard world.ledger).weaken fun _ _ ended => ended.1))
    exact beside (pin_ends nothing (fun guard _ => pins guard)
      (fun _ _ ⟨beside, calm⟩ => ⟨⟨beside.heap, beside.caches, beside.nextThing, beside.gates⟩, calm⟩) fun _ _ ended => ended)
  | unpin id =>
    have left {after : World} (ended : (Followed world [id] after ∧ World.Mild world after) ∧ Beside world after) :
        Gained {} [] [] after :=
      gained.beside ended.2 ((tracked_carried (fun _ => True) world).less ended.1.1) ended.1.2.calm
    exact (unpin_ends gained (fun guard its =>
        (unpin_frees gained.followed its allowed).both (World.beside_onLedger _ world ⟨rfl, rfl, rfl, rfl⟩))
      (fun _ ended => (left ended).release ended.1.1) fun _ _ ended => left ended).exec
  | dispatch signals => exact (Task.Ends.discard (World.dispatch_gained signals gained allowed)).exec
  | drain => exact (Task.Ends.discard (World.drain_gained gained)).exec
  | purge => exact edits (.discard (.lift ⟨[], Edits.refl.purge⟩))
  | relieve => exact edits (.discard (.lift ⟨[], Edits.refl.relieve⟩))
  | lifespan address => exact beside (.discard (.lift ⟨Beside.find nothing.1 address, World.calm_find world address⟩))
  | currentLifespan =>
    have finds : World.currentLifespan.Keeps fun after => Beside world after ∧ world.ledger.Calm after.ledger :=
      World.currentLifespan_keeps
        (fun _ _ ⟨beside, calm⟩ => ⟨⟨beside.heap, beside.caches, beside.nextThing, beside.gates⟩, calm.trans (.of_guards rfl)⟩)
        fun _ _ ⟨beside, calm⟩ => ⟨⟨beside.heap, beside.caches, beside.nextThing, beside.gates⟩, calm.trans (.of_guards rfl)⟩
    exact beside (.discard (finds world nothing))

/-! ## Runs -/

theorem Reached.gained {config : Config} (reached : Reached config world) : Gained {} [] [] world := by
  induction reached with
  | start => exact start_gained config
  | step operation before allowed gained => exact apply_gained allowed before.settled gained
  | @served world provider before gained =>
    have followed := (before.served provider).settled.followed
    exact gained.beside ⟨rfl, rfl, rfl, rfl⟩ followed (.refl _)

/-- Whatever ran and whatever the provider did meanwhile, between operations no live native
    descriptor in the cache is released, and no type in the cache keeps a valid one that is
    released.  A read of the columns of such a type by the session gives none, fails, or gives a
    descriptor that is not released. -/
theorem released_not_served (config : Config) (world : World) (reached : Reached config world) :
    (∀ entry ∈ world.caches.descriptors.table, world.alive entry.2 = true → world.isReleased entry.2 = false) ∧
    (∀ entry ∈ world.caches.types.table, ∀ datum, ((World.view entry.2).place typeDescriptor).peek world = some datum →
      ∀ one ∈ datum.refs, world.isReleased one = false) ∧
    (world.session.isSome = true → ∀ entry ∈ world.caches.types.table,
      (World.typeDescriptor entry.2 .mutator).Ends world fun outcome after =>
        outcome = .ok none ∨ (∃ interrupt, outcome = .error interrupt) ∨
          ∃ one, outcome = .ok (some one) ∧ after.isReleased one = false) := by
  have gained := reached.gained
  refine ⟨fun entry among _ => (gained.clean.entries entry among).resolve_left List.not_mem_nil,
    fun entry among datum peeked one ref => ?_, fun inSession entry among => ?_⟩
  · refine Bool.eq_false_iff.mpr fun released => Bool.eq_false_iff.mp (gained.clean.types entry among) ?_
    unfold World.keepsReleased
    rw [peeked]
    exact List.any_eq_true.mpr ⟨one, ref, released⟩
  · refine (World.typeDescriptor_serves gained .mutator fun _ => inSession).weaken fun outcome after ended => ?_
    rcases outcome with interrupt | _ | one
    · exact .inr (.inl ⟨interrupt, rfl⟩)
    · exact .inl rfl
    · exact .inr (.inr ⟨one, rfl, ended.2.2 ⟨entry.1, among⟩ one rfl⟩)

/-- The columns of a record type are read and pinned, their scope is reset, and another session
    is opened. -/
def readPinnedReset : List Operation :=
  readRecord ++ [.pin 1, .dispatch [.scope ⟨0x10⟩ false], .closeSession, .openSession]

/-- The released descriptor is still pinned, and the type gives another one. -/
theorem released_not_served_readPinnedReset :
    (after readPinnedReset (World.start {})).isReleased 1 = true ∧
    (after readPinnedReset (World.start {})).pinsOn 1 = 1 ∧
    (World.typeDescriptor 0 .mutator).Ends (after readPinnedReset (World.start {})) fun outcome after =>
      outcome = .ok (some 2) ∧ after.isReleased 2 = false := by
  have allowed : AllowedAll readPinnedReset (World.start {}) := by decide +kernel
  have inSession : (after readPinnedReset (World.start {})).session.isSome = true := by decide +kernel
  have cached : ((⟨EntityClass.type.oid, recordType, 7⟩, 0) : EntityKey × ThingId) ∈
      (after readPinnedReset (World.start {})).caches.types.table := by decide +kernel
  have gives : (match World.typeDescriptor 0 .mutator (after readPinnedReset (World.start {})) with
      | .ok given _ => decide (given = some 2)
      | .error .. => false) = true := by decide +kernel
  refine ⟨by decide +kernel, by decide +kernel, ?_⟩
  have reached : Reached {} (after readPinnedReset (World.start {})) := Reached.start.run allowed
  generalize after readPinnedReset (World.start {}) = world at inSession cached gives reached
  have reads := (released_not_served {} world reached).2.2 inSession _ cached
  unfold Task.Ends at reads ⊢
  cases ran : World.typeDescriptor 0 .mutator world with
  | ok given last =>
    rw [ran] at reads gives
    cases of_decide_eq_true gives
    obtain none | ⟨_, broken⟩ | ⟨one, same, usable⟩ := reads
    · cases none
    · cases broken
    · cases same
      exact ⟨rfl, usable⟩
  | error interrupt last =>
    rw [ran] at gives
    cases gives

end Operation

end CatalogReplica.Catalog
