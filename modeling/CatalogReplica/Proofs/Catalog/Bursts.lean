import CatalogReplica.Proofs.Catalog.Precision
import CatalogReplica.Proofs.Lifetime.Draining
import CatalogReplica.Proofs.Native.Orphaning
import CatalogReplica.Proofs.Native.Tearing
import CatalogReplica.Proofs.Native.Unreleased

/-!
# Bursts are sets of signals

Two bursts that contain the same signals leave the same catalog, in whatever order the signals
come and however often.  A burst is followed phase by phase from one state, next to another burst
that contains the same signals: what one phase leaves alike, the next one leaves alike.

* `World.Agree`: what two bursts that contain the same signals leave.
* `World.shed_alike`: gates are tripped and keys leave their caches.
* `World.Tears.alike`, `World.Midway.sweep_alike`: scopes are torn down, and what follows that.
* `World.drain_agree`: the queue is drained.
* `World.Course`, `World.dispatch_course`: how a burst is carried out.
* `Operation.burst_as_set`: two bursts, whatever was carried out before.
-/

namespace CatalogReplica.Catalog

open Coherence (GateId Memo)
open Coherence.Batch (Took)
open Lifetime (GuardId Ledger LifespanId)
open Lifetime.Ledger (Fires)

namespace World

variable {base world world' one two : World} {bound : Nat} {signals signals' : List Signal} {unsignalled : List EntityKey}

/-! ## Two states -/

/-- Two catalogs that were one at some time.  The same cells are tripped, and every gate has the same
    cell in both or a later one in both.  The caches have the same entries; the same things are
    left, with the same marks, memos and ties, and held as often.  The session has the same
    lifespans, of which the same have ended, and the same guards were released, for the same
    causes. -/
structure Agree (bound : Nat) (one two : World) : Prop where
  gates : one.gates.Alike bound two.gates
  caches : two.caches = one.caches
  things : ∀ id, two.thing? id = one.thing? id
  held : two.held = one.held
  session : two.session = one.session
  lifespans : ∀ id, two.ledger.lifespan? id = one.ledger.lifespan? id
  released : ∀ guard, two.ledger.Claimed guard ↔ one.ledger.Claimed guard
  causes : ∀ guard, two.ledger.causes guard = one.ledger.causes guard

/-- All guards are the same in two catalogs that agree. -/
structure Alike (bound : Nat) (one two : World) : Prop extends Agree bound one two where
  guards : ∀ guard, two.ledger.guard? guard = one.ledger.guard? guard

theorem Agree.alive (agree : Agree bound one two) : two.alive = one.alive :=
  funext fun id => congrArg Option.isSome (agree.things id)

theorem Agree.guardOf (agree : Agree bound one two) (id : ThingId) : two.guardOf id = one.guardOf id := by
  rw [World.guardOf, World.guardOf, agree.things]

/-- Where things went that nothing refers to any more, in two catalogs that were alike, what is left
    is alike. -/
theorem Alike.culled {marks marks' : ThingId → Prop} (alike : Alike bound one two) (culls : Culls marks one world)
    (culls' : Culls marks' two world') (tidy : Tidy [] world) (tidy' : Tidy [] world') (orphans : Orphans one [] world)
    (orphans' : Orphans two [] world') (lossless : one.Lossless) (lossless' : two.Lossless)
    (caches : world'.caches = world.caches) (same : ∀ id, marks' id ↔ marks id) : Alike bound world world' := by
  have things := culls.agree culls' tidy tidy' alike.things alike.held caches same
  have guards := orphans.agree orphans' lossless lossless' alike.guardOf
    (fun id => by rw [World.guardOf, World.guardOf, things]) alike.guards
  obtain ⟨lifespans, log⟩ := orphans.same lossless
  obtain ⟨lifespans', log'⟩ := orphans'.same lossless'
  refine { gates := ?_, caches := caches, things := things, held := ?_, session := ?_, lifespans := fun id => ?_
           released := fun guard => ?_, causes := fun guard => ?_, guards := guards }
  · rw [culls.gates, culls'.gates]
    exact alike.gates
  · rw [culls.held, culls'.held, alike.held]
  · rw [culls.session, culls'.session, alike.session]
  · rw [Ledger.lifespan?, lifespans', Ledger.lifespan?, lifespans]
    exact alike.lifespans id
  · rw [Ledger.Claimed, Ledger.Claimed, guards]
  · rw [Ledger.causes, log', Ledger.causes, log]
    exact alike.causes guard

/-! ## What is told -/

/-- What a burst leaves once its gates are tripped. -/
def collected (signals : List Signal) (base : World) : World :=
  (tripBatch (collectAll signals base).1.trips (collectAll signals base).2).2

/-- What a burst leaves before its scopes are torn down. -/
def shed (signals : List Signal) (base : World) : World :=
  (evictAll (collectAll signals base).1.evictions (collected signals base)).2

/-- Bursts with the same signals tell the same. -/
theorem told_of_set (same : ∀ signal, signal ∈ signals' ↔ signal ∈ signals) (one : Change × ThingId) :
    one ∈ signals'.flatMap base.tells ↔ one ∈ signals.flatMap base.tells := by
  rw [List.mem_flatMap, List.mem_flatMap]
  simp only [same]

theorem Gathers.of_set {news news' : List (Change × ThingId)} {state : Cascade × World} (hears : Hears base news' state)
    (same : ∀ one, one ∈ news' ↔ one ∈ news) : Hears base news state := by
  refine (hears.congr (fun gate => ?_) fun key => ?_).retie fun id entity _ => ?_
  · simp only [Stirred, same]
  · simp only [Taken, same]
  · rw [heard_of_set same]

theorem collected_batched (signals : List Signal) (base : World) : Batched [] base {} [] (collected signals base) :=
  (Batched.refl.collectAll signals).tripBatch

theorem shed_batched (signals : List Signal) (base : World) : Batched [] base {} [] (shed signals base) :=
  (collected_batched signals base).edits (Edits.refl.evictAll _)

/-- Bursts with the same signals trip the same gates and have the same keys to evict. -/
theorem collected_alike (sound : base.Sound {} []) (tidy : Tidy [] base)
    (same : ∀ signal, signal ∈ signals' ↔ signal ∈ signals) :
    Alike base.gates.tripped.size (collected signals base) (collected signals' base) ∧
      (tripBatch (collectAll signals' base).1.trips (collectAll signals' base).2).1
        = (tripBatch (collectAll signals base).1.trips (collectAll signals base).2).1 ∧
      ∀ key, key ∈ (collectAll signals' base).1.evictions ↔ key ∈ (collectAll signals base).1.evictions := by
  have hears := collectAll_hears sound tidy signals
  have hears' := (collectAll_hears sound tidy signals').of_set (told_of_set same)
  obtain ⟨gates, counts⟩ := hears.took.alike hears'.took (.refl _ _) (Nat.le_refl _) (Nat.le_refl _)
    fun gate cell _ its => (sound.gates.current gate cell its).1
  have things (id : ThingId) := (hears'.things id).trans (hears.things id).symm
  obtain ⟨heap, cells, tally, state⟩ := hears.same
  obtain ⟨heap', cells', tally', state'⟩ := hears'.same
  have alike : Alike base.gates.tripped.size (collected signals base) (collected signals' base) := by
    unfold collected tripBatch
    rw [state] at gates things ⊢
    rw [state'] at gates things ⊢
    exact { gates := gates, caches := rfl, things := things, held := rfl, session := rfl, lifespans := fun _ => rfl
            released := fun _ => .rfl, causes := fun _ => rfl, guards := fun _ => rfl }
  exact ⟨alike, counts, fun key => by rw [hears'.evictions, hears.evictions]⟩

/-! ## Half way -/

/-- What holds while a burst is carried out: everything that lives is wanted, memos are those of the
    beginning, no cell is taken away, no guard was lost, and the books are in order. -/
structure Midway (unsignalled : List EntityKey) (base world : World) : Prop extends Minded base world where
  tidy : Tidy [] world
  clearing : Clearing unsignalled [] base world
  early : base.gates.tripped.size ≤ world.gates.tripped.size

theorem Midway.lossless (midway : Midway unsignalled base world) (lossless : base.Lossless) : world.Lossless :=
  midway.watched.lossless lossless

theorem shed_midway (stands : base.Stands unsignalled) (midway : Midway unsignalled base base) (signals : List Signal) :
    Midway unsignalled base (shed signals base) where
  watched := (watched_carried base).batched midway.watched (shed_batched signals base)
  keeping := (keeping_carried base [] [] [] (some [])).batched midway.keeping (shed_batched signals base)
  tidy := midway.tidy.batched (shed_batched signals base)
  clearing := by
    obtain ⟨collects, -⟩ := collectAll_collects stands signals
    exact evictAll_clearing ((collects.underway.settle fun _ among => .inl among).tripped collects.wanes)
  early := by
    have hears := collectAll_hears stands.sound midway.tidy signals
    have collected : Tidy [] (collected signals base) := midway.tidy.batched (collected_batched signals base)
    obtain ⟨culls, -⟩ := evictAll_culls collected (collectAll signals base).1.evictions
    rw [shed, culls.gates]
    exact hears.took.size_commit

/-- Bursts with the same signals trip the same gates and take the same keys away. -/
theorem shed_alike (stands : base.Stands unsignalled) (midway : Midway unsignalled base base) (lossless : base.Lossless)
    (same : ∀ signal, signal ∈ signals' ↔ signal ∈ signals) :
    Alike base.gates.tripped.size (shed signals base) (shed signals' base) := by
  obtain ⟨alike, -, evictions⟩ := collected_alike stands.sound midway.tidy same
  have tidy (signals : List Signal) : Tidy [] (collected signals base) := midway.tidy.batched (collected_batched signals base)
  have watched (signals : List Signal) : Watched base [] (collected signals base) :=
    (watched_carried base).batched midway.watched (collected_batched signals base)
  have orphans (signals : List Signal) : Orphans (collected signals base) [] (shed signals base) :=
    (orphans_carried _).evictAll _ (.start (watched signals).followed.self)
  obtain ⟨culls, caches⟩ := evictAll_culls (tidy signals) (collectAll signals base).1.evictions
  obtain ⟨culls', caches'⟩ := evictAll_culls (tidy signals') (collectAll signals' base).1.evictions
  refine alike.culled culls culls' (midway.tidy.batched (shed_batched signals base))
    (midway.tidy.batched (shed_batched signals' base)) (orphans signals) (orphans signals')
    ((watched signals).lossless lossless) ((watched signals').lossless lossless) ?_ fun id => ?_
  · rw [show (shed signals base).caches = _ from caches, show (shed signals' base).caches = _ from caches', alike.caches]
    exact Identity.foldl_of_set Caches.without_comm Caches.without_without evictions _
  · simp only [evictions, alike.caches]

/-! ## Scopes that are torn down -/

variable {session : Session}

/-- Several scopes are torn down. -/
theorem Midway.torn (midway : Midway unsignalled base world) (lossless : base.Lossless)
    (inSession : base.session.isSome = true) (its : world.session = some session) (entries : List (Address × Bool)) :
    ∃ guards last, Task.sum (fun entry => teardown entry.1 entry.2) entries world = .ok guards.length last ∧
      Fires .lifespanEnded guards world.ledger last.ledger ∧ Tears session entries world last ∧
      Midway unsignalled base last := by
  obtain ⟨guards, last, run, fires, tears, minded⟩ := tearAll_tears (.start its) (midway.keeping.lifespans session its)
    midway.toMinded lossless inSession entries
  have tidies : (Task.sum (fun entry : Address × Bool => teardown entry.1 entry.2) entries).Keeps (Tidy []) :=
    .sum fun entry _ => tidy_teardown entry.1 entry.2
  have clears : (Task.sum (fun entry : Address × Bool => teardown entry.1 entry.2) entries).Keeps
      (Clearing unsignalled [] base) := .sum fun entry _ => (apart_teardown entry.1 entry.2).clearing
  refine ⟨guards, last, run, fires, tears, { minded with tidy := ?_, clearing := ?_, early := ?_ }⟩
  · exact (Task.Ends.of_ok run).mp (tidies world midway.tidy)
  · exact (Task.Ends.of_ok run).mp (clears world midway.clearing)
  · obtain ⟨ledger, provider, rfl⟩ := tears.same
    exact midway.early

/-- Of two states alike, those who were told of the same scopes leave two states alike, and as many
    actions run. -/
theorem Tears.alike {entries entries' : List (Address × Bool)} {last last' : World} {guards guards' : List GuardId}
    (tears : Tears session entries one last) (tears' : Tears session entries' two last')
    (fires : Fires .lifespanEnded guards one.ledger last.ledger)
    (fires' : Fires .lifespanEnded guards' two.ledger last'.ledger) (alike : Alike bound one two)
    (same : ∀ entry, entry ∈ entries' ↔ entry ∈ entries) : Alike bound last last' ∧ guards'.length = guards.length := by
  obtain ⟨told, guard?, lifespans⟩ := tears.agree tears' same alike.guards alike.lifespans
  have claimed (guard : GuardId) : last'.ledger.Claimed guard ↔ last.ledger.Claimed guard := by
    rw [Ledger.Claimed, Ledger.Claimed, guard?]
  have causes := fires.agree fires' alike.released claimed alike.causes
  refine ⟨?_, fires.length_eq fires' alike.released claimed⟩
  obtain ⟨ledger, provider, rfl⟩ := tears.same
  obtain ⟨ledger', provider', rfl⟩ := tears'.same
  exact { gates := alike.gates, caches := alike.caches, things := alike.things, held := alike.held, session := told,
          lifespans := lifespans, released := claimed, causes := causes, guards := guard? }

/-! ## What follows scopes that were torn down -/

theorem Alike.isReleased (alike : Alike bound one two) (id : ThingId) : two.isReleased id = one.isReleased id := by
  rw [Bool.eq_iff_iff, isReleased_iff, isReleased_iff, alike.guardOf]
  simp only [alike.guards]

theorem Alike.keepsReleased (alike : Alike bound one two) (id : ThingId) : two.keepsReleased id = one.keepsReleased id := by
  have valid (memo : Memo Datum) : memo.isValid two.gates = memo.isValid one.gates := by
    unfold Memo.isValid
    split
    · rfl
    · rw [alike.gates.cells]
  rw [Bool.eq_iff_iff, keepsReleased_iff, keepsReleased_iff]
  simp only [alike.things, alike.isReleased, valid]

theorem Alike.liveOf (alike : Alike bound one two) (kind : EntityClass) : two.liveOf kind = one.liveOf kind := by
  rw [World.liveOf, World.liveOf, alike.caches, alike.alive]

theorem Alike.releasedAddresses (alike : Alike bound one two) : two.releasedAddresses = one.releasedAddresses := by
  rw [World.releasedAddresses, World.releasedAddresses, alike.caches, alike.alive]
  simp only [alike.isReleased]

/-- Types that keep what is valid have the gates' cells from the beginning. -/
theorem Midway.old (midway : Midway unsignalled base world) (stands : base.Stands unsignalled) {gate : GateId}
    {cell : Coherence.CellId} (stale : world.Stale gate) (current : world.gates.currentCell? gate = some cell) :
    cell < base.gates.tripped.size := by
  obtain ⟨id, among, its⟩ := stale
  obtain ⟨live, keeps⟩ := List.mem_filter.mp among
  obtain ⟨thing, memo, -, there, ⟨table, has, found⟩, valid, -⟩ := keepsReleased_iff.mp keeps
  obtain ⟨⟨key, _⟩, entry, rfl⟩ := List.mem_map.mp live
  obtain ⟨listed, lives⟩ := List.mem_filter.mp entry
  obtain ⟨later, isLater, -⟩ := midway.clearing.sound.entered .type key _ listed lives
  obtain ⟨entity, was, stays⟩ := midway.clearing.entities _ later isLater
  cases there.symm.trans (entity?_eq_some.mp isLater)
  cases has
  -- the cell of the memo is that of its gate as long as it is valid
  obtain ⟨cell', known, same, -⟩ := (stands.sound.shaped _ entity was).governed _ memo ((stays.memo? _).symm.trans found)
  obtain ⟨cell'', -, same', governed⟩ := (midway.clearing.sound.shaped _ later isLater).governed _ memo found
  cases same.symm.trans same'
  rw [Memo.isValid_cell same, Bool.not_eq_true'] at valid
  have isCurrent := (governed valid).2 List.not_mem_nil
  rw [there] at its
  cases (midway.clearing.sound.shaped _ later isLater).gate?_eq.symm.trans its
  cases current.symm.trans isCurrent
  exact known

/-- What is left once types are tripped and descriptors dismissed that were released, and how many
    cells that tripped; nothing happens without scopes that were torn down. -/
def sweep (entries : List (Address × Bool)) (torn : World) : Nat × World :=
  if entries.isEmpty then (0, torn)
  else ((tripStale torn).1, (evictDescriptors (tripStale torn).2.releasedAddresses (tripStale torn).2).2)

theorem Carried.sweep {holds : List ThingId → World → Prop} (carried : Carried holds) (entries : List (Address × Bool))
    (before : holds [] world) : holds [] (sweep entries world).2 := by
  unfold World.sweep
  split
  · exact before
  · exact carried.evictDescriptors _ (carried.tripStale before)

/-- The cells are counted that were tripped. -/
theorem Midway.sweep_newly (midway : Midway unsignalled base world) (entries : List (Address × Bool)) :
    world.gates.Onward (sweep entries world).2.gates ∧
      (sweep entries world).1 = world.gates.newly (sweep entries world).2.gates := by
  unfold World.sweep
  split
  · exact ⟨.refl _, world.gates.newly_self.symm⟩
  · obtain ⟨trips, gates, run, took⟩ := tripStale_took midway.clearing.sound.gates
    have tidy : Tidy [] (tripStale world).2 := midway.tidy.batched (@Batched.refl [] world).tripStale
    obtain ⟨culls, -⟩ := evictDescriptors_culls tidy (tripStale world).2.releasedAddresses
    rw [culls.gates, run]
    exact ⟨took.onward_commit, took.newly_commit⟩

section alike

variable (stands : base.Stands unsignalled) (lossless : base.Lossless) (midway : Midway unsignalled base one)
  (midway' : Midway unsignalled base two) (alike : Alike base.gates.tripped.size one two)

include stands midway midway' alike

/-- The same types are tripped in catalogs that are alike. -/
theorem Midway.tripStale_alike : Alike base.gates.tripped.size (tripStale one).2 (tripStale two).2 ∧
    (tripStale two).1 = (tripStale one).1 := by
  obtain ⟨trips, gates, run, took⟩ := tripStale_took midway.clearing.sound.gates
  obtain ⟨trips', gates', run', took'⟩ := tripStale_took midway'.clearing.sound.gates
  have stale (gate : GateId) : one.Stale gate ↔ two.Stale gate := by
    rw [Stale, Stale, alike.liveOf, funext alike.keepsReleased]
    simp only [alike.things]
  obtain ⟨cells, counts⟩ := took.alike (took'.congr stale) alike.gates midway.early midway'.early
    fun _ _ => midway.old stands
  rw [run, run']
  exact ⟨{ alike with gates := cells }, counts⟩

include lossless

/-- What follows scopes that were torn down leaves alike what was alike, and trips as many cells. -/
theorem Midway.sweep_alike {entries entries' : List (Address × Bool)} (same : entries'.isEmpty = entries.isEmpty) :
    Alike base.gates.tripped.size (sweep entries one).2 (sweep entries' two).2 ∧
      (sweep entries' two).1 = (sweep entries one).1 := by
  unfold World.sweep
  rw [same]
  split
  · exact ⟨alike, rfl⟩
  · -- the types come first: whether one keeps a released descriptor is seen before any is dismissed
    obtain ⟨alike, counts⟩ := midway.tripStale_alike stands midway' alike
    refine ⟨?_, counts⟩
    have tidy {world : World} (midway : Midway unsignalled base world) : Tidy [] (tripStale world).2 :=
      midway.tidy.batched (@Batched.refl [] world).tripStale
    have watched {world : World} (midway : Midway unsignalled base world) : Watched base [] (tripStale world).2 :=
      (watched_carried base).tripStale midway.watched
    obtain ⟨culls, caches⟩ := evictDescriptors_culls (tidy midway) (tripStale one).2.releasedAddresses
    obtain ⟨culls', caches'⟩ := evictDescriptors_culls (tidy midway') (tripStale two).2.releasedAddresses
    refine alike.culled culls culls' ?_ ?_ ?_ ?_ ((watched midway).lossless lossless) ((watched midway').lossless lossless)
      ?_ fun _ => .rfl
    · exact (tidy midway).edits (Edits.refl.evictDescriptors _ : Edits [] _ _ _)
    · exact (tidy midway').edits (Edits.refl.evictDescriptors _ : Edits [] _ _ _)
    · exact (orphans_carried _).evictDescriptors _ (.start (watched midway).followed.self)
    · exact (orphans_carried _).evictDescriptors _ (.start (watched midway').followed.self)
    · rw [caches, caches', alike.caches, alike.releasedAddresses]

end alike

/-! ## Drains -/

/-- A drain of the queue runs the actions of those who wait for their release. -/
theorem drain_run (followed : Followed base [] world) (lossless : world.Lossless) : ∃ guards ledger provider,
    drain world = .ok guards.length { world with ledger, provider } ∧
      Ledger.drain world.queue world.ledger = .ok guards.length ledger ∧
      Fires .unreachable guards world.ledger ledger ∧ ∀ guard, guard ∈ guards ↔ world.ledger.Waiting guard := by
  obtain ⟨guards, ledger, run, fires, waits⟩ := Ledger.Lossless.drain_fires lossless followed.sound
  exact ⟨guards, ledger, _, (Task.bind_ok (Task.get_run world)).trans (onLedger_run run), run, fires, waits⟩

/-- Drains leave two catalogs that agree, and run as many actions. -/
theorem drain_agree {last last' : World} {count count' : Nat} (alike : Alike bound one two) (followed : Followed base [] one)
    (followed' : Followed base [] two) (lossless : one.Lossless) (lossless' : two.Lossless)
    (run : drain one = .ok count last) (run' : drain two = .ok count' last') : Agree bound last last' ∧ count' = count := by
  obtain ⟨guards, ledger, provider, drains, within, fires, waits⟩ := drain_run followed lossless
  obtain ⟨guards', ledger', provider', drains', within', fires', waits'⟩ := drain_run followed' lossless'
  cases run.symm.trans drains
  cases run'.symm.trans drains'
  -- whoever waited is released by either drain, wherever it was in the queue
  have claimed (guard : GuardId) : ledger'.Claimed guard ↔ ledger.Claimed guard := by
    rw [fires'.claimed_iff, fires.claimed_iff, waits', waits, alike.released, Ledger.Waiting, alike.guards, Ledger.Waiting]
  exact ⟨{ alike.toAgree with
    lifespans := Ledger.Lossless.drain_alike lossless lossless' followed.sound followed'.sound alike.guards alike.lifespans
      within within'
    released := claimed
    causes := fires.agree fires' alike.released claimed alike.causes }, fires.length_eq fires' alike.released claimed⟩

/-! ## Bursts -/

/-- How many descriptors are dismissed once scopes were torn down. -/
def dismissed (entries : List (Address × Bool)) (torn : World) : Nat :=
  if entries.isEmpty then 0 else (evictDescriptors (tripStale torn).2.releasedAddresses (tripStale torn).2).1

theorem tearDownAll_run {entries : List (Address × Bool)} {torn : World} {released : Nat}
    (tears : Task.sum (fun entry => teardown entry.1 entry.2) entries world = .ok released torn) :
    tearDownAll entries world
      = .ok { tripped := (sweep entries torn).1, evicted := dismissed entries torn, released } (sweep entries torn).2 := by
  unfold tearDownAll World.sweep dismissed
  cases entries with
  | nil =>
    cases tears
    rfl
  | cons entry entries =>
    simp only [List.isEmpty_cons, if_neg Bool.false_ne_true]
    rw [Task.bind_ok tears, Task.bind_ok (Task.lift_run _ torn), Task.bind_ok (Task.lift_run _ _)]
    rfl

/-- How a burst is carried out in a session, once keys left their caches: scopes are torn down and,
    when types are tripped and descriptors dismissed that went with them, the queue is drained. -/
structure Course (unsignalled : List EntityKey) (session : Session) (signals : List Signal) (base torn drained : World)
    (ended waited : List GuardId) : Prop where
  midway : Midway unsignalled base torn
  tears : Tears session (signals.filterMap Signal.scope?) (shed signals base) torn
  ends : Fires .lifespanEnded ended (shed signals base).ledger torn.ledger
  drains : drain (sweep (signals.filterMap Signal.scope?) torn).2 = .ok waited.length drained
  waits : Fires .unreachable waited (sweep (signals.filterMap Signal.scope?) torn).2.ledger drained.ledger
  same : ∃ ledger provider, drained = { (sweep (signals.filterMap Signal.scope?) torn).2 with ledger, provider }

theorem shed_session (sound : base.Sound {} []) (tidy : Tidy [] base) (signals : List Signal) :
    (shed signals base).session = base.session := by
  obtain ⟨heap, gates, tally, same⟩ := (collectAll_hears sound tidy signals).same
  have collected : Tidy [] (collected signals base) := tidy.batched (collected_batched signals base)
  rw [shed, (evictAll_culls collected _).1.session]
  change (collectAll signals base).2.session = base.session
  rw [same]

/-- A burst is carried out. -/
theorem dispatch_course (stands : base.Stands unsignalled) (midway : Midway unsignalled base base) (lossless : base.Lossless)
    (its : base.session = some session) (signals : List Signal) : ∃ torn drained ended waited tally,
      dispatch signals base = .ok
        { tripped := (tripBatch (collectAll signals base).1.trips (collectAll signals base).2).1
            + (sweep (signals.filterMap Signal.scope?) torn).1
          evicted := (evictAll (collectAll signals base).1.evictions (collected signals base)).1
            + dismissed (signals.filterMap Signal.scope?) torn
          released := ended.length + waited.length }
        { drained with ledger := { drained.ledger with tally } } ∧
      Course unsignalled session signals base torn drained ended waited := by
  obtain ⟨ended, torn, run, ends, tears, later⟩ := (shed_midway stands midway signals).torn lossless (its ▸ rfl)
    ((shed_session stands.sound midway.tidy signals).trans its) (signals.filterMap Signal.scope?)
  have tornDown := tearDownAll_run run
  have swept := (watched_carried base).sweep (signals.filterMap Signal.scope?) later.watched
  obtain ⟨waited, ledger, provider, drains, -, waits, -⟩ := drain_run swept.followed (swept.lossless lossless)
  let tripped := (tripBatch (collectAll signals base).1.trips (collectAll signals base).2).1
    + (sweep (signals.filterMap Signal.scope?) torn).1
  refine ⟨torn, _, ended, waited, ledger.tally.add .cellTrip tripped, ?_, later, tears, ends, drains, waits, ledger, provider,
    rfl⟩
  unfold dispatch
  rw [Task.bind_ok (Task.lift_run _ base)]
  unfold commit
  rw [Task.bind_ok (Task.lift_run _ _), Task.bind_ok (Task.lift_run _ _), teardowns_collectAll]
  change (tearDownAll (signals.filterMap Signal.scope?) >>= _) (shed signals base) = _
  rw [Task.bind_ok tornDown, Task.bind_ok drains, Task.bind_ok (Task.modify_run _ _)]
  rfl

namespace Course

variable {torn torn' drained drained' : World} {ended ended' waited waited' : List GuardId}

/-- What a burst counts is what it did: the cells that are tripped and were not before, and the
    actions that ran. -/
theorem counts (course : Course unsignalled session signals base torn drained ended waited) (sound : base.Sound {} [])
    (midway : Midway unsignalled base base) (lossless : base.Lossless) :
    (tripBatch (collectAll signals base).1.trips (collectAll signals base).2).1
        + (sweep (signals.filterMap Signal.scope?) torn).1 = base.gates.newly drained.gates ∧
      drained.ledger.fired.length = base.ledger.fired.length + (ended.length + waited.length) := by
  obtain ⟨ledger, provider, isDrained⟩ := course.same
  obtain ⟨ledger', provider', isTorn⟩ := course.tears.same
  constructor
  · have hears := collectAll_hears sound midway.tidy signals
    have collected : Tidy [] (collected signals base) := midway.tidy.batched (collected_batched signals base)
    have gates : torn.gates = ((collectAll signals base).1.trips.commit (collectAll signals base).2.gates).2 := by
      rw [isTorn]
      exact (evictAll_culls collected _).1.gates
    obtain ⟨onward, counted⟩ := course.midway.sweep_newly (signals.filterMap Signal.scope?)
    rw [show drained.gates = (sweep (signals.filterMap Signal.scope?) torn).2.gates from isDrained ▸ rfl, counted]
    rw [gates] at onward ⊢
    exact (congrArg (· + _) hears.took.newly_commit).trans (Coherence.Gates.newly_trans hears.took.onward_commit onward).symm
  · have before := (((orphans_carried base).batched (.start midway.watched.followed)
      (shed_batched signals base)).same lossless).2
    have between := (((orphans_carried torn).sweep (signals.filterMap Signal.scope?)
      (.start course.midway.watched.followed.self)).same (course.midway.lossless lossless)).2
    have first := course.ends.fired
    have second := course.waits.fired
    rw [Ledger.fired, Ledger.fired, before] at first
    rw [Ledger.fired, Ledger.fired, between] at second
    rw [Ledger.fired, Ledger.fired, second, first, Nat.add_assoc]

/-- Bursts with the same signals do the same. -/
theorem agree (course : Course unsignalled session signals base torn drained ended waited)
    (course' : Course unsignalled session signals' base torn' drained' ended' waited') (stands : base.Stands unsignalled)
    (midway : Midway unsignalled base base) (lossless : base.Lossless)
    (same : ∀ signal, signal ∈ signals' ↔ signal ∈ signals) :
    Agree base.gates.tripped.size drained drained' ∧
      (sweep (signals'.filterMap Signal.scope?) torn').1 = (sweep (signals.filterMap Signal.scope?) torn).1 ∧
      ended'.length = ended.length ∧ waited'.length = waited.length := by
  have scopes (entry : Address × Bool) :
      entry ∈ signals'.filterMap Signal.scope? ↔ entry ∈ signals.filterMap Signal.scope? := by
    simp only [List.mem_filterMap, same]
  have idle : (signals'.filterMap Signal.scope?).isEmpty = (signals.filterMap Signal.scope?).isEmpty := by
    rw [Bool.eq_iff_iff, List.isEmpty_iff, List.isEmpty_iff, List.eq_nil_iff_forall_not_mem, List.eq_nil_iff_forall_not_mem]
    simp only [scopes]
  -- phase by phase: what is alike before is alike after
  have shed := shed_alike stands midway lossless same
  obtain ⟨torn, ends⟩ := course.tears.alike course'.tears course.ends course'.ends shed scopes
  obtain ⟨swept, tripped⟩ := course.midway.sweep_alike stands lossless course'.midway torn idle
  have watched := (watched_carried base).sweep (signals.filterMap Signal.scope?) course.midway.watched
  have watched' := (watched_carried base).sweep (signals'.filterMap Signal.scope?) course'.midway.watched
  obtain ⟨agree, waits⟩ := drain_agree swept watched.followed watched'.followed (watched.lossless lossless)
    (watched'.lossless lossless) course.drains course'.drains
  exact ⟨agree, tripped, ends, waits⟩

end Course

/-- Two bursts that contain the same signals leave catalogs that agree, and count the same. -/
theorem dispatch_of_set (stands : base.Stands unsignalled) (midway : Midway unsignalled base base) (lossless : base.Lossless)
    (inSession : base.session.isSome = true) (same : ∀ signal, signal ∈ signals' ↔ signal ∈ signals) :
    ∃ dispatched last dispatched' last', dispatch signals base = .ok dispatched last ∧
      dispatch signals' base = .ok dispatched' last' ∧ Agree base.gates.tripped.size last last' ∧
      dispatched'.tripped = dispatched.tripped ∧ dispatched'.released = dispatched.released ∧
      dispatched.tripped = base.gates.newly last.gates ∧
      last.ledger.fired.length = base.ledger.fired.length + dispatched.released := by
  obtain ⟨session, its⟩ := Option.isSome_iff_exists.mp inSession
  obtain ⟨torn, drained, ended, waited, tally, run, course⟩ := dispatch_course stands midway lossless its signals
  obtain ⟨torn', drained', ended', waited', tally', run', course'⟩ :=
    dispatch_course stands midway lossless its signals'
  obtain ⟨agree, tripped, ends, waits⟩ := course.agree course' stands midway lossless same
  obtain ⟨trips, fired⟩ := course.counts stands.sound midway lossless
  obtain ⟨-, counted, -⟩ := collected_alike stands.sound midway.tidy same
  refine ⟨_, _, _, _, run, run', { agree with }, ?_, ?_, trips, fired⟩
  · dsimp only
    rw [counted, tripped]
  · dsimp only
    rw [ends, waits]

end World

namespace Operation

variable {config : Config} {operations : List Operation}

/-- A session that is open is where a burst can be carried out from. -/
theorem after_midway (allowed : AllowedAll operations (World.start config)) {unsignalled : List EntityKey}
    (rests : (after operations (World.start config)).Rests unsignalled)
    (inSession : (after operations (World.start config)).session.isSome = true) :
    World.Midway unsignalled (after operations (World.start config)) (after operations (World.start config)) where
  watched := ⟨(after_settled allowed).followed, id⟩
  keeping := by
    obtain ⟨session, its⟩ := Option.isSome_iff_exists.mp inSession
    have keeping := (after_accounted config allowed).keeping
    rwa [its, Option.map_some] at keeping
  tidy := (Reached.start.run allowed).tidy
  clearing := rests.clearing
  early := Nat.le_refl _

/-- Whatever was carried out before: two bursts that contain the same signals, in whatever order and
    however often, leave catalogs that agree, and count the same.  The cells that are counted are
    those that were tripped and were not before, and the releases are the actions that ran. -/
theorem burst_as_set (config : Config) (operations : List Operation)
    (allowed : AllowedAll operations (World.start config)) (proper : ∀ operation ∈ operations, operation.Proper)
    (inSession : (after operations (World.start config)).session.isSome = true) (signals signals' : List Signal)
    (same : ∀ signal, signal ∈ signals' ↔ signal ∈ signals) :
    let world := after operations (World.start config)
    ∃ dispatched last dispatched' last',
      World.dispatch signals world = .ok dispatched last ∧ World.dispatch signals' world = .ok dispatched' last' ∧
      World.Agree world.gates.tripped.size last last' ∧
      dispatched'.tripped = dispatched.tripped ∧ dispatched'.released = dispatched.released ∧
      dispatched.tripped = world.gates.newly last.gates ∧
      last.ledger.fired.length = world.ledger.fired.length + dispatched.released := by
  have opened : (after operations (World.start config)).isOpen = true := by
    rw [World.isOpen, inSession, Bool.or_true]
  have rests := after_rests allowed proper (World.rests_start config) opened
  exact World.dispatch_of_set rests.stands (after_midway allowed rests inSession) (after_lossless allowed opened) inSession same

/-- An attribute is looked up by a relation that a type resolved, and the descriptor of another type
    is kept in a scope. -/
def scopeRead : List Operation :=
  columnFound ++ [.intern 7 [⟨23⟩], .lookup (.type recordType 7), .read 3 "descriptor" .mutator]

/-- The relation is deleted, and the scope is reset and then deleted. -/
def scopeGone : List Signal := [.row EntityClass.relation.oid ⟨16384⟩ .deleted, .scope ⟨0x10⟩ false, .scope ⟨0x10⟩ true]

/-- The same is told in another order, some of it twice. -/
def scopeGoneAgain : List Signal := [.scope ⟨0x10⟩ true, .row EntityClass.relation.oid ⟨16384⟩ .deleted,
  .scope ⟨0x10⟩ false, .row EntityClass.relation.oid ⟨16384⟩ .deleted]

/-- The gates of both types and of the relation are tripped, and the descriptor is released. -/
theorem burst_as_set_scopeRead : AllowedAll scopeRead (World.start {}) ∧
    ∃ dispatched last dispatched' last',
      World.dispatch scopeGone (after scopeRead (World.start {})) = .ok dispatched last ∧
      World.dispatch scopeGoneAgain (after scopeRead (World.start {})) = .ok dispatched' last' ∧
      World.Agree (after scopeRead (World.start {})).gates.tripped.size last last' ∧
      dispatched'.tripped = dispatched.tripped ∧ dispatched'.released = dispatched.released ∧
      dispatched.tripped = 3 ∧ dispatched.released = 1 := by
  have allowed : AllowedAll scopeRead (World.start {}) := by decide +kernel
  have inSession : (after scopeRead (World.start {})).session.isSome = true := by decide +kernel
  have counts : (match World.dispatch scopeGone (after scopeRead (World.start {})) with
    | .ok dispatched _ => decide (dispatched.tripped = 3 ∧ dispatched.released = 1)
    | .error .. => false) = true := by decide +kernel
  have proper : ∀ operation ∈ scopeRead, operation.Proper := by simp [scopeRead, columnFound, Proper]
  have fewer : scopeGoneAgain ⊆ scopeGone := by simp [scopeGoneAgain, scopeGone]
  have more : scopeGone ⊆ scopeGoneAgain := by simp [scopeGoneAgain, scopeGone]
  -- the run is not to be carried out again
  generalize scopeRead = operations at *
  obtain ⟨dispatched, last, dispatched', last', run, run', agree, tripped, released, -⟩ :=
    burst_as_set {} operations allowed proper inSession scopeGone scopeGoneAgain
      fun _ => ⟨fun among => fewer among, fun among => more among⟩
  rw [run] at counts
  exact ⟨allowed, dispatched, last, dispatched', last', run, run', agree, tripped, released, of_decide_eq_true counts⟩

end Operation

end CatalogReplica.Catalog
