import CatalogReplica.Proofs.Catalog.Current
import CatalogReplica.Proofs.Catalog.News
import CatalogReplica.Proofs.Catalog.Shedding
import CatalogReplica.Proofs.Catalog.Upkeep

/-!
# A signal about one row

A signal trips the gates of those who depend on its row, and takes entries of a deleted row
away; everything else stays as it was.  What a deletion takes away may be the last that
referred to a thing, which then goes too.

* `World.Precise`: what a signal about a row does.
* `Operation.signal_precise`: that is what it does, whatever was carried out before.
-/

namespace CatalogReplica.Catalog

open Coherence (CellId Memo)
open Lifetime (Ledger)

namespace World

variable {world after : World} {kind : EntityClass} {object : Oid} {id : ThingId} {entity : Entity} {key : EntityKey}

/-! ## What a signal does -/

/-- What a signal about a row does.  The cells are tripped that the gates of those who are
    concerned have; the entries go that go with a row that is deleted, and with them things that
    nothing refers to any more.  Whatever lives keeps its memos, which stay valid at other gates. -/
structure Precise (kind : EntityClass) (object : Oid) (change : Change) (before after : World) : Prop where
  trips : ∀ cell, after.gates.isTripped cell = true ↔ before.gates.isTripped cell = true ∨
    ∃ gate, before.Concerned kind object gate ∧ before.gates.currentCell? gate = some cell
  spared : ∀ gate, ¬ before.Concerned kind object gate →
    after.gates.currentCell? gate = before.gates.currentCell? gate
  memos : ∀ id entity index memo, before.entity? id = some entity → entity.table.memo? index = some memo →
    memo.isValid before.gates = true → ¬ before.Concerned kind object entity.gate → after.alive id = true →
    memo.isValid after.gates = true ∧
      ∃ later, after.entity? id = some later ∧ later.gate = entity.gate ∧ later.table.memo? index = some memo
  entries : ∀ shelf entry, entry ∈ (after.caches.of shelf).table ↔
    entry ∈ (before.caches.of shelf).table ∧ ¬ (Removes kind change ∧ before.Leaves kind object shelf entry.1)
  lives : ∀ id, before.alive id = true → after.alive id = true ∨ Removes kind change ∧ ¬ after.Wanted id
  descriptors : after.caches.descriptors = before.caches.descriptors
  encodings : after.caches.encodings = before.caches.encodings
  session : after.session = before.session
  held : after.held = before.held

theorem Takes.isClass (sound : world.Sound {} []) (found : world.entity? id = some entity) {shelf : EntityClass}
    (takes : Takes entity shelf key) : key.classOid = shelf.oid := by
  cases takes with
  | own => exact (sound.shaped id entity found).named.1
  | attr isRelation known => rfl

/-- The keys that are condemned leave the caches of their classes. -/
theorem leaves_iff (sound : world.Sound {} []) {shelf : EntityClass} :
    (∃ other, world.Leaves kind object other key) ∧ key.classOid = shelf.oid ↔
      world.Leaves kind object shelf key := by
  constructor
  · rintro ⟨⟨other, id, entity, represents, takes⟩, isClass⟩
    have same := EntityClass.oid_injective ((takes.isClass sound represents.cached.1).symm.trans isClass)
    exact ⟨id, entity, represents, same ▸ takes⟩
  · rintro ⟨id, entity, represents, takes⟩
    exact ⟨⟨shelf, id, entity, represents, takes⟩, takes.isClass sound represents.cached.1⟩

/-- What is collected for a row is carried out. -/
theorem Gathers.precise {cascade : Cascade} {state : World} {change : Change} {tied : ThingId → Ties → Ties}
    (sound : world.Sound {} []) (gathers : Gathers world (world.Concerned kind object)
      (fun key => Removes kind change ∧ ∃ shelf, world.Leaves kind object shelf key) tied (cascade, state))
    (carried : ∃ ledger provider, after =
      { (evictAll cascade.evictions (tripBatch cascade.trips state).2).2 with ledger, provider }) :
    Precise kind object change world after := by
  have tidy : Tidy [] (tripBatch cascade.trips state).2 := gathers.tidy.stays ⟨rfl, rfl, rfl, rfl⟩
  obtain ⟨culls, shelves⟩ := evictAll_culls tidy cascade.evictions
  have left : Tidy [] (evictAll cascade.evictions (tripBatch cascade.trips state).2).2 :=
    tidy.edits (Edits.refl.evictAll cascade.evictions : Edits [] _ _ _)
  -- With no key evicted the shelves are untouched, so an update leaves every thing alive.
  have spares (idle : cascade.evictions = []) : (evictAll cascade.evictions (tripBatch cascade.trips state).2).2
      = (tripBatch cascade.trips state).2 := by
    rw [idle]
    rfl
  obtain ⟨ledger, provider, rfl⟩ := carried
  generalize (evictAll cascade.evictions (tripBatch cascade.trips state).2).2 = evicted at culls shelves left spares ⊢
  obtain ⟨heap, caches, typmods, ledger', provider', same⟩ := culls.same
  rw [show (tripBatch cascade.trips state).2.caches = world.caches from gathers.caches] at shelves
  obtain ⟨heap', gates', tally, same'⟩ := gathers.same
  have same' : state = _ := same'
  have gates : evicted.gates = (cascade.trips.commit state.gates).2 := by
    rw [same]
    rfl
  have trips (cell : CellId) : evicted.gates.isTripped cell = true ↔ world.gates.isTripped cell = true ∨
      ∃ gate, world.Concerned kind object gate ∧ world.gates.currentCell? gate = some cell :=
    gates ▸ gathers.took.isTripped_commit cell
  refine { trips, spared := ?spared, memos := ?memos, entries := ?entries, lives := ?lives,
           descriptors := (congrArg (·.descriptors) shelves).trans (Caches.foldl_without _ _).1,
           encodings := (congrArg (·.encodings) shelves).trans (Caches.foldl_without _ _).2,
           session := by rw [same, same']; rfl, held := by rw [same, same']; rfl }
  case spared =>
    exact fun gate unasked => (congrArg (·.currentCell? gate) gates).trans (gathers.took.current_commit unasked)
  case memos =>
    intro id entity index memo found kept valid unasked live
    obtain ⟨cell, -, its, governed⟩ := (sound.shaped id entity found).governed index memo kept
    rw [Memo.isValid_cell its, Bool.not_eq_true'] at valid
    constructor
    · rw [Memo.isValid_cell its, Bool.not_eq_true', Bool.eq_false_iff]
      intro tripped
      obtain before | ⟨gate, concerned, current⟩ := (trips cell).mp tripped
      · rw [valid] at before
        cases before
      · -- the cell is that of one gate only
        obtain rfl := sound.gates.apart gate entity.gate cell current ((governed valid).2 List.not_mem_nil)
        exact unasked concerned
    · obtain ⟨later, there, stays⟩ := culls.stays (gathers.entity? found) live
      exact ⟨later, there, congrArg (·.headD 0) stays.gates, (stays.memo? index).trans kept⟩
  case entries =>
    intro shelf entry
    rw [show ({ evicted with ledger, provider } : World).caches = evicted.caches from rfl, shelves,
      Caches.mem_foldl_without, ← leaves_iff sound, gathers.evictions, and_assoc]
  case lives =>
    intro id live
    by_cases removes : Removes kind change
    · refine (culls.lives left ?_).imp_right fun unwanted => ⟨removes, unwanted⟩
      rw [show (tripBatch cascade.trips state).2.alive = world.alive from gathers.alive]
      exact live
    · have idle : cascade.evictions = [] :=
        List.eq_nil_iff_forall_not_mem.mpr fun key among => removes ((gathers.evictions key).mp among).1
      refine .inl ?_
      change evicted.alive id = true
      rw [spares idle, show (tripBatch cascade.trips state).2.alive = world.alive from gathers.alive]
      exact live

/-! ## Bursts of one signal -/

theorem drain_same (sound : world.ledger.Sound mutatorThread []) :
    ∃ drained ledger provider, drain world = .ok drained { world with ledger, provider } := by
  obtain ⟨drained, ledger, ran⟩ := Ledger.drain_runs sound world.queue
  have run : drain world = .ok drained (setLedger ledger world) :=
    (Task.bind_ok (Task.get_run world)).trans (onLedger_run ran)
  exact ⟨drained, _, _, run⟩

/-- A signal about a row is delivered. -/
theorem dispatch_precise {change : Change} (sound : world.Sound {} []) (tidy : Tidy [] world)
    (followed : Followed world [] world) (valid : object.isValid = true) : ∃ dispatched last,
      dispatch [.row kind.oid object change] world = .ok dispatched last ∧ Precise kind object change world last := by
  have gathers := collectRow_gathers sound tidy valid kind change
  have collects : collectAll [.row kind.oid object change] world
      = collectRow kind object change ({}, count .dispatchSignal world) := by
    change collect (.row kind.oid object change) ({}, count .dispatchSignal world) = _
    unfold collect
    dsimp only
    rw [kind.ofOid?_oid]
  have delivered : Batched [] world {} [] (evictAll (collectAll [.row kind.oid object change] world).1.evictions
      (tripBatch (collectAll [.row kind.oid object change] world).1.trips
        (collectAll [.row kind.oid object change] world).2).2).2 :=
    (Batched.refl.collectAll _).tripBatch.edits (Edits.refl.evictAll _)
  have tracked := (tracked_carried (fun _ => True) world).batched followed delivered
  have idle := teardowns_collectAll [.row kind.oid object change] world
  unfold dispatch
  rw [Task.bind_ok (Task.lift_run _ world)]
  rw [collects] at delivered tracked idle ⊢
  generalize collectRow kind object change ({}, count .dispatchSignal world) = gathered at gathers tracked idle ⊢
  obtain ⟨cascade, state⟩ := gathered
  obtain ⟨drained, ledger, provider, drains⟩ := drain_same tracked.sound
  have idle : cascade.teardowns = [] := idle
  unfold commit
  rw [Task.bind_ok (Task.lift_run _ _), Task.bind_ok (Task.lift_run _ _)]
  dsimp only at drains ⊢
  unfold tearDownAll
  rw [idle, List.isEmpty_nil, if_pos rfl, Task.bind_ok (Task.pure_run _ _), Task.bind_ok drains,
    Task.bind_ok (Task.modify_run _ _)]
  exact ⟨_, _, rfl, gathers.precise sound ⟨_, _, rfl⟩⟩

/-- A signal about a class that no entity belongs to only counts, and lets the queue be drained. -/
theorem dispatch_unknown {classOid : Oid} (unknown : EntityClass.ofOid? classOid = none) (object : Oid)
    (change : Change) (world : World) : dispatch [.row classOid object change] world
      = (do let released ← drain; return { released } : Task World Dispatched) (count .dispatchSignal world) := by
  have collects : collectAll [.row classOid object change] world = ({}, count .dispatchSignal world) := by
    change collect (.row classOid object change) ({}, count .dispatchSignal world) = _
    unfold collect
    dsimp only
    rw [unknown]
  unfold dispatch
  rw [Task.bind_ok (Task.lift_run _ world), collects]
  unfold commit
  rw [Task.bind_ok (Task.lift_run _ _), Task.bind_ok (Task.lift_run _ _)]
  unfold tearDownAll
  rw [List.isEmpty_nil, if_pos rfl, Task.bind_ok (Task.pure_run _ _)]
  change (drain >>= _) (count .dispatchSignal world) = _
  rw [Task.bind_run, Task.bind_run]
  cases drain (count .dispatchSignal world) with
  | ok drained last =>
    dsimp only
    rw [Task.bind_ok (Task.modify_run _ last), Task.pure_run, Task.pure_run]
    -- no cell is tripped, and none is counted
    have counts : last.ledger.tally.add .cellTrip 0 = last.ledger.tally := by
      change { last.ledger.tally with cellTrips := last.ledger.tally.cellTrips + 0 } = last.ledger.tally
      rw [Int.add_zero]
    change EStateM.Result.ok ({ released := 0 + drained } : Dispatched)
      { last with ledger := { last.ledger with tally := last.ledger.tally.add .cellTrip 0 } } = _
    rw [counts, Nat.zero_add]
  | error interrupt last => rfl

end World

namespace Operation

variable {operations : List Operation} {config : Config}

/-- Whatever was carried out before: a signal about a row trips the cells of those who are
    concerned and removes the entries that go with a deleted row, and everything else stays as it
    was; a signal about a class that no entity belongs to changes nothing. -/
theorem signal_precise (config : Config) (operations : List Operation)
    (allowed : AllowedAll operations (World.start config)) (proper : ∀ operation ∈ operations, operation.Proper)
    (inSession : (after operations (World.start config)).session.isSome = true) :
    (∀ kind object change, object.isValid = true → ∃ dispatched last,
      World.dispatch [.row (EntityClass.oid kind) object change] (after operations (World.start config))
        = .ok dispatched last ∧
      World.Precise kind object change (after operations (World.start config)) last) ∧
    ∀ classOid object change, EntityClass.ofOid? classOid = none →
      World.dispatch [.row classOid object change] (after operations (World.start config))
        = (do let released ← World.drain; return { released } : Task World Dispatched)
            (World.count .dispatchSignal (after operations (World.start config))) := by
  have opened : (after operations (World.start config)).isOpen = true := by
    rw [World.isOpen, inSession, Bool.or_true]
  have rests := after_rests allowed proper (World.rests_start config) opened
  have tidy := (Reached.start.run allowed).tidy
  refine ⟨fun kind object change valid => ?_, fun classOid object change unknown => ?_⟩
  · exact World.dispatch_precise rests.stands.sound tidy (after_settled allowed).followed valid
  · exact World.dispatch_unknown unknown object change _

/-- A type resolves its relation, and an attribute of it is looked up. -/
def columnFound : List Operation := [
  .put (.relation ⟨16384⟩ "items" ⟨2200⟩ ⟨16386⟩ 1), .put (.composite ⟨16386⟩ "items" ⟨16384⟩),
  .openSession, .lookup (.type ⟨16386⟩ 4), .read 0 "relation" .mutator, .lookup (.attr ⟨16384⟩ 1)]

theorem signal_precise_relationDeleted : AllowedAll columnFound (World.start {}) ∧
    ∃ relation, (after columnFound (World.start {})).Represents .relation ⟨16384⟩ 1 relation ∧
      ⟨16386⟩ ∈ relation.ties.types ∧
      (attributeKey ⟨16384⟩ 1, 2) ∈ (after columnFound (World.start {})).caches.attributes.table ∧
      ∃ dispatched last,
        World.dispatch [.row EntityClass.relation.oid ⟨16384⟩ .deleted] (after columnFound (World.start {}))
          = .ok dispatched last ∧
        World.Precise .relation ⟨16384⟩ .deleted (after columnFound (World.start {})) last ∧
        (attributeKey ⟨16384⟩ 1, 2) ∉ last.caches.attributes.table := by
  have allowed : AllowedAll columnFound (World.start {}) := by decide +kernel
  have proper : ∀ operation ∈ columnFound, operation.Proper := by simp [columnFound, Proper]
  have inSession : (after columnFound (World.start {})).session.isSome = true := by decide +kernel
  have isRelation : ((after columnFound (World.start {})).entity? 1).any (fun relation =>
      (relation.key, 1) ∈ ((after columnFound (World.start {})).caches.of relation.kind).table ∧
      relation.kind = .relation ∧ relation.key.object = ⟨16384⟩ ∧ ⟨16386⟩ ∈ relation.ties.types ∧
      1 ∈ relation.ties.attributes) = true := by decide +kernel
  have isAttribute : (attributeKey ⟨16384⟩ 1, 2) ∈ (after columnFound (World.start {})).caches.attributes.table := by
    decide +kernel
  -- the run is not to be carried out again
  generalize columnFound = operations at *
  simp only [Option.any_eq_true, decide_eq_true_eq] at isRelation
  obtain ⟨relation, found, entry, isRelation, object, type, column⟩ := isRelation
  have represents : (after operations (World.start {})).Represents .relation ⟨16384⟩ 1 relation :=
    ⟨⟨found, entry⟩, isRelation, object⟩
  obtain ⟨dispatched, last, delivers, precise⟩ :=
    (signal_precise {} operations allowed proper inSession).1 .relation ⟨16384⟩ .deleted (by decide)
  refine ⟨allowed, relation, represents, type, isAttribute, dispatched, last, delivers, precise, fun remains => ?_⟩
  have takes := World.Takes.attr isRelation column
  rw [object] at takes
  exact ((precise.entries .attr _).mp remains).2 ⟨⟨rfl, by decide⟩, 1, relation, represents, takes⟩

end Operation

end CatalogReplica.Catalog
