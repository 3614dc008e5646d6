import CatalogReplica.Coherence.Race
import CatalogReplica.Proofs.Turns

/-!
# Steps of simultaneous readers

A step moves one reader on, changes what that step is about, and leaves the other readers
where they are.

* `Race.Advance`: what one step does, where the slot is there and may be computed.
* `Race.Frame`: what a step leaves as it is.
* `Race.weight_of_readers`: how a sum over the readers changes as one of them moves.
-/

namespace CatalogReplica.Coherence.Race

variable {ν : Type} {race next : Race ν} {reader other : Nat} {phase old : ReaderPhase ν}

/-! ## Phases of readers -/

theorem readers_moveTo_self (race : Race ν) (here : race.readers[reader]? = some old) (phase : ReaderPhase ν) :
    (race.moveTo reader phase).readers[reader]? = some phase := Turns.getElem?_set_self here phase

theorem readers_moveTo_of_ne (differs : other ≠ reader) : (race.moveTo reader phase).readers[other]? = race.readers[other]? :=
  Turns.getElem?_set_of_ne differs phase

/-- The sum of what the readers weigh, each by its phase. -/
def weight (race : Race ν) (weigh : ReaderPhase ν → Nat) : Nat := Turns.total race.readers weigh

/-- A reader that moves weighs in its new phase instead of its old one. -/
theorem weight_of_readers (here : race.readers[reader]? = some old) (moved : next.readers = (race.moveTo reader phase).readers)
    (weigh : ReaderPhase ν → Nat) : next.weight weigh + weigh old = race.weight weigh + weigh phase := by
  rw [weight, moved]
  exact Turns.total_set here phase weigh

/-! ## Steps -/

/-- The cell, if there is one, is not tripped. -/
def Trusted (gates : Gates) (cell : Option CellId) : Prop := ∀ id, cell = some id → gates.isTripped id = false

/-- The slot is there, every reader may compute it, and there is a cell to compute under. -/
structure Able (race : Race ν) : Prop where
  there : race.spec.index < race.table.memos.size
  permitted : ∀ reader < race.readers.size, race.spec.refusal (race.access reader) = none
  governed : ∃ cell, race.governor = some cell ∧ Trusted race.gates cell

/-- What one step of a reader does. -/
inductive Advance (race : Race ν) (reader : Nat) : Race ν → Prop where
  | hit {value : ν} (here : race.readers[reader]? = some .start) (valid : race.valid? = some value) :
      Advance race reader ((race.count .slotHit).moveTo reader (.done (.ok value)))
  | skip (here : race.readers[reader]? = some .start) (invalid : race.valid? = none) (duplicate : race.spec.flight = .duplicate) :
      Advance race reader (race.moveTo reader .cleared)
  | queue (here : race.readers[reader]? = some .start) (invalid : race.valid? = none) (single : race.spec.flight = .single) :
      Advance race reader (race.moveTo reader .waiting)
  | lock (here : race.readers[reader]? = some .waiting) (free : race.holder = none) :
      Advance race reader { race.moveTo reader .locked with holder := some reader }
  | hitAgain {value : ν} (here : race.readers[reader]? = some .locked) (valid : race.valid? = some value) :
      Advance race reader ((race.count .slotHit).moveTo reader (.leaving (.ok value)))
  | clear (here : race.readers[reader]? = some .locked) (invalid : race.valid? = none) :
      Advance race reader (race.moveTo reader .cleared)
  | begin {cell : Option CellId} (here : race.readers[reader]? = some .cleared) (trusted : Trusted race.gates cell) :
      Advance race reader { race.moveTo reader (.computing race.calls cell) with callers := race.callers.push reader }
  | finish {call : Nat} {cell : Option CellId} {value : ν} (here : race.readers[reader]? = some (.computing call cell))
      (cached : race.outcome call = .ok (.cached value)) :
      Advance race reader ((race.count .slotCompute).moveTo reader (.storing value cell))
  | pass {call : Nat} {cell : Option CellId} {value : ν} (here : race.readers[reader]? = some (.computing call cell))
      (transient : race.outcome call = .ok (.transient value)) :
      Advance race reader ((race.count .slotTransient).moveTo reader (.leaving (.ok value)))
  | fail {call : Nat} {cell : Option CellId} {interrupt : Interrupt} (here : race.readers[reader]? = some (.computing call cell))
      (failed : race.outcome call = .error interrupt) :
      Advance race reader (race.moveTo reader (.leaving (.error interrupt)))
  | store {value : ν} {cell : Option CellId} (here : race.readers[reader]? = some (.storing value cell)) :
      Advance race reader (race.store reader value cell)
  | leave {answer : Except Interrupt ν} (here : race.readers[reader]? = some (.leaving answer)) :
      Advance race reader { race.moveTo reader (.done answer) with
        holder := if race.holder = some reader then none else race.holder }

theorem unlock_eq (race : Race ν) (reader : Nat) :
    race.unlock reader = { race with holder := if race.holder = some reader then none else race.holder } := by
  unfold unlock
  split <;> rfl

theorem Able.advance (able : race.Able) (moved : race.step reader = some next) : Advance race reader next := by
  -- One move for each phase; where a phase branches, so does the relation.
  unfold step at moved
  split at moved
  next => cases moved
  next here =>
    have inside : reader < race.readers.size := (Array.getElem?_eq_some_iff.mp here).1
    cases moved
    unfold look
    rw [if_pos able.there]
    cases valid : race.valid? with
    | some value => exact .hit here valid
    | none =>
      dsimp only
      rw [able.permitted reader inside]
      dsimp only
      cases flight : race.spec.flight with
      | duplicate => exact .skip here valid flight
      | single => exact .queue here valid flight
  next here =>
    cases free : race.holder with
    | some holder =>
      rw [free] at moved
      cases moved
    | none =>
      rw [free] at moved
      cases moved
      exact .lock here free
  next here =>
    cases moved
    unfold lookAgain
    cases valid : race.valid? with
    | some value => exact .hitAgain here valid
    | none => exact .clear here valid
  next here =>
    cases moved
    obtain ⟨cell, governed, trusted⟩ := able.governed
    unfold compute
    rw [governed]
    exact .begin here trusted
  next call cell here =>
    cases moved
    unfold conclude
    cases ended : race.outcome call with
    | error interrupt => exact .fail here ended
    | ok computed =>
      cases computed with
      | cached value => exact .finish here ended
      | transient value => exact .pass here ended
  next here =>
    cases moved
    exact .store here
  next here =>
    cases moved
    rw [unlock_eq]
    exact .leave here
  next => cases moved

theorem Advance.inside (advance : Advance race reader next) : reader < race.readers.size := by
  cases advance with
  | hit here | skip here | queue here | lock here | hitAgain here | clear here | begin here | finish here | pass here
  | fail here | store here | leave here => exact (Array.getElem?_eq_some_iff.mp here).1

/-- What a step of a reader leaves as it is. -/
structure Frame (race : Race ν) (reader : Nat) (next : Race ν) : Prop where
  spec : next.spec = race.spec
  access : next.access = race.access
  outcome : next.outcome = race.outcome
  gates : next.gates = race.gates
  governed : next.table.gates = race.table.gates
  slots : next.table.memos.size = race.table.memos.size
  crowd : next.readers.size = race.readers.size
  others : ∀ other, other ≠ reader → next.readers[other]? = race.readers[other]?
  callers : next.callers = race.callers ∨ next.callers = race.callers.push reader ∧ race.readers[reader]? = some .cleared

theorem frame_of_readers {phase : ReaderPhase ν} (spec : next.spec = race.spec) (access : next.access = race.access)
    (outcome : next.outcome = race.outcome) (gates : next.gates = race.gates) (table : next.table = race.table)
    (readers : next.readers = (race.moveTo reader phase).readers)
    (callers : next.callers = race.callers ∨ next.callers = race.callers.push reader ∧ race.readers[reader]? = some .cleared) :
    Frame race reader next where
  spec := spec
  access := access
  outcome := outcome
  gates := gates
  governed := congrArg _ table
  slots := congrArg (·.memos.size) table
  crowd := by rw [readers, moveTo, Array.size_setIfInBounds]
  others := fun other differs => by rw [readers, readers_moveTo_of_ne differs]
  callers := callers

theorem Advance.frame (advance : Advance race reader next) : Frame race reader next := by
  cases advance with
  | store here =>
    refine ⟨rfl, rfl, rfl, rfl, rfl, ?_, ?_, fun other differs => ?_, .inl rfl⟩
    · simp only [Race.store, SlotTable.keep, Array.size_setIfInBounds]
    · simp only [Race.store, moveTo, Array.size_setIfInBounds]
    · exact readers_moveTo_of_ne differs
  | begin here => exact frame_of_readers rfl rfl rfl rfl rfl rfl (.inr ⟨rfl, here⟩)
  | _ => exact frame_of_readers rfl rfl rfl rfl rfl rfl (.inl rfl)

theorem Able.step (able : race.Able) (frame : Frame race reader next) : next.Able where
  there := by rw [frame.spec, frame.slots]; exact able.there
  permitted := by rw [frame.crowd, frame.spec, frame.access]; exact able.permitted
  governed := by
    have same : next.governor = race.governor := by
      unfold governor
      rw [frame.spec, frame.governed, frame.gates]
    rw [same, frame.gates]
    exact able.governed

end CatalogReplica.Coherence.Race
