import CatalogReplica.Assoc
import CatalogReplica.Proofs.Coherence.Cells
import CatalogReplica.Proofs.Coherence.Dated

/-!
# Runs of gate operations

Gates are made and tripped, and batches are opened, filled, committed and dropped, in any
order and any number of them at once.  A cell leaves its gate by being tripped, or by going
to a batch, which owes it a trip from then on; a batch that is dropped never pays.

* `Yard.after`: what a run of operations leaves.
* `Yard.Withholds`: a batch took the cell and was not committed.
* `Yard.Sound`: the cells in gates, open batches and dropped ones are apart, and none of
  them is tripped.
* `Yard.Past`, `Yard.Fated`: where a cell that was current once can be.
-/

namespace CatalogReplica.Coherence

/-- Gates, and the batches that are open. -/
structure Yard where
  /-- Cells and gates. -/
  gates : Gates := {}
  /-- The open batches. -/
  batches : Assoc Nat Batch := []
  /-- The cells of the batches that were dropped without a commit. -/
  dropped : List CellId := []
  deriving DecidableEq

/-- One operation on gates. -/
inductive GateStep where
  /-- Makes a gate. -/
  | newGate
  /-- Makes a cell that no gate holds. -/
  | newCell
  /-- Acts on gates. -/
  | act (act : GateAct)
  deriving DecidableEq

namespace Yard

/-- Drops the batch that is open under the number. -/
def drop (yard : Yard) (batch : Nat) : Yard :=
  match yard.batches.get? batch with
  | none => yard
  | some opened =>
      { yard with batches := yard.batches.erase batch, dropped := opened.cells ++ yard.dropped }

/-- Acts on gates; a batch that is not open is left alone. -/
def act (yard : Yard) : GateAct → Yard
  | .openBatch batch => { yard.drop batch with batches := (yard.drop batch).batches.set batch {} }
  | .add batch gate =>
      match yard.batches.get? batch with
      | none => yard
      | some opened =>
          { yard with
            gates := (opened.add gate yard.gates).2
            batches := yard.batches.set batch (opened.add gate yard.gates).1 }
  | .commit batch =>
      match yard.batches.get? batch with
      | none => yard
      | some opened =>
          { yard with
            gates := (opened.commit yard.gates).2, batches := yard.batches.erase batch }
  | .discard batch => yard.drop batch
  | .trip gate => { yard with gates := yard.gates.trip gate }

/-- What an operation leaves. -/
def step (yard : Yard) : GateStep → Yard
  | .newGate => { yard with gates := yard.gates.newGate.2 }
  | .newCell => { yard with gates := yard.gates.newCell.2 }
  | .act act => yard.act act

/-- What a run of operations leaves. -/
def after (yard : Yard) (steps : List GateStep) : Yard := steps.foldl step yard

/-- What a run of operations makes of nothing. -/
def run (steps : List GateStep) : Yard := ({} : Yard).after steps

/-- A batch took the cell, and is still open or was dropped without a commit. -/
def Withholds (yard : Yard) (cell : CellId) : Prop :=
  cell ∈ yard.dropped ∨
    ∃ batch opened, yard.batches.get? batch = some opened ∧ cell ∈ opened.cells

variable {yard : Yard} {cell : CellId} {gate : GateId}

theorem after_append (yard : Yard) (first second : List GateStep) :
    yard.after (first ++ second) = (yard.after first).after second :=
  List.foldl_append

theorem run_append (first second : List GateStep) : run (first ++ second) = (run first).after second :=
  after_append _ first second

variable {opened : Batch} {batch : Nat}

theorem act_add (found : yard.batches.get? batch = some opened) (gate : GateId) :
    yard.act (.add batch gate) =
      { yard with
        gates := (opened.add gate yard.gates).2
        batches := yard.batches.set batch (opened.add gate yard.gates).1 } := by
  simp only [act, found]

theorem act_add_unopened (absent : yard.batches.get? batch = none) (gate : GateId) :
    yard.act (.add batch gate) = yard := by
  simp only [act, absent]

theorem act_commit (found : yard.batches.get? batch = some opened) :
    yard.act (.commit batch) =
      { yard with
        gates := (opened.commit yard.gates).2, batches := yard.batches.erase batch } := by
  simp only [act, found]

theorem act_commit_unopened (absent : yard.batches.get? batch = none) :
    yard.act (.commit batch) = yard := by
  simp only [act, absent]

end Yard

/-! ## Which cells are tripped and which are current -/

namespace Gates

theorem isTripped_trip (gates : Gates) (gate : GateId) (cell : CellId)
    (known : cell < gates.tripped.size) :
    (gates.trip gate).isTripped cell
      = (gates.isTripped cell || decide (gates.currentCell? gate = some cell)) := by
  have known' := Nat.lt_of_lt_of_le known (Batch.size_add {} gate gates)
  -- a trip is the commit of a batch that has this gate alone
  rw [trip, Batch.isTripped_commit, Batch.isTripped_add]
  congr 1
  apply decide_eq_decide.mpr
  obtain ⟨run, among | unknown⟩ | ⟨taken, -, was, run⟩ :=
    Batch.add_cases {} gate gates <;> rw [run] at known' ⊢
  · cases among
  · simp [unknown]
  · simp only [List.mem_singleton, was, Option.some.injEq]
    exact ⟨fun ⟨same, _⟩ => same.symm, fun same => ⟨same.symm, known'⟩⟩

theorem Sound.unbatched {gates : Gates} {trips : Batch} (sound : gates.Sound trips) :
    gates.Sound {} :=
  ⟨fun gate cell current =>
    ⟨(sound.current gate cell current).1, (sound.current gate cell current).2.1, List.not_mem_nil⟩,
    sound.apart, fun _ among => nomatch among⟩

end Gates

/-- A batch holds what it held, and the cell of the gate that was added. -/
theorem Batch.mem_of_add {trips : Batch} {gate : GateId} {gates : Gates} {cell : CellId}
    (held : cell ∈ (trips.add gate gates).1.cells) :
    cell ∈ trips.cells ∨ gates.currentCell? gate = some cell := by
  obtain ⟨run, -⟩ | ⟨taken, -, was, run⟩ := trips.add_cases gate gates <;> rw [run] at held
  · exact .inl held
  · cases List.mem_cons.mp held with
    | inl same => exact .inr (same ▸ was)
    | inr before => exact .inl before

theorem Batch.currentCell?_add {trips : Batch} {gate other : GateId} {gates : Gates} {cell : CellId}
    (found : (trips.add gate gates).2.currentCell? other = some cell) :
    gates.currentCell? other = some cell ∨ cell = gates.tripped.size := by
  obtain ⟨run, -⟩ | ⟨taken, -, -, run⟩ := trips.add_cases gate gates <;> rw [run] at found
  · exact .inl found
  · obtain ⟨-, fresh⟩ | ⟨-, before⟩ := Gates.currentCell?_swap found
    · exact .inr fresh
    · exact .inl before

theorem Gates.currentCell?_trip {gates : Gates} {gate other : GateId} {cell : CellId}
    (found : (gates.trip gate).currentCell? other = some cell) :
    gates.currentCell? other = some cell ∨ cell = gates.tripped.size := by
  rw [trip, currentCell?, Batch.current_commit] at found
  exact Batch.currentCell?_add found

namespace Yard

variable {yard : Yard} {cell : CellId} {gate : GateId} {batch : Nat} {opened : Batch}

@[simp] theorem gates_drop (yard : Yard) (batch : Nat) : (yard.drop batch).gates = yard.gates := by
  unfold drop
  split <;> rfl

theorem get?_drop (yard : Yard) (batch other : Nat) :
    (yard.drop batch).batches.get? other
      = if other = batch then none else yard.batches.get? other := by
  unfold drop
  split
  · next absent =>
    split
    · next same => rw [same, absent]
    · rfl
  · exact Assoc.get?_erase _ _ _

theorem mem_dropped_drop :
    cell ∈ (yard.drop batch).dropped ↔
      cell ∈ yard.dropped ∨ ∃ opened, yard.batches.get? batch = some opened ∧ cell ∈ opened.cells := by
  unfold drop
  split
  · next absent => simp [absent]
  · next opened found => simp [found, or_comm]

/-- A batch that is dropped withholds what it held. -/
theorem withholds_drop : (yard.drop batch).Withholds cell ↔ yard.Withholds cell := by
  unfold Withholds
  rw [mem_dropped_drop]
  simp only [get?_drop]
  constructor
  · rintro ((before | ⟨opened, found, held⟩) | ⟨other, opened, found, held⟩)
    · exact .inl before
    · exact .inr ⟨batch, opened, found, held⟩
    · split at found
      · cases found
      · exact .inr ⟨other, opened, found, held⟩
  · rintro (before | ⟨other, opened, found, held⟩)
    · exact .inl (.inl before)
    · by_cases same : other = batch
      · subst same
        exact .inl (.inr ⟨opened, found, held⟩)
      · exact .inr ⟨other, opened, by rw [if_neg same, found], held⟩

/-- A batch that is opened holds nothing yet. -/
theorem withholds_openBatch : (yard.act (.openBatch batch)).Withholds cell ↔ yard.Withholds cell := by
  have dropped : (yard.drop batch).Withholds cell ↔ yard.Withholds cell := withholds_drop
  refine Iff.trans (or_congr_right ⟨?_, ?_⟩) dropped
  · rintro ⟨other, opened, found, held⟩
    rw [act, Assoc.get?_set] at found
    split at found
    · cases found
      cases held
    · exact ⟨other, opened, found, held⟩
  · rintro ⟨other, opened, found, held⟩
    refine ⟨other, opened, ?_, held⟩
    have differs : other ≠ batch := by
      rintro rfl
      rw [get?_drop, if_pos rfl] at found
      cases found
    rw [act, Assoc.get?_set, if_neg differs, found]

/-- What a batch withholds is withheld when gates are added to it. -/
theorem Withholds.add (withheld : yard.Withholds cell) (batch : Nat) (gate : GateId) :
    (yard.act (.add batch gate)).Withholds cell := by
  cases found : yard.batches.get? batch with
  | none => rwa [act_add_unopened found]
  | some opened =>
    rw [act_add found]
    cases withheld with
    | inl dropped => exact .inl dropped
    | inr held =>
      obtain ⟨other, also, found', held⟩ := held
      by_cases same : other = batch
      · subst same
        rw [found] at found'
        cases found'
        exact .inr ⟨other, _, (Assoc.get?_set ..).trans (if_pos rfl), Batch.cells_add held gate _⟩
      · exact .inr ⟨other, also, by rw [Assoc.get?_set, if_neg same, found'], held⟩

/-- What is withheld after a gate was added was withheld before, or is in the batch. -/
theorem withholds_add (found : yard.batches.get? batch = some opened)
    (withheld : (yard.act (.add batch gate)).Withholds cell) :
    yard.Withholds cell ∨ cell ∈ (opened.add gate yard.gates).1.cells := by
  rw [act_add found] at withheld
  cases withheld with
  | inl dropped => exact .inl (.inl dropped)
  | inr held =>
    obtain ⟨other, also, found', held⟩ := held
    rw [Assoc.get?_set] at found'
    split at found'
    · cases found'
      exact .inr held
    · exact .inl (.inr ⟨other, also, found', held⟩)

/-- A commit makes nothing withheld. -/
theorem withholds_commit (withheld : (yard.act (.commit batch)).Withholds cell) : yard.Withholds cell := by
  cases found : yard.batches.get? batch with
  | none => exact act_commit_unopened found ▸ withheld
  | some opened =>
    rw [act_commit found] at withheld
    cases withheld with
    | inl dropped => exact .inl dropped
    | inr held =>
      obtain ⟨other, also, found', held⟩ := held
      rw [Assoc.get?_erase] at found'
      split at found'
      · cases found'
      · exact .inr ⟨other, also, found', held⟩

/-! ## What every operation keeps -/

/-- What is tripped stays tripped. -/
theorem onward_step (yard : Yard) (step : GateStep) : yard.gates.Onward (yard.step step).gates := by
  cases step with
  | newGate => exact .of_eq (Gates.isTripped_newGate yard.gates)
  | newCell => exact .of_eq (Gates.isTripped_newCell yard.gates)
  | act act =>
    rw [Yard.step]
    cases act with
    | openBatch batch => exact .of_eq fun cell => by rw [act, gates_drop]
    | add batch gate =>
      cases found : yard.batches.get? batch with
      | none => rw [act_add_unopened found]; exact .refl _
      | some opened => rw [act_add found]; exact Batch.onward_add _ _ _
    | commit batch =>
      cases found : yard.batches.get? batch with
      | none => rw [act_commit_unopened found]; exact .refl _
      | some opened => rw [act_commit found]; exact Batch.onward_commit _ _
    | discard batch => exact .of_eq fun cell => by rw [act, gates_drop]
    | trip gate => exact Gates.onward_trip _ _

theorem onward_after (yard : Yard) (steps : List GateStep) : yard.gates.Onward (yard.after steps).gates := by
  induction steps generalizing yard with
  | nil => exact .refl _
  | cons step steps inductionHypothesis =>
    exact (onward_step yard step).trans (inductionHypothesis (yard.step step))

theorem size_step (yard : Yard) (step : GateStep) :
    yard.gates.tripped.size ≤ (yard.step step).gates.tripped.size := by
  cases step with
  | newGate => exact yard.gates.size_newGate
  | newCell => simp [Yard.step, Gates.newCell]
  | act act =>
    cases act with
    | openBatch batch => simp [Yard.step, Yard.act]
    | add batch gate =>
      rw [Yard.step]
      cases found : yard.batches.get? batch with
      | none => exact Nat.le_of_eq (by rw [act_add_unopened found])
      | some opened =>
        rw [act_add found]
        exact Batch.size_add _ _ _
    | commit batch =>
      rw [Yard.step]
      cases found : yard.batches.get? batch with
      | none => exact Nat.le_of_eq (by rw [act_commit_unopened found])
      | some opened => exact Nat.le_of_eq (by rw [act_commit found, Batch.commit, Batch.size_tripCells])
    | discard batch => simp [Yard.step, Yard.act]
    | trip gate => exact Gates.size_trip _ _

/-- A cell that becomes current is new. -/
theorem current_step {step : GateStep}
    (current : (yard.step step).gates.currentCell? gate = some cell) :
    yard.gates.currentCell? gate = some cell ∨ cell = yard.gates.tripped.size := by
  -- A cell becomes current only fresh: by a new gate, an addition or a trip.
  cases step with
  | newGate =>
    rw [Yard.step, Gates.currentCell?_newGate] at current
    split at current
    · cases current
      exact .inr rfl
    · exact .inl current
  | newCell => exact .inl current
  | act act =>
    cases act with
    | openBatch batch =>
      simp only [Yard.step, Yard.act, gates_drop] at current
      exact .inl current
    | add batch other =>
      rw [Yard.step] at current
      cases found : yard.batches.get? batch with
      | none =>
        rw [act_add_unopened found] at current
        exact .inl current
      | some opened =>
        rw [act_add found] at current
        exact Batch.currentCell?_add current
    | commit batch =>
      rw [Yard.step] at current
      cases found : yard.batches.get? batch with
      | none =>
        rw [act_commit_unopened found] at current
        exact .inl current
      | some opened =>
        rw [act_commit found, Gates.currentCell?, Batch.current_commit] at current
        exact .inl current
    | discard batch =>
      simp only [Yard.step, Yard.act, gates_drop] at current
      exact .inl current
    | trip other => exact Gates.currentCell?_trip current

/-- The cell exists, and the gate does not hold it. -/
def Past (gate : GateId) (cell : CellId) (yard : Yard) : Prop :=
  cell < yard.gates.tripped.size ∧ yard.gates.currentCell? gate ≠ some cell

/-- A cell never comes back to its gate. -/
theorem Past.step (past : Past gate cell yard) (step : GateStep) : Past gate cell (yard.step step) := by
  refine ⟨Nat.lt_of_lt_of_le past.1 (size_step yard step), fun current => ?_⟩
  -- gates only ever get cells that did not exist before
  cases current_step current with
  | inl before => exact past.2 before
  | inr fresh => exact Nat.lt_irrefl _ (fresh ▸ past.1)

theorem Past.after (past : Past gate cell yard) (steps : List GateStep) :
    Past gate cell (yard.after steps) := by
  induction steps generalizing yard with
  | nil => exact past
  | cons step steps inductionHypothesis => exact inductionHypothesis (past.step step)

/-! ## What becomes of a cell -/

/-- The cell exists, and while it is not tripped the gate holds it or a batch withholds it. -/
def Fated (gate : GateId) (cell : CellId) (yard : Yard) : Prop :=
  cell < yard.gates.tripped.size ∧ (yard.gates.isTripped cell = false →
    yard.gates.currentCell? gate = some cell ∨ yard.Withholds cell)

namespace Fated

theorem add (fated : Fated gate cell yard) (batch : Nat) (other : GateId) :
    Fated gate cell (yard.act (.add batch other)) := by
  cases found : yard.batches.get? batch with
  | none => rwa [act_add_unopened found]
  | some opened =>
    refine ⟨Nat.lt_of_lt_of_le fated.1 (size_step yard (.act (.add batch other))), fun untripped => ?_⟩
    have before : yard.gates.isTripped cell = false := by
      rw [act_add found] at untripped
      rwa [Batch.isTripped_add] at untripped
    cases fated.2 before with
    | inr withheld => exact .inr (withheld.add batch other)
    | inl current =>
      rw [act_add found]
      dsimp only
      obtain ⟨run, -⟩ | ⟨taken, -, was, run⟩ := opened.add_cases other yard.gates <;> rw [run]
      · exact .inl current
      · -- the cell goes to the batch if its own gate is added, and stays where it is otherwise
        by_cases same : other = gate
        · subst same
          rw [current] at was
          cases was
          exact .inr (.inr ⟨batch, _, (Assoc.get?_set ..).trans (if_pos rfl), List.mem_cons_self⟩)
        · refine .inl ?_
          rw [Gates.currentCell?, Array.getElem?_setIfInBounds, if_neg same]
          exact current

theorem commit (fated : Fated gate cell yard) (batch : Nat) :
    Fated gate cell (yard.act (.commit batch)) := by
  cases found : yard.batches.get? batch with
  | none => rwa [act_commit_unopened found]
  | some opened =>
    refine ⟨Nat.lt_of_lt_of_le fated.1 (size_step yard (.act (.commit batch))), fun untripped => ?_⟩
    rw [act_commit found] at untripped ⊢
    rw [Batch.isTripped_commit, Bool.or_eq_false_iff, decide_eq_false_iff_not] at untripped
    obtain ⟨before, spared⟩ := untripped
    cases fated.2 before with
    | inl current =>
      rw [Gates.currentCell?, Batch.current_commit]
      exact .inl current
    | inr withheld =>
      cases withheld with
      | inl dropped => exact .inr (.inl dropped)
      | inr held =>
        obtain ⟨other, also, found', held⟩ := held
        -- the batch that is committed would have tripped it
        have differs : other ≠ batch := by
          rintro rfl
          rw [found] at found'
          cases found'
          exact spared ⟨held, fated.1⟩
        exact .inr (.inr ⟨other, also, by rw [Assoc.get?_erase, if_neg differs, found'], held⟩)

theorem trip (fated : Fated gate cell yard) (other : GateId) :
    Fated gate cell (yard.act (.trip other)) := by
  refine ⟨Nat.lt_of_lt_of_le fated.1 (Gates.size_trip _ _), fun untripped => ?_⟩
  rw [act, Gates.isTripped_trip _ _ _ fated.1, Bool.or_eq_false_iff, decide_eq_false_iff_not] at untripped
  obtain ⟨before, spared⟩ := untripped
  cases fated.2 before with
  | inr withheld => exact .inr withheld
  | inl current =>
    refine .inl ?_
    rw [act, Gates.trip, Gates.currentCell?, Batch.current_commit]
    obtain ⟨run, -⟩ | ⟨taken, -, -, run⟩ := Batch.add_cases {} other yard.gates <;> rw [run]
    · exact current
    · rw [Array.getElem?_setIfInBounds, if_neg]
      · exact current
      · rintro rfl
        exact spared current

theorem step (fated : Fated gate cell yard) (step : GateStep) : Fated gate cell (yard.step step) := by
  cases step with
  | newGate =>
    refine ⟨Nat.lt_of_lt_of_le fated.1 yard.gates.size_newGate, fun untripped => ?_⟩
    rw [Yard.step, Gates.isTripped_newGate] at untripped
    exact (fated.2 untripped).imp_left (yard.gates.grows_newGate.current gate cell)
  | newCell =>
    refine ⟨Nat.lt_of_lt_of_le fated.1 (size_step yard .newCell), fun untripped => ?_⟩
    rw [Yard.step, Gates.isTripped_newCell] at untripped
    exact fated.2 untripped
  | act act =>
    cases act with
    | openBatch batch =>
      refine ⟨Nat.lt_of_lt_of_le fated.1 (size_step yard _), fun untripped => ?_⟩
      rw [Yard.step, withholds_openBatch]
      simp only [Yard.step, Yard.act, gates_drop] at untripped ⊢
      exact fated.2 untripped
    | add batch other => exact fated.add batch other
    | commit batch => exact fated.commit batch
    | discard batch =>
      refine ⟨Nat.lt_of_lt_of_le fated.1 (size_step yard _), fun untripped => ?_⟩
      simp only [Yard.step, Yard.act, gates_drop, withholds_drop] at untripped ⊢
      exact fated.2 untripped
    | trip other => exact fated.trip other

theorem after (fated : Fated gate cell yard) (steps : List GateStep) :
    Fated gate cell (yard.after steps) := by
  induction steps generalizing yard with
  | nil => exact fated
  | cons step steps inductionHypothesis => exact inductionHypothesis (fated.step step)

end Fated

/-! ## How a cell leaves its gate -/

/-- A trip swaps the cell of its gate. -/
theorem past_trip (fated : Fated gate cell yard) : Past gate cell (yard.act (.trip gate)) := by
  refine ⟨(fated.trip gate).1, fun current => ?_⟩
  rw [act, Gates.trip, Gates.currentCell?, Batch.current_commit] at current
  obtain ⟨run, among | unknown⟩ | ⟨taken, -, was, run⟩ := Batch.add_cases {} gate yard.gates
  · cases among
  · rw [run] at current
    exact Option.some_ne_none cell (current.symm.trans unknown)
  · rw [run, Array.getElem?_setIfInBounds_self] at current
    split at current
    · -- the gate has the fresh cell now, and the other one existed before
      exact Nat.lt_irrefl _ (Option.some.inj current ▸ fated.1)
    · cases current

/-- A batch that is new to a gate swaps its cell. -/
theorem past_add {opened : Batch} (found : yard.batches.get? batch = some opened)
    (new : gate ∉ opened.gates) (fated : Fated gate cell yard) :
    Past gate cell (yard.act (.add batch gate)) := by
  refine ⟨(fated.add batch gate).1, fun current => ?_⟩
  rw [act_add found] at current
  obtain ⟨run, among | unknown⟩ | ⟨taken, -, was, run⟩ := opened.add_cases gate yard.gates
  · exact new among
  · rw [run] at current
    exact Option.some_ne_none cell (current.symm.trans unknown)
  · rw [run, Gates.currentCell?, Array.getElem?_setIfInBounds_self] at current
    split at current
    · exact Nat.lt_irrefl _ (Option.some.inj current ▸ fated.1)
    · cases current

/-- After a trip of its gate in a run, the gate does not hold the cell any more. -/
theorem past_of_trip {steps : List GateStep} (fated : Fated gate cell yard)
    (tripped : .act (.trip gate) ∈ steps) : Past gate cell (yard.after steps) := by
  obtain ⟨before, later, rfl⟩ := List.append_of_mem tripped
  rw [after_append]
  exact (past_trip (fated.after before)).after later

/-! ## Cells in gates and batches -/

/-- The cells in gates, in open batches and in dropped ones exist, are not tripped, and are
    in one place each. -/
structure Sound (yard : Yard) : Prop where
  gates : yard.gates.Sound {}
  held : ∀ cell, yard.Withholds cell → cell < yard.gates.tripped.size ∧
    yard.gates.isTripped cell = false ∧ ∀ gate, yard.gates.currentCell? gate ≠ some cell
  once : ∀ batch opened, yard.batches.get? batch = some opened → ∀ cell ∈ opened.cells,
    cell ∉ yard.dropped ∧
      ∀ other also, yard.batches.get? other = some also → cell ∈ also.cells → other = batch

namespace Sound

theorem start : ({} : Yard).Sound := by
  refine ⟨Gates.sound_blank, ?_, fun _ _ opened => nomatch opened⟩
  rintro cell (dropped | ⟨_, _, opened, -⟩)
  · cases dropped
  · cases opened

/-- New cells and gates take nothing from anyone. -/
theorem grows {gates : Gates} (sound : yard.Sound) (grown : yard.gates.Grows gates)
    (still : gates.Sound {})
    (fresh : ∀ gate cell, gates.currentCell? gate = some cell →
      yard.gates.currentCell? gate = some cell ∨ cell = yard.gates.tripped.size) :
    ({ yard with gates } : Yard).Sound := by
  refine ⟨still, fun cell withheld => ?_, sound.once⟩
  obtain ⟨known, untripped, apart⟩ := sound.held cell withheld
  refine ⟨Nat.lt_of_lt_of_le known grown.cells, (grown.tripped cell known).trans untripped,
    fun gate current => ?_⟩
  cases fresh gate cell current with
  | inl before => exact apart gate before
  | inr new => exact Nat.lt_irrefl _ (new ▸ known)

theorem newCell (sound : yard.Sound) : (yard.step .newCell).Sound := by
  refine sound.grows ⟨by simp [Gates.newCell], Nat.le_refl _, fun _ _ current => current,
    fun cell _ => Gates.isTripped_newCell _ _⟩ ?_ fun gate cell current => .inl current
  refine ⟨fun gate cell current => ?_, sound.gates.apart, by rintro _ ⟨⟩⟩
  obtain ⟨known, untripped, apart⟩ := sound.gates.current gate cell current
  exact ⟨Nat.lt_of_lt_of_le known (by simp [Gates.newCell]),
    (Gates.isTripped_newCell _ _).trans untripped, apart⟩

/-- The cells of an open batch are apart from those in gates. -/
theorem batched (sound : yard.Sound) {opened : Batch} (found : yard.batches.get? batch = some opened) :
    yard.gates.Sound opened where
  current gate cell current := by
    obtain ⟨known, untripped, -⟩ := sound.gates.current gate cell current
    refine ⟨known, untripped, fun held => ?_⟩
    exact (sound.held cell (.inr ⟨batch, opened, found, held⟩)).2.2 gate current
  apart := sound.gates.apart
  held cell held := (sound.held cell (.inr ⟨batch, opened, found, held⟩)).1

theorem drop (sound : yard.Sound) (batch : Nat) : (yard.drop batch).Sound := by
  refine ⟨by simpa using sound.gates, fun cell withheld => ?_, fun other opened found cell held => ?_⟩
  · simpa using sound.held cell (withholds_drop.mp withheld)
  · rw [get?_drop] at found
    split at found
    · cases found
    · next differs =>
      obtain ⟨kept, alone⟩ := sound.once other opened found cell held
      refine ⟨fun dropped => ?_, fun third also found' held' => ?_⟩
      · obtain before | ⟨also, found', held'⟩ := mem_dropped_drop.mp dropped
        · exact kept before
        · exact differs (alone batch also found' held').symm
      · rw [get?_drop] at found'
        split at found'
        · cases found'
        · exact alone third also found' held'

theorem openBatch (sound : yard.Sound) (batch : Nat) : (yard.act (.openBatch batch)).Sound := by
  have dropped := sound.drop batch
  refine ⟨dropped.gates, fun cell withheld => ?_, fun other opened found cell held => ?_⟩
  · have before := dropped.held cell (withholds_drop.mpr (withholds_openBatch.mp withheld))
    exact before
  · simp only [act, Assoc.get?_set] at found ⊢
    split at found
    · cases found
      cases held
    · obtain ⟨kept, alone⟩ := dropped.once other opened found cell held
      refine ⟨kept, fun third also found' held' => ?_⟩
      split at found'
      · cases found'
        cases held'
      · exact alone third also found' held'

theorem add (sound : yard.Sound) (batch : Nat) (gate : GateId) : (yard.act (.add batch gate)).Sound := by
  cases found : yard.batches.get? batch with
  | none => rwa [act_add_unopened found]
  | some opened =>
    have swapped := (sound.batched found).add gate
    -- the cells that the batch takes leave their gates, so nobody else holds them
    have alone : ∀ cell ∈ (opened.add gate yard.gates).1.cells, cell ∉ yard.dropped ∧
        ∀ other also, yard.batches.get? other = some also → cell ∈ also.cells → other = batch := by
      intro cell held
      cases Batch.mem_of_add held with
      | inl before => exact sound.once batch opened found cell before
      | inr was =>
        -- it was current until now
        exact ⟨fun dropped => (sound.held cell (.inl dropped)).2.2 gate was, fun other also found' held' =>
          absurd was ((sound.held cell (.inr ⟨other, also, found', held'⟩)).2.2 gate)⟩
    refine ⟨?_, fun cell withheld => ?_, ?_⟩
    · rw [act_add found]
      exact swapped.unbatched
    · cases withholds_add found withheld with
      | inl before =>
        obtain ⟨known, untripped, apart⟩ := sound.held cell before
        refine ⟨Nat.lt_of_lt_of_le known (size_step yard (.act (.add batch gate))), ?_, fun other => ?_⟩
        · rwa [act_add found, Batch.isTripped_add]
        · exact (Past.step ⟨known, apart other⟩ (.act (.add batch gate))).2
      | inr held =>
        rw [act_add found]
        refine ⟨swapped.held cell held, ?_, fun other current => (swapped.current other cell current).2.2 held⟩
        rw [Batch.isTripped_add]
        cases Batch.mem_of_add held with
        | inl before => exact (sound.held cell (.inr ⟨batch, opened, found, before⟩)).2.1
        | inr was => exact (sound.gates.current gate cell was).2.1
    · rw [act_add found]
      intro other also found' cell held
      have apart : cell ∉ yard.dropped ∧ ∀ third fourth, yard.batches.get? third = some fourth →
          cell ∈ fourth.cells → third = other := by
        rw [Assoc.get?_set] at found'
        split at found'
        · next same =>
          cases found'
          exact same ▸ alone cell held
        · exact sound.once other also found' cell held
      refine ⟨apart.1, fun third fourth found'' held' => ?_⟩
      rw [Assoc.get?_set] at found' found''
      split at found''
      · next same =>
        cases found''
        rw [same]
        split at found'
        · next same' => exact same'.symm
        · exact ((alone cell held').2 other also found' held).symm
      · exact apart.2 third fourth found'' held'

/-- A commit trips what its batch withholds, and nothing that others do. -/
theorem commit (sound : yard.Sound) (batch : Nat) : (yard.act (.commit batch)).Sound := by
  cases found : yard.batches.get? batch with
  | none => rwa [act_commit_unopened found]
  | some opened =>
    -- Cells leave the yard with the batch, so what is still withheld elsewhere was withheld before.
    refine ⟨?_, fun cell withheld => ?_, ?_⟩
    · rw [act_commit found]
      exact (sound.batched found).commit
    · obtain ⟨known, untripped, apart⟩ := sound.held cell (withholds_commit withheld)
      refine ⟨Nat.lt_of_lt_of_le known (size_step yard (.act (.commit batch))), ?_, fun other => ?_⟩
      · -- a cell has one place: what others withhold is not in this batch
        have spared : cell ∉ opened.cells := by
          intro held
          obtain ⟨kept, alone⟩ := sound.once batch opened found cell held
          rw [act_commit found] at withheld
          obtain dropped | ⟨other, also, found', held'⟩ := withheld
          · exact kept dropped
          · rw [Assoc.get?_erase] at found'
            split at found'
            · cases found'
            · next differs => exact differs (alone other also found' held')
        rw [act_commit found, Batch.isTripped_commit, untripped, Bool.false_or, decide_eq_false_iff_not]
        exact fun held => spared held.1
      · exact (Past.step ⟨known, apart other⟩ (.act (.commit batch))).2
    · rw [act_commit found]
      intro other also found' cell held
      rw [Assoc.get?_erase] at found'
      split at found'
      · cases found'
      · obtain ⟨kept, alone⟩ := sound.once other also found' cell held
        refine ⟨kept, fun third fourth found'' held' => ?_⟩
        rw [Assoc.get?_erase] at found''
        split at found''
        · cases found''
        · exact alone third fourth found'' held'

/-- A trip trips a cell that its gate held, and nothing that batches withhold. -/
theorem trip (sound : yard.Sound) (gate : GateId) : (yard.act (.trip gate)).Sound := by
  refine ⟨(sound.gates.add gate).commit, fun cell withheld => ?_, sound.once⟩
  obtain ⟨known, untripped, apart⟩ := sound.held cell withheld
  refine ⟨Nat.lt_of_lt_of_le known (Gates.size_trip _ _), ?_, fun other => ?_⟩
  · rw [act, Gates.isTripped_trip _ _ _ known, untripped, Bool.false_or, decide_eq_false_iff_not]
    exact apart gate
  · exact (Past.step ⟨known, apart other⟩ (.act (.trip gate))).2

theorem step (sound : yard.Sound) (step : GateStep) : (yard.step step).Sound := by
  cases step with
  | newGate =>
    refine sound.grows yard.gates.grows_newGate sound.gates.newGate fun gate cell current => ?_
    exact @current_step yard cell gate .newGate current
  | newCell => exact sound.newCell
  | act act =>
    cases act with
    | openBatch batch => exact sound.openBatch batch
    | add batch gate => exact sound.add batch gate
    | commit batch => exact sound.commit batch
    | discard batch => exact sound.drop batch
    | trip gate => exact sound.trip gate

theorem after (sound : yard.Sound) (steps : List GateStep) : (yard.after steps).Sound := by
  induction steps generalizing yard with
  | nil => exact sound
  | cons step steps inductionHypothesis => exact inductionHypothesis (sound.step step)

theorem run (steps : List GateStep) : (Yard.run steps).Sound := start.after steps

/-- What a gate holds has not left it yet. -/
theorem fated (sound : yard.Sound) (current : yard.gates.currentCell? gate = some cell) :
    Fated gate cell yard :=
  ⟨(sound.gates.current gate cell current).1, fun _ => .inl current⟩

/-- A cell that left its gate is not tripped just while a batch withholds it. -/
theorem untripped_iff (sound : yard.Sound) (fated : Fated gate cell yard) (past : Past gate cell yard) :
    yard.gates.isTripped cell = false ↔ yard.Withholds cell :=
  ⟨fun untripped => (fated.2 untripped).resolve_left past.2,
    fun withheld => (sound.held cell withheld).2.1⟩

end Sound

end Yard

end CatalogReplica.Coherence
