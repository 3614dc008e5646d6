import CatalogReplica.Coherence.Memo

/-!
# What happens to cells

A cell that is tripped stays tripped, whatever is done with gates.  Detaching a
gate trips nothing; a commit trips the cells of its batch and no others.

* `Gates.isTripped_detach`, `Batch.isTripped_add`: adding gates to a batch trips nothing.
* `Batch.isTripped_commit`: what a commit trips.
* `Gates.Onward`: cells stay tripped, and memos that are valid later were valid before.
-/

namespace CatalogReplica.Coherence

namespace Gates

@[simp] theorem isTripped_newCell (gates : Gates) (cell : CellId) :
    gates.newCell.2.isTripped cell = gates.isTripped cell := by
  simp only [newCell, isTripped, Array.getElem?_push]
  split
  · next last => simp [last]
  · rfl

@[simp] theorem isTripped_newGate (gates : Gates) (cell : CellId) :
    gates.newGate.2.isTripped cell = gates.isTripped cell := by
  rw [← isTripped_newCell gates cell]
  rfl

theorem size_newGate (gates : Gates) : gates.tripped.size ≤ gates.newGate.2.tripped.size := by
  simp only [newGate, newCell, Array.size_push]
  exact Nat.le_succ _

theorem isTripped_tripCell (gates : Gates) (cell other : CellId) :
    (gates.tripCell cell).isTripped other
      = (gates.isTripped other || decide (other = cell ∧ cell < gates.tripped.size)) := by
  simp only [tripCell, isTripped, Array.getElem?_setIfInBounds]
  by_cases same : cell = other
  · subst same
    by_cases inside : cell < gates.tripped.size
    · simp [inside]
    · simp [inside]
  · simp [same, Ne.symm same]

@[simp] theorem size_tripCell (gates : Gates) (cell : CellId) :
    (gates.tripCell cell).tripped.size = gates.tripped.size := by
  simp [tripCell]

@[simp] theorem current_tripCell (gates : Gates) (cell : CellId) :
    (gates.tripCell cell).current = gates.current := rfl

/-- Detaching a gate trips nothing. -/
theorem isTripped_detach {gates detached : Gates} {gate : GateId} {old : CellId}
    (swapped : gates.detach gate = some (old, detached)) (cell : CellId) :
    detached.isTripped cell = gates.isTripped cell := by
  unfold detach at swapped
  split at swapped
  · cases swapped
  · simp only [Option.some.injEq, Prod.mk.injEq] at swapped
    obtain ⟨-, rfl⟩ := swapped
    exact isTripped_newCell gates cell

theorem size_detach {gates detached : Gates} {gate : GateId} {old : CellId}
    (swapped : gates.detach gate = some (old, detached)) :
    gates.tripped.size ≤ detached.tripped.size := by
  unfold detach at swapped
  split at swapped
  · cases swapped
  · simp only [Option.some.injEq, Prod.mk.injEq] at swapped
    obtain ⟨-, rfl⟩ := swapped
    simp only [newCell, Array.size_push]
    exact Nat.le_succ _

/-- Cells that were tripped before are tripped now. -/
def Onward (before after : Gates) : Prop :=
  ∀ cell, before.isTripped cell = true → after.isTripped cell = true

namespace Onward

variable {before after last : Gates}

theorem refl (gates : Gates) : gates.Onward gates := fun _ tripped => tripped

theorem trans (first : before.Onward after) (second : after.Onward last) : before.Onward last :=
  fun cell tripped => second cell (first cell tripped)

theorem of_eq (same : ∀ cell, after.isTripped cell = before.isTripped cell) :
    before.Onward after := fun cell tripped => by rw [same, tripped]

/-- A memo that is valid later was valid before. -/
theorem valid_before {α : Type} {memo : Memo α} (onward : before.Onward after)
    (valid : memo.isValid after = true) : memo.isValid before = true := by
  unfold Memo.isValid at valid ⊢
  split
  · rfl
  · next cell governed =>
    rw [governed] at valid
    cases tripped : before.isTripped cell with
    | false => rfl
    | true =>
      simp only [onward cell tripped] at valid
      exact valid

end Onward

end Gates

namespace Batch

/-- Adding a gate to a batch trips nothing. -/
theorem isTripped_add (batch : Batch) (gate : GateId) (gates : Gates) (cell : CellId) :
    (batch.add gate gates).2.isTripped cell = gates.isTripped cell := by
  unfold add
  split
  · rfl
  · split
    · rfl
    · next swapped => exact Gates.isTripped_detach swapped cell

/-- Tripping cells trips those that exist, and no others. -/
theorem isTripped_tripCells (cells : List CellId) (gates : Gates) (cell : CellId) :
    (tripCells cells gates).2.isTripped cell
      = (gates.isTripped cell || decide (cell ∈ cells ∧ cell < gates.tripped.size)) := by
  induction cells generalizing gates with
  | nil => simp [tripCells]
  | cons first cells inductionHypothesis =>
    simp only [tripCells]
    rw [inductionHypothesis, Gates.isTripped_tripCell, Gates.size_tripCell]
    by_cases same : cell = first
    · subst same
      by_cases inside : cell < gates.tripped.size <;> simp [inside]
    · simp [same]

/-- A commit trips the cells of its batch, and no others. -/
theorem isTripped_commit (batch : Batch) (gates : Gates) (cell : CellId) :
    (batch.commit gates).2.isTripped cell
      = (gates.isTripped cell || decide (cell ∈ batch.cells ∧ cell < gates.tripped.size)) :=
  isTripped_tripCells batch.cells gates cell

@[simp] theorem size_tripCells (cells : List CellId) (gates : Gates) :
    (tripCells cells gates).2.tripped.size = gates.tripped.size := by
  induction cells generalizing gates with
  | nil => rfl
  | cons first cells inductionHypothesis =>
    simp only [tripCells]
    rw [inductionHypothesis, Gates.size_tripCell]

/-- Adding a gate takes no cell away. -/
theorem size_add (batch : Batch) (gate : GateId) (gates : Gates) :
    gates.tripped.size ≤ (batch.add gate gates).2.tripped.size := by
  unfold add
  split
  · exact Nat.le_refl _
  · split
    · exact Nat.le_refl _
    · next swapped => exact Gates.size_detach swapped

/-- Adding a gate takes no cell out of the batch. -/
theorem cells_add {batch : Batch} {cell : CellId} (held : cell ∈ batch.cells) (gate : GateId)
    (gates : Gates) : cell ∈ (batch.add gate gates).1.cells := by
  unfold add
  split
  · exact held
  · split
    · exact held
    · exact List.mem_cons_of_mem _ held

/-- A gate that is new to the batch brings its current cell. -/
theorem mem_cells_add {batch : Batch} {gate : GateId} {gates : Gates} {cell : CellId}
    (absent : gate ∉ batch.gates) (current : gates.currentCell? gate = some cell) :
    cell ∈ (batch.add gate gates).1.cells := by
  unfold add Gates.detach
  rw [if_neg absent, current]
  exact List.mem_cons_self

theorem onward_add (batch : Batch) (gate : GateId) (gates : Gates) :
    gates.Onward (batch.add gate gates).2 := .of_eq (isTripped_add batch gate gates)

theorem onward_commit (batch : Batch) (gates : Gates) : gates.Onward (batch.commit gates).2 := by
  intro cell tripped
  rw [isTripped_commit, tripped, Bool.true_or]

end Batch

namespace Gates

theorem size_trip (gates : Gates) (gate : GateId) :
    gates.tripped.size ≤ (gates.trip gate).tripped.size := by
  unfold trip Batch.commit
  rw [Batch.size_tripCells]
  exact Batch.size_add {} gate gates

theorem onward_trip (gates : Gates) (gate : GateId) : gates.Onward (gates.trip gate) :=
  (Batch.onward_add {} gate gates).trans (Batch.onward_commit _ _)

end Gates

end CatalogReplica.Coherence
