import CatalogReplica.Text.Structured
import CatalogReplica.Fault

/-!
# Cells and gates

A cell is a one-way token: once tripped it stays tripped.  A gate holds the
current cell of one invalidation point and can swap it for a fresh one.  What
was computed under a cell is trusted while the cell is not tripped, so tripping
one cell invalidates everything computed under it.

* `Gates.currentCell?` is the cell that new computations are governed by.
* `Gates.detach` swaps the cell of a gate for a fresh one; the old cell is
  returned, still untripped.
* `Batch.add` detaches the cell of a gate, and `Batch.commit` trips all cells of
  the batch together.
* `Gates.trip` is a batch of one gate.
-/

namespace CatalogReplica.Coherence

open Text (Form)

abbrev CellId := Nat

/-- The number of a gate; the clones of a gate share it. -/
abbrev GateId := Nat

/-- All cells and gates. -/
structure Gates where
  tripped : Array Bool := #[]
  current : Array CellId := #[]
  deriving DecidableEq, Inhabited, Repr

namespace Gates

/-- Makes an untripped cell that no gate holds. -/
def newCell (gates : Gates) : CellId × Gates :=
  (gates.tripped.size, { gates with tripped := gates.tripped.push false })

/-- Makes a gate with a fresh cell. -/
def newGate (gates : Gates) : GateId × Gates :=
  let (cell, gates) := gates.newCell
  (gates.current.size, { gates with current := gates.current.push cell })

/-- The cell that new computations of the gate are governed by. -/
def currentCell? (gates : Gates) (gate : GateId) : Option CellId := gates.current[gate]?

/-- Whether the cell has been tripped. -/
def isTripped (gates : Gates) (cell : CellId) : Bool := gates.tripped[cell]?.getD false

def tripCell (gates : Gates) (cell : CellId) : Gates :=
  { gates with tripped := gates.tripped.setIfInBounds cell true }

/-- Swaps the cell of a gate for a fresh one and gives the old cell, still
    untripped. -/
def detach (gates : Gates) (gate : GateId) : Option (CellId × Gates) :=
  match gates.currentCell? gate with
  | none => none
  | some old =>
      let (fresh, gates) := gates.newCell
      some (old, { gates with current := gates.current.setIfInBounds gate fresh })

end Gates

/-- Gates whose cells were detached to be tripped together. -/
structure Batch where
  gates : List GateId := []
  cells : List CellId := []
  deriving DecidableEq, Inhabited, Repr

namespace Batch

/-- Adds a gate; a gate that is there already is left alone. -/
def add (batch : Batch) (gate : GateId) (gates : Gates) : Batch × Gates :=
  if gate ∈ batch.gates then (batch, gates)
  else
    match gates.detach gate with
    | none => (batch, gates)
    | some (cell, gates) => ({ gates := gate :: batch.gates, cells := cell :: batch.cells }, gates)

def addAll (batch : Batch) : List GateId → Gates → Batch × Gates
  | [], gates => (batch, gates)
  | gate :: rest, gates =>
      let (batch, gates) := batch.add gate gates
      batch.addAll rest gates

/-- Trips the cells and counts those that were not tripped before. -/
def tripCells : List CellId → Gates → Nat × Gates
  | [], gates => (0, gates)
  | cell :: cells, gates =>
      let fresh := if gates.isTripped cell then 0 else 1
      let (count, gates) := tripCells cells (gates.tripCell cell)
      (fresh + count, gates)

/-- Trips all cells of the batch and counts those that were not tripped before. -/
def commit (batch : Batch) (gates : Gates) : Nat × Gates := tripCells batch.cells gates

end Batch

/-- Trips the current cell of a gate and installs a fresh one. -/
def Gates.trip (gates : Gates) (gate : GateId) : Gates :=
  let (batch, gates) := ({} : Batch).add gate gates
  (batch.commit gates).2

def Gates.tripAll (gates : Gates) (trips : List GateId) : Gates := trips.foldl Gates.trip gates

/-- A gate as it is shown. -/
def gateForm : Form :=
  .record "Gate" [("id", .atom Fault.unnumbered), ("cell", .atom Fault.unnumbered)]

/-- A value that is valid while its cell is not tripped. -/
structure Guarded (α : Type) where
  value : α
  cell : CellId
  deriving DecidableEq, Inhabited, Repr

namespace Guarded

variable {α : Type}

/-- Whether the value can still be trusted. -/
def isValid (guarded : Guarded α) (gates : Gates) : Bool := !gates.isTripped guarded.cell

/-- The value, while it can be trusted. -/
def get? (guarded : Guarded α) (gates : Gates) : Option α :=
  if guarded.isValid gates then some guarded.value else none

end Guarded

end CatalogReplica.Coherence
