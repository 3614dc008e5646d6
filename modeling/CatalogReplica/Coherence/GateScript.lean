import CatalogReplica.Names
import CatalogReplica.Coherence.Bound

/-!
# Runs over gates

A `Step` is one operation on cells, gates, guarded values, batches and bound
computations, each kept under a name in a table of its own.  `run` carries out a
list of steps and gives an answer for each.
-/

namespace CatalogReplica.Coherence.GateScript

inductive Step where
  | gate (name : String)
  | clone (gate name : String)
  | cell (name : String)
  | current (gate name : String)
  | cellOf (guarded name : String)
  | tripped (cell : String)
  | same (a b : String)
  | sameGate (a b : String)
  | guard (cell : String) (value : Int) (name : String)
  | get (guarded : String)
  | trip (gate : String)
  | batch (name : String)
  | add (batch gate : String)
  | length (batch : String)
  | commit (batch : String)
  | discard (batch : String)
  | bind (gate name : String) (plan : Plan String String)
  | read (bound : String)
  | showGate (gate : String)
  | showBound (bound : String)
  | status
  deriving Inhabited

inductive Answer where
  | void
  | truth (b : Bool)
  | truths (a b : Bool)
  | count (n : Nat)
  | size (n : Nat)
  | value (value : Option Int)
  | read (outcome : Except Interrupt Int) (calls : Nat)
  | text (text : String)
  /-- Whether each cell is tripped, each guarded value, and the runs of each
      computation. -/
  | status (cells : Names Bool) (guarded : Names (Option Int)) (calls : Names Nat)
  | unset (name : String)

structure Desk where
  state : Bounds Int := {}
  gates : Names GateId := []
  cells : Names CellId := []
  guarded : Names (Guarded Int) := []
  batches : Names Batch := []
  bounds : Names BoundId := []

namespace Desk

def withGates (desk : Desk) (gates : Gates) : Desk :=
  { desk with state := { desk.state with gates } }

/-- Keeps a cell and answers whether it is tripped. -/
def keepCell (desk : Desk) (name : String) (cell : CellId) : Answer × Desk :=
  (.truth (desk.state.gates.isTripped cell), { desk with cells := desk.cells.set name cell })

end Desk

/-- Continues with what a name stands for. -/
def withName {α : Type} (names : Names α) (name : String) (desk : Desk)
    (next : α → Answer × Desk) : Answer × Desk :=
  match names.get? name with
  | some value => next value
  | none => (.unset name, desk)

/-- A plan with its names replaced by what they stand for; unknown names are
    left out. -/
def resolve (desk : Desk) (plan : Plan String String) : Plan BoundId GateId :=
  plan.map fun entry => {
    reads := entry.reads.filterMap desk.bounds.get?
    trips := entry.trips.filterMap desk.gates.get?
    access := entry.access
    finish := entry.finish }

def step (desk : Desk) : Step → Answer × Desk
  | .gate name =>
      let (gate, gates) := desk.state.gates.newGate
      (.void, { desk.withGates gates with gates := desk.gates.set name gate })
  | .clone gate name => withName desk.gates gate desk fun gate =>
      (.void, { desk with gates := desk.gates.set name gate })
  | .cell name =>
      let (cell, gates) := desk.state.gates.newCell
      (.void, { desk.withGates gates with cells := desk.cells.set name cell })
  | .current gate name => withName desk.gates gate desk fun gate =>
      match desk.state.gates.currentCell? gate with
      | some cell => desk.keepCell name cell
      | none => (.void, desk)
  | .cellOf guarded name => withName desk.guarded guarded desk fun guarded =>
      desk.keepCell name guarded.cell
  | .tripped cell => withName desk.cells cell desk fun cell =>
      (.truth (desk.state.gates.isTripped cell), desk)
  | .same a b => withName desk.cells a desk fun a => withName desk.cells b desk fun b =>
      (.truths (a == b) (a == b), desk)
  | .sameGate a b => withName desk.gates a desk fun a => withName desk.gates b desk fun b =>
      (.truth (a == b), desk)
  | .guard cell value name => withName desk.cells cell desk fun cell =>
      let guarded : Guarded Int := { value, cell }
      (.truth (guarded.isValid desk.state.gates),
        { desk with guarded := desk.guarded.set name guarded })
  | .get guarded => withName desk.guarded guarded desk fun guarded =>
      (.value (guarded.get? desk.state.gates), desk)
  | .trip gate => withName desk.gates gate desk fun gate =>
      (.void, desk.withGates (desk.state.gates.trip gate))
  | .batch name => (.void, { desk with batches := desk.batches.set name {} })
  | .add batch gate => withName desk.batches batch desk fun opened =>
      withName desk.gates gate desk fun gate =>
        let (opened, gates) := opened.add gate desk.state.gates
        (.size opened.cells.length,
          { desk.withGates gates with batches := desk.batches.set batch opened })
  | .length batch => withName desk.batches batch desk fun batch =>
      (.size batch.cells.length, desk)
  | .commit batch => withName desk.batches batch desk fun opened =>
      let (count, gates) := opened.commit desk.state.gates
      (.count count, { desk.withGates gates with batches := desk.batches.erase batch })
  | .discard batch => withName desk.batches batch desk fun _ =>
      (.truth true, { desk with batches := desk.batches.erase batch })
  | .bind gate name plan => withName desk.gates gate desk fun gate =>
      let (bound, state) := desk.state.bind gate (resolve desk plan)
      (.void, { desk with state, bounds := desk.bounds.set name bound })
  | .read bound => withName desk.bounds bound desk fun bound =>
      match (Bounds.read bound).attempt desk.state with
      | .ok outcome state => (.read outcome (state.calls bound), { desk with state })
      | .error interrupt state =>
          (.read (.error interrupt) (state.calls bound), { desk with state })
  | .showGate gate => withName desk.gates gate desk fun _ => (.text gateForm.inline, desk)
  | .showBound bound => withName desk.bounds bound desk fun _ =>
      (.text (Text.Form.record "Bound" [("gate", gateForm)]).inline, desk)
  | .status =>
      (.status
        (desk.cells.map fun (name, cell) => (name, desk.state.gates.isTripped cell))
        (desk.guarded.map fun (name, guarded) => (name, guarded.get? desk.state.gates))
        (desk.bounds.map fun (name, bound) => (name, desk.state.calls bound)), desk)

/-- Carries out the steps in order. -/
def run : Desk → List Step → List Answer
  | _, [] => []
  | desk, s :: steps =>
      let (answer, desk) := step desk s
      answer :: run desk steps

end CatalogReplica.Coherence.GateScript
