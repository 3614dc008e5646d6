import CatalogReplica.Coherence.Memo
import CatalogReplica.Coherence.Plan

/-!
# Bound computations

A `Bound` is a planned computation whose result is kept under the current cell
of its gate.  Its plan reads earlier bounds only, so `Bounds.read` recurses on
the number of the bound.
-/

namespace CatalogReplica.Coherence

/-- The number of a bound computation. -/
abbrev BoundId := Nat

/-- A computation bound to a gate, with results of type `α`. -/
structure Bound (α : Type) where
  gate : GateId
  plan : Plan BoundId GateId
  calls : Nat := 0
  memo : Option (Memo α) := none
  deriving Inhabited

/-- Gates and the computations bound to them. -/
structure Bounds (α : Type) where
  gates : Gates := {}
  /-- The computations, each reading only those before it. -/
  bounds : Array (Bound α) := #[]
  deriving Inhabited

namespace Bounds

section

variable {α : Type}

/-- Binds a planned computation to a gate. -/
def bind (state : Bounds α) (gate : GateId) (plan : Plan BoundId GateId) : BoundId × Bounds α :=
  (state.bounds.size, { state with bounds := state.bounds.push { gate, plan } })

def update (state : Bounds α) (id : BoundId) (f : Bound α → Bound α) : Bounds α :=
  { state with bounds := state.bounds.modify id f }

/-- How often the computation ran. -/
def calls (state : Bounds α) (id : BoundId) : Nat := (state.bounds[id]?.map (·.calls)).getD 0

/-- Where the result of a computation is kept. -/
def place (id : BoundId) : Place (Bounds α) α where
  peek state := do (← (← state.bounds[id]?).memo).get? state.gates
  cell := do
    let state ← get
    return state.bounds[id]?.bind fun bound => state.gates.currentCell? bound.gate
  keep memo state := state.update id fun bound => { bound with memo := some memo }

end

/-- Counts a run and gives the entry for it. -/
def nextEntry (id : BoundId) : Task (Bounds Int) (PlanEntry BoundId GateId) := do
  match (← get).bounds[id]? with
  | none => Task.crash
  | some bound =>
      modify (·.update id fun bound => { bound with calls := bound.calls + 1 })
      return bound.plan.entry bound.calls

/-- Adds up the values of the computations before number `id`. -/
def sum (id : BoundId) (read : (r : BoundId) → r < id → Task (Bounds Int) Int) :
    List BoundId → Task (Bounds Int) Int
  | [] => return 0
  | r :: rs => do
      let value ← if h : r < id then read r h else pure 0
      return value + (← sum id read rs)

/-- The end of a planned run that read values with the given sum. -/
def finish {σ : Type} (sum : Int) : PlanEnd → Task σ (Computed Int)
  | .crash note => Task.crash (PlanEnd.note note)
  | .fail kind message => Task.fail { kind, message }
  | .transient value => return .transient (value + sum)
  | .cached value => return .cached (value + sum)

/-- Runs a computation: it is counted, reads, trips, and ends. -/
def run (id : BoundId) (read : (r : BoundId) → r < id → Task (Bounds Int) Int) :
    Task (Bounds Int) (Computed Int) := do
  let entry ← nextEntry id
  let total ← sum id read entry.reads
  modify fun state => { state with gates := state.gates.tripAll entry.trips }
  finish total entry.finish

/-- Reads a computation: the kept result while it is valid, a new one otherwise. -/
def read (id : BoundId) : Task (Bounds Int) Int :=
  (place id).read none (run id fun r _ => read r)
termination_by id

end Bounds

end CatalogReplica.Coherence
