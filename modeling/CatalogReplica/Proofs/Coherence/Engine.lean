import CatalogReplica.Coherence.Bound
import CatalogReplica.Proofs.Coherence.Yard
import CatalogReplica.Proofs.Coherence.Reads

/-!
# Computations that nest

An engine has any number of hosts and of bound computations over gates that may be acted on
at any time.  A computation may get slots and bounds, its own included, may act on gates,
make hosts and go on after a get that failed, and what it does may depend on what it was
given and on how many computations started before it.

* `Course`: what one computation does.
* `Program`: the declarations of slots, and the courses of all computations.
* `Program.get`: one get, through `TableView.read` for slots and `Place.read` for bounds.
* `Program.Reaches`: the states of a run, those in the midst of computations included.
-/

namespace CatalogReplica.Coherence

/-- Something that keeps a memo. -/
inductive Site where
  /-- A slot: a host, and an index in its table. -/
  | slot (host index : Nat)
  /-- A bound computation. -/
  | bound (id : BoundId)
  deriving DecidableEq

/-- A get. -/
inductive Reading where
  /-- Of a slot, through one of its declarations. -/
  | slot (host declaration : Nat) (access : Access)
  /-- Of a bound computation. -/
  | bound (id : BoundId)
  deriving DecidableEq

/-- Something other than a get. -/
inductive Deed where
  /-- An operation on gates. -/
  | gates (step : GateStep)
  /-- Makes a host with a number of slots and gates that exist. -/
  | host (slots : Nat) (gates : List GateId)
  /-- Binds a computation to a gate that exists. -/
  | bind (gate : GateId)
  /-- Marks a host as evicted. -/
  | evict (host : Nat)

/-- What one computation does. -/
inductive Course (ν : Type) where
  /-- It ends with a result. -/
  | done (result : Computed ν)
  /-- It fails or breaks off. -/
  | broken (interrupt : Interrupt)
  /-- It gets a value, and goes on with what it was given. -/
  | get (reading : Reading) (next : Except Interrupt ν → Course ν)
  /-- It does something else. -/
  | deed (deed : Deed) (next : Course ν)

/-- A computation that has ended. -/
structure Finished (ν : Type) where
  /-- What it computed. -/
  site : Site
  /-- How many computations had started before it. -/
  number : Nat
  /-- The cell that was current on its gate when it started. -/
  cell : Option CellId
  /-- What it gave. -/
  outcome : Except Interrupt (Computed ν)

/-- The memo that a computation leaves. -/
def Finished.memo? {ν : Type} (finished : Finished ν) : Option (Memo ν) :=
  match finished.outcome with
  | .ok (.cached value) => some ⟨value, finished.cell⟩
  | _ => none

/-- Hosts, bound computations, and what has happened so far. -/
structure Engine (ν : Type) where
  /-- The operations on gates so far. -/
  steps : List GateStep := []
  /-- The bound computations. -/
  bounds : Array (Bound ν) := #[]
  /-- The slots of the hosts. -/
  hosts : Array (SlotTable ν) := #[]
  /-- How many computations have started. -/
  started : Nat := 0
  /-- The computations that have ended, the last one first. -/
  finished : List (Finished ν) := []

namespace Engine

variable {ν : Type}

/-- Gates and batches. -/
def yard (engine : Engine ν) : Yard := .run engine.steps

/-- Cells and gates. -/
def gates (engine : Engine ν) : Gates := engine.yard.gates

/-- The bound computations with their gates. -/
def bounded (engine : Engine ν) : Bounds ν := { gates := engine.gates, bounds := engine.bounds }

/-- The table of a host. -/
def view (host : Nat) : TableView (Engine ν) ν where
  get? engine := engine.hosts[host]?
  update f engine := { engine with hosts := engine.hosts.modify host f }
  gates := gates
  count _ engine := engine

/-- Where the result of a bound computation is kept. -/
def place (id : BoundId) : Place (Engine ν) ν where
  peek engine := (Bounds.place id).peek engine.bounded
  cell := Task.within bounded (fun state engine => { engine with bounds := state.bounds })
    (Bounds.place id).cell
  keep memo engine :=
    { engine with bounds := ((Bounds.place id).keep memo engine.bounded).bounds }

/-- Breaks off unless there is such a bound computation. -/
def require (id : BoundId) : Task (Engine ν) Unit := do
  if id < (← get).bounds.size then return () else Task.crash

/-- The memo that is kept, valid or not. -/
def memo? (engine : Engine ν) : Site → Option (Memo ν)
  | .slot host index => (engine.hosts[host]?).bind (·.memo? index)
  | .bound id => (engine.bounds[id]?).bind (·.memo)

/-- The memo of the computation that ended last with a value to keep. -/
def last? (engine : Engine ν) (site : Site) : Option (Memo ν) :=
  engine.finished.findSome? fun finished => if finished.site = site then finished.memo? else none

/-- What a deed leaves; hosts and bounds are made over gates that exist. -/
def deed (engine : Engine ν) : Deed → Engine ν
  | .gates step => { engine with steps := engine.steps ++ [step] }
  | .host slots gates =>
      if ∀ gate ∈ gates, gate < engine.gates.current.size then
        { engine with hosts := engine.hosts.push (.blank slots gates) }
      else engine
  | .bind gate =>
      if gate < engine.gates.current.size then
        { engine with bounds := (engine.bounded.bind gate []).2.bounds }
      else engine
  | .evict host =>
      { engine with hosts := engine.hosts.modify host ({ · with evicted := true }) }

/-- A computation has started. -/
def begun (engine : Engine ν) : Engine ν := { engine with started := engine.started + 1 }

/-- A computation has ended. -/
def ended (engine : Engine ν) (finished : Finished ν) : Engine ν :=
  { engine with finished := finished :: engine.finished }

end Engine

/-- Follows a computation to its end. -/
def Course.follow {ν : Type} (get : Reading → Task (Engine ν) ν) :
    Course ν → Task (Engine ν) (Computed ν)
  | .done result => return result
  | .broken interrupt => throw interrupt
  | .get reading next => do (next (← Task.attempt (get reading))).follow get
  | .deed change next => do
      modify (·.deed change)
      next.follow get

/-- The declarations of slots, and what computations do, each given how many have started
    before it. -/
structure Program (ν : Type) where
  /-- The declarations. -/
  spec : Nat → SlotSpec
  /-- The computations. -/
  course : Reading → Nat → Course ν

/-- One operation. -/
inductive EngineMove where
  /-- A deed. -/
  | deed (deed : Deed)
  /-- A get with a call stack of the given depth. -/
  | get (reading : Reading) (depth : Nat)

namespace Program

variable {ν : Type} (program : Program ν)

/-- What a get computes. -/
def site : Reading → Site
  | .slot host declaration _ => .slot host (program.spec declaration).index
  | .bound id => .bound id

/-- The gate that governs a get. -/
def gate? (engine : Engine ν) : Reading → Option GateId
  | .slot host declaration _ =>
      match (program.spec declaration).binding with
      | .fixed => none
      | .gate index => (engine.hosts[host]?).bind (·.gates[index]?)
  | .bound id => (engine.bounds[id]?).map (·.gate)

/-- The cell that is current on the gate of a get. -/
def cell? (engine : Engine ν) (reading : Reading) : Option CellId :=
  (program.gate? engine reading).bind engine.gates.currentCell?

/-- The fault of a get that would have to compute and may not. -/
def refusal : Reading → Option Fault
  | .slot _ declaration access => (program.spec declaration).refusal access
  | .bound _ => none

/-- The host or the bound exists, and the indices are in range. -/
def InRange (engine : Engine ν) : Reading → Prop
  | .slot host declaration _ => (Engine.view host).Has (program.spec declaration) engine
  | .bound id => id < engine.bounds.size

/-- A get computes: it is in range, has no valid memo, and is not refused. -/
structure Computes (engine : Engine ν) (reading : Reading) : Prop where
  inRange : program.InRange engine reading
  invalid : ∀ memo, engine.memo? (program.site reading) = some memo →
    memo.isValid engine.gates = false
  allowed : program.refusal reading = none

/-- Computes what a get asks for; the computation is recorded when it ends, however it does. -/
def compute (get : Reading → Task (Engine ν) ν) (reading : Reading) :
    Task (Engine ν) (Computed ν) := do
  let engine ← MonadState.get
  set engine.begun
  let outcome ← Task.attempt ((program.course reading engine.started).follow get)
  modify (·.ended ⟨program.site reading, engine.started, program.cell? engine reading, outcome⟩)
  Task.ofOutcome outcome

/-- One get.  The depth bounds the call stack. -/
def get : (depth : Nat) → Reading → Task (Engine ν) ν
  | 0, _ => Task.crash
  | depth + 1, .slot host declaration access =>
      (Engine.view host).read (program.spec declaration) access
        (program.compute (get depth) (.slot host declaration access))
  | depth + 1, .bound id => do
      Engine.require id
      (Engine.place id).read none (program.compute (get depth) (.bound id))

/-- What an operation leaves. -/
def move (engine : Engine ν) : EngineMove → Engine ν
  | .deed deed => engine.deed deed
  | .get reading depth => (program.get depth reading).exec engine

/-- What a run of operations leaves. -/
def run (moves : List EngineMove) : Engine ν := moves.foldl program.move {}

end Program

/-- The states that a computation passes through, given those that its gets do. -/
def Course.Passes {ν : Type} (get : Reading → Task (Engine ν) ν)
    (inside : Reading → Engine ν → Engine ν → Prop) : Course ν → Engine ν → Engine ν → Prop
  | .done _, engine, state => state = engine
  | .broken _, engine, state => state = engine
  | .get reading next, engine, state =>
      state = engine ∨ inside reading engine state ∨
        (get reading).Ends engine fun outcome after => (next outcome).Passes get inside after state
  | .deed change next, engine, state =>
      state = engine ∨ next.Passes get inside (engine.deed change) state

namespace Program

variable {ν : Type} (program : Program ν)

/-- The states in the midst of a get that computes. -/
def Inside : (depth : Nat) → Reading → Engine ν → Engine ν → Prop
  | 0, _, _, _ => False
  | depth + 1, reading, engine, state =>
      program.Computes engine reading ∧
        (program.course reading engine.started).Passes (program.get depth) (Inside depth)
          engine.begun state

/-- The states of a run: those between its operations, and those in the midst of a get. -/
def Reaches (moves : List EngineMove) (state : Engine ν) : Prop :=
  state = program.run moves ∨ ∃ depth reading, program.Inside depth reading (program.run moves) state

end Program

end CatalogReplica.Coherence
