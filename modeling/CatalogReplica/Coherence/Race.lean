import CatalogReplica.Turns
import CatalogReplica.Coherence.Slot

/-!
# Simultaneous readers of one slot

Several readers read one slot of a table, interleaved in any order.  A reader first
looks for a valid memo.  Under duplicate flight it computes right away; under single
flight it takes the lock of the slot, looks once more, and computes while it holds the
lock.  A computation takes the current cell when it starts, and a cached result is kept
after it ended.  A reader that looks, takes the lock, starts or ends a computation,
keeps a result or lets go of the lock does so in one step of its own.

* `Race.step` moves one reader; `none` says that the reader cannot move.
* `Race.play` follows a schedule, passing over readers that cannot move.
* `Race.rounds` lets all readers read, round after round, and trips the gate
  after each.
-/

namespace CatalogReplica.Coherence

/-- How far a reader is. -/
inductive ReaderPhase (ν : Type) where
  | start
  /-- It found no valid memo and is about to take the lock. -/
  | waiting
  /-- It has taken the lock and is about to look once more. -/
  | locked
  /-- It is about to take the cell and to compute. -/
  | cleared
  /-- It runs the computation of a number, having taken the cell before. -/
  | computing (call : Nat) (cell : Option CellId)
  /-- It is about to keep what it computed. -/
  | storing (value : ν) (cell : Option CellId)
  /-- It knows its answer and is about to let go of the lock. -/
  | leaving (answer : Except Interrupt ν)
  | done (answer : Except Interrupt ν)
  deriving Inhabited

/-- One slot with its readers. -/
structure Race (ν : Type) where
  spec : SlotSpec
  access : Nat → Access := fun _ => .reader
  /-- How the computation of a number ends; they are numbered in the order of their starts. -/
  outcome : Nat → Except Interrupt (Computed ν)
  gates : Gates
  table : SlotTable ν
  /-- The reader that holds the lock of the slot. -/
  holder : Option Nat := none
  /-- The readers that started computations, in order. -/
  callers : Array Nat := #[]
  tally : Tally := {}
  readers : Array (ReaderPhase ν) := #[]

namespace Race

variable {ν : Type}

def calls (race : Race ν) : Nat := race.callers.size

/-- The memo, while it is valid. -/
def valid? (race : Race ν) : Option ν := (race.table.memo? race.spec.index).bind (·.get? race.gates)

/-- The cell that a computation starting now is kept under, unless the table lacks the gate. -/
def governor (race : Race ν) : Option (Option CellId) :=
  match race.spec.binding with
  | .fixed => some none
  | .gate index => race.table.gates[index]?.map race.gates.currentCell?

/-- Moves a reader to a phase. -/
def moveTo (race : Race ν) (reader : Nat) (phase : ReaderPhase ν) : Race ν :=
  { race with readers := race.readers.setIfInBounds reader phase }

def count (race : Race ν) (counter : Counter) : Race ν := { race with tally := race.tally.add counter }

/-- The first look of a reader. -/
def look (race : Race ν) (reader : Nat) : Race ν :=
  if race.spec.index < race.table.memos.size then
    match race.valid? with
    | some value => (race.count .slotHit).moveTo reader (.done (.ok value))
    | none =>
        match race.spec.refusal (race.access reader) with
        | some fault => race.moveTo reader (.done (.error (.fault fault)))
        | none =>
            match race.spec.flight with
            | .duplicate => race.moveTo reader .cleared
            | .single => race.moveTo reader .waiting
  else race.moveTo reader (.done (.error (.crash none)))

/-- The second look of a reader, under the lock. -/
def lookAgain (race : Race ν) (reader : Nat) : Race ν :=
  match race.valid? with
  | some value => (race.count .slotHit).moveTo reader (.leaving (.ok value))
  | none => race.moveTo reader .cleared

/-- Starts a computation of a reader under the current cell. -/
def compute (race : Race ν) (reader : Nat) : Race ν :=
  match race.governor with
  | some cell =>
      { race.moveTo reader (.computing race.calls cell) with callers := race.callers.push reader }
  | none => race.moveTo reader (.leaving (.error (.crash none)))

/-- Ends the computation of a reader. -/
def conclude (race : Race ν) (reader call : Nat) (cell : Option CellId) : Race ν :=
  match race.outcome call with
  | .ok (.cached value) => (race.count .slotCompute).moveTo reader (.storing value cell)
  | .ok (.transient value) => (race.count .slotTransient).moveTo reader (.leaving (.ok value))
  | .error interrupt => race.moveTo reader (.leaving (.error interrupt))

/-- Keeps what a reader computed. -/
def store (race : Race ν) (reader : Nat) (value : ν) (cell : Option CellId) : Race ν :=
  { race.moveTo reader (.leaving (.ok value)) with table := race.table.keep race.spec.index ⟨value, cell⟩ }

/-- Lets go of the lock if the reader holds it. -/
def unlock (race : Race ν) (reader : Nat) : Race ν :=
  if race.holder = some reader then { race with holder := none } else race

/-- Moves one reader by one step, if it can move. -/
def step (race : Race ν) (reader : Nat) : Option (Race ν) :=
  match race.readers[reader]? with
  | none => none
  | some .start => some (race.look reader)
  | some .waiting =>
      match race.holder with
      | some _ => none
      | none => some { race.moveTo reader .locked with holder := some reader }
  | some .locked => some (race.lookAgain reader)
  | some .cleared => some (race.compute reader)
  | some (.computing call cell) => some (race.conclude reader call cell)
  | some (.storing value cell) => some (race.store reader value cell)
  | some (.leaving answer) => some ((race.moveTo reader (.done answer)).unlock reader)
  | some (.done _) => none

/-- Follows a schedule, passing over readers that cannot move. -/
def play (race : Race ν) (schedule : List Nat) : Race ν := Turns.play step race schedule

/-- The answer of a reader that has one. -/
def answer? (race : Race ν) (reader : Nat) : Option (Except Interrupt ν) :=
  match race.readers[reader]? with
  | some (.done answer) => some answer
  | _ => none

/-- The answers of the readers that have one. -/
def answers (race : Race ν) : List (Except Interrupt ν) := (List.range race.readers.size).filterMap race.answer?

/-- A schedule under which `readers` readers all get their answers, each moving
    once in every turn. -/
def fairSchedule (readers : Nat) : List Nat := (List.replicate (7 * readers) (List.range readers)).flatten

/-- The state of the host of the slot. -/
def status (race : Race ν) : HostStatus := race.table.status race.gates

/-- What one round shows. -/
structure Round where
  calls : Nat
  distinct : Nat
  memoIsAnswer : Option Bool
  counted : List (Counter × Int)
  status : HostStatus

/-- Lets `readers` readers read at once and then trips the first gate of the table. -/
def round [DecidableEq ν] (race : Race ν) (readers : Nat) : Round × Race ν :=
  let before := race.tally
  let race := { race with readers := Array.replicate readers .start }.play (fairSchedule readers)
  let values := race.answers.filterMap Except.toOption
  ({ calls := race.calls
     distinct := values.eraseDups.length
     memoIsAnswer := (race.table.memo? race.spec.index).map fun memo => decide (memo.value ∈ values)
     counted := Tally.changes before race.tally
     status := race.status },
    { race with gates := race.table.gates.head?.elim race.gates race.gates.trip })

def rounds [DecidableEq ν] (readers : Nat) : Nat → Race ν → List Round × Race ν
  | 0, race => ([], race)
  | n + 1, race =>
      let (first, race) := race.round readers
      let (rest, race) := rounds readers n race
      (first :: rest, race)

/-- An unset slot bound to a gate, whose computations give 0, 1, 2, … in the order of
    their starts. -/
def unset (flight : Flight) : Race Int :=
  let (gate, gates) := ({} : Gates).newGate
  { spec := { index := 0, name := "value", flight }
    outcome := fun n => .ok (.cached n)
    gates
    table := .blank 1 [gate] }

end Race

end CatalogReplica.Coherence
