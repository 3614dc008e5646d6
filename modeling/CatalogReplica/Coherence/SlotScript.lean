import CatalogReplica.Names
import CatalogReplica.Capacity
import CatalogReplica.Coherence.Slot
import CatalogReplica.Coherence.Bound

/-!
# Runs over slots

Hosts with slot tables whose slots follow plans.  A plan names the slots it
reads on the same host, itself included, so `Desk.read` recurses on the depth of
the call stack; `Desk.depth` bounds the depth of every read that ends.  `run`
carries out a list of steps and gives, for each, its result and what it counted.
-/

namespace CatalogReplica.Coherence.SlotScript

open Text (Form)

/-- The value of a planned slot. -/
inductive Value where
  | number (n : Int)
  | text (content : String)
  deriving DecidableEq, Inhabited, Repr

/-- What a value adds to a sum: a number itself, a text its length in bytes. -/
def Value.weight : Value → Int
  | .number n => n
  | .text content => content.utf8ByteSize

/-- A declared slot with its plan. -/
structure Planned where
  spec : SlotSpec
  isText : Bool := false
  plan : Plan String String
  calls : Nat := 0
  deriving Inhabited

namespace Planned

/-- The value for a planned number. -/
def value (slot : Planned) (n : Int) : Value :=
  if slot.isText then .text ("s" ++ toString n) else .number n

/-- Gives a value of the slot's type and breaks off at any other. -/
def check {σ : Type} (slot : Planned) (value : Value) : Task σ Value :=
  match value, slot.isText with
  | .number _, false => return value
  | .text _, true => return value
  | _, _ => slot.spec.mismatch

end Planned

structure Desk where
  gates : Gates := {}
  tally : Tally := {}
  reported : Tally := {}
  named : Names GateId := []
  hosts : Names (SlotTable Value) := []
  slots : Names Planned := []
  batches : Names Batch := []
  deriving Inhabited

namespace Desk

/-- The table of a host inside the state. -/
def view (host : String) : TableView Desk Value where
  get? desk := desk.hosts.get? host
  update f desk :=
    match desk.hosts.get? host with
    | some table => { desk with hosts := desk.hosts.set host (f table) }
    | none => desk
  gates := (·.gates)
  count counter desk := { desk with tally := desk.tally.add counter }

/-- Counts a run of a slot and gives the entry for it. -/
def nextEntry (name : String) : Task Desk (PlanEntry String String) := do
  match (← get).slots.get? name with
  | none => Task.crash
  | some slot =>
      modify fun desk =>
        { desk with slots := desk.slots.set name { slot with calls := slot.calls + 1 } }
      return slot.plan.entry slot.calls

/-- Trips the named gates in order. -/
def tripAll (desk : Desk) (names : List String) : Desk :=
  { desk with gates := desk.gates.tripAll (names.filterMap desk.named.get?) }

/-- Adds up the values of the named slots. -/
def sum (read : String → Task Desk Value) : List String → Task Desk Int
  | [] => return 0
  | name :: names => do
      let known := ((← get).slots.get? name).isSome
      let weight ← if known then Value.weight <$> read name else pure 0
      return weight + (← sum read names)

/-- Runs a slot: the run is counted, reads, trips, and ends. -/
def body (slot : Planned) (name : String) (access : Access) (read : String → Task Desk Value) :
    Task Desk (Computed Value) := do
  let entry ← nextEntry name
  let total ← sum read entry.reads
  modify (·.tripAll entry.trips)
  let bonus := if entry.access && access.isMutator then 1000 else 0
  return (← Bounds.finish (total + bonus) entry.finish).map slot.value

/-- Reads a slot of a host.  The fuel bounds the depth of the call stack. -/
def read : Nat → (host name : String) → Access → Task Desk Value
  | 0, _, _, _ => Task.crash
  | fuel + 1, host, name, access => do
      match (← get).slots.get? name with
      | none => Task.crash
      | some slot =>
          slot.check (← (view host).read slot.spec access
            (body slot name access fun other => read fuel host other access))

/-- A depth that no read exceeds and still ends: between two runs that use up an
    entry of some plan, no slot runs twice. -/
def depth (desk : Desk) : Nat :=
  let entries := desk.slots.foldl (fun total slot => total + slot.2.plan.length) 0
  (entries + 1) * (desk.slots.length + 1) + 1

end Desk

inductive Step where
  | gate (name : String)
  | host (name : String) (slots : Nat) (gates : List String)
  | slot (name : String) (slot : Planned)
  | get (host slot : String) (access : Access)
  | peek (host slot : String)
  | state (host : String)
  | trip (gate : String)
  | tripHost (host : String) (index : Nat)
  | batch (name : String)
  | add (batch gate : String)
  | commit (batch : String)
  | evict (host : String)
  | info (host : String)
  | showAccess (access : Access)
  | showBindings (index : Nat)
  | showComputed (result : Computed Int)
  deriving Inhabited

inductive Answer where
  | void
  | count (n : Nat)
  | text (text : String)
  | declared (spec : SlotSpec)
  | read (outcome : Except Interrupt Value) (calls : Nat)
  | value (value : Option Value)
  /-- The size of a table, the number of its gates, and the table as it is shown. -/
  | table (slots gates : Nat) (text : String)
  | access (access : Access)
  | bindings (fixed gate : String)
  | computed (result : Computed Int)
  | unset (name : String)
  | interrupted (interrupt : Interrupt)

/-- Continues with what a name stands for. -/
def withName {α : Type} (names : Names α) (name : String) (desk : Desk)
    (next : α → Answer × Desk) : Answer × Desk :=
  match names.get? name with
  | some value => next value
  | none => (.unset name, desk)

/-- Looks at the memo of a slot without computing. -/
def peek (desk : Desk) (table : SlotTable Value) (slot : Planned) : Answer :=
  if slot.spec.index < table.memos.size then
    match (table.memo? slot.spec.index).bind (·.get? desk.gates) with
    | none => .value none
    | some value =>
        match (slot.check value : Task Unit Value) () with
        | .ok value _ => .value (some value)
        | .error interrupt _ => .interrupted interrupt
  else .interrupted (.crash none)

def step (desk : Desk) : Step → Answer × Desk
  | .gate name =>
      let (gate, gates) := desk.gates.newGate
      (.void, { desk with gates, named := desk.named.set name gate })
  | .host name slots gates =>
      match gates.find? fun gate => (desk.named.get? gate).isNone with
      | some gate => (.unset gate, desk)
      | none =>
          if Capacity.fits slots then
            let table := .blank slots (gates.filterMap desk.named.get?)
            (.void, { desk with hosts := desk.hosts.set name table })
          else (.interrupted (.crash none), desk)
  | .slot name slot => (.declared slot.spec, { desk with slots := desk.slots.set name slot })
  | .get host slot access => withName desk.hosts host desk fun _ =>
      withName desk.slots slot desk fun _ =>
        let calls (desk : Desk) := ((desk.slots.get? slot).map (·.calls)).getD 0
        match Desk.read desk.depth host slot access desk with
        | .ok value desk => (.read (.ok value) (calls desk), desk)
        | .error interrupt desk => (.read (.error interrupt) (calls desk), desk)
  | .peek host slot => withName desk.hosts host desk fun table =>
      withName desk.slots slot desk fun slot => (peek desk table slot, desk)
  | .state host => withName desk.hosts host desk fun table =>
      (.text (table.status desk.gates).text, desk)
  | .trip gate => withName desk.named gate desk fun gate =>
      (.void, { desk with gates := desk.gates.trip gate })
  | .tripHost host index => withName desk.hosts host desk fun table =>
      match table.gates[index]? with
      | some gate => (.void, { desk with gates := desk.gates.trip gate })
      | none => (.interrupted (.crash none), desk)
  | .batch name => (.void, { desk with batches := desk.batches.set name {} })
  | .add batch gate => withName desk.batches batch desk fun opened =>
      withName desk.named gate desk fun gate =>
        let (opened, gates) := opened.add gate desk.gates
        (.count opened.cells.length,
          { desk with gates, batches := desk.batches.set batch opened })
  | .commit batch => withName desk.batches batch desk fun opened =>
      let (count, gates) := opened.commit desk.gates
      (.count count, { desk with gates, batches := desk.batches.erase batch })
  | .evict host => withName desk.hosts host desk fun table =>
      (.void, { desk with hosts := desk.hosts.set host { table with evicted := true } })
  | .info host => withName desk.hosts host desk fun table =>
      (.table table.memos.size table.gates.length (table.form desk.gates).inline, desk)
  | .showAccess access => (.access access, desk)
  | .showBindings index =>
      (.bindings Binding.fixed.form.inline (Binding.gate index).form.inline, desk)
  | .showComputed result => (.computed result, desk)

/-- An answer and what was counted since the one before. -/
structure Report where
  answer : Answer
  counted : List (Counter × Int)

/-- Carries out the steps in order. -/
def run : Desk → List Step → List Report
  | _, [] => []
  | desk, s :: steps =>
      let (answer, desk) := step desk s
      ⟨answer, Tally.changes desk.reported desk.tally⟩
        :: run { desk with reported := desk.tally } steps

end CatalogReplica.Coherence.SlotScript
