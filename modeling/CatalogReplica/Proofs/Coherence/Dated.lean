import CatalogReplica.Coherence.Slot
import CatalogReplica.Assoc
import CatalogReplica.Proofs.Coherence.Gates

/-!
# Dated values

Slots are read whose computations read other slots, and gates are added to batches
and tripped before, between and within the reads.  Every value carries the moments at
which the computations started that it was made by, so that one can tell how old the
data is that a read gives.

* `Computation` is what a run of a slot does, whatever that is.
* `Design` declares the slots; `Design.get` reads one, through `TableView.read`.
* `Move` is one operation and `Design.after` what a run of operations leaves.
-/

namespace CatalogReplica.Coherence

/-- A value with the moments at which the computations started that it was made by:
    its own, and those of the values on the same gate that it was made from. -/
structure Dated (ν : Type) where
  /-- The value. -/
  value : ν
  /-- When the computations started. -/
  starts : List Nat
  deriving DecidableEq

/-- None of the computations started before the moment. -/
def Dated.Since {ν : Type} (dated : Dated ν) (moment : Nat) : Prop :=
  ∀ start ∈ dated.starts, moment ≤ start

/-- A slot: a host, and an index in its table. -/
structure SlotRef where
  /-- The number of the host. -/
  host : Nat
  /-- The index of the slot. -/
  index : Nat
  deriving DecidableEq

/-- Something that is done with gates. -/
inductive GateAct where
  /-- Opens a batch. -/
  | openBatch (batch : Nat)
  /-- Adds a gate to an open batch. -/
  | add (batch : Nat) (gate : GateId)
  /-- Commits an open batch. -/
  | commit (batch : Nat)
  /-- Drops a batch without committing it. -/
  | discard (batch : Nat)
  /-- Trips a gate. -/
  | trip (gate : GateId)
  deriving DecidableEq

/-- A run of a slot.  It may read slots and act on gates, and what it does next may
    depend on what it read. -/
inductive Computation (ν : Type) where
  /-- It ends with a result. -/
  | done (result : Computed ν)
  /-- It is interrupted. -/
  | broken (interrupt : Interrupt)
  /-- It reads a slot. -/
  | read (slot : SlotRef) (access : Access) (next : Except Interrupt ν → Computation ν)
  /-- It acts on gates. -/
  | act (act : GateAct) (next : Computation ν)

/-- Gates, hosts, open batches, and the moment. -/
structure Workshop (ν : Type) where
  /-- Cells and gates. -/
  gates : Gates := {}
  /-- The slots of the hosts. -/
  hosts : Array (SlotTable (Dated ν)) := #[]
  /-- The open batches. -/
  batches : Assoc Nat Batch := []
  /-- How many computations have started. -/
  moment : Nat := 0

/-- The slots of all hosts and what their runs do, each given the moment at which it
    starts. -/
structure Design (ν : Type) where
  /-- The declaration of a slot. -/
  spec : SlotRef → SlotSpec
  /-- A slot is declared under its own index. -/
  index_spec : ∀ slot, (spec slot).index = slot.index
  /-- What a run of a slot does. -/
  run : SlotRef → Access → Nat → Computation ν

namespace Workshop

variable {ν : Type}

/-- The table of a host. -/
def view (host : Nat) : TableView (Workshop ν) (Dated ν) where
  get? shop := shop.hosts[host]?
  update f shop := { shop with hosts := shop.hosts.modify host f }
  gates := (·.gates)
  count _ shop := shop

/-- The memo of a slot, valid or not. -/
def memo? (shop : Workshop ν) (slot : SlotRef) : Option (Memo (Dated ν)) :=
  (shop.hosts[slot.host]?).bind (·.memo? slot.index)

/-- Acts on gates; a batch that is not open is left alone. -/
def act (shop : Workshop ν) : GateAct → Workshop ν
  | .openBatch batch => { shop with batches := shop.batches.set batch {} }
  | .add batch gate =>
      match shop.batches.get? batch with
      | none => shop
      | some opened =>
          { shop with
            gates := (opened.add gate shop.gates).2
            batches := shop.batches.set batch (opened.add gate shop.gates).1 }
  | .commit batch =>
      match shop.batches.get? batch with
      | none => shop
      | some opened =>
          { shop with
            gates := (opened.commit shop.gates).2, batches := shop.batches.erase batch }
  | .discard batch => { shop with batches := shop.batches.erase batch }
  | .trip gate => { shop with gates := shop.gates.trip gate }

/-- A computation starts; gives the moment at which it does. -/
def start (shop : Workshop ν) : Nat × Workshop ν :=
  (shop.moment, { shop with moment := shop.moment + 1 })

end Workshop

/-- One operation. -/
inductive Move where
  /-- Makes a gate. -/
  | newGate
  /-- Makes a host with a number of slots and the given gates. -/
  | newHost (slots : Nat) (gates : List GateId)
  /-- Acts on gates. -/
  | act (act : GateAct)
  /-- Reads a slot with a call stack of the given depth. -/
  | read (slot : SlotRef) (access : Access) (depth : Nat)

namespace Design

variable {ν : Type}

/-- The gate that a slot is bound to. -/
def gateOf (design : Design ν) (shop : Workshop ν) (slot : SlotRef) : Option GateId :=
  match (design.spec slot).binding with
  | .fixed => none
  | .gate index => (shop.hosts[slot.host]?).bind (·.gates[index]?)

/-- Follows a run of a slot on a gate to its end, given when the computations started
    that it is made by so far. -/
def follow (design : Design ν) (read : SlotRef → Access → Task (Workshop ν) (Dated ν))
    (gate : Option GateId) : Computation ν → List Nat → Task (Workshop ν) (Computed (Dated ν))
  | .done result, starts => return result.map (⟨·, starts⟩)
  | .broken interrupt, _ => throw interrupt
  | .read slot access next, starts => do
      let sameGate := design.gateOf (← get) slot = gate
      match ← Task.attempt (read slot access) with
      | .ok dated =>
          design.follow read gate (next (.ok dated.value))
            (if sameGate then starts ++ dated.starts else starts)
      | .error interrupt => design.follow read gate (next (.error interrupt)) starts
  | .act act next, starts => do
      modify (·.act act)
      design.follow read gate next starts

/-- Runs a slot, from the moment that is then. -/
def compute (design : Design ν) (read : SlotRef → Access → Task (Workshop ν) (Dated ν))
    (slot : SlotRef) (access : Access) : Task (Workshop ν) (Computed (Dated ν)) := do
  let gate := design.gateOf (← get) slot
  let start ← Task.lift Workshop.start
  design.follow read gate (design.run slot access start) [start]

/-- Reads a slot.  The depth bounds the call stack. -/
def get (design : Design ν) : (depth : Nat) → SlotRef → Access → Task (Workshop ν) (Dated ν)
  | 0, _, _ => Task.crash
  | depth + 1, slot, access =>
      (Workshop.view slot.host).read (design.spec slot) access
        (design.compute (design.get depth) slot access)

/-- What an operation leaves. -/
def move (design : Design ν) (shop : Workshop ν) : Move → Workshop ν
  | .newGate => { shop with gates := shop.gates.newGate.2 }
  | .newHost slots gates => { shop with hosts := shop.hosts.push (.blank slots gates) }
  | .act act => shop.act act
  | .read slot access depth => Task.exec (design.get depth slot access) shop

/-- What a run of operations leaves. -/
def after (design : Design ν) : List Move → Workshop ν → Workshop ν
  | [], shop => shop
  | move :: moves, shop => design.after moves (design.move shop move)

end Design

end CatalogReplica.Coherence
