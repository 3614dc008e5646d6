import CatalogReplica.Tally
import CatalogReplica.Coherence.Memo

/-!
# Slots

A host owns a `SlotTable`: a memo for each of its slots, the gates that govern
them, and whether the host was evicted.  A `SlotSpec` declares one slot: its
index and name, what governs it, how simultaneous computations are handled, and
who may compute it.

* `SlotTable.status` is the state of a host as its table shows it.
* `TableView.read` reads a slot of a table that lives somewhere in a larger state.
-/

namespace CatalogReplica.Coherence

open Text (Form quoted)

/-- What governs a slot. -/
inductive Binding where
  | fixed
  | gate (index : Nat)
  deriving DecidableEq, Inhabited, Repr

/-- The binding as it is shown. -/
def Binding.form : Binding → Form
  | fixed => .atom "Fixed"
  | gate index => .tuple "Gate" [.ofNat index]

/-- How simultaneous computations of one slot are handled. -/
inductive Flight where
  | duplicate
  | single
  deriving DecidableEq, Inhabited, Repr

/-- The flight mode as it is shown. -/
def Flight.form : Flight → Form
  | duplicate => .atom "Duplicate"
  | single => .atom "Single"

/-- Who may compute a slot. -/
inductive Affinity where
  | any
  /-- The mutator alone; a kept value can be read by everyone. -/
  | mutator
  deriving DecidableEq, Inhabited, Repr

/-- The affinity as it is shown. -/
def Affinity.form : Affinity → Form
  | any => .atom "Any"
  | mutator => .atom "Mutator"

/-- The context that a slot is read from. -/
inductive Access where
  | reader
  | mutator
  deriving DecidableEq, Inhabited, Repr

namespace Access

/-- Whether the mutator reads. -/
def isMutator : Access → Bool
  | reader => false
  | mutator => true

/-- The access as it is shown. -/
def form : Access → Form
  | reader => .atom "Reader"
  | mutator => .atom "Mutator"

end Access

/-- The state of a host. -/
inductive HostStatus where
  | unpopulated
  | populated
  | stale
  | evicted
  deriving DecidableEq, Inhabited, Repr

def HostStatus.text : HostStatus → String
  | unpopulated => "Unpopulated"
  | populated => "Populated"
  | stale => "Stale"
  | evicted => "Evicted"

/-- The slots of one host. -/
structure SlotTable (ν : Type) where
  memos : Array (Option (Memo ν))
  gates : List GateId
  evicted : Bool := false
  deriving Inhabited

namespace SlotTable

variable {ν : Type}

def blank (slots : Nat) (gates : List GateId) : SlotTable ν :=
  ⟨Array.replicate slots none, gates, false⟩

def memo? (table : SlotTable ν) (index : Nat) : Option (Memo ν) := table.memos[index]?.join

/-- Keeps a memo for a slot. -/
def keep (table : SlotTable ν) (index : Nat) (memo : Memo ν) : SlotTable ν :=
  { table with memos := table.memos.setIfInBounds index (some memo) }

/-- The memos that are kept, in the order of their slots. -/
def kept (table : SlotTable ν) : List (Memo ν) := table.memos.toList.filterMap id

/-- The memos that are kept are those of the slots. -/
theorem mem_kept {table : SlotTable ν} {memo : Memo ν} :
    memo ∈ table.kept ↔ ∃ index, table.memo? index = some memo := by
  simp only [kept, memo?, List.mem_filterMap, id_eq, exists_eq_right, Option.join_eq_some_iff, Array.mem_toList_iff,
    Array.mem_iff_getElem?]

/-- The state of the host: evicted for good, else stale as soon as a memo is
    invalid, else populated as soon as there is one. -/
def status (table : SlotTable ν) (gates : Gates) : HostStatus :=
  if table.evicted then .evicted
  else if table.kept.any fun memo => !memo.isValid gates then .stale
  else if table.kept.isEmpty then .unpopulated
  else .populated

/-- The table as it is shown. -/
def form (table : SlotTable ν) (gates : Gates) : Form :=
  .record "Slots" [
    ("len", .ofNat table.memos.size),
    ("gates", .sequence (table.gates.map fun _ => gateForm)),
    ("state", .atom (table.status gates).text)]

end SlotTable

/-- The declaration of a slot. -/
structure SlotSpec where
  index : Nat
  name : String
  binding : Binding := .gate 0
  flight : Flight := .duplicate
  affinity : Affinity := .any
  deriving DecidableEq, Inhabited, Repr

namespace SlotSpec

/-- The declaration as it is shown. -/
def form (spec : SlotSpec) : Form :=
  .record "Slot" [
    ("index", .ofNat spec.index), ("name", .atom (quoted spec.name)),
    ("binding", spec.binding.form), ("flight", spec.flight.form),
    ("affinity", spec.affinity.form)]

/-- The fault of a reader that would have to compute a slot of the mutator. -/
def refusal (spec : SlotSpec) (access : Access) : Option Fault :=
  if spec.affinity = .mutator ∧ access = .reader then some (.wrongContext spec.name) else none

/-- Breaks off a read that finds a value of another type. -/
def mismatch {σ α : Type} (spec : SlotSpec) : Task σ α :=
  Task.crash (some s!"slot {spec.name} (index {spec.index}) holds a value of another type")

end SlotSpec

/-- How a table is found and changed in a larger state. -/
structure TableView (σ ν : Type) where
  get? : σ → Option (SlotTable ν)
  update : (SlotTable ν → SlotTable ν) → σ → σ
  gates : σ → Gates
  count : Counter → σ → σ

namespace TableView

variable {σ ν : Type}

/-- The cell that governs a computation of the slot that starts now. -/
def cell (view : TableView σ ν) (spec : SlotSpec) : Task σ (Option CellId) := do
  match spec.binding with
  | .fixed => return none
  | .gate index =>
      let state ← get
      match (view.get? state).bind (·.gates[index]?) with
      | some gate => return (view.gates state).currentCell? gate
      | none => Task.crash

/-- Where the value of a slot is kept. -/
def place (view : TableView σ ν) (spec : SlotSpec) : Place σ ν where
  peek state := do (← (← view.get? state).memo? spec.index).get? (view.gates state)
  cell := view.cell spec
  keep memo := view.update fun table => table.keep spec.index memo
  noteHit := view.count .slotHit
  noteCompute := view.count .slotCompute
  noteTransient := view.count .slotTransient

/-- Breaks off unless the table has the slot. -/
def require (view : TableView σ ν) (spec : SlotSpec) : Task σ Unit := do
  match view.get? (← get) with
  | some table => if spec.index < table.memos.size then return () else Task.crash
  | none => Task.crash

/-- Reads a slot: its memo while that is valid, a new value otherwise. -/
def read (view : TableView σ ν) (spec : SlotSpec) (access : Access)
    (body : Task σ (Computed ν)) : Task σ ν := do
  view.require spec
  (view.place spec).read (spec.refusal access) body

end TableView

end CatalogReplica.Coherence
