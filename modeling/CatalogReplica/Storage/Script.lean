import CatalogReplica.Storage.Draft

/-!
# Runs over a memory

A `Step` is one operation on a memory, with layouts kept under names.  `run`
carries out a list of steps and gives an answer for each.  A step that is
interrupted answers with the interrupt, and the steps behind it go on from the
memory that it left.
-/

namespace CatalogReplica.Storage.Script

/-- The number that a raw read gives. -/
inductive NumberType where
  | u8
  | bool
  | i16
  | i32
  | u32
  | i64
  | address
  deriving DecidableEq, Inhabited, Repr

namespace NumberType

def label : NumberType → String
  | u8 => "u8"
  | bool => "bool"
  | i16 => "i16"
  | i32 => "i32"
  | u32 => "u32"
  | i64 => "i64"
  | address => "address"

/-- The type with the given name. -/
def ofLabel? (label : String) : Option NumberType :=
  [u8, bool, i16, i32, u32, i64, address].find? (·.label == label)

end NumberType

inductive Step where
  | alloc (bytes : List UInt8)
  | allocText (text : String)
  | allocOids (oids : List Oid)
  | layout (name : String) (layout : Layout)
  | row (layout : String) (columns : List (String × ColumnValue))
  | get (layout : String) (address : Address) (type : ColumnType) (column : String)
  | show (layout : String) (address : Address)
  | read (type : NumberType) (address : Address) (offset : UInt64)
  | mapFixed (address : Address) (len : Nat)
  | mapText (address : Address)
  | regions
  deriving Inhabited

inductive Answer where
  | address (address : Address)
  | count (n : Nat)
  | number (i : Int)
  | truth (b : Bool)
  | column (value : ColumnValue)
  | bytes (bytes : List UInt8)
  | text (text : String)
  | shown (address : Address) (text : String)
  | unset (name : String)
  | interrupted (interrupt : Interrupt)
  deriving Inhabited

/-- A memory with named layouts. -/
structure Desk where
  memory : Memory := {}
  layouts : List (String × Layout) := []

/-- The answer that gives the value or the interrupt. -/
def Answer.ofFetched {α : Type} (f : α → Answer) : Fetched α → Answer
  | .ok value => f value
  | .error interrupt => .interrupted interrupt

/-- Reads a number of the given type. -/
def readNumber (memory : Memory) (type : NumberType) (address : Address) (offset : UInt64) :
    Answer :=
  match type with
  | .u8 => .ofFetched (fun n => .number n.toNat) (memory.readU8 address offset)
  | .bool => .ofFetched .truth (memory.readBool address offset)
  | .i16 => .ofFetched (fun n => .number n.toInt) (memory.readI16 address offset)
  | .i32 => .ofFetched (fun n => .number n.toInt) (memory.readI32 address offset)
  | .u32 => .ofFetched (fun n => .number n.toNat) (memory.readU32 address offset)
  | .i64 => .ofFetched (fun n => .number n.toInt) (memory.readI64 address offset)
  | .address => .ofFetched (fun a => .number a.val.toNat) (memory.readAddress address offset)

def step (desk : Desk) : Step → Answer × Desk
  | .alloc bytes =>
      let (address, memory) := desk.memory.alloc bytes
      (.address address, { desk with memory })
  | .allocText text =>
      let (address, memory) := desk.memory.allocText text
      (.address address, { desk with memory })
  | .allocOids oids =>
      let (address, memory) := desk.memory.allocOids oids
      (.address address, { desk with memory })
  | .layout name layout =>
      (.count layout.size, { desk with layouts := (name, layout) :: desk.layouts })
  | .row name columns =>
      match desk.layouts.lookup name with
      | none => (.unset name, desk)
      | some layout =>
          match writeRow layout columns desk.memory with
          | .ok address memory => (.address address, { desk with memory })
          | .error interrupt memory => (.interrupted interrupt, { desk with memory })
  | .get name address type column =>
      match desk.layouts.lookup name with
      | none => (.unset name, desk)
      | some layout =>
          (.ofFetched .column ((Row.mk desk.memory layout address).get type column), desk)
  | .show name address =>
      match desk.layouts.lookup name with
      | none => (.unset name, desk)
      | some layout => (.shown address (Row.mk desk.memory layout address).form.inline, desk)
  | .read type address offset => (readNumber desk.memory type address offset, desk)
  | .mapFixed address len => (.ofFetched .bytes (desk.memory.mapFixed address len), desk)
  | .mapText address => (.ofFetched .text (desk.memory.mapText address), desk)
  | .regions => (.count desk.memory.regions.length, desk)

/-- Carries out the steps in order. -/
def run : Desk → List Step → List Answer
  | _, [] => []
  | desk, s :: steps =>
      let (answer, desk) := step desk s
      answer :: run desk steps

end CatalogReplica.Storage.Script
