import CatalogReplica.Storage.Memory

/-!
# Rows

A `Row` is an address in a memory together with the layout that lies there.
`Row.bool`, `Row.name`, ... read one column and refuse a column that is stored
in another way; `Row.get` reads a column as a `ColumnValue` of the type asked
for.
-/

namespace CatalogReplica.Storage

open Text (Form)

/-- The value of a column. -/
inductive ColumnValue where
  | bool (value : Bool)
  | char (value : UInt8)
  | i16 (value : Int16)
  | i32 (value : Int32)
  | oid (value : Oid)
  | name (value : String)
  /-- The value of a `text` column; it may be absent. -/
  | text (value : Option String)
  | oidList (value : List Oid)
  deriving DecidableEq, Inhabited, Repr

/-- The type of columns that hold the value. -/
def ColumnValue.type : ColumnValue → ColumnType
  | bool _ => .bool
  | char _ => .char
  | i16 _ => .i16
  | i32 _ => .i32
  | oid _ => .oid
  | name _ => .name
  | text _ => .text
  | oidList _ => .oidList

/-- A row in memory. -/
structure Row where
  memory : Memory
  layout : Layout
  address : Address

namespace Row

/-- The row shown by its class and its address. -/
def form (row : Row) : Form :=
  .record "Row" [("class", row.layout.classOid.form), ("address", row.address.form)]

/-- The offset of a column that is stored as the type asked for. -/
def spot (row : Row) (column : String) (type : ColumnType) : Fetched UInt64 :=
  match row.layout.field column with
  | .error fault => .error (.fault fault)
  | .ok spot =>
      if spot.type = type then .ok (UInt64.ofNat spot.offset)
      else .error <| .fault
        { kind := .native
          message := "column read with a mismatched representation"
          context := [("column", column), ("stored", spot.type.label), ("requested", type.label)] }

def bool (row : Row) (column : String) : Fetched Bool := do
  row.memory.readBool row.address (← row.spot column .bool)

def char (row : Row) (column : String) : Fetched UInt8 := do
  row.memory.readU8 row.address (← row.spot column .char)

def i16 (row : Row) (column : String) : Fetched Int16 := do
  row.memory.readI16 row.address (← row.spot column .i16)

def i32 (row : Row) (column : String) : Fetched Int32 := do
  row.memory.readI32 row.address (← row.spot column .i32)

def oid (row : Row) (column : String) : Fetched Oid := do
  return ⟨← row.memory.readU32 row.address (← row.spot column .oid)⟩

/-- Reads a `name` column up to its first zero byte. -/
def name (row : Row) (column : String) : Fetched String := do
  let offset ← row.spot column .name
  let bytes ← row.memory.mapFixed (row.address.offset offset) ColumnType.nameLength
  match textOfBytes? (bytes.takeWhile (· != 0)) with
  | some text => return text
  | none =>
      throw (.fault {
        kind := .native
        message := "name is not valid utf-8"
        context := [("column", column)]
        cause := some .malformedText })

/-- Reads a `text` column; the address zero stands for an absent text. -/
def text (row : Row) (column : String) : Fetched (Option String) := do
  let pointer ← row.memory.readAddress row.address (← row.spot column .text)
  if pointer.isNull then return none
  return some (← row.memory.mapText pointer)

/-- Reads an `oidList` column; the address zero stands for the empty list. -/
def oidList (row : Row) (column : String) : Fetched (List Oid) := do
  let pointer ← row.memory.readAddress row.address (← row.spot column .oidList)
  if pointer.isNull then return []
  let count ← row.memory.readI32 pointer 0
  if count < 0 then
    throw (.fault {
      kind := .native
      message := "negative oid list length"
      context := [("column", column), ("count", toString count.toInt)] })
  row.memory.readOids pointer count.toInt.toNat 0

/-- Reads a column as a value of the type asked for. -/
def get (row : Row) (type : ColumnType) (column : String) : Fetched ColumnValue :=
  match type with
  | .bool => (row.bool column).map .bool
  | .char => (row.char column).map .char
  | .i16 => (row.i16 column).map .i16
  | .i32 => (row.i32 column).map .i32
  | .oid => (row.oid column).map .oid
  | .name => (row.name column).map .name
  | .text => (row.text column).map .text
  | .oidList => (row.oidList column).map .oidList

end Row

end CatalogReplica.Storage
