import CatalogReplica.Storage.Row

/-!
# Writing rows

A `Draft` is a row that is not in memory yet.  `Draft.write` puts a value into a
column and breaks off where the column is not stored that way; texts and lists
are allocated as they are written.  `Draft.finish` allocates the row.
-/

namespace CatalogReplica.Storage

/-- A row that is being written. -/
structure Draft where
  layout : Layout
  bytes : List UInt8
  deriving DecidableEq, Inhabited, Repr

/-- Puts `value` over the bytes from `offset` on. -/
def overwrite (bytes : List UInt8) (offset : Nat) (value : List UInt8) : List UInt8 :=
  bytes.take offset ++ value ++ bytes.drop (offset + value.length)

namespace Draft

/-- A row of zero bytes. -/
def blank (layout : Layout) : Draft := ⟨layout, List.replicate layout.size 0⟩

/-- Puts the bytes, cut to the room of the type, at the column. -/
def put (draft : Draft) (column : String) (type : ColumnType) (value : List UInt8) :
    Except Interrupt Draft :=
  match draft.layout.field? column with
  | some spot =>
      if spot.type = type then
        .ok { draft with bytes := overwrite draft.bytes spot.offset (value.take type.size) }
      else .error (mismatch column type)
  | none => .error (mismatch column type)
where
  mismatch (column : String) (type : ColumnType) : Interrupt :=
    .crash (some s!"column {column} of class {draft.layout.classOid.text} is not {type.label}")

/-- The bytes that a value puts into its row, allocating what lies outside. -/
def encode (memory : Memory) : ColumnValue → List UInt8 × Memory
  | .bool value => ([if value then 1 else 0], memory)
  | .char value => ([value], memory)
  | .i16 value => (bytesOfNat 2 value.toUInt16.toNat, memory)
  | .i32 value => (bytesOfNat 4 value.toUInt32.toNat, memory)
  | .oid value => (bytesOfNat 4 value.val.toNat, memory)
  -- One byte of the room is left for the terminator.
  | .name value => ((bytesOfText value).take (ColumnType.nameLength - 1), memory)
  | .text none => (bytesOfNat 8 0, memory)
  | .text (some value) =>
      let (address, memory) := memory.allocText value
      (bytesOfNat 8 address.val.toNat, memory)
  | .oidList value =>
      let (address, memory) := memory.allocOids value
      (bytesOfNat 8 address.val.toNat, memory)

/-- Writes a value into a column. -/
def write (draft : Draft) (column : String) (value : ColumnValue) : Task Memory Draft := do
  let bytes ← Task.lift fun memory => encode memory value
  match draft.put column value.type bytes with
  | .ok draft => return draft
  | .error interrupt => throw interrupt

def writeAll : Draft → List (String × ColumnValue) → Task Memory Draft
  | draft, [] => return draft
  | draft, (column, value) :: columns => do (← draft.write column value).writeAll columns

/-- Allocates the row. -/
def finish (draft : Draft) : Task Memory Address :=
  Task.lift fun memory => memory.alloc draft.bytes

end Draft

/-- Writes a row with the given columns and gives its address. -/
def writeRow (layout : Layout) (columns : List (String × ColumnValue)) : Task Memory Address := do
  (← (Draft.blank layout).writeAll columns).finish

end CatalogReplica.Storage
