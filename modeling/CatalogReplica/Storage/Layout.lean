import CatalogReplica.Fault
import CatalogReplica.Key

/-!
# Row layouts

A `Layout` says where each column of a row lies.  Fields are appended with
`Layout.withField`, each at the next offset that its alignment allows; a field
of a name already there takes that name over.  `Layout.field` finds a column.
-/

namespace CatalogReplica.Storage

open Text (Form)

/-- How a column is stored. -/
inductive ColumnType where
  | bool
  | char
  | i16
  | i32
  | oid
  | name
  | text
  | oidList
  deriving DecidableEq, Inhabited, Repr

namespace ColumnType

/-- The short name of the type. -/
def label : ColumnType → String
  | bool => "Bool"
  | char => "Char"
  | i16 => "I16"
  | i32 => "I32"
  | oid => "Oid"
  | name => "Name"
  | text => "Text"
  | oidList => "OidList"

def all : List ColumnType := [bool, char, i16, i32, oid, name, text, oidList]

/-- The type with the given short name. -/
def ofLabel? (label : String) : Option ColumnType := all.find? (·.label == label)

/-- The room of a name, its terminator included. -/
def nameLength : Nat := 64

/-- The bytes that a column of the type takes. -/
def size : ColumnType → Nat
  | bool | char => 1
  | i16 => 2
  | i32 | oid => 4
  | name => nameLength
  | text | oidList => 8

/-- The offsets of a column of the type are multiples of this. -/
def align : ColumnType → Nat
  | name => 1
  | type => type.size

end ColumnType

/-- Where a column lies in its row. -/
structure FieldSpot where
  offset : Nat
  type : ColumnType
  deriving DecidableEq, Inhabited, Repr

/-- Where the columns of the rows of a class lie. -/
structure Layout where
  classOid : Oid
  fields : List (String × FieldSpot) := []
  size : Nat := 0
  deriving DecidableEq, Inhabited, Repr

/-- The least multiple of `unit` that is not below `n`. -/
def roundUp (n unit : Nat) : Nat := (n + (unit - 1)) / unit * unit

namespace Layout

/-- Appends a field at the next offset that its alignment allows. -/
def withField (layout : Layout) (name : String) (type : ColumnType) : Layout :=
  let offset := roundUp layout.size type.align
  { layout with
    fields := (name, ⟨offset, type⟩) :: layout.fields
    size := offset + type.size }

def withFields (layout : Layout) (fields : List (String × ColumnType)) : Layout :=
  fields.foldl (fun layout (name, type) => layout.withField name type) layout

/-- Where the column lies, if the layout has it. -/
def field? (layout : Layout) (column : String) : Option FieldSpot := layout.fields.lookup column

/-- Where the column lies. -/
def field (layout : Layout) (column : String) : Except Fault FieldSpot :=
  match layout.field? column with
  | some spot => .ok spot
  | none => .error <|
      ({ kind := .native, message := "column not in row layout" : Fault }.withContext
        "class" layout.classOid.text).withContext "column" column

end Layout

end CatalogReplica.Storage
