import CatalogReplica.Storage.Layout

/-!
# Entity classes

The six classes of catalog rows that entities are read from, their numbers and
the layouts of their rows, and the few object numbers with a meaning of their
own.
-/

namespace CatalogReplica.Catalog

open Storage (Layout ColumnType)

/-- A class of catalog rows. -/
inductive EntityClass where
  | schema
  | relation
  | attr
  | type
  | routine
  | language
  deriving DecidableEq, Inhabited, Repr

namespace EntityClass

/-- Every class, in the order in which a signal to all of them reaches them. -/
def all : List EntityClass := [schema, relation, attr, type, routine, language]

/-- The short name of the class. -/
def name : EntityClass → String
  | schema => "Namespace"
  | relation => "Relation"
  | attr => "Attribute"
  | type => "Type"
  | routine => "Routine"
  | language => "Language"

/-- The name of the class in the names of slots. -/
def label : EntityClass → String
  | schema => "namespace"
  | relation => "relation"
  | attr => "attribute"
  | type => "type"
  | routine => "routine"
  | language => "language"

/-- How many slots the entities of the class have. -/
def slots : EntityClass → Nat
  | schema => 3
  | relation => 7
  | attr => 6
  | type => 9
  | routine => 8
  | language => 4

def oid : EntityClass → Oid
  | schema => ⟨2615⟩
  | relation => ⟨1259⟩
  | attr => ⟨1249⟩
  | type => ⟨1247⟩
  | routine => ⟨1255⟩
  | language => ⟨2612⟩

/-- The class with the given number. -/
def ofOid? (oid : Oid) : Option EntityClass := all.find? (·.oid = oid)

/-- The class with the given short name. -/
def ofName? (name : String) : Option EntityClass := all.find? (·.name == name)

/-- The class with the given name in the names of slots. -/
def ofLabel? (label : String) : Option EntityClass := all.find? (·.label == label)

/-- The columns of the rows of the class. -/
def columns : EntityClass → List (String × ColumnType)
  | schema => [("nspname", .name), ("nspowner", .oid)]
  | relation => [("relname", .name), ("relnamespace", .oid), ("reltype", .oid),
      ("relkind", .char), ("relnatts", .i16)]
  | attr => [("attrelid", .oid), ("attname", .name), ("atttypid", .oid), ("attnum", .i16),
      ("atttypmod", .i32), ("attnotnull", .bool)]
  | type => [("typname", .name), ("typnamespace", .oid), ("typlen", .i16), ("typbyval", .bool),
      ("typtype", .char), ("typrelid", .oid), ("typelem", .oid)]
  | routine => [("proname", .name), ("pronamespace", .oid), ("prolang", .oid),
      ("prorettype", .oid), ("proretset", .bool), ("proargtypes", .oidList), ("prosrc", .text)]
  | language => [("lanname", .name), ("lanpltrusted", .bool), ("lanispl", .bool)]

/-- The layout of the rows of the class. -/
def layout (c : EntityClass) : Layout := ({ classOid := c.oid } : Layout).withFields c.columns

end EntityClass

/-- The type of anonymous records. -/
def recordType : Oid := ⟨2249⟩

/-- The type modifier that modifies nothing. -/
def noTypmod : Int32 := -1

/-- The key of the object with a number.  A type is keyed without type modifier. -/
def EntityClass.key (c : EntityClass) (oid : Oid) : EntityKey :=
  { classOid := c.oid, object := oid, sub := if c = .type then noTypmod else 0 }

/-- The key of an attribute of a relation. -/
def attributeKey (relation : Oid) (attnum : Int16) : EntityKey :=
  { classOid := EntityClass.attr.oid, object := relation, sub := attnum.toInt32 }

/-- The kind of type whose values are rows of a relation. -/
def compositeKind : UInt8 := 'c'.toNat.toUInt8

/-- The layout of native tuple descriptors. -/
def descriptorLayout : Layout :=
  ({ classOid := Oid.invalid } : Layout).withFields
    [("natts", .i32), ("tdtypeid", .oid), ("tdtypmod", .i32), ("atttypes", .oidList)]

end CatalogReplica.Catalog
