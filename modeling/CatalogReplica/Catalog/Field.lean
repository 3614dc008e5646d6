import CatalogReplica.Coherence.Slot
import CatalogReplica.Catalog.Class

/-!
# The fields of entities

Every entity has a slot for the address of its row and one slot for each of its
fields.  A `Column` field is a value of the row; a `Link` field leads to another
entity, whose number is in the row.  The remaining slots (`attributeType`,
`relationDescriptor`, `typeDescriptor`) are computed from those.

All slots of an entity are governed by its one gate.
-/

namespace CatalogReplica.Catalog

open Storage (ColumnType)
open Coherence (SlotSpec)

namespace EntityClass

/-- The slot for the address of the row; only the mutator may search for it. -/
def tuple (c : EntityClass) : SlotSpec :=
  { index := 0, name := c.label ++ ".tuple", affinity := .mutator }

/-- The slot of a field. -/
def slot (c : EntityClass) (index : Nat) (field : String) : SlotSpec :=
  { index, name := c.label ++ "." ++ field }

end EntityClass

/-- A field that is a value of the row. -/
inductive Column where
  | schemaName
  | schemaOwner
  | relationName
  | relationKind
  | relationNatts
  | relationRowType
  | attributeName
  | attributeTypeOid
  | attributeTypmod
  | attributeNotNull
  | typeName
  | typeLength
  | typeByValue
  | typeKind
  | routineName
  | routineReturnsSet
  | routineArgTypes
  | routineSource
  | languageName
  | languageTrusted
  | languageProcedural
  deriving DecidableEq, Inhabited, Repr

/-- Where the value of a column field is kept and where it comes from. -/
structure ColumnInfo where
  kind : EntityClass
  index : Nat
  field : String
  source : String
  type : ColumnType
  deriving DecidableEq, Inhabited, Repr

namespace Column

/-- The whereabouts of the field. -/
def info : Column → ColumnInfo
  | schemaName => ⟨.schema, 1, "name", "nspname", .name⟩
  | schemaOwner => ⟨.schema, 2, "owner", "nspowner", .oid⟩
  | relationName => ⟨.relation, 1, "name", "relname", .name⟩
  | relationKind => ⟨.relation, 3, "kind", "relkind", .char⟩
  | relationNatts => ⟨.relation, 4, "natts", "relnatts", .i16⟩
  | relationRowType => ⟨.relation, 5, "row_type", "reltype", .oid⟩
  | attributeName => ⟨.attr, 1, "name", "attname", .name⟩
  | attributeTypeOid => ⟨.attr, 2, "type_oid", "atttypid", .oid⟩
  | attributeTypmod => ⟨.attr, 3, "typmod", "atttypmod", .i32⟩
  | attributeNotNull => ⟨.attr, 4, "not_null", "attnotnull", .bool⟩
  | typeName => ⟨.type, 1, "name", "typname", .name⟩
  | typeLength => ⟨.type, 3, "length", "typlen", .i16⟩
  | typeByValue => ⟨.type, 4, "by_value", "typbyval", .bool⟩
  | typeKind => ⟨.type, 5, "typtype", "typtype", .char⟩
  | routineName => ⟨.routine, 1, "name", "proname", .name⟩
  | routineReturnsSet => ⟨.routine, 5, "returns_set", "proretset", .bool⟩
  | routineArgTypes => ⟨.routine, 6, "arg_types", "proargtypes", .oidList⟩
  | routineSource => ⟨.routine, 7, "source", "prosrc", .text⟩
  | languageName => ⟨.language, 1, "name", "lanname", .name⟩
  | languageTrusted => ⟨.language, 2, "trusted", "lanpltrusted", .bool⟩
  | languageProcedural => ⟨.language, 3, "procedural", "lanispl", .bool⟩

def all : List Column := [
  schemaName, schemaOwner, relationName, relationKind, relationNatts, relationRowType,
  attributeName, attributeTypeOid, attributeTypmod, attributeNotNull, typeName, typeLength,
  typeByValue, typeKind, routineName, routineReturnsSet, routineArgTypes, routineSource,
  languageName, languageTrusted, languageProcedural]

def spec (column : Column) : SlotSpec := column.info.kind.slot column.info.index column.info.field

end Column

/-- A field that leads to the entity whose number is in the row. -/
inductive Link where
  | relationSchema
  | typeSchema
  | typeRelation
  | typeElement
  | routineSchema
  | routineLanguage
  | routineReturnType
  deriving DecidableEq, Inhabited, Repr

/-- Where a link is kept, where it comes from and where it leads to. -/
structure LinkInfo where
  kind : EntityClass
  index : Nat
  field : String
  source : String
  target : EntityClass
  isOptional : Bool := false
  deriving DecidableEq, Inhabited, Repr

namespace Link

/-- The whereabouts of the field. -/
def info : Link → LinkInfo
  | relationSchema => ⟨.relation, 2, "namespace", "relnamespace", .schema, false⟩
  | typeSchema => ⟨.type, 2, "namespace", "typnamespace", .schema, false⟩
  | typeRelation => ⟨.type, 6, "relation", "typrelid", .relation, true⟩
  | typeElement => ⟨.type, 7, "element", "typelem", .type, true⟩
  | routineSchema => ⟨.routine, 2, "namespace", "pronamespace", .schema, false⟩
  | routineLanguage => ⟨.routine, 3, "language", "prolang", .language, false⟩
  | routineReturnType => ⟨.routine, 4, "return_type", "prorettype", .type, false⟩

def all : List Link := [
  relationSchema, typeSchema, typeRelation, typeElement, routineSchema, routineLanguage,
  routineReturnType]

def spec (link : Link) : SlotSpec := link.info.kind.slot link.info.index link.info.field

end Link

/-- The slot for the type of an attribute. -/
def attributeType : SlotSpec := EntityClass.attr.slot 5 "type"

/-- The slot for the columns of a relation. -/
def relationDescriptor : SlotSpec :=
  { EntityClass.relation.slot 6 "descriptor" with flight := .single, affinity := .mutator }

/-- The slot for the columns of a composite type or an interned record type. -/
def typeDescriptor : SlotSpec :=
  { EntityClass.type.slot 8 "descriptor" with flight := .single, affinity := .mutator }

/-- The slot for the description of an encoding, which never changes. -/
def encodingInfo : SlotSpec := { index := 0, name := "encoding.info", binding := .fixed }

end CatalogReplica.Catalog
