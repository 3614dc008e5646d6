import CatalogReplica.Catalog.World

/-!
# The slots of entities

An `EntityField` is one slot of the entities of a class.  The slots of a class are numbered
without gaps, and each number is the slot of one field.
-/

namespace CatalogReplica.Catalog

open Coherence (SlotSpec)

/-- What an entity keeps in a slot. -/
inductive EntityField where
  /-- The address of the row. -/
  | tuple (kind : EntityClass)
  /-- A value of the row. -/
  | column (field : Column)
  /-- Another entity. -/
  | link (field : Link)
  /-- The type of an attribute. -/
  | attributeType
  /-- The columns of a relation. -/
  | relationDescriptor
  /-- The columns of a type. -/
  | typeDescriptor
  deriving DecidableEq, Repr

namespace EntityField

/-- The class of the entities that have the slot. -/
def kind : EntityField → EntityClass
  | tuple kind => kind
  | column field => field.info.kind
  | link field => field.info.kind
  | attributeType => .attr
  | relationDescriptor => .relation
  | typeDescriptor => .type

/-- The declaration of the slot. -/
def spec : EntityField → SlotSpec
  | tuple kind => kind.tuple
  | column field => field.spec
  | link field => field.spec
  | attributeType => Catalog.attributeType
  | relationDescriptor => Catalog.relationDescriptor
  | typeDescriptor => Catalog.typeDescriptor

/-- The number of the slot. -/
def index (field : EntityField) : Nat := field.spec.index

/-- The class of the entities that the field leads to, if it leads to any. -/
def leadsTo? : EntityField → Option EntityClass
  | link field => some field.info.target
  | attributeType => some .type
  | _ => none

/-- The fields of a class in the order of their slots. -/
def ofKind : EntityClass → List EntityField
  | .schema => [tuple .schema, column .schemaName, column .schemaOwner]
  | .relation => [tuple .relation, column .relationName, link .relationSchema, column .relationKind,
      column .relationNatts, column .relationRowType, relationDescriptor]
  | .attr => [tuple .attr, column .attributeName, column .attributeTypeOid,
      column .attributeTypmod, column .attributeNotNull, attributeType]
  | .type => [tuple .type, column .typeName, link .typeSchema, column .typeLength,
      column .typeByValue, column .typeKind, link .typeRelation, link .typeElement, typeDescriptor]
  | .routine => [tuple .routine, column .routineName, link .routineSchema, link .routineLanguage,
      link .routineReturnType, column .routineReturnsSet, column .routineArgTypes,
      column .routineSource]
  | .language => [tuple .language, column .languageName, column .languageTrusted,
      column .languageProcedural]

theorem getElem_ofKind (field : EntityField) : (ofKind field.kind)[field.index]? = some field := by
  cases field with
  | tuple kind => cases kind <;> rfl
  | column field => cases field <;> rfl
  | link field => cases field <;> rfl
  | attributeType => rfl
  | relationDescriptor => rfl
  | typeDescriptor => rfl

/-- A slot of a class belongs to one field. -/
theorem eq_of_index {one two : EntityField} (kind : one.kind = two.kind) (index : one.index = two.index) :
    one = two := by
  have first := one.getElem_ofKind
  rw [kind, index, two.getElem_ofKind, Option.some.injEq] at first
  exact first.symm

theorem index_lt (field : EntityField) : field.index < field.kind.slots := by
  have inside := (List.getElem?_eq_some_iff.mp field.getElem_ofKind).1
  generalize field.kind = kind at inside ⊢
  cases kind <;> exact inside

theorem binding (field : EntityField) : field.spec.binding = .gate 0 := by
  cases field <;> rfl

end EntityField

end CatalogReplica.Catalog
