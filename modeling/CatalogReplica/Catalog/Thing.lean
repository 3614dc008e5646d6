import CatalogReplica.Coherence.Slot
import CatalogReplica.Lifetime.Guard
import CatalogReplica.Storage.Row
import CatalogReplica.Catalog.Config
import CatalogReplica.Catalog.Dependents
import CatalogReplica.Catalog.Field

/-!
# What a catalog is made of

A `Thing` is an entity, an encoding or a tuple descriptor.  Entities and encodings
keep the values of their fields in slots, as `Datum`s; a `Datum` may refer to
another thing and so keep it alive, and so may the ties of an entity.
`Thing.refs` lists what a thing refers to.
-/

namespace CatalogReplica.Catalog

open Text (Form quoted)
open Storage (ColumnValue)
open Coherence (SlotTable GateId Gates)
open Lifetime (GuardId)

abbrev ThingId := Nat

/-- The value of a slot. -/
inductive Datum where
  | address (value : Address)
  | column (value : ColumnValue)
  | link (target : Option ThingId)
  | encoding (info : EncodingInfo)
  deriving DecidableEq, Inhabited, Repr

/-- The things that a value refers to. -/
def Datum.refs : Datum → List ThingId
  | link target => target.toList
  | _ => []

/-- What an entity knows of entities that depend on it, and on whom it depends. -/
inductive Ties where
  | none
  /-- The types that resolved a relation, and the attributes constructed for it. -/
  | relation (types : Dependents Oid) (attributes : Dependents Int16)
  | attr (relation : ThingId)
  | language (routines : Dependents Oid)
  deriving DecidableEq, Inhabited, Repr

namespace Ties

/-- The things that the ties refer to. -/
def refs : Ties → List ThingId
  | attr owner => [owner]
  | _ => []

/-- Whether one object number is below another. -/
def below (a b : Oid) : Bool := decide (a.val < b.val)

/-- Notes a type that resolved the relation. -/
def trackType (oid : Oid) : Ties → Ties
  | relation types attributes => relation (types.insert below oid).2 attributes
  | ties => ties

/-- Notes an attribute that is constructed for the relation. -/
def trackAttribute (attnum : Int16) : Ties → Ties
  | relation types attributes =>
      relation types (attributes.insert (fun a b => decide (a < b)) attnum).2
  | ties => ties

/-- Notes a routine that resolved the language. -/
def trackRoutine (oid : Oid) : Ties → Ties
  | language routines => language (routines.insert below oid).2
  | ties => ties

/-- The types that resolved the relation. -/
def types : Ties → List Oid
  | relation types _ => types.keys
  | _ => []

/-- The attributes constructed for the relation. -/
def attributes : Ties → List Int16
  | relation _ attributes => attributes.keys
  | _ => []

/-- The routines that resolved the language. -/
def routines : Ties → List Oid
  | language routines => routines.keys
  | _ => []

def withoutTypes : Ties → Ties
  | relation _ attributes => relation {} attributes
  | ties => ties

def withoutAttributes : Ties → Ties
  | relation types _ => relation types {}
  | ties => ties

def withoutRoutines : Ties → Ties
  | language _ => language {}
  | ties => ties

end Ties

/-- An entity of the catalog. -/
structure Entity where
  kind : EntityClass
  key : EntityKey
  table : SlotTable Datum
  ties : Ties := .none
  deriving Inhabited

namespace Entity

/-- The key of its row.  All type modifiers of a type share one row. -/
def rowKey (entity : Entity) : EntityKey :=
  if entity.kind = .type then { entity.key with sub := noTypmod } else entity.key

/-- Whether it is a record type interned under a type modifier. -/
def isInternedRecord (entity : Entity) : Bool :=
  entity.kind == .type && entity.key.object == recordType && decide (0 ≤ entity.key.sub)

end Entity

/-- A column of a tuple descriptor. -/
structure DescriptorColumn where
  /-- The number of the column, counted from one. -/
  attnum : Int16
  /-- Its name; native descriptors have none. -/
  name : Option String
  typeOid : Oid
  typmod : Int32
  deriving DecidableEq, Inhabited, Repr

/-- The columns of a relation or of a record type. -/
structure Descriptor where
  typeOid : Oid
  typmod : Int32
  relation : Option Oid
  columns : List DescriptorColumn
  guard : Option GuardId
  deriving DecidableEq, Inhabited, Repr

/-- An entity, an encoding or a tuple descriptor. -/
inductive Thing where
  | entity (entity : Entity)
  | encoding (id : Int32) (table : SlotTable Datum)
  | descriptor (descriptor : Descriptor)
  deriving Inhabited

namespace Thing

def entity? : Thing → Option Entity
  | entity e => some e
  | _ => none

/-- The tuple descriptor that it is. -/
def descriptor? : Thing → Option Descriptor
  | descriptor d => some d
  | _ => none

/-- Its slots. -/
def table? : Thing → Option (SlotTable Datum)
  | entity e => some e.table
  | encoding _ table => some table
  | descriptor _ => none

def onTable (f : SlotTable Datum → SlotTable Datum) : Thing → Thing
  | entity e => entity { e with table := f e.table }
  | encoding id table => encoding id (f table)
  | thing => thing

def onTies (f : Ties → Ties) : Thing → Thing
  | entity e => entity { e with ties := f e.ties }
  | thing => thing

/-- The gate that governs its slots. -/
def gate? (thing : Thing) : Option GateId := thing.table?.bind (·.gates.head?)

/-- The things that it refers to: those in its slots, in order, and those in its
    ties. -/
def refs : Thing → List ThingId
  | entity e => e.table.kept.flatMap (·.value.refs) ++ e.ties.refs
  | encoding _ table => table.kept.flatMap (·.value.refs)
  | descriptor _ => []

/-- What guards its native memory. -/
def guard? : Thing → Option GuardId
  | descriptor d => d.guard
  | _ => none

end Thing

end CatalogReplica.Catalog
