import CatalogReplica.Catalog.Lookup

/-!
# Reading the fields of entities

Every field is read through its slot: a memo is served while it is valid, and
computed otherwise, by the mutator alone.  The computations form layers, so that none
of them can come back to the slot that it computes:

1. `World.tuple`, the address of the row;
2. `World.column` and `World.link`, which read the row;
3. `World.attributeType`, from two columns of the attribute;
4. `World.relationDescriptor`, from columns of the relation and its attributes;
5. `World.typeDescriptor`, from the relation of a type or from the provider.

What a reading leads to is held for the caller, who releases it.
-/

namespace CatalogReplica.Catalog

open Coherence (Access Computed SlotSpec)
open Storage (ColumnType ColumnValue Row)

namespace World

/-- Ends with a fault unless the number stands for an entity. -/
def requireEntity (id : ThingId) : Task World Entity := do
  match (← get).entity? id with
  | some entity => return entity
  | none => Task.crash

/-- Reads a slot.  A computation holds what its value refers to; what a memo refers
    to is held here. -/
def readSlot (id : ThingId) (spec : SlotSpec) (access : Access)
    (compute : Task World (Computed Datum)) : Task World Datum := do
  let kept := ((view id).place spec).peek (← get)
  let datum ← (view id).read spec access compute
  if kept.isSome then modify fun world => datum.refs.foldl (fun world id => hold id world) world
  return datum

/-! ## The row -/

/-- Searches for the row of an entity. -/
def search (id : ThingId) : Task World (Computed Datum) := do
  let key := (← requireEntity id).rowKey
  match ← onProvider (Provider.search key) with
  | some address => return .cached (.address address)
  | none => Task.fail (.notFound key.form.inline)

/-- The address of the row of an entity. -/
def tuple (id : ThingId) (access : Access) : Task World Address := do
  let spec := (← requireEntity id).kind.tuple
  match ← readSlot id spec access (search id) with
  | .address address => return address
  | _ => spec.mismatch

/-- Reads a column of the row of an entity. -/
def rowValue (id : ThingId) (access : Access) (source : String) (type : ColumnType) :
    Task World ColumnValue := do
  let address ← tuple id access
  -- A kept address needs no catalog, reading at it does.
  requireOpen
  let kind := (← requireEntity id).kind
  let layout ← Task.ofExcept ((← get).provider.layout? kind)
  let row : Row := { memory := (← get).provider.memory, layout, address }
  Task.ofOutcome (row.get type source)

/-- Reads a column of the row of an entity that holds an object number. -/
def rowOid (id : ThingId) (access : Access) (source : String) : Task World Oid := do
  match ← rowValue id access source .oid with
  | .oid oid => return oid
  | _ => Task.crash

/-! ## Columns and links -/

def column (id : ThingId) (field : Column) (access : Access) : Task World ColumnValue := do
  let datum ← readSlot id field.spec access do
    return .cached (.column (← rowValue id access field.info.source field.info.type))
  match datum with
  | .column value => return value
  | _ => field.spec.mismatch

/-- Tells the target of a link that an entity resolved it. -/
def track (link : Link) (oid : Oid) (target : ThingId) (world : World) : World :=
  match link with
  | .typeRelation => onThing target (Thing.onTies (Ties.trackType oid)) world
  | .routineLanguage => onThing target (Thing.onTies (Ties.trackRoutine oid)) world
  | _ => world

/-- Finds the target of a link. -/
def resolve (id : ThingId) (field : Link) (access : Access) : Task World (Computed Datum) := do
  let oid ← rowOid id access field.info.source
  -- Zero in an optional link says that there is no target.
  if field.info.isOptional && !oid.isValid then return .cached (.link none)
  else
    requireOpen
    let target ← entity field.info.target oid
    let own := (← requireEntity id).key.object
    modify (track field own target)
    return .cached (.link (some target))

/-- Reads a slot that leads to another thing. -/
def linkSlot (id : ThingId) (spec : SlotSpec) (access : Access)
    (compute : Task World (Computed Datum)) : Task World (Option ThingId) := do
  match ← readSlot id spec access compute with
  | .link target => return target
  | _ => spec.mismatch

def link (id : ThingId) (field : Link) (access : Access) : Task World (Option ThingId) :=
  linkSlot id field.spec access (resolve id field access)

/-- Reads a column field that holds an object number. -/
def oidColumn (id : ThingId) (field : Column) (access : Access) : Task World Oid := do
  match ← column id field access with
  | .oid oid => return oid
  | _ => field.spec.mismatch

/-- Reads a column field that holds a type modifier. -/
def typmodColumn (id : ThingId) (field : Column) (access : Access) : Task World Int32 := do
  match ← column id field access with
  | .i32 typmod => return typmod
  | _ => field.spec.mismatch

/-- Reads a column field that holds a count. -/
def countColumn (id : ThingId) (field : Column) (access : Access) : Task World Int16 := do
  match ← column id field access with
  | .i16 count => return count
  | _ => field.spec.mismatch

/-- Reads a column field that holds a name. -/
def nameColumn (id : ThingId) (field : Column) (access : Access) : Task World String := do
  match ← column id field access with
  | .name name => return name
  | _ => field.spec.mismatch

/-- The type of an attribute, with its type modifier. -/
def attributeType (id : ThingId) (access : Access) : Task World (Option ThingId) :=
  linkSlot id Catalog.attributeType access do
    let oid ← oidColumn id .attributeTypeOid access
    let typmod ← typmodColumn id .attributeTypmod access
    requireOpen
    return .cached (.link (some (← typeWith oid typmod)))

/-- The row type of a relation, if it has one.  Only its number is kept: the type
    keeps the relation alive in turn. -/
def rowType (id : ThingId) (access : Access) : Task World (Option ThingId) := do
  let oid ← oidColumn id .relationRowType access
  if oid.isValid then
    requireOpen
    return some (← entity .type oid)
  else return none

/-! ## Descriptors -/

/-- The columns of a relation with the given attribute numbers. -/
def relationColumns (oid : Oid) (access : Access) : List Int16 → Task World (List DescriptorColumn)
  | [] => return []
  | attnum :: rest => do
      let id ← attributeOf oid attnum
      let first ← Task.ensuring
        (do
          let name ← nameColumn id .attributeName access
          let typeOid ← oidColumn id .attributeTypeOid access
          let typmod ← typmodColumn id .attributeTypmod access
          return { attnum, name := some name, typeOid, typmod : DescriptorColumn })
        (release id)
      return first :: (← relationColumns oid access rest)

/-- The columns of a relation. -/
def relationDescriptor (id : ThingId) (access : Access) : Task World (Option ThingId) :=
  linkSlot id Catalog.relationDescriptor access do
    let natts ← countColumn id .relationNatts access
    let rowType ← oidColumn id .relationRowType access
    requireOpen
    let oid := (← requireEntity id).key.object
    let attnums := (List.range' 1 natts.toInt.toNat).map Int16.ofNat
    let columns ← relationColumns oid access attnums
    let descriptor ← construct <| return .descriptor {
      typeOid := rowType, typmod := noTypmod, relation := some oid, columns, guard := none }
    return .cached (.link (some descriptor))

/-- The columns of an interned record type.  While the provider knows none under the
    type modifier, nothing is kept. -/
def recordDescriptor (typmod : Int32) : Task World (Computed Datum) := do
  requireOpen
  match ← onProvider (Provider.lookupRecord typmod) with
  | none => return .transient (.link none)
  | some address => return .cached (.link (some (← nativeDescriptor address)))

/-- The columns of a composite type or an interned record type, if it is one. -/
def typeDescriptor (id : ThingId) (access : Access) : Task World (Option ThingId) :=
  linkSlot id Catalog.typeDescriptor access do
    let type ← requireEntity id
    if type.isInternedRecord then recordDescriptor type.key.sub
    else
      match ← link id .typeRelation access with
      | none => return .cached (.link none)
      | some relation =>
          let descriptor ← Task.ensuring (relationDescriptor relation access) (release relation)
          return .cached (.link descriptor)

/-! ## Encodings -/

def encodingInfo (id : ThingId) (access : Access) : Task World EncodingInfo := do
  let datum ← readSlot id Catalog.encodingInfo access do
    requireOpen
    match (← get).thing? id with
    | some (.encoding number _) =>
        match ← Task.ofExcept ((← get).provider.encoding? number) with
        | some info => return .cached (.encoding info)
        | none => Task.fail (.notFound (Text.quoted s!"encoding {number.toInt}"))
    | _ => Task.crash
  match datum with
  | .encoding info => return info
  | _ => Catalog.encodingInfo.mismatch

end World

/-! ## Fields by name -/

/-- What can be read of a thing. -/
inductive Accessor where
  | oid
  | attnum
  | typmod
  | interned
  | rowKey
  | owner
  | routines
  | column (field : Column)
  | composite
  | link (field : Link)
  | attributeType
  | rowType
  | relationDescriptor
  | typeDescriptor
  | encodingId
  | encodingName
  | encodingMaxCharLen
  | encodingInfo
  deriving DecidableEq, Inhabited, Repr

/-- What reading a thing gives. -/
inductive Reading where
  | value (value : ColumnValue)
  | number (n : Int)
  | text (text : String)
  /-- Another thing, if there is one; it is held. -/
  | thing (id : Option ThingId)
  | encoding (info : EncodingInfo)
  deriving DecidableEq, Inhabited, Repr

namespace Accessor

/-- The further fields of entities, with their names. -/
def special : EntityClass → List (String × Accessor)
  | .relation => [("row_type", rowType), ("descriptor", relationDescriptor)]
  | .attr => [("relation", owner), ("attnum", attnum), ("type", attributeType)]
  | .type => [("typmod", typmod), ("interned", interned), ("row_key", rowKey),
      ("composite", composite), ("descriptor", typeDescriptor)]
  | .routine => [("row_key", rowKey)]
  | .language => [("routines", routines)]
  | .schema => []

/-- The fields of entities of a class, with their names. -/
def ofEntity (kind : EntityClass) : List (String × Accessor) :=
  ("oid", oid) :: special kind
    ++ (Link.all.filter (·.info.kind == kind)).map (fun field => (field.info.field, .link field))
    ++ (Column.all.filter (·.info.kind == kind)).map fun field => (field.info.field, .column field)

/-- The fields of encodings, with their names. -/
def ofEncoding : List (String × Accessor) := [
  ("id", encodingId), ("name", encodingName), ("max_char_len", encodingMaxCharLen),
  ("info", encodingInfo)]

/-- The field of a thing with a name. -/
def ofName? (thing : Thing) (name : String) : Option Accessor :=
  match thing with
  | .entity entity => (ofEntity entity.kind).lookup name
  | .encoding .. => ofEncoding.lookup name
  | .descriptor _ => none

open World in
/-- Reads a field of a thing. -/
def read (id : ThingId) (access : Coherence.Access) : Accessor → Task World Reading
  | oid => do return .value (.oid (← requireEntity id).key.object)
  | attnum => do return .number (← requireEntity id).key.sub.toInt16.toInt
  | typmod => do return .number (← requireEntity id).key.sub.toInt
  | interned => do return .value (.bool (← requireEntity id).isInternedRecord)
  | rowKey => do return .text (← requireEntity id).rowKey.text
  | owner => do
      match (← requireEntity id).ties.refs.head? with
      | some relation =>
          modify (hold relation)
          return .thing (some relation)
      | none => Task.crash
  | routines => do return .value (.oidList (← requireEntity id).ties.routines)
  | column field => do return .value (← World.column id field access)
  | composite => do
      return .value (.bool ((← World.column id .typeKind access) == .char compositeKind))
  | link field => do return .thing (← World.link id field access)
  | attributeType => do return .thing (← World.attributeType id access)
  | rowType => do return .thing (← World.rowType id access)
  | relationDescriptor => do return .thing (← World.relationDescriptor id access)
  | typeDescriptor => do return .thing (← World.typeDescriptor id access)
  | encodingId => do
      match (← get).thing? id with
      | some (.encoding number _) => return .number number.toInt
      | _ => Task.crash
  | encodingName => do return .text (← World.encodingInfo id access).name
  | encodingMaxCharLen => do
      return .value (.char (← World.encodingInfo id access).maxCharLen)
  | encodingInfo => do return .encoding (← World.encodingInfo id access)

end Accessor

end CatalogReplica.Catalog
