import CatalogReplica.Catalog.World

/-!
# Lookups

Entities, encodings and native descriptors are looked up in the identity caches of
the catalog and constructed where they are missing.  Constructing an entity reads
nothing; only its fields do.

A lookup holds what it gives for its caller, who releases it.

* `World.entity`, `World.typeWith`, `World.attributeOf`, `World.encoding`: by the
  numbers of what is looked up.
* `World.currentLifespan`: the lifespan of the innermost native scope.
* `World.nativeDescriptor`: the descriptor at an address, on which the caller has a
  reference.
-/

namespace CatalogReplica.Catalog

open Coherence (GateId)
open Storage (Row)
open Lifetime (Ledger LifespanId)

namespace World

/-! ## Entities -/

/-- Makes a thing and holds it. -/
def construct (make : Task World Thing) : Task World ThingId := do
  let thing ← make
  Task.lift fun world => world.add thing

/-- Ends with a fault at the number that no object has. -/
def requireValid (kind : EntityClass) (oid : Oid) : Task World Unit :=
  if oid.isValid then return ()
  else Task.fail (.notFound ({ classOid := kind.oid, object := oid } : EntityKey).form.inline)

def freshGate : Task World GateId :=
  Task.lift fun world =>
    let (gate, gates) := world.gates.newGate
    (gate, { world with gates })

/-- Looks an entity up by its key.  `prepare` gives the gate and the ties of one that
    is constructed. -/
def lookup (kind : EntityClass) (key : EntityKey) (prepare : Task World (GateId × Ties)) :
    Task World ThingId :=
  (entityView kind).lookup mutatorThread key <| construct do
    let (gate, ties) ← prepare
    return .entity { kind, key, ties, table := .blank kind.slots [gate] }

/-- The ties of an entity that nothing depends on yet. -/
def blankTies : EntityClass → Ties
  | .relation => .relation {} {}
  | .language => .language {}
  | _ => .none

/-- The entity of a class with an object number. -/
def entity (kind : EntityClass) (oid : Oid) : Task World ThingId := do
  requireValid kind oid
  lookup kind (kind.key oid) do return (← freshGate, blankTies kind)

/-- Notes that a type is constructed with a type modifier, so that signals of the
    type reach it. -/
def indexTypmod (oid : Oid) (typmod : Int32) (world : World) : World :=
  let known := (world.typmods.get? oid).getD []
  if typmod = noTypmod ∨ typmod ∈ known then world
  else { world with typmods := world.typmods.set oid (known ++ [typmod]) }

/-- The type with an object number and a type modifier. -/
def typeWith (oid : Oid) (typmod : Int32) : Task World ThingId := do
  requireValid .type oid
  lookup .type { EntityClass.type.key oid with sub := typmod } do
    modify (indexTypmod oid typmod)
    return (← freshGate, .none)

/-- The attribute of a relation with a number.  It shares the gate of the relation
    and keeps the relation alive. -/
def attributeOf (oid : Oid) (attnum : Int16) : Task World ThingId := do
  let relation ← entity .relation oid
  Task.ensuring
    (lookup .attr (attributeKey oid attnum) do
      modify (onThing relation (Thing.onTies (Ties.trackAttribute attnum)))
      match ((← get).thing? relation).bind (·.gate?) with
      | some gate => return (gate, .attr relation)
      | none => Task.crash)
    (release relation)

def encoding (id : Int32) : Task World ThingId :=
  encodingView.lookup mutatorThread id <| construct <| return .encoding id (.blank 1 [])

/-! ## Native descriptors -/

/-- The lifespan of the innermost native scope. -/
def currentLifespan : Task World LifespanId := do
  let (address, kind) := (← get).provider.scope
  lifespanView.lookup mutatorThread address <|
    onLedger <| Task.lift fun ledger => ledger.addLifespan address kind

/-- Reads the native descriptor at an address: the number and the type modifier of
    its row type, and the types of its columns. -/
def readNative (address : Address) : Task World (Oid × Int32 × List Oid) := do
  let row : Row :=
    { memory := (← get).provider.memory, layout := descriptorLayout, address }
  let _ ← Task.ofOutcome (row.i32 "natts")
  let types ← Task.ofOutcome (row.oidList "atttypes")
  let typeOid ← Task.ofOutcome (row.oid "tdtypeid")
  let typmod ← Task.ofOutcome (row.i32 "tdtypmod")
  return (typeOid, typmod, types)

/-- The columns of a native descriptor, numbered from one. -/
def nativeColumns (types : List Oid) : List DescriptorColumn :=
  types.zipIdx.map fun (typeOid, index) =>
    { attnum := Int16.ofNat (index + 1), name := none, typeOid, typmod := noTypmod }

/-- Takes over a reference on the native descriptor at an address.  It is given back
    when the descriptor goes away, unless the scope that is current now is torn down
    before.  The descriptor is pinned while it is read. -/
def adopt (address : Address) : Task World Thing := do
  let lifespan ← currentLifespan
  let queue := (← get).queue
  let guard ← onLedger <| Ledger.build
    { what := "descriptor", handle := address, queue := some queue, action := some {} }
    (some lifespan)
  let contents ← Task.attempt do
    discard (onLedger (Ledger.pin mutatorThread guard))
    Task.ensuring (readNative address) (Task.exec (onLedger (Ledger.unpin mutatorThread guard)))
  match contents with
  | .ok (typeOid, typmod, types) =>
      return .descriptor {
        typeOid, typmod, relation := none, columns := nativeColumns types, guard := some guard }
  -- The guard has the reference by now, and gives it back as it goes.
  | .error interrupt =>
      onLedger (Ledger.dropOwner guard)
      throw interrupt

/-- The descriptor at an address, on which the caller has a reference.  A new
    descriptor takes the reference over; beside one that is there, the reference is
    given back at once. -/
def nativeDescriptor (address : Address) : Task World ThingId := do
  let world ← get
  -- Asked beforehand, since the lookup leaves one there in any case.
  let known := (world.caches.descriptors.find? address).any world.alive
  let descriptor ← descriptorView.lookup mutatorThread address (construct (adopt address))
  if known then
    modify fun world => { world with provider := world.provider.releaseDescriptor address }
  return descriptor

end World

end CatalogReplica.Catalog
