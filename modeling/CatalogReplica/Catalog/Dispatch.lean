import CatalogReplica.Catalog.Inspection
import CatalogReplica.Catalog.Lookup

/-!
# Signals

The provider signals that rows have changed and that native scopes were torn down.
The signals of a burst are collected into a `Cascade` first and take effect
together:

1. the gates of everything that depends on a changed row are tripped,
2. entities whose rows were deleted leave their identity caches,
3. the lifespans of the scopes are torn down,
4. native descriptors that became unreachable are given back.

* `World.invalidate` collects what depends on one entity.
* `World.commit` carries a cascade out.
* `World.dispatch` does both for a burst.
-/

namespace CatalogReplica.Catalog

open Coherence (Batch)
open Lifetime (Ledger)

/-- What happened to a row. -/
inductive Change where
  | updated
  | deleted
  deriving DecidableEq, Inhabited, Repr

/-- What the provider signals. -/
inductive Signal where
  /-- A row changed; the number that no object has stands for all rows of the class. -/
  | row (classOid object : Oid) (change : Change)
  | scope (address : Address) (deleted : Bool)
  | all
  deriving DecidableEq, Inhabited, Repr

/-- What a burst did. -/
structure Dispatched where
  tripped : Nat := 0
  evicted : Nat := 0
  released : Nat := 0
  deriving DecidableEq, Inhabited, Repr

/-- The effects of a burst, before any of them is carried out. -/
structure Cascade where
  trips : Batch := {}
  /-- The keys of entities to evict, the first one in front, each once. -/
  evictions : List EntityKey := []
  teardowns : List (Address × Bool) := []
  deriving DecidableEq, Inhabited, Repr

/-- Adds a key to those to evict. -/
def Cascade.evict (cascade : Cascade) (key : EntityKey) : Cascade :=
  if key ∈ cascade.evictions then cascade
  else { cascade with evictions := cascade.evictions ++ [key] }

namespace World

/-! ## Collecting -/

/-- The live entity of a key, without constructing one. -/
def find (kind : EntityClass) (key : EntityKey) (world : World) : Option ThingId × World :=
  let (found, world) := (entityView kind).get? key world
  -- What the cache gives is held, and nobody here keeps it.
  (found, found.toList.foldl (fun world id => release id world) world)

/-- The live entities of keys, without constructing any. -/
def findAll (kind : EntityClass) : List EntityKey → World → List ThingId × World
  | [], world => ([], world)
  | key :: keys, world =>
      let (found, world) := find kind key world
      let (rest, world) := findAll kind keys world
      (found.toList ++ rest, world)

/-- The live entities of a class. -/
def liveOf (world : World) (kind : EntityClass) : List ThingId :=
  ((world.caches.of kind).live world.alive).map (·.2)

/-- The keys of a type under every type modifier that it was constructed with. -/
def typeKeys (world : World) (oid : Oid) : List EntityKey :=
  (noTypmod :: (world.typmods.get? oid).getD []).map fun typmod =>
    { EntityClass.type.key oid with sub := typmod }

/-- The live types with an object number, under every type modifier. -/
def typesOf (oid : Oid) (world : World) : List ThingId × World :=
  findAll .type (world.typeKeys oid) world

/-- Adds the gate of a thing to those to trip. -/
def tripThing (id : ThingId) : Cascade × World → Cascade × World
  | (cascade, world) =>
      match (world.thing? id).bind (·.gate?) with
      | none => (cascade, world)
      | some gate =>
          let (trips, gates) := cascade.trips.add gate world.gates
          ({ cascade with trips }, { world with gates })

/-- Collects what happens to an entity alone. -/
def invalidateAlone (change : Change) (id : ThingId) (state : Cascade × World) :
    Cascade × World :=
  let (cascade, world) := tripThing id state
  match change, world.entity? id with
  | .deleted, some entity => (cascade.evict entity.key, world)
  | _, _ => (cascade, world)

/-- Collects updates of types with an object number, under every type modifier. -/
def invalidateTypes : List Oid → Cascade × World → Cascade × World
  | [], state => state
  | oid :: oids, (cascade, world) =>
      let (types, world) := typesOf oid world
      invalidateTypes oids
        (types.foldl (fun state id => invalidateAlone .updated id state) (cascade, world))

/-- Collects updates of routines. -/
def invalidateRoutines (oids : List Oid) : Cascade × World → Cascade × World
  | (cascade, world) =>
      let (routines, world) := findAll .routine (oids.map EntityClass.routine.key) world
      routines.foldl (fun state id => invalidateAlone .updated id state) (cascade, world)

/-- Collects what happens to an entity and to what depends on it: the types that
    resolved a relation and, with it, its attributes; the routines that resolved a
    language. -/
def invalidate (change : Change) (id : ThingId) (state : Cascade × World) : Cascade × World :=
  match state.2.entity? id with
  | none => state
  | some entity =>
      match entity.kind with
      | .relation =>
          let (cascade, world) := tripThing id state
          let (cascade, world) := invalidateTypes entity.ties.types
            (cascade, onThing id (Thing.onTies Ties.withoutTypes) world)
          match change with
          | .updated => (cascade, world)
          | .deleted =>
              (entity.ties.attributes.foldl
                (fun cascade attnum => cascade.evict (attributeKey entity.key.object attnum))
                (cascade.evict entity.key),
                onThing id (Thing.onTies Ties.withoutAttributes) world)
      | .language =>
          let (cascade, world) := tripThing id state
          let (cascade, world) := invalidateRoutines entity.ties.routines
            (cascade, onThing id (Thing.onTies Ties.withoutRoutines) world)
          match change with
          | .updated => (cascade, world)
          | .deleted => (cascade.evict entity.key, world)
      | _ => invalidateAlone change id state

/-- The entities that a row stands for.  An attribute row stands for its relation,
    and a type row for the type under every type modifier. -/
def targets (kind : EntityClass) (object : Oid) (world : World) : List ThingId × World :=
  let owner := if kind = .attr then EntityClass.relation else kind
  if object.isValid then
    if kind = .type then typesOf object world else findAll owner [owner.key object] world
  -- Without an object number the whole class has changed.
  else (world.liveOf owner, world)

/-- Collects what happens when a row of a class changes.  Any change of an attribute
    row is an update of its relation. -/
def collectRow (kind : EntityClass) (object : Oid) (change : Change) :
    Cascade × World → Cascade × World
  | (cascade, world) =>
      let (ids, world) := targets kind object world
      let change := if kind = .attr then .updated else change
      ids.foldl (fun state id => invalidate change id state) (cascade, world)

/-- Collects what a signal does.  Classes that no entity belongs to are left alone. -/
def collect (signal : Signal) (state : Cascade × World) : Cascade × World :=
  match signal with
  | .row classOid object change =>
      match EntityClass.ofOid? classOid with
      | some kind => collectRow kind object change state
      | none => state
  | .scope address deleted =>
      ({ state.1 with teardowns := state.1.teardowns ++ [(address, deleted)] }, state.2)
  | .all => EntityClass.all.foldl
      (fun state kind => collectRow kind Oid.invalid .updated state) state

/-! ## Carrying out -/

/-- Trips the gates of a batch and counts the cells. -/
def tripBatch (batch : Batch) (world : World) : Nat × World :=
  let (tripped, gates) := batch.commit world.gates
  (tripped, { world with gates })

/-- Forgets that a type was constructed with a type modifier. -/
def unindexTypmod (key : EntityKey) (world : World) : World :=
  if key.sub = noTypmod then world
  else
    match world.typmods.get? key.object with
    | none => world
    | some typmods =>
        match typmods.erase key.sub with
        | [] => { world with typmods := world.typmods.erase key.object }
        | rest => { world with typmods := world.typmods.set key.object rest }

/-- Evicts the entity of a key, and says whether a live one left its cache. -/
def evict (key : EntityKey) (world : World) : Bool × World :=
  match EntityClass.ofOid? key.classOid with
  | none => (false, world)
  | some kind =>
      let world := if kind = .type then unindexTypmod key world else world
      match (entityView kind).evict key world with
      | (none, world) => (false, world)
      | (some id, world) =>
          -- It is marked before it is let go, so that whoever still has it can tell.
          (true, release id (world.onTable id fun table => { table with evicted := true }))

/-- Evicts the entities of keys, and counts the live ones. -/
def evictAll : List EntityKey → World → Nat × World
  | [], world => (0, world)
  | key :: keys, world =>
      let (evicted, world) := evict key world
      let (count, world) := evictAll keys world
      (evicted.toNat + count, world)

/-- Tears the lifespan of a scope down, if there is one.  The lifespan of a deleted
    scope is forgotten.  Gives the number of guards released. -/
def teardown (address : Address) (deleted : Bool) : Task World Nat := do
  let lifespan ← Task.lift
    (if deleted then lifespanView.evict address else lifespanView.get? address)
  match lifespan with
  | none => return 0
  | some lifespan => onLedger (Ledger.teardown mutatorThread lifespan deleted)

/-- Whether the columns that a type keeps are a native descriptor that was released. -/
def keepsReleased (world : World) (id : ThingId) : Bool :=
  match ((view id).place Catalog.typeDescriptor).peek world with
  | some datum => datum.refs.any world.isReleased
  | none => false

/-- Trips the types that keep a released descriptor, so that they look for it again,
    and counts the cells. -/
def tripStale (world : World) : Nat × World :=
  let stale := (world.liveOf .type).filter world.keepsReleased
  let (cascade, world) := stale.foldl (fun state id => tripThing id state) ({}, world)
  tripBatch cascade.trips world

/-- Evicts native descriptors by address, and counts the live ones. -/
def evictDescriptors : List Address → World → Nat × World
  | [], world => (0, world)
  | address :: addresses, world =>
      let (found, world) := descriptorView.evict address world
      let world := found.toList.foldl (fun world id => release id world) world
      let (count, world) := evictDescriptors addresses world
      (found.toList.length + count, world)

/-- The addresses of the live native descriptors that were released. -/
def releasedAddresses (world : World) : List Address :=
  ((world.caches.descriptors.live world.alive).filter fun entry => world.isReleased entry.2).map
    (·.1)

/-- Gives unreachable native descriptors back, and counts them. -/
def drain : Task World Nat := do
  onLedger (Ledger.drain (← get).queue)

/-- Tears scopes down, and forgets the native descriptors that went with them: their
    addresses may be used again. -/
def tearDownAll (teardowns : List (Address × Bool)) : Task World Dispatched := do
  if teardowns.isEmpty then return {}
  else
    let released ← Task.sum (fun entry => teardown entry.1 entry.2) teardowns
    let tripped ← Task.lift tripStale
    let evicted ← Task.lift fun world => evictDescriptors world.releasedAddresses world
    return { tripped, evicted, released }

/-- Carries a cascade out. -/
def commit (cascade : Cascade) : Task World Dispatched := do
  -- The trips come first: what the evictions and teardowns meet is invalid already.
  let tripped ← Task.lift (tripBatch cascade.trips)
  let evicted ← Task.lift (evictAll cascade.evictions)
  let torn ← tearDownAll cascade.teardowns
  let drained ← drain
  let tripped := tripped + torn.tripped
  modify fun world => { world with
    ledger := { world.ledger with tally := world.ledger.tally.add .cellTrip tripped } }
  return { tripped, evicted := evicted + torn.evicted, released := torn.released + drained }

/-- Collects the signals of a burst in order; every signal counts. -/
def collectAll (signals : List Signal) (world : World) : Cascade × World :=
  signals.foldl
    (fun state signal => collect signal (state.1, count .dispatchSignal state.2)) ({}, world)

/-- Delivers a burst of signals. -/
def dispatch (signals : List Signal) : Task World Dispatched := do
  commit (← Task.lift (collectAll signals))

end World

end CatalogReplica.Catalog
