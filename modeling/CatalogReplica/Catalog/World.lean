import CatalogReplica.Identity.Cache
import CatalogReplica.Catalog.Provider
import CatalogReplica.Catalog.Thing

/-!
# The state of a catalog

A `World` holds a catalog with its provider, its session and all its things.

Things live while something refers to them: someone who holds them, an identity
cache that retains them, or another living thing.  `World.release` and
`World.reap` remove things that nothing refers to any more; a native descriptor
then leaves the release of its memory to the catalog's queue.  Things that refer to
each other in a circle keep each other alive.

* `World.entityView`, `World.descriptorView`, `World.encodingView` and
  `World.lifespanView` are the identity caches inside the state.
* `World.view` is the slots of one thing inside the state.
-/

namespace CatalogReplica.Catalog

open Coherence (Gates SlotTable TableView)
open Identity (Cache CacheView Note)
open Lifetime (Ledger LifespanId QueueId ThreadId)

/-- The identity caches of a catalog. -/
structure Caches where
  schemas : Cache EntityKey ThingId
  relations : Cache EntityKey ThingId
  attributes : Cache EntityKey ThingId
  types : Cache EntityKey ThingId
  routines : Cache EntityKey ThingId
  languages : Cache EntityKey ThingId
  descriptors : Cache Address ThingId
  encodings : Cache Int32 ThingId

namespace Caches

def blank (config : Config) : Caches where
  schemas := entities "namespace" config.schemas
  relations := entities "relation" config.relations
  attributes := entities "attribute" config.attributes
  types := entities "type" config.types
  routines := entities "routine" config.routines
  languages := entities "language" config.languages
  descriptors := {
    name := "descriptor", retention := config.descriptors
    discipline := .shared config.shards, spread := fun address => address.val.toNat / 16 }
  encodings := {
    name := "encoding", retention := config.encodings
    discipline := .shared config.shards, spread := fun id => id.toInt.natAbs }
where
  entities (name : String) (retention : Identity.Retention) : Cache EntityKey ThingId :=
    { name, retention, discipline := .shared config.shards
      spread := fun key => key.object.val.toNat + key.sub.toInt.natAbs }

/-- The cache of the entities of a class. -/
def of (caches : Caches) : EntityClass → Cache EntityKey ThingId
  | .schema => caches.schemas
  | .relation => caches.relations
  | .attr => caches.attributes
  | .type => caches.types
  | .routine => caches.routines
  | .language => caches.languages

/-- Replaces the cache of the entities of a class. -/
def put (caches : Caches) (kind : EntityClass) (cache : Cache EntityKey ThingId) : Caches :=
  match kind with
  | .schema => { caches with schemas := cache }
  | .relation => { caches with relations := cache }
  | .attr => { caches with attributes := cache }
  | .type => { caches with types := cache }
  | .routine => { caches with routines := cache }
  | .language => { caches with languages := cache }

/-- Whether one of the caches retains the thing. -/
def keeps (caches : Caches) (id : ThingId) : Bool :=
  EntityClass.all.any (fun kind => (caches.of kind).keeps id)
    || caches.descriptors.keeps id || caches.encodings.keeps id

end Caches

/-- The mutator's view of a catalog. -/
structure Session where
  mutator : Nat
  lifespans : Cache Address LifespanId

/-- A session without lifespans. -/
def Session.blank (mutator : Nat) : Session :=
  { mutator
    lifespans := {
      name := "lifespan", retention := .strong, discipline := .confined, spread := fun _ => 0 } }

/-- A catalog with its provider, its session and all its things. -/
structure World where
  config : Config
  provider : Provider := {}
  gates : Gates := {}
  ledger : Ledger
  queue : QueueId
  heap : Numbered Thing := []
  nextThing : ThingId := 0
  /-- The things that someone holds, once for each time. -/
  held : List ThingId := []
  caches : Caches
  typmods : Assoc Oid (List Int32) := []
  session : Option Session := none
  catalogHeld : Bool := true
  nextMutator : Nat := 1

namespace World

/-- A catalog without things and without a session. -/
def start (config : Config) : World :=
  let (queue, ledger) := ({} : Ledger).addQueue
  { config, queue, ledger, caches := .blank config }

/-- The thread of the mutator. -/
def mutatorThread : ThreadId := 0

/-! ## Counters and native resources -/

def tally (world : World) : Tally := world.ledger.tally

def count (counter : Counter) (world : World) : World :=
  { world with ledger := { world.ledger with tally := world.ledger.tally.add counter } }

/-- Takes notice of what identity caches report. -/
def note {κ : Type} (notes : List (Note κ)) (world : World) : World :=
  { world with ledger := { world.ledger with tally := Note.count notes world.ledger.tally } }

/-- Replaces the ledger.  The provider takes notice of what happened to guards. -/
def setLedger (ledger : Ledger) (world : World) : World :=
  { world with
    ledger
    provider := (ledger.log.drop world.ledger.log.length).foldl Provider.notice world.provider }

/-- Runs an operation on native resources. -/
def onLedger {α : Type} (body : Task Ledger α) : Task World α :=
  Task.within (·.ledger) setLedger body

/-- Runs an operation of the provider. -/
def onProvider {α : Type} (body : Task Provider α) : Task World α :=
  Task.within (·.provider) (fun provider world => { world with provider }) body

/-! ## Life and death of things -/

def thing? (world : World) (id : ThingId) : Option Thing := world.heap.get? id

def entity? (world : World) (id : ThingId) : Option Entity := (world.thing? id).bind (·.entity?)

def descriptor? (world : World) (id : ThingId) : Option Descriptor :=
  (world.thing? id).bind (·.descriptor?)

def alive (world : World) (id : ThingId) : Bool := world.heap.has id

/-- Whether something refers to a thing. -/
def referenced (world : World) (id : ThingId) : Bool :=
  world.held.contains id || world.caches.keeps id
    || world.heap.any fun entry => entry.2.refs.contains id

/-- The owner of the guard of a thing goes away. -/
def dropGuard (thing : Thing) (world : World) : World :=
  match thing.guard? with
  | some guard => Task.exec (onLedger (Ledger.dropOwner guard)) world
  | none => world

/-- Removes those of the things that nothing refers to, and then in the same way what
    each of them referred to. -/
def reapWithin : Nat → List ThingId → World → World
  | 0, _, world => world
  | _ + 1, [], world => world
  | steps + 1, id :: ids, world =>
      match world.thing? id with
      | none => reapWithin steps ids world
      | some thing =>
          if world.referenced id then reapWithin steps ids world
          else
            reapWithin steps (thing.refs ++ ids)
              (dropGuard thing { world with heap := world.heap.erase id })

/-- Removes those of the things that nothing refers to, and what only they referred
    to. -/
def reap (ids : List ThingId) (world : World) : World :=
  -- Each thing removed adds its references to the list, each only once.
  let links := world.heap.foldl (fun total entry => total + entry.2.refs.length + 1) 0
  reapWithin (links + ids.length) ids world

/-- Holds a thing once more. -/
def hold (id : ThingId) (world : World) : World := { world with held := id :: world.held }

/-- Holds a thing once less. -/
def release (id : ThingId) (world : World) : World :=
  reap [id] { world with held := world.held.erase id }

/-- Adds a thing and holds it. -/
def add (world : World) (thing : Thing) : ThingId × World :=
  (world.nextThing,
    hold world.nextThing
      { world with
        heap := world.heap.add world.nextThing thing, nextThing := world.nextThing + 1 })

def onThing (id : ThingId) (f : Thing → Thing) (world : World) : World :=
  { world with heap := world.heap.update id f }

/-- Changes the slots of a thing; what they no longer refer to may go. -/
def onTable (id : ThingId) (f : SlotTable Datum → SlotTable Datum) (world : World) : World :=
  let before := ((world.thing? id).map (·.refs)).getD []
  reap before (world.onThing id (Thing.onTable f))

/-! ## Views -/

/-- The slots of a thing inside the state. -/
def view (id : ThingId) : TableView World Datum where
  get? world := (world.thing? id).bind (·.table?)
  update := onTable id
  gates := (·.gates)
  count := count

/-- The cache of the entities of a class inside the state. -/
def entityView (kind : EntityClass) : CacheView World EntityKey ThingId where
  get world := world.caches.of kind
  set cache world := { world with caches := world.caches.put kind cache }
  alive := alive
  note := note
  hold := hold
  letGo := reap
  key := EntityKey.form

/-- The cache of native descriptors inside the state. -/
def descriptorView : CacheView World Address ThingId where
  get world := world.caches.descriptors
  set cache world := { world with caches := { world.caches with descriptors := cache } }
  alive := alive
  note := note
  hold := hold
  letGo := reap
  key := Address.form

/-- The cache of encodings inside the state. -/
def encodingView : CacheView World Int32 ThingId where
  get world := world.caches.encodings
  set cache world := { world with caches := { world.caches with encodings := cache } }
  alive := alive
  note := note
  hold := hold
  letGo := reap
  key id := .ofInt id.toInt

/-- The lifespans of the session inside the state.  The session keeps all of them. -/
def lifespanView : CacheView World Address LifespanId where
  get world := ((world.session.getD (.blank 0)).lifespans)
  set cache world :=
    { world with session := world.session.map fun session => { session with lifespans := cache } }
  alive _ _ := true
  note := note
  hold _ world := world
  letGo _ world := world
  key := Address.form

/-! ## The catalog itself -/

/-- Whether the catalog is there: someone holds it, or a session does. -/
def isOpen (world : World) : Bool := world.catalogHeld || world.session.isSome

/-- Ends with a fault if the catalog is gone. -/
def requireOpen : Task World Unit := do
  if (← get).isOpen then return () else Task.fail .catalogDropped

/-- If the catalog is gone, its caches retain nothing any more, and it lets its queue
    go. -/
def closeIfUnheld (world : World) : World :=
  if world.isOpen then world
  else
    Task.exec (onLedger (Ledger.letQueueGo world.queue))
      (reap world.heap.ids { world with caches := .blank world.config })

/-- Someone who held the catalog lets it go. -/
def dropCatalog (world : World) : World := closeIfUnheld { world with catalogHeld := false }

/-- Opens a session.  There is at most one, on any thread. -/
def openSession : Task World Unit := do
  let world ← get
  let mutator := world.nextMutator
  -- The number is used up even where the session is refused.
  set { world with nextMutator := mutator + 1 }
  match world.ledger.queue? world.queue with
  | none => Task.crash
  | some queue =>
      match queue.bind mutator with
      | (false, _) =>
          Task.fail {
            kind := .wrongContext
            message := "catalog is bound to another mutator"
            context := [("catalog", world.config.name), ("mutator", Fault.unnumbered),
              ("thread", Fault.unnumbered)] }
      | (true, queue) =>
          modify fun world => { world with
            ledger := world.ledger.onQueue world.queue fun _ => queue
            session := some (.blank mutator) }

def closeSession (world : World) : World :=
  match world.session with
  | none => world
  | some session =>
      closeIfUnheld { world with
        ledger := world.ledger.onQueue world.queue fun queue => (queue.unbind session.mutator).2
        session := none }

/-- Removes the entries of things that are gone, and counts them. -/
def purge (world : World) : Nat × World :=
  let (entities, world) := EntityClass.all.foldl
    (fun (total, world) kind =>
      let (n, world) := (entityView kind).purge world
      (total + n, world))
    (0, world)
  let (descriptors, world) := descriptorView.purge world
  let (encodings, world) := encodingView.purge world
  (entities + descriptors + encodings, world)

/-- Retains nothing softly any more, and counts what was. -/
def relieve (world : World) : Nat × World :=
  let (entities, world) := EntityClass.all.foldl
    (fun (total, world) kind =>
      let (n, world) := (entityView kind).relieve world
      (total + n, world))
    (0, world)
  let (descriptors, world) := descriptorView.relieve world
  let (encodings, world) := encodingView.relieve world
  (entities + descriptors + encodings, world)

end World

end CatalogReplica.Catalog
