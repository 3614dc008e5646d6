import CatalogReplica.Names
import CatalogReplica.Catalog.Accessor
import CatalogReplica.Catalog.Dispatch

/-!
# Runs over a catalog

Scripts set up the provider of a catalog, open sessions on it, keep things under
names and carry out one operation after the other.  Names hold things; so do pins,
which also keep the native memory of a descriptor.  After each step the ledger
forgets what nothing refers to any more.

* `Target.lookup` is a lookup; `Series.range` are the targets of many lookups.
* `step` carries out one step; `run` all of them, each with the counters that it
  moved.
-/

namespace CatalogReplica.Catalog.Script

open Coherence (Access CellId)
open Lifetime (GuardId Ledger Lifespan LifespanId LifespanKind)
open Storage (ColumnValue Layout)
open World (mutatorThread onLedger onProvider)

/-! ## Targets -/

/-- What a lookup asks for. -/
inductive Target where
  | entity (kind : EntityClass) (oid : Oid)
  | attr (relation : Oid) (attnum : Int16)
  | type (oid : Oid) (typmod : Int32)
  | encoding (id : Int32)
  deriving DecidableEq, Inhabited, Repr

namespace Target

/-- Looks the target up; what is found is held. -/
def lookup : Target → Task World ThingId
  | entity kind oid => World.entity kind oid
  | attr relation attnum => World.attributeOf relation attnum
  | type oid typmod => World.typeWith oid typmod
  | encoding id => World.encoding id

end Target

/-- Targets that differ in a number. -/
inductive Series where
  | entities (kind : EntityClass)
  | attributes (relation : Oid)
  | typmods (oid : Oid)
  | encodings
  deriving DecidableEq, Inhabited, Repr

namespace Series

/-- The target with a number. -/
def target (n : Int) : Series → Target
  | entities kind => .entity kind ⟨UInt32.ofInt n⟩
  | attributes relation => .attr relation (Int16.ofInt n)
  | typmods oid => .type oid (Int32.ofInt n)
  | encodings => .encoding (Int32.ofInt n)

/-- The targets from the first number up to the last one, which is left out. -/
def range (series : Series) (first last : Int) : List Target :=
  (List.range (last - first).toNat).map fun (offset : Nat) => series.target (first + offset)

end Series

/-! ## Steps and answers -/

/-- What stands in a further row. -/
inductive RowSource where
  | bytes (bytes : List UInt8)
  | address (address : Address)
  | columns (columns : List (String × ColumnValue))
  deriving Inhabited

inductive Step where
  | put (plan : RowPlan)
  | putEncoding (info : EncodingInfo)
  | intern (typmod : Int32) (types : List Oid)
  | remove (key : EntityKey)
  | setScope (address : Address) (kind : LifespanKind)
  | putRow (key : EntityKey) (source : RowSource)
  | internAt (typmod : Int32) (address : Address)
  | alloc (bytes : List UInt8)
  | putDescriptor (columns : List (String × ColumnValue))
  | setLayout (classOid : Oid) (layout : Layout)
  | provider (references : List Address)
  | failService (service : Service) (fault : Fault)
  | restore (service : Service)
  | session
  | sessionElsewhere
  | dropSession
  | dropCatalog
  | lookup (target : Target) (keep : Option String)
  | fill (targets : List Target)
  | read (thing field : String) (access : Access) (keep : Option String)
  | show (thing : String)
  | state (thing : String)
  | states
  | owner (thing : String)
  | form (thing : String)
  | same (a b : String)
  | drop (thing : String)
  | trip (thing : String)
  | cell (thing name : String)
  | tripped (cell : String)
  | pin (thing name : String)
  | unpin (pin : String)
  | dispatch (signals : List Signal)
  | drain
  | purge
  | relieve
  | lifespan (address : Address) (keep : Option String)
  | currentLifespan (keep : Option String)
  | lifespanInfo (lifespan : String)
  | teardown (lifespan : String) (close : Bool)
  | counters
  | config
  | info
  deriving Inhabited

/-- What is seen of the provider. -/
structure ProviderView where
  searches : Nat
  regions : Nat
  released : List Address
  references : List Nat

inductive Answer where
  | void
  | truth (value : Bool)
  | count (n : Nat)
  | address (address : Option Address)
  | addresses (extra usual : Option Address)
  | text (text : String)
  | number (n : Int)
  | value (value : ColumnValue)
  | encoding (info : EncodingInfo)
  | thing (shown : Option Shown)
  | status (status : Option Status)
  | statuses (entries : List (String × Status))
  | provider (view : ProviderView)
  | dispatched (effects : Dispatched)
  | lifespan (lifespan : Option Lifespan)
  | lifespanInfo (lifespan : Lifespan) (current : Bool)
  | counters (entries : List (String × Int))
  | config (config : Config)
  /-- The catalog and its counters as they are shown, and the size of record
      descriptors. -/
  | info (catalog counters : String) (size : Nat)
  | unset (name : String)
  | interrupted (interrupt : Interrupt)

/-! ## The state of a run -/

/-- A pinned descriptor. -/
structure Pinned where
  guard : GuardId
  /-- The descriptor, which the pin holds. -/
  thing : ThingId
  handle : Address

structure Desk where
  world : World
  /-- Named things; every name holds its thing. -/
  things : Names ThingId := []
  pins : Names Pinned := []
  cells : Names CellId := []
  lifespans : Names LifespanId := []

namespace Desk

/-- Runs an operation of the catalog. -/
def onWorld {α : Type} (body : Task World α) : Task Desk α :=
  Task.within (·.world) (fun world desk => { desk with world }) body

/-- Lets the thing under a name go, and says whether there was one. -/
def dropThing (name : String) : Task Desk Bool := do
  match (← get).things.get? name with
  | none => return false
  | some id =>
      modify fun desk =>
        { desk with things := desk.things.erase name, world := World.release id desk.world }
      return true

/-- Keeps a held thing under a name, in place of the thing before, or lets it go. -/
def settle (keep : Option String) (id : ThingId) : Task Desk Unit := do
  match keep with
  | none => onWorld (modify (World.release id))
  | some name =>
      discard (dropThing name)
      modify fun desk => { desk with things := desk.things.set name id }

/-- Ends the pin under a name, and gives the address that was pinned. -/
def dropPin (name : String) : Task Desk (Option Address) := do
  match (← get).pins.get? name with
  | none => return none
  | some pin =>
      modify fun desk => { desk with pins := desk.pins.erase name }
      onWorld (onLedger (Ledger.unpin mutatorThread pin.guard))
      onWorld (modify (World.release pin.thing))
      return some pin.handle

/-- Forgets what nothing refers to. -/
def collect : Task Desk Unit := do
  let desk ← get
  let scopes := (desk.world.session.map fun session => session.lifespans.table.map (·.2)).getD []
  onWorld (onLedger (Ledger.collect (scopes ++ desk.lifespans.map (·.2))))

end Desk

/-- Continues with what a name stands for. -/
def known {α : Type} (names : Desk → Names α) (name : String) (next : α → Task Desk Answer) :
    Task Desk Answer := do
  match (names (← get)).get? name with
  | some value => next value
  | none => return .unset name

/-- Continues if the catalog is there. -/
def withCatalog (next : Task Desk Answer) : Task Desk Answer := do
  if (← get).world.isOpen then next else return .unset "catalog"

/-- Continues if there is a session. -/
def withSession (next : Task Desk Answer) : Task Desk Answer := do
  if (← get).world.session.isSome then next else return .unset "session"

/-! ## Carrying steps out -/

/-- Shows a held thing and settles it. -/
def present (keep : Option String) (id : ThingId) : Task Desk Answer := do
  let shown := (← get).world.shown? id
  Desk.settle keep id
  return .thing shown

/-- Looks things up and lets them go at once.  Those that are not found are passed
    over; each look-up needs the catalog, and no look-up needs none. -/
def fill : List Target → Task Desk Answer
  | [] => return .void
  | target :: targets => withCatalog do
      match ← Task.attempt (Desk.onWorld target.lookup) with
      | .ok id => Desk.settle none id
      | .error (.fault _) => pure ()
      | .error interrupt => throw interrupt
      fill targets

/-- Reads a field of a thing. -/
def readField (id : ThingId) (field : String) (access : Access) (keep : Option String) :
    Task Desk Answer := do
  match ((← get).world.thing? id).bind (Accessor.ofName? · field) with
  | none => Task.crash
  | some accessor =>
      match ← Desk.onWorld (Accessor.read id access accessor) with
      | .value value => return .value value
      | .number n => return .number n
      | .text text => return .text text
      | .encoding info => return .encoding info
      | .thing none => return .thing none
      | .thing (some target) => present keep target

/-- Pins a descriptor, if it is a native one. -/
def pin (id : ThingId) (name : String) : Task Desk Answer := do
  match (← get).world.descriptor? id with
  | none => Task.crash
  | some descriptor =>
      match descriptor.guard with
      | none => return .address none
      | some guard =>
          let handle ← Desk.onWorld (onLedger (Ledger.pin mutatorThread guard))
          Desk.onWorld (modify (World.hold id))
          discard (Desk.dropPin name)
          modify fun desk => { desk with pins := desk.pins.set name ⟨guard, id, handle⟩ }
          return .address (some handle)

/-- Continues with the gate of a thing. -/
def withGate (thing : String) (next : Coherence.GateId → Task Desk Answer) : Task Desk Answer :=
  known Desk.things thing fun id => do
    match ((← get).world.thing? id).bind (·.gate?) with
    | some gate => next gate
    | none => Task.crash

/-- Shows a lifespan and keeps it under a name, if there is a name. -/
def presentLifespan (keep : Option String) (id : LifespanId) : Task Desk Answer := do
  match keep with
  | some name => modify fun desk => { desk with lifespans := desk.lifespans.set name id }
  | none => pure ()
  return .lifespan ((← get).world.ledger.lifespan? id)

/-- Shows a lifespan and whether the session still has it. -/
def lifespanInfo (id : LifespanId) : Task Desk Answer := do
  match (← get).world.ledger.lifespan? id with
  | none => Task.crash
  | some lifespan =>
      let current ← Desk.onWorld (Task.lift (World.lifespanView.get? lifespan.address))
      return .lifespanInfo lifespan (current == some id)

/-- Puts a further row and gives its address. -/
def putRow (key : EntityKey) (source : RowSource) : Task Provider Address := do
  let address ←
    match source with
    | .bytes bytes => Provider.onMemory (Task.lift (·.alloc bytes))
    | .address address => pure address
    | .columns columns => do
        let layout ← Task.ofOutcome ((← get).currentLayout key.classOid)
        Provider.onMemory (Storage.writeRow layout columns)
  modify fun provider => { provider with extraRows := provider.extraRows.set key address }
  return address

/-- Changes the provider and gives nothing. -/
def change (f : Provider → Provider) : Task Desk Answer := do
  Desk.onWorld (onProvider (modify f))
  return .void

/-- Runs an operation of the provider that gives an address. -/
def stored (body : Task Provider Address) : Task Desk Answer := do
  return .address (some (← Desk.onWorld (onProvider body)))

def step : Step → Task Desk Answer
  | .put plan => stored (Provider.put plan)
  | .putEncoding info => change fun provider =>
      { provider with encodings := provider.encodings.set info.id info }
  | .intern typmod types => stored (Provider.intern typmod types)
  | .remove key => do
      let (extra, usual) ← Desk.onWorld (onProvider (Task.lift (Provider.remove key)))
      return .addresses extra usual
  | .setScope address kind => change fun provider => { provider with scope := (address, kind) }
  | .putRow key source => stored (putRow key source)
  | .internAt typmod address => change fun provider =>
      { provider with extraRecords := provider.extraRecords.set typmod address }
  | .alloc bytes => stored (Provider.onMemory (Task.lift (·.alloc bytes)))
  | .putDescriptor columns => stored (Provider.writeDescriptor columns)
  | .setLayout classOid layout => change fun provider =>
      { provider with layouts := provider.layouts.set classOid layout }
  | .provider references => do
      let provider := (← get).world.provider
      return .provider {
        searches := provider.searches, regions := provider.memory.regions.length
        released := provider.released, references := references.map provider.referencesOn }
  | .failService service fault => change fun provider =>
      { provider with failures := provider.failures.set service fault }
  | .restore service => do
      let failed := ((← get).world.provider.failures.get? service).isSome
      discard (change fun provider =>
        { provider with failures := provider.failures.erase service })
      return .truth failed
  | .session => withCatalog do
      Desk.onWorld World.openSession
      return .void
  | .sessionElsewhere => withCatalog do
      Desk.onWorld World.openSession
      Desk.onWorld (modify World.closeSession)
      return .text "session"
  | .dropSession => do
      let had := (← get).world.session.isSome
      Desk.onWorld (modify World.closeSession)
      return .truth had
  | .dropCatalog => do
      let had := (← get).world.catalogHeld
      Desk.onWorld (modify World.dropCatalog)
      return .truth had
  | .lookup target keep => withCatalog do present keep (← Desk.onWorld target.lookup)
  | .fill targets => fill targets
  | .read thing field access keep => known Desk.things thing fun id =>
      match access with
      | .mutator => withSession (readField id field access keep)
      | .reader => readField id field access keep
  | .show thing => known Desk.things thing fun id => do
      return .thing ((← get).world.shown? id)
  | .state thing => known Desk.things thing fun id => do
      return .status ((← get).world.status? id)
  | .states => do
      let desk ← get
      return .statuses (desk.things.sorted.filterMap fun (name, id) =>
        (desk.world.status? id).map fun status => (name, status))
  | .owner thing => known Desk.things thing fun _ => do
      Desk.onWorld World.requireOpen
      return .text (← get).world.form.inline
  | .form thing => known Desk.things thing fun id => do
      match (← get).world.form? id with
      | some form => return .text form.inline
      | none => Task.crash
  | .same a b => known Desk.things a fun a => known Desk.things b fun b => return .truth (a == b)
  | .drop thing => do return .truth (← Desk.dropThing thing)
  | .trip thing => withGate thing fun gate => withSession do
      Desk.onWorld (modify fun world => { world with gates := world.gates.trip gate })
      return .void
  | .cell thing name => withGate thing fun gate => do
      let gates := (← get).world.gates
      match gates.currentCell? gate with
      | none => Task.crash
      | some cell =>
          modify fun desk => { desk with cells := desk.cells.set name cell }
          return .truth (gates.isTripped cell)
  | .tripped cell => known Desk.cells cell fun cell => do
      return .truth ((← get).world.gates.isTripped cell)
  | .pin thing name => known Desk.things thing fun id => pin id name
  | .unpin name => do
      match ← Desk.dropPin name with
      | some handle => return .address (some handle)
      | none => return .unset name
  | .dispatch signals => withSession do
      return .dispatched (← Desk.onWorld (World.dispatch signals))
  | .drain => withSession do return .count (← Desk.onWorld World.drain)
  | .purge => withCatalog do return .count (← Desk.onWorld (Task.lift World.purge))
  | .relieve => withCatalog do return .count (← Desk.onWorld (Task.lift World.relieve))
  | .lifespan address keep => withSession do
      match ← Desk.onWorld (Task.lift (World.lifespanView.get? address)) with
      | none => return .lifespan none
      | some id => presentLifespan keep id
  | .currentLifespan keep => withSession do
      presentLifespan keep (← Desk.onWorld World.currentLifespan)
  | .lifespanInfo lifespan => known Desk.lifespans lifespan fun id => withSession (lifespanInfo id)
  | .teardown lifespan close => known Desk.lifespans lifespan fun id => withSession do
      return .count (← Desk.onWorld (onLedger (Ledger.teardown mutatorThread id close)))
  | .counters => do
      let world := (← get).world
      return .counters (Counter.all.map fun counter =>
        (counter.published world.config.name, world.tally.get counter))
  | .config => withCatalog do return .config (← get).world.config
  | .info => withCatalog do
      return .info (← get).world.form.inline countersForm.inline descriptorLayout.size

/-! ## Runs -/

/-- An answer and the counters that changed meanwhile. -/
structure Report where
  answer : Answer
  counted : List (Counter × Int)

/-- Carries out one step, forgets what nothing refers to any more, and reports. -/
def report (s : Step) (desk : Desk) : Report × Desk :=
  let before := desk.world.tally
  let (answer, desk) :=
    match step s desk with
    | .ok answer desk => (answer, desk)
    | .error interrupt desk => (.interrupted interrupt, desk)
  let desk := Task.exec Desk.collect desk
  ({ answer, counted := Tally.changes before desk.world.tally }, desk)

/-- Carries out the steps in order. -/
def runFrom : Desk → List Step → List Report
  | _, [] => []
  | desk, s :: steps =>
      let (first, desk) := report s desk
      first :: runFrom desk steps

/-- Carries out the steps on a new catalog, with or without a session.  A
    configuration that is not usable ends the run before it starts; so does one
    that there is no room for. -/
def run (config : Config) (withSession : Bool) (steps : List Step) :
    Except Interrupt (List Report) :=
  match config.issue? with
  | some issue => .error (.fault (.ofConfigIssue issue))
  | none =>
      if config.fits then
        let world := World.start config
        let world := if withSession then Task.exec World.openSession world else world
        .ok (runFrom { world } steps)
      else .error (.crash none)

end CatalogReplica.Catalog.Script
