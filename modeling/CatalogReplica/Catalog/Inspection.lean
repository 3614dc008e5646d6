import CatalogReplica.Catalog.World

/-!
# Inspection

What a catalog shows of its things without reading them: nothing here computes a
slot or counts anything.

* `World.shown?` is what tells a thing apart: the key of an entity, the number of an
  encoding, the contents of a descriptor.
* `World.status?` is how far the slots of a thing are filled, or whether the native
  memory of a descriptor was released.
* `World.form?` lists the parts of a thing.
-/

namespace CatalogReplica.Catalog

open Text (Form quoted)
open Coherence (Gates HostStatus)

/-- What tells a thing apart. -/
inductive Shown where
  | entity (key : EntityKey)
  | encoding (id : Int32)
  /-- The contents of a descriptor, and whether its native memory was released. -/
  | descriptor (descriptor : Descriptor) (released : Bool)
  deriving DecidableEq, Inhabited, Repr

/-- The state of a thing. -/
inductive Status where
  | host (status : HostStatus)
  | descriptor (released : Bool)
  deriving DecidableEq, Inhabited, Repr

/-! ## Forms -/

/-- A set of dependents as it is shown. -/
def Dependents.form {κ : Type} (shown : κ → Form) (set : Dependents κ) : Form :=
  .record "Dependents" [("keys", .record "Mutex" [("data", .set (set.keys.map shown))])]

/-- The fields of the ties that are shown; a relation that is tied to is shown by the
    given form. -/
def Ties.fields (ties : Ties) (relation : Option Form) : List (String × Form) :=
  match ties with
  | none => []
  | .relation types attributes => [
      ("types", types.form Oid.form),
      ("attributes", attributes.form fun attnum => .ofInt attnum.toInt)]
  | attr _ => relation.toList.map fun form => ("relation", form)
  | language routines => [("routines", routines.form Oid.form)]

/-- An entity as it is shown. -/
def Entity.form (entity : Entity) (gates : Gates) (relation : Option Form) : Form :=
  .record entity.kind.name (
    ("base", .record "Base" [("key", entity.key.form), ("slots", entity.table.form gates)])
      :: entity.ties.fields relation)

/-- A column of a descriptor as it is shown. -/
def DescriptorColumn.form (column : DescriptorColumn) : Form :=
  .record "Column" [
    ("attnum", .ofInt column.attnum.toInt),
    ("name", .option (column.name.map fun name => .atom (quoted name))),
    ("type_oid", column.typeOid.form), ("typmod", .ofInt column.typmod.toInt)]

/-- A descriptor as it is shown; its guard is shown by the given form. -/
def Descriptor.form (descriptor : Descriptor) (guard : Option Form) : Form :=
  .record "Descriptor" [
    ("type_oid", descriptor.typeOid.form), ("typmod", .ofInt descriptor.typmod.toInt),
    ("relation", .option (descriptor.relation.map Oid.form)),
    ("columns", .sequence (descriptor.columns.map DescriptorColumn.form)),
    ("native", .option guard)]

namespace World

/-- Whether a thing is a native descriptor that was released. -/
def isReleased (world : World) (id : ThingId) : Bool :=
  match (world.descriptor? id).bind (·.guard) with
  | none => false
  | some guard => ((world.ledger.guard? guard).map (·.isReleased)).getD false

/-- What tells a thing apart. -/
def shown? (world : World) (id : ThingId) : Option Shown :=
  (world.thing? id).map fun thing =>
    match thing with
    | .entity entity => .entity entity.key
    | .encoding number _ => .encoding number
    | .descriptor descriptor => .descriptor descriptor (world.isReleased id)

/-- The state of a thing. -/
def status? (world : World) (id : ThingId) : Option Status :=
  (world.thing? id).map fun thing =>
    match thing with
    | .entity entity => .host (entity.table.status world.gates)
    | .encoding _ table => .host (table.status world.gates)
    | .descriptor _ => .descriptor (world.isReleased id)

/-- The parts of a thing.  An attribute shows its relation in full. -/
def form? (world : World) (id : ThingId) : Option Form :=
  (world.thing? id).map fun thing =>
    match thing with
    | .entity entity =>
        let relation := (entity.ties.refs.head?.bind world.entity?).map fun relation =>
          relation.form world.gates none
        entity.form world.gates relation
    | .encoding _ table =>
        .record "Encoding" [
          ("id", .atom Fault.unnumbered), ("catalog", .atom "(Weak)"),
          ("slots", table.form world.gates)]
    | .descriptor descriptor =>
        descriptor.form ((descriptor.guard.bind world.ledger.guard?).map (·.form))

/-- The catalog as it is shown. -/
def form (world : World) : Form :=
  .record "Catalog" [("name", .atom (quoted world.config.name))]

end World

/-- A catalog as it is shown before it is built. -/
def Config.plan (config : Config) : Form := .record "CatalogBuilder" [("config", config.form)]

/-- The counters as they are shown. -/
def countersForm : Form := .atom "Metrics"

end CatalogReplica.Catalog
