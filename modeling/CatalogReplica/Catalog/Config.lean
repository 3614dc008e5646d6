import CatalogReplica.Fault
import CatalogReplica.Key
import CatalogReplica.Capacity
import CatalogReplica.Identity.Retention

/-!
# Configuration

A `Config` names a catalog and says how many shards its identity caches have and
how each of them retains its entities.  `Config.validate` refuses a
configuration without shards and soft retention without capacity.

`Config.ofDocument?` and `EncodingInfo.ofDocument?` read the two records: an
object, in which unknown fields are ignored and known ones occur at most once,
or an array of the fields in order.
-/

namespace CatalogReplica.Catalog

open Text (Form Document quoted)
open Identity (Retention)

structure Config where
  /-- The name of the catalog, which labels its counters. -/
  name : String := "catmirror"
  shards : Nat := 8
  schemas : Retention := .weak
  relations : Retention := .weak
  attributes : Retention := .weak
  types : Retention := .weak
  routines : Retention := .weak
  languages : Retention := .strong
  descriptors : Retention := .weak
  encodings : Retention := .soft 16
  deriving DecidableEq, Inhabited, Repr

namespace Config

/-- The retention policies with what they are for. -/
def policies (config : Config) : List (String × Retention) := [
  ("namespaces", config.schemas), ("relations", config.relations),
  ("attributes", config.attributes), ("types", config.types), ("routines", config.routines),
  ("languages", config.languages), ("descriptors", config.descriptors),
  ("encodings", config.encodings)]

/-- The first thing that makes the configuration unusable. -/
def issue? (config : Config) : Option ConfigIssue :=
  if config.shards = 0 then some .zeroShards
  else (config.policies.find? fun (_, policy) => policy = .soft 0).map
    fun (what, _) => .zeroSoftCapacity what

/-- Whether there is room for the shards of the caches and for their queues. -/
def fits (config : Config) : Bool :=
  Capacity.fits config.shards && config.policies.all fun (_, policy) =>
    Capacity.fits policy.capacity

/-- The configuration shown field by field. -/
def form (config : Config) : Form :=
  .record "CatalogConfig" (("name", .atom (quoted config.name)) :: ("shards", .ofNat config.shards)
    :: config.policies.map fun (what, policy) => (what, policy.form))

/-- Sets one field from its document; unknown fields are left alone. -/
def setField? (positional : Bool) (config : Config) (label : String) (value : Document) :
    Option Config :=
  let policy := Retention.ofDocument? value positional
  match label with
  | "name" => value.text?.map fun name => { config with name }
  | "shards" => value.size?.map fun shards => { config with shards }
  | "namespaces" => policy.map fun schemas => { config with schemas }
  | "relations" => policy.map fun relations => { config with relations }
  | "attributes" => policy.map fun attributes => { config with attributes }
  | "types" => policy.map fun types => { config with types }
  | "routines" => policy.map fun routines => { config with routines }
  | "languages" => policy.map fun languages => { config with languages }
  | "descriptors" => policy.map fun descriptors => { config with descriptors }
  | "encodings" => policy.map fun encodings => { config with encodings }
  | _ => some config

/-- The labels of the fields, in order. -/
def labels : List String :=
  "name" :: "shards" :: (({} : Config).policies.map (·.1))

/-- Reads a configuration; missing fields have their default.  With `positional`, the
    capacity of a policy needs no label. -/
def ofDocument? (document : Document) (positional : Bool := true) : Option Config :=
  let set (config : Config) (field : String × Document) : Option Config :=
    setField? positional config field.1 field.2
  match document with
  | .array elements =>
      if labels.length < elements.length then none else (labels.zip elements).foldlM set {}
  | document => do
      let fields ← document.fields?
      if labels.any fun label => (Document.unique? fields label).isNone then none
      fields.foldlM set {}

end Config

/-- What is known of a character encoding. -/
structure EncodingInfo where
  id : Int32
  name : String
  maxCharLen : UInt8
  serverSafe : Bool
  deriving DecidableEq, Inhabited, Repr

namespace EncodingInfo

/-- An encoding from the documents of its fields. -/
def ofFields? (id name maxCharLen serverSafe : Document) : Option EncodingInfo := do
  return {
    id := Int32.ofInt (← id.integerIn? Int32.minValue.toInt Int32.maxValue.toInt)
    name := ← name.text?
    maxCharLen := UInt8.ofNat (← maxCharLen.integerIn? 0 255).toNat
    serverSafe := ← serverSafe.truth? }

/-- Reads an encoding; every field is needed. -/
def ofDocument? : Document → Option EncodingInfo
  | .array [id, name, maxCharLen, serverSafe] => ofFields? id name maxCharLen serverSafe
  | document => do
      let fields ← document.fields?
      let required (label : String) : Option Document := do (← Document.unique? fields label)
      ofFields? (← required "id") (← required "name") (← required "max_char_len")
        (← required "server_safe")

end EncodingInfo

def oidOfDocument? (document : Document) : Option Oid :=
  (document.integerIn? 0 (Int.ofNat (UInt32.size - 1))).map fun value => ⟨UInt32.ofNat value.toNat⟩

end CatalogReplica.Catalog
