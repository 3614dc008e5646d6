import CatalogReplica.Catalog.Dispatch
import CatalogReplica.Proofs.Catalog.Decoding
import CatalogReplica.Proofs.Catalog.Fields
import CatalogReplica.Proofs.Coherence.Cells
import CatalogReplica.Proofs.Identity.Tables

/-!
# What holds of a catalog

`World.Sound` says how the things of a catalog hang together: live things refer to live
things, a live entry of an identity cache is the entity of its key, cached attributes
belong to the cached relation and share its gate, cached types are known by their type
modifiers, whoever trusts that a link leads to a relation or a language is known there,
and what a link leads to is cached unless it was evicted.

`World.Fresh` says that what a cached entity trusts is what the current rows give,
unless a row that it depends on was written without being signalled.

Both are said of a dispatch in progress, too: a `Cascade` holds the gates that are about
to be tripped and the keys that are about to be evicted, and `owed` those who were known
somewhere and are about to be reached.  At rest nothing is.
-/

namespace CatalogReplica

/-- Whether the key of a type is that of an interned record type. -/
def EntityKey.Interned (key : EntityKey) : Prop := key.object = Catalog.recordType ∧ 0 ≤ key.sub

namespace Catalog

open Coherence (Batch Gates GateId Memo)

/-! ## Entities -/

namespace EntityClass

/-- Whether a key can be one of the class. -/
def Names (kind : EntityClass) (key : EntityKey) : Prop :=
  key.classOid = kind.oid ∧ key.object.isValid = true ∧
    (kind = .attr ∨ kind = .type ∨ key.sub = 0)

/-- The key of the row of the entity with a key. -/
def rowKey (kind : EntityClass) (key : EntityKey) : EntityKey :=
  if kind = .type then { key with sub := noTypmod } else key

/-- The class of those who are known at entities of a class. -/
def dependent : EntityClass → EntityClass
  | .relation => .type
  | .language => .routine
  | kind => kind

theorem ofOid?_oid (kind : EntityClass) : ofOid? kind.oid = some kind := by
  cases kind <;> decide

theorem oid_of_ofOid? {classOid : Oid} {kind : EntityClass} (found : ofOid? classOid = some kind) :
    kind.oid = classOid := by
  unfold ofOid? at found
  simpa using List.find?_some found

/-- The number tells the class. -/
theorem oid_injective {one two : EntityClass} (same : one.oid = two.oid) : one = two := by
  have known := one.ofOid?_oid
  rw [same, two.ofOid?_oid, Option.some.injEq] at known
  exact known.symm

end EntityClass

namespace Ties

/-- The numbers of those who resolved a link to where the ties are. -/
def dependents (ties : Ties) : List Oid := ties.types ++ ties.routines

/-- The ties that entities of a class have. -/
def Suit (ties : Ties) : EntityClass → Prop
  | .relation => ∃ types attributes, ties = .relation types attributes
  | .language => ∃ routines, ties = .language routines
  | .attr => ∃ relation, ties = .attr relation
  | .schema | .type | .routine => ties = .none

end Ties

/-- The links whose targets know who resolved them. -/
def Link.Tracked (link : Link) : Prop := link = .typeRelation ∨ link = .routineLanguage

namespace Entity

/-- The gate that governs the slots. -/
def gate (entity : Entity) : GateId := entity.table.gates.headD 0

/-- An entity with the gate, the slots, the key and the ties that its class has. -/
structure Shaped (trips : Batch) (gates : Gates) (entity : Entity) : Prop where
  gated : entity.table.gates = [entity.gate]
  known : entity.gate < gates.current.size
  slots : entity.table.memos.size = entity.kind.slots
  named : entity.kind.Names entity.key
  tied : entity.ties.Suit entity.kind
  governed : ∀ index memo, entity.table.memo? index = some memo →
    memo.Governed trips gates entity.gate

/-- The key of an entity tells its class. -/
theorem Shaped.kind_eq {trips : Batch} {gates : Gates} {entity : Entity} {kind : EntityClass}
    (shaped : entity.Shaped trips gates) (isClass : entity.key.classOid = kind.oid) : entity.kind = kind :=
  EntityClass.oid_injective (shaped.named.1.symm.trans isClass)

/-- The entity keeps the value in the slot and trusts it. -/
def Trusts (trips : Batch) (gates : Gates) (entity : Entity) (index : Nat) (datum : Datum) : Prop :=
  ∃ memo, entity.table.memo? index = some memo ∧ memo.value = datum ∧
    memo.Trusted trips gates entity.gate

/-- The same entity, whatever it keeps. -/
structure Same (before after : Entity) : Prop where
  kind : after.kind = before.kind
  key : after.key = before.key
  gates : after.table.gates = before.table.gates

end Entity

namespace World

/-- The entity lives and is the one in its identity cache. -/
def Cached (world : World) (id : ThingId) (entity : Entity) : Prop :=
  world.entity? id = some entity ∧ (entity.key, id) ∈ (world.caches.of entity.kind).table

/-- No type modifier of a number is known twice, and the one that stands for none is not known. -/
def Indexed (typmods : Assoc Oid (List Int32)) : Prop := ∀ oid, (noTypmod :: (typmods.get? oid).getD []).Nodup

/-- How the things of a catalog hang together. -/
structure Sound (cascade : Cascade) (owed : List (EntityClass × Oid)) (world : World) : Prop where
  below : ∀ id, world.alive id = true → id < world.nextThing
  unique : ∀ kind, (world.caches.of kind).Unique
  handedOut : ∀ kind, ∀ entry ∈ (world.caches.of kind).table, entry.2 < world.nextThing
  entered : ∀ kind key id, (key, id) ∈ (world.caches.of kind).table → world.alive id = true →
    ∃ entity, world.entity? id = some entity ∧ entity.kind = kind ∧ entity.key = key
  closed : ∀ id thing, world.thing? id = some thing → ∀ other ∈ thing.refs,
    world.alive other = true
  holding : ∀ id ∈ world.held, world.alive id = true
  gates : world.gates.Sound cascade.trips
  shaped : ∀ id entity, world.entity? id = some entity →
    entity.Shaped cascade.trips world.gates
  /-- An attribute and its relation share a gate. -/
  tied : ∀ id entity owner, world.entity? id = some entity → entity.ties = .attr owner →
    ∃ relation, world.entity? owner = some relation ∧ relation.kind = .relation ∧
      relation.key.object = entity.key.object ∧ relation.gate = entity.gate
  /-- A cached attribute belongs to the cached relation, which knows it. -/
  attributes : ∀ id entity, world.Cached id entity → entity.kind = .attr →
    entity.key ∈ cascade.evictions ∨
      ∃ owner relation attnum, entity.ties = .attr owner ∧ world.Cached owner relation ∧
        relation.key ∉ cascade.evictions ∧ attnum ∈ relation.ties.attributes ∧
        entity.key = attributeKey relation.key.object attnum
  /-- A cached type is known by its type modifier. -/
  typmods : ∀ id entity, world.Cached id entity → entity.kind = .type →
    entity.key.sub = noTypmod ∨
      entity.key.sub ∈ (world.typmods.get? entity.key.object).getD []
  /-- Whoever trusts a link is known where it leads to. -/
  links : ∀ id entity (link : Link) target, world.Cached id entity → link.Tracked →
    entity.kind = link.info.kind →
    entity.Trusts cascade.trips world.gates link.info.index (.link (some target)) →
    ∃ found, world.Cached target found ∧ found.kind = link.info.target ∧
      found.key ∉ cascade.evictions ∧
      (entity.key.object ∈ found.ties.dependents ∨ (entity.kind, entity.key.object) ∈ owed)
  /-- The columns of a composite type are trusted together with its relation. -/
  columns : ∀ id entity datum, world.entity? id = some entity → entity.kind = .type →
    ¬ entity.key.Interned →
    entity.Trusts cascade.trips world.gates Catalog.typeDescriptor.index datum →
    ∃ target, entity.Trusts cascade.trips world.gates Link.typeRelation.info.index target
  /-- A field that leads to an entity leads to one of its class, which is the one in its
      identity cache unless it was evicted. -/
  targets : ∀ id entity (field : EntityField) kind memo target, world.entity? id = some entity →
    entity.kind = field.kind → field.leadsTo? = some kind →
    entity.table.memo? field.index = some memo → memo.value = .link (some target) →
    ∃ found, world.entity? target = some found ∧ found.kind = kind ∧
      (world.Cached target found ∨ found.table.evicted = true)
  /-- What is marked as evicted is in no identity cache, or is about to go. -/
  unmarked : ∀ id entity, world.Cached id entity → entity.key ∉ cascade.evictions →
    entity.table.evicted = false
  /-- What types are known by is known once. -/
  indexed : Indexed world.typmods

/-- No key is under construction. -/
def Quiet (world : World) : Prop := ∀ kind, (world.caches.of kind).claims = []

/-! ## What is right -/

/-- The relation that a type is the row type of, if it is one. -/
def LeadsTo (world : World) (relation : Oid) (target : Option ThingId) : Prop :=
  match target with
  | none => relation.isValid = false
  | some id => relation.isValid = true ∧
      ∃ entity, world.entity? id = some entity ∧ entity.kind = .relation ∧
        entity.key.object = relation

/-- The thing is a descriptor with the contents. -/
def Shows (world : World) (target : Option ThingId) (contents : Descriptor) : Prop :=
  ∃ id, target = some id ∧ world.descriptor? id = some contents

/-- The value is what the current rows give for the field, unless one of them was not
    signalled. -/
def Right (unsignalled : List EntityKey) (world : World) (kind : EntityClass) (key : EntityKey) :
    EntityField → Datum → Prop
  | .tuple _, datum => Clean unsignalled key.classOid key.object →
      ∃ address, datum = .address address ∧ world.provider.row? (kind.rowKey key) = some address
  | .column field, datum => Clean unsignalled key.classOid key.object →
      ∃ value, datum = .column value ∧
        world.provider.decode kind (kind.rowKey key) field.info.source field.info.type = .ok value
  | .link .typeRelation, datum => Clean unsignalled key.classOid key.object →
      ∃ relation target, datum = .link target ∧ world.LeadsTo relation target ∧
        world.provider.decode kind (kind.rowKey key) Link.typeRelation.info.source .oid
          = .ok (.oid relation)
  | .link _, _ | .attributeType, _ => True
  | .relationDescriptor, datum => Clean unsignalled EntityClass.relation.oid key.object →
      Clean unsignalled EntityClass.attr.oid key.object →
      ∃ target contents, datum = .link target ∧ world.Shows target contents ∧
        world.provider.describe key.object = .ok contents
  | .typeDescriptor, datum => ¬ key.Interned →
      Clean unsignalled key.classOid key.object →
      ∃ relation target, datum = .link target ∧
        world.provider.decode kind (kind.rowKey key) Link.typeRelation.info.source .oid
          = .ok (.oid relation) ∧
        (relation.isValid = false → target = none) ∧
        (relation.isValid = true → Clean unsignalled EntityClass.relation.oid relation →
          Clean unsignalled EntityClass.attr.oid relation →
          ∃ contents, world.Shows target contents ∧ world.provider.describe relation = .ok contents)

/-- Whatever a cached entity trusts is right. -/
def Fresh (trips : Batch) (unsignalled : List EntityKey) (world : World) : Prop :=
  ∀ id entity field datum, world.Cached id entity → field.kind = entity.kind →
    entity.Trusts trips world.gates field.index datum →
    Right unsignalled world entity.kind entity.key field datum

end World

/-! ## What it depends on -/

namespace World

/-- The state without what coherence has nothing to do with: counters, native resources,
    and the caches of descriptors and encodings. -/
def core (world : World) : World :=
  { world with
    config := {}
    ledger := {}
    queue := 0
    provider := world.provider.store
    caches := { world.caches with
      descriptors := (Caches.blank {}).descriptors
      encodings := (Caches.blank {}).encodings }
    session := world.session.map fun _ => .blank 0
    nextMutator := 0 }

variable {world after : World} {cascade : Cascade} {owed : List (EntityClass × Oid)} {trips : Batch}
  {unsignalled : List EntityKey}

theorem sound_core : world.core.Sound cascade owed ↔ world.Sound cascade owed :=
  ⟨fun sound => ⟨sound.below, sound.unique, sound.handedOut, sound.entered, sound.closed, sound.holding,
      sound.gates, sound.shaped, sound.tied, sound.attributes, sound.typmods, sound.links,
      sound.columns, sound.targets, sound.unmarked, sound.indexed⟩,
    fun sound => ⟨sound.below, sound.unique, sound.handedOut, sound.entered, sound.closed, sound.holding,
      sound.gates, sound.shaped, sound.tied, sound.attributes, sound.typmods, sound.links,
      sound.columns, sound.targets, sound.unmarked, sound.indexed⟩⟩

theorem Sound.of_core (sound : world.Sound cascade owed) (same : after.core = world.core) :
    after.Sound cascade owed := sound_core.mp (same ▸ sound_core.mpr sound)

end World

end Catalog

end CatalogReplica
