import CatalogReplica.Proofs.Catalog.Collecting
import CatalogReplica.Proofs.Catalog.Tidy
import CatalogReplica.Proofs.Coherence.Batches

/-!
# What a signal about one row collects

Where nothing unwanted lives, finding entities changes nothing but counters.  A signal about one
row therefore collects exactly the gates of the entities that stand for the row and of those that
these know, and exactly the keys that go with the row.

* `World.Represents`: the entities that stand for a row.
* `World.Stirs`, `World.Takes`: the gates that are tripped with an entity, the entries that go with it.
* `World.Concerned`, `World.Leaves`: the same for a row.
* `World.Gathers`: what was collected so far, seen from where the collection began.
* `World.collectRow_gathers`: a signal about one row.
-/

namespace CatalogReplica.Catalog

/-- Whom an entity knows after a change of its row: no one who depends on it and, when it goes, no
    attribute. -/
def Ties.told (change : Change) : Ties → Ties
  | relation _ attributes =>
      match change with
      | .updated => relation {} attributes
      | .deleted => relation {} {}
  | language _ => language {}
  | ties => ties

theorem Ties.told_of_suit {ties : Ties} {kind : EntityClass} (suits : ties.Suit kind) (notRelation : kind ≠ .relation)
    (notLanguage : kind ≠ .language) (change : Change) : ties.told change = ties := by
  cases ties <;> cases kind <;> simp_all [Suit, told]

namespace World

open Coherence (Batch GateId)
open Coherence.Batch (Took)
open Identity (Cache CacheView)

variable {world base : World} {kind : EntityClass} {object : Oid} {id : ThingId} {entity : Entity}
  {cascade : Cascade} {owed : List (EntityClass × Oid)}

/-! ## Whom a row concerns -/

/-- The live cached entity stands for the row: a type does under every type modifier, and a
    relation does for its attributes. -/
structure Represents (world : World) (kind : EntityClass) (object : Oid) (id : ThingId) (entity : Entity) : Prop where
  cached : world.Cached id entity
  kind : entity.kind = kind.owner
  object : entity.key.object = object

/-- The gates that are tripped when the row of an entity changes: its own, and those of the live
    cached types and routines that it knows. -/
inductive Stirs (world : World) (entity : Entity) : GateId → Prop
  | own : Stirs world entity entity.gate
  | type {id : ThingId} {type : Entity} (isRelation : entity.kind = .relation) (cached : world.Cached id type)
      (isType : type.kind = .type) (known : type.key.object ∈ entity.ties.types) : Stirs world entity type.gate
  | routine {id : ThingId} {routine : Entity} (isLanguage : entity.kind = .language) (cached : world.Cached id routine)
      (isRoutine : routine.kind = .routine) (known : routine.key.object ∈ entity.ties.routines) :
      Stirs world entity routine.gate

/-- The entries that go when the row of an entity goes: its own, and those of the attributes that
    a relation knows. -/
inductive Takes (entity : Entity) : EntityClass → EntityKey → Prop
  | own : Takes entity entity.kind entity.key
  | attr {attnum : Int16} (isRelation : entity.kind = .relation) (known : attnum ∈ entity.ties.attributes) :
      Takes entity .attr (attributeKey entity.key.object attnum)

/-- The gates that a signal about the row trips. -/
def Concerned (world : World) (kind : EntityClass) (object : Oid) (gate : GateId) : Prop :=
  ∃ id entity, world.Represents kind object id entity ∧ world.Stirs entity gate

/-- Whether a change of a row of the class removes entries: the rows of attributes belong to
    their relation, so that their deletion is an update of it. -/
def Removes (kind : EntityClass) (change : Change) : Prop := change = .deleted ∧ kind ≠ .attr

/-- The entries that go with the row. -/
def Leaves (world : World) (kind : EntityClass) (object : Oid) (shelf : EntityClass) (key : EntityKey) : Prop :=
  ∃ id entity, world.Represents kind object id entity ∧ Takes entity shelf key

theorem stirs_iff {gate : GateId} : world.Stirs entity gate ↔ gate = entity.gate ∨
    entity.kind = .relation ∧
      (∃ oid id type, oid ∈ entity.ties.types ∧ world.Represents .type oid id type ∧ gate = type.gate) ∨
    entity.kind = .language ∧
      ∃ oid id routine, oid ∈ entity.ties.routines ∧ world.Represents .routine oid id routine ∧ gate = routine.gate := by
  constructor
  · rintro (_ | ⟨isRelation, cached, isType, known⟩ | ⟨isLanguage, cached, isRoutine, known⟩)
    · exact .inl rfl
    · exact .inr (.inl ⟨isRelation, _, _, _, known, ⟨cached, isType, rfl⟩, rfl⟩)
    · exact .inr (.inr ⟨isLanguage, _, _, _, known, ⟨cached, isRoutine, rfl⟩, rfl⟩)
  · rintro (rfl | ⟨isRelation, _, _, type, known, ⟨cached, isType, rfl⟩, rfl⟩ |
      ⟨isLanguage, _, _, routine, known, ⟨cached, isRoutine, rfl⟩, rfl⟩)
    · exact .own
    · exact .type isRelation cached isType known
    · exact .routine isLanguage cached isRoutine known

theorem takes_iff {key : EntityKey} : (∃ shelf, Takes entity shelf key) ↔ key = entity.key ∨
    entity.kind = .relation ∧ ∃ attnum ∈ entity.ties.attributes, key = attributeKey entity.key.object attnum := by
  constructor
  · rintro ⟨shelf, _ | ⟨isRelation, known⟩⟩
    · exact .inl rfl
    · exact .inr ⟨isRelation, _, known, rfl⟩
  · rintro (rfl | ⟨isRelation, attnum, known, rfl⟩)
    · exact ⟨_, .own⟩
    · exact ⟨_, .attr isRelation known⟩

/-! ## Finding -/

/-- The live thing in the entry of a key. -/
def liveAt (world : World) (kind : EntityClass) (key : EntityKey) : Option ThingId :=
  ((world.caches.of kind).find? key).filter world.alive

/-- The keys under which the entities are found that stand for a row. -/
def rowKeys (world : World) (kind : EntityClass) (object : Oid) : List EntityKey :=
  if kind = .type then world.typeKeys object else [kind.owner.key object]

/-- Finding an entity counts, and changes nothing else. -/
theorem find_run (tidy : Tidy [] world) (kind : EntityClass) (key : EntityKey) :
    ∃ tally, find kind key world = (world.liveAt kind key, { world with ledger := { world.ledger with tally } }) := by
  obtain ⟨notes, run⟩ := (tidy.shelves (.entities kind)).get? key
  have stored : (entityView kind).store notes (world.caches.of kind) world
      = { world with ledger := { world.ledger with tally := Identity.Note.count notes world.ledger.tally } } := by
    change note notes { world with caches := world.caches.put kind (world.caches.of kind) } = _
    rw [Caches.put_of]
    rfl
  have asked : (entityView kind).get? key world
      = (world.liveAt kind key, (world.liveAt kind key).toList.foldl (fun world id => hold id world)
          { world with ledger := { world.ledger with tally := Identity.Note.count notes world.ledger.tally } }) := by
    rw [← stored]
    unfold CacheView.get?
    rw [show (entityView kind).alive world = world.alive from rfl, run]
    rfl
  refine ⟨Identity.Note.count notes world.ledger.tally, ?_⟩
  unfold find
  rw [asked]
  cases world.liveAt kind key with
  | none => rfl
  | some id =>
    -- someone else refers to the entity, so that it is not lost when it is released
    have counted : Tidy []
        { world with ledger := { world.ledger with tally := Identity.Note.count notes world.ledger.tally } } :=
      tidy.stays ⟨rfl, rfl, rfl, rfl⟩
    exact congrArg (Prod.mk _) (counted.release_hold id)

theorem findAll_run (tidy : Tidy [] world) (kind : EntityClass) (keys : List EntityKey) :
    ∃ tally, findAll kind keys world
      = (keys.filterMap (world.liveAt kind), { world with ledger := { world.ledger with tally } }) := by
  induction keys generalizing world with
  | nil => exact ⟨world.ledger.tally, rfl⟩
  | cons key keys inductionHypothesis =>
    obtain ⟨tally, run⟩ := find_run tidy kind key
    have counted : Tidy [] { world with ledger := { world.ledger with tally } } := tidy.stays ⟨rfl, rfl, rfl, rfl⟩
    obtain ⟨tally', run'⟩ := inductionHypothesis counted
    refine ⟨tally', ?_⟩
    unfold findAll
    rw [run]
    dsimp only
    rw [run', List.filterMap_cons]
    cases world.liveAt kind key <;> rfl

theorem targets_run (tidy : Tidy [] world) (kind : EntityClass) (valid : object.isValid = true) :
    ∃ tally, targets kind object world
      = ((world.rowKeys kind object).filterMap (world.liveAt kind.owner),
          { world with ledger := { world.ledger with tally } }) := by
  unfold targets rowKeys
  rw [valid, if_pos rfl]
  by_cases isType : kind = .type
  · subst isType
    rw [if_pos rfl, if_pos rfl]
    exact findAll_run tidy .type (world.typeKeys object)
  · rw [if_neg isType, if_neg isType]
    exact findAll_run tidy kind.owner [kind.owner.key object]

/-- What is found under a key is the live cached entity of the key. -/
theorem Sound.liveAt_iff (sound : world.Sound cascade owed) {key : EntityKey} :
    world.liveAt kind key = some id ↔ ∃ entity, world.Cached id entity ∧ entity.kind = kind ∧ entity.key = key := by
  unfold liveAt
  rw [Option.filter_eq_some_iff]
  constructor
  · rintro ⟨found, live⟩
    have entry := Cache.mem_of_find? found
    obtain ⟨entity, its, isKind, isKey⟩ := sound.entered kind key id entry live
    exact ⟨entity, ⟨its, isKind.symm ▸ isKey.symm ▸ entry⟩, isKind, isKey⟩
  · rintro ⟨entity, cached, rfl, rfl⟩
    exact ⟨Cache.find?_of_mem (sound.unique entity.kind) cached.2, alive_of_entity cached.1⟩

/-- Those who are found under the keys of a row are those who stand for it. -/
theorem Sound.mem_found_iff (sound : world.Sound cascade owed) :
    id ∈ (world.rowKeys kind object).filterMap (world.liveAt kind.owner) ↔
      ∃ entity, world.Represents kind object id entity := by
  rw [List.mem_filterMap]
  simp only [sound.liveAt_iff]
  unfold rowKeys
  constructor
  · rintro ⟨key, among, entity, cached, isOwner, rfl⟩
    refine ⟨entity, cached, isOwner, ?_⟩
    split at among
    · obtain ⟨typmod, -, isKey⟩ := List.mem_map.mp among
      exact isKey ▸ rfl
    · rw [List.mem_singleton.mp among]
      rfl
  · rintro ⟨entity, cached, isOwner, rfl⟩
    refine ⟨entity.key, ?_, entity, cached, isOwner, rfl⟩
    have named := (sound.shaped id entity cached.1).named
    split
    · next isType =>
      -- a type is known by its type modifier
      have isType : entity.kind = .type := by
        rw [isOwner, isType]
        rfl
      refine List.mem_map.mpr ⟨entity.key.sub, ?_, ?_⟩
      · cases sound.typmods id entity cached isType with
        | inl plain => exact plain ▸ List.mem_cons_self
        | inr modified => exact List.mem_cons_of_mem _ modified
      · rw [EntityClass.key, ← isType, ← named.1]
    · next notType =>
      rw [isOwner] at named
      refine List.mem_singleton.mpr (named.key_eq ?_ ?_)
      · cases kind <;> decide
      · cases kind <;> first | exact absurd rfl notType | decide

/-- An entity that knows no one. -/
theorem invalidate_alone {state : Cascade × World} (found : state.2.entity? id = some entity)
    (notRelation : entity.kind ≠ .relation) (notLanguage : entity.kind ≠ .language) (change : Change) :
    invalidate change id state = invalidateAlone change id state := by
  unfold invalidate
  rw [found]
  dsimp only
  cases isKind : entity.kind <;> first | rfl | contradiction

/-! ## What was collected -/

/-- The batch took the gates that were asked for, the keys wait for their eviction, and things know
    those whom they are left.  Apart from that and from counters all is as it was in the beginning. -/
structure Gathers (base : World) (asked : GateId → Prop) (condemned : EntityKey → Prop) (tied : ThingId → Ties → Ties)
    (state : Cascade × World) : Prop where
  same : ∃ heap gates tally, state.2 = { base with heap, gates, ledger := { base.ledger with tally } }
  things : ∀ id, state.2.thing? id = (base.thing? id).map (Thing.onTies (tied id))
  tidy : Tidy [] state.2
  took : Took base.gates asked state.1.trips state.2.gates
  evictions : ∀ key, key ∈ state.1.evictions ↔ condemned key

namespace Gathers

variable {asked asked' : GateId → Prop} {condemned condemned' : EntityKey → Prop} {tied tied' : ThingId → Ties → Ties}
  {state : Cascade × World}

/-- Nothing was collected yet. -/
theorem start (sound : base.Sound {} []) (tidy : Tidy [] base) :
    Gathers base (fun _ => False) (fun _ => False) (fun _ ties => ties) ({}, base) where
  same := ⟨base.heap, base.gates, base.ledger.tally, rfl⟩
  things id := by
    cases base.thing? id with
    | none => rfl
    | some thing => cases thing <;> rfl
  tidy := tidy
  took := .start sound.gates
  evictions := by simp

theorem congr (gathers : Gathers base asked condemned tied state) (gates : ∀ gate, asked' gate ↔ asked gate)
    (keys : ∀ key, condemned' key ↔ condemned key) : Gathers base asked' condemned' tied state :=
  { gathers with
    took := gathers.took.congr gates
    evictions := fun key => (gathers.evictions key).trans (keys key).symm }

/-- What is said of entities tells whom all things know. -/
theorem retie (gathers : Gathers base asked condemned tied state)
    (ties : ∀ id entity, base.entity? id = some entity → tied' id entity.ties = tied id entity.ties) :
    Gathers base asked condemned tied' state := by
  refine { gathers with things := fun id => ?_ }
  rw [gathers.things]
  cases found : base.thing? id with
  | none => rfl
  | some thing =>
    cases thing with
    | entity entity => simp [Thing.onTies, ties id entity (entity?_eq_some.mpr found)]
    | _ => rfl

section gathers

variable (gathers : Gathers base asked condemned tied state)

include gathers

theorem caches : state.2.caches = base.caches := by
  obtain ⟨heap, gates, tally, same⟩ := gathers.same
  rw [same]

theorem typmods : state.2.typmods = base.typmods := by
  obtain ⟨heap, gates, tally, same⟩ := gathers.same
  rw [same]

theorem alive : state.2.alive = base.alive := by
  funext id
  have isSome := congrArg Option.isSome (gathers.things id)
  rwa [Option.isSome_map] at isSome

theorem liveAt : state.2.liveAt = base.liveAt := by
  funext kind key
  rw [World.liveAt, World.liveAt, gathers.caches, gathers.alive]

theorem rowKeys : state.2.rowKeys = base.rowKeys := by
  funext kind object
  rw [World.rowKeys, World.rowKeys, World.typeKeys, World.typeKeys, gathers.typmods]

/-- An entity has its key and its slots still. -/
theorem entity? (found : base.entity? id = some entity) :
    state.2.entity? id = some { entity with ties := tied id entity.ties } := by
  rw [entity?_eq_some, gathers.things, entity?_eq_some.mp found]
  rfl

/-! ## Steps -/

theorem tallied (tally : Tally) :
    Gathers base asked condemned tied (state.1, { state.2 with ledger := { state.2.ledger with tally } }) := by
  obtain ⟨heap, gates, tally', same⟩ := gathers.same
  refine { gathers with same := ⟨heap, gates, tally, by rw [same]⟩, tidy := gathers.tidy.stays ?_ }
  exact ⟨rfl, rfl, rfl, rfl⟩

/-- Someone is forgotten. -/
theorem tie {f : Ties → Ties} (refs : ∀ ties, (f ties).refs = ties.refs) (id : ThingId) :
    Gathers base asked condemned (fun other ties => if other = id then f (tied other ties) else tied other ties)
      (state.1, onThing id (Thing.onTies f) state.2) := by
  obtain ⟨heap, gates, tally, same⟩ := gathers.same
  refine { gathers with
    same := ⟨state.2.heap.update id (Thing.onTies f), gates, tally, by rw [onThing, same]⟩
    things := fun other => ?_
    tidy := gathers.tidy.onTies id refs }
  dsimp only
  rw [thing?_onThing, gathers.things]
  split
  · cases base.thing? other with
    | none => rfl
    | some thing => cases thing <;> rfl
  · rfl

/-- A key is condemned. -/
theorem evict (key : EntityKey) :
    Gathers base asked (fun other => condemned other ∨ other = key) tied (state.1.evict key, state.2) where
  same := gathers.same
  things := gathers.things
  tidy := gathers.tidy
  took := by
    rw [Cascade.trips_evict]
    exact gathers.took
  evictions other := by
    rw [Cascade.mem_evict, gathers.evictions, or_comm]

/-- The keys of attributes are condemned. -/
theorem evictAttributes (relation : Oid) (attnums : List Int16) :
    Gathers base asked (fun key => condemned key ∨ ∃ attnum ∈ attnums, key = attributeKey relation attnum) tied
      (attnums.foldl (fun cascade attnum => cascade.evict (attributeKey relation attnum)) state.1, state.2) := by
  induction attnums generalizing condemned state with
  | nil => exact gathers.congr (fun _ => .rfl) (by simp)
  | cons attnum attnums ih =>
    exact (ih (gathers.evict (attributeKey relation attnum))).congr (fun _ => .rfl) (by simp [or_assoc])

variable (sound : base.Sound {} [])

include sound

/-- The gate of an entity joins the batch. -/
theorem trip (found : base.entity? id = some entity) :
    Gathers base (fun gate => asked gate ∨ gate = entity.gate) condemned tied (tripThing id state) := by
  obtain ⟨cascade, world⟩ := state
  have its := gathers.entity? found
  have governs : (world.thing? id).bind (·.gate?) = some entity.gate := by
    rw [entity?_eq_some.mp its]
    exact (sound.shaped id entity found).gate?_eq
  unfold tripThing
  dsimp only
  rw [governs]
  obtain ⟨heap, gates, tally, same⟩ := gathers.same
  have same : world = _ := same
  exact {
    same := ⟨heap, (cascade.trips.add entity.gate world.gates).2, tally, by rw [same]⟩
    things := gathers.things
    tidy := gathers.tidy.stays ⟨rfl, rfl, rfl, rfl⟩
    took := gathers.took.add entity.gate
    evictions := gathers.evictions }

/-- An entity is tripped, and condemned if its row was deleted. -/
theorem alone (found : base.entity? id = some entity) (change : Change) :
    Gathers base (fun gate => asked gate ∨ gate = entity.gate)
      (fun key => condemned key ∨ change = .deleted ∧ key = entity.key) tied (invalidateAlone change id state) := by
  have tripped := gathers.trip sound found
  have its := tripped.entity? found
  unfold invalidateAlone
  generalize tripThing id state = after at tripped its
  obtain ⟨cascade, world⟩ := after
  dsimp only at its
  cases change with
  | updated => exact tripped.congr (fun _ => Iff.rfl) (by simp)
  | deleted =>
    dsimp only
    rw [its]
    exact (tripped.evict entity.key).congr (fun _ => Iff.rfl) (by simp)

end gathers

variable {ids : List ThingId} (sound : base.Sound {} [])

include sound

/-- Entities are updated that stand for rows. -/
theorem updateAll (gathers : Gathers base asked condemned tied state) {rows : Oid → Prop}
    (stand : ∀ {id}, id ∈ ids ↔ ∃ oid entity, rows oid ∧ base.Represents kind oid id entity) :
    Gathers base
      (fun gate => asked gate ∨ ∃ oid id entity, rows oid ∧ base.Represents kind oid id entity ∧ gate = entity.gate)
      condemned tied (ids.foldl (fun state id => invalidateAlone .updated id state) state) := by
  have each (ids : List ThingId) (known : ∀ id ∈ ids, ∃ entity, base.entity? id = some entity) :
      Gathers base (fun gate => asked gate ∨ ∃ id ∈ ids, ∃ entity, base.entity? id = some entity ∧ gate = entity.gate)
        condemned tied (ids.foldl (fun state id => invalidateAlone .updated id state) state) := by
    induction ids generalizing asked state with
    | nil => exact gathers.congr (by simp) fun _ => .rfl
    | cons id ids ih =>
      obtain ⟨entity, found⟩ := known id List.mem_cons_self
      have first := (gathers.alone sound found .updated).congr (fun _ => .rfl) (by simp : ∀ key, condemned key ↔ _)
      have rest := ih first fun other among => known other (List.mem_cons_of_mem _ among)
      exact rest.congr (by simp [found, or_assoc]) fun _ => .rfl
  have known (id : ThingId) (among : id ∈ ids) : ∃ entity, base.entity? id = some entity := by
    obtain ⟨oid, entity, row, represents⟩ := stand.mp among
    exact ⟨entity, represents.cached.1⟩
  refine (each ids known).congr (fun gate => or_congr_right ?_) fun _ => .rfl
  constructor
  · rintro ⟨oid, id, entity, row, represents, isGate⟩
    exact ⟨id, stand.mpr ⟨oid, entity, row, represents⟩, entity, represents.cached.1, isGate⟩
  · rintro ⟨id, among, entity, found, isGate⟩
    obtain ⟨oid, entity', row, represents⟩ := stand.mp among
    obtain rfl := Option.some.inj (found.symm.trans represents.cached.1)
    exact ⟨oid, id, entity, row, represents, isGate⟩

/-- Types are updated under every type modifier. -/
theorem types (gathers : Gathers base asked condemned tied state) (oids : List Oid) :
    Gathers base (fun gate => asked gate ∨
        ∃ oid id entity, oid ∈ oids ∧ base.Represents .type oid id entity ∧ gate = entity.gate)
      condemned tied (invalidateTypes oids state) := by
  induction oids generalizing asked state with
  | nil => exact gathers.congr (by simp) fun _ => .rfl
  | cons oid oids ih =>
    obtain ⟨cascade, world⟩ := state
    obtain ⟨tally, run⟩ := findAll_run gathers.tidy .type (world.typeKeys oid)
    have keys : world.typeKeys oid = base.rowKeys .type oid := congrArg (fun keys => keys .type oid) gathers.rowKeys
    have stand {id : ThingId} : id ∈ (base.rowKeys .type oid).filterMap (base.liveAt .type) ↔
        ∃ other entity, other = oid ∧ base.Represents .type other id entity := by
      rw [show base.liveAt .type = base.liveAt (EntityClass.owner .type) from rfl, sound.mem_found_iff]
      constructor
      · rintro ⟨entity, represents⟩
        exact ⟨oid, entity, rfl, represents⟩
      · rintro ⟨_, entity, rfl, represents⟩
        exact ⟨entity, represents⟩
    unfold invalidateTypes typesOf
    rw [run]
    dsimp only
    rw [keys, show world.liveAt = base.liveAt from gathers.liveAt]
    refine (ih ((gathers.tallied tally).updateAll sound stand)).congr (fun gate => ?_) fun _ => .rfl
    simp [or_assoc, or_and_right, exists_or]

/-- Routines are updated. -/
theorem routines (gathers : Gathers base asked condemned tied state) (oids : List Oid) :
    Gathers base (fun gate => asked gate ∨
        ∃ oid id entity, oid ∈ oids ∧ base.Represents .routine oid id entity ∧ gate = entity.gate)
      condemned tied (invalidateRoutines oids state) := by
  obtain ⟨cascade, world⟩ := state
  obtain ⟨tally, run⟩ := findAll_run gathers.tidy .routine (oids.map EntityClass.routine.key)
  have stand {id : ThingId} : id ∈ (oids.map EntityClass.routine.key).filterMap (base.liveAt .routine) ↔
      ∃ oid entity, oid ∈ oids ∧ base.Represents .routine oid id entity := by
    have single (oid : Oid) : base.liveAt .routine (EntityClass.routine.key oid) = some id ↔
        ∃ entity, base.Represents .routine oid id entity := by
      rw [← sound.mem_found_iff]
      simp [World.rowKeys, EntityClass.owner]
    simp [single]
  unfold invalidateRoutines
  dsimp only at run ⊢
  rw [run]
  dsimp only
  rw [show world.liveAt = base.liveAt from gathers.liveAt]
  exact (gathers.tallied tally).updateAll sound stand

/-! ## One entity -/

section entity

variable (gathers : Gathers base asked condemned tied state) (found : base.entity? id = some entity)
  (suits : (tied id entity.ties).Suit entity.kind)

include gathers found suits

/-- What happens to a relation, to the types that it knows and, if it goes, to its attributes. -/
theorem relation (isRelation : entity.kind = .relation) (change : Change) :
    Gathers base
      (fun gate => (asked gate ∨ gate = entity.gate) ∨ ∃ oid other type, oid ∈ (tied id entity.ties).types ∧
        base.Represents .type oid other type ∧ gate = type.gate)
      (fun key => condemned key ∨ change = .deleted ∧ (key = entity.key ∨
        ∃ attnum ∈ (tied id entity.ties).attributes, key = attributeKey entity.key.object attnum))
      (fun other ties => if other = id then (tied other ties).told change else tied other ties)
      (invalidate change id state) := by
  obtain ⟨types, attributes, its⟩ : ∃ types attributes, tied id entity.ties = .relation types attributes := by
    rwa [isRelation] at suits
  have same {other : ThingId} {entity' : Entity} (found' : base.entity? other = some entity') (isSame : other = id) :
      tied other entity'.ties = .relation types attributes := by
    subst isSame
    cases found.symm.trans found'
    exact its
  have forgotten := ((gathers.trip sound found).tie Ties.forgets_withoutTypes.refs id).types sound
    (tied id entity.ties).types
  -- The gate and the types go first; a deletion then takes the relation and its attributes as well.
  unfold invalidate
  rw [gathers.entity? found]
  dsimp only
  rw [isRelation]
  dsimp only
  generalize invalidateTypes _ _ = after at forgotten ⊢
  obtain ⟨cascade, world⟩ := after
  cases change with
  | updated =>
    refine (forgotten.congr (fun _ => .rfl) (by simp)).retie fun other entity' found' => ?_
    split
    · next isSame => rw [same found' isSame, Ties.told, Ties.withoutTypes]
    · rfl
  | deleted =>
    have evicted := (forgotten.evict entity.key).evictAttributes entity.key.object (tied id entity.ties).attributes
    refine ((evicted.tie Ties.refs_withoutAttributes id).congr (fun _ => .rfl) (by simp [or_assoc])).retie
      fun other entity' found' => ?_
    split
    · next isSame => rw [same found' isSame, Ties.told, Ties.withoutTypes, Ties.withoutAttributes]
    · rfl

/-- What happens to a language and to the routines that it knows. -/
theorem language (isLanguage : entity.kind = .language) (change : Change) :
    Gathers base
      (fun gate => (asked gate ∨ gate = entity.gate) ∨ ∃ oid other routine, oid ∈ (tied id entity.ties).routines ∧
        base.Represents .routine oid other routine ∧ gate = routine.gate)
      (fun key => condemned key ∨ change = .deleted ∧ key = entity.key)
      (fun other ties => if other = id then (tied other ties).told change else tied other ties)
      (invalidate change id state) := by
  obtain ⟨routines, its⟩ : ∃ routines, tied id entity.ties = .language routines := by
    rwa [isLanguage] at suits
  have forgotten := ((gathers.trip sound found).tie Ties.forgets_withoutRoutines.refs id).routines sound
    (tied id entity.ties).routines
  have forgotten := @retie _ _ _ _ (fun other ties => if other = id then (tied other ties).told change else tied other ties)
    _ forgotten fun other entity' found' => by
      split
      · next isSame =>
        subst isSame
        cases found.symm.trans found'
        rw [its, Ties.told, Ties.withoutRoutines]
      · rfl
  unfold invalidate
  rw [gathers.entity? found]
  dsimp only
  rw [isLanguage]
  dsimp only
  generalize invalidateRoutines _ _ = after at forgotten ⊢
  obtain ⟨cascade, world⟩ := after
  cases change with
  | updated => exact forgotten.congr (fun _ => .rfl) (by simp)
  | deleted => exact (forgotten.evict entity.key).congr (fun _ => .rfl) (by simp)

/-- What happens to an entity, to those that it still knows, and to what goes with it. -/
theorem target (change : Change) :
    Gathers base (fun gate => asked gate ∨ base.Stirs { entity with ties := tied id entity.ties } gate)
      (fun key => condemned key ∨
        change = .deleted ∧ ∃ shelf, Takes { entity with ties := tied id entity.ties } shelf key)
      (fun other ties => if other = id then (tied other ties).told change else tied other ties)
      (invalidate change id state) := by
  simp only [stirs_iff, takes_iff]
  have its := gathers.entity? found
  by_cases isRelation : entity.kind = .relation
  · exact (gathers.relation sound found suits isRelation change).congr
      (by simp [isRelation, Entity.gate, or_assoc]) (by simp [isRelation])
  · by_cases isLanguage : entity.kind = .language
    · exact (gathers.language sound found suits isLanguage change).congr
        (by simp [isLanguage, Entity.gate, or_assoc]) (by simp [isLanguage])
    · rw [invalidate_alone its isRelation isLanguage]
      refine ((gathers.alone sound found change).congr (by simp [isRelation, isLanguage, Entity.gate])
        (by simp [isRelation])).retie fun other entity' found' => ?_
      split
      · next isSame =>
        subst isSame
        cases found.symm.trans found'
        exact Ties.told_of_suit suits isRelation isLanguage change
      · rfl

end entity

end Gathers

end World

end CatalogReplica.Catalog
