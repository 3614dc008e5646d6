import CatalogReplica.Proofs.Catalog.Cascading
import CatalogReplica.Proofs.Catalog.Fading
import CatalogReplica.Proofs.Catalog.Precision

/-!
# To whom attributes belong

An attribute is constructed with a relation: it keeps it alive, shares its gate and is noted by it.  Both are in caches of
their own, which lose entries each for itself, and a relation may be constructed again under the same key.  Yet whenever
an attribute is cached it is with the relation that is cached.  So a trip of the one gate reaches all attributes of the
relation, and what the relation noted is all that has to go when it is deleted.

* `World.Belongs`: a cached attribute, and the cached relation that it was constructed with.
* `World.Belongs.spent`: the gate of the relation is tripped.
* `World.Ousted`, `World.Belongs.ousted`: the relation is deleted.
* `Operation.attributes_belong`: whatever was carried out, and whatever the provider did.
-/

namespace CatalogReplica.Catalog

theorem attributeKey_inj {one other : Oid} {first second : Int16} (same : attributeKey one first = attributeKey other second) :
    one = other ∧ first = second := by
  obtain ⟨-, object, sub⟩ := EntityKey.mk.inj same
  refine ⟨object, Int16.toInt_inj.mp ?_⟩
  rw [← Int16.toInt_toInt32, sub, Int16.toInt_toInt32]

/-- The signal says that the row of the object was deleted, or that every row of the class was. -/
def Signal.Deletes (kind : EntityClass) (object : Oid) (signal : Signal) : Prop :=
  ∃ other, signal = .row kind.oid other .deleted ∧ (other = object ∨ other.isValid = false)

namespace World

variable {world after : World} {relid : Oid} {attnum : Int16} {id owner : ThingId} {column relation : Entity}
  {key : EntityKey} {signals : List Signal}

/-! ## Attributes and relations -/

/-- The attribute of a relation with a number is cached, and so is the relation that it was constructed with: they have
    one gate, and the relation noted the number. -/
structure Belongs (world : World) (relid : Oid) (attnum : Int16) (id owner : ThingId) (column relation : Entity) : Prop where
  cached : world.Cached id column
  isAttr : column.kind = .attr
  key : column.key = attributeKey relid attnum
  ties : column.ties = .attr owner
  owner : world.Cached owner relation
  isRelation : relation.kind = .relation
  relationKey : relation.key = EntityClass.relation.key relid
  gates : column.table.gates = relation.table.gates
  noted : attnum ∈ relation.ties.attributes

/-- A live entry is that of an attribute which belongs to a cached relation. -/
theorem Sound.belongs (sound : world.Sound {} []) (entry : (key, id) ∈ (world.caches.of .attr).table)
    (live : world.alive id = true) : ∃ relid attnum owner column relation, key = attributeKey relid attnum ∧
      world.Belongs relid attnum id owner column relation := by
  obtain ⟨column, found, isAttr, rfl⟩ := sound.entered .attr key id entry live
  have cached : world.Cached id column := ⟨found, isAttr.symm ▸ entry⟩
  obtain ⟨owner, relation, attnum, ties, its, -, noted, named⟩ :=
    (sound.attributes id column cached isAttr).resolve_left List.not_mem_nil
  obtain ⟨relation', found', isRelation, -, gate⟩ := sound.tied id column owner found ties
  obtain rfl := Option.some.inj (its.1.symm.trans found')
  have shaped := sound.shaped owner relation its.1
  have relationKey := (isRelation ▸ shaped.named).key_eq (by decide) (by decide)
  have gates : column.table.gates = relation.table.gates := by
    rw [(sound.shaped id column found).gated, shaped.gated, gate]
  exact ⟨relation.key.object, attnum, owner, column, relation, named,
    ⟨cached, isAttr, named, ties, its, isRelation, relationKey, gates, noted⟩⟩

/-- The relation that is cached under the key of the relation is the one that the attribute was constructed with. -/
theorem Belongs.owner_eq (belongs : world.Belongs relid attnum id owner column relation) (sound : world.Sound {} [])
    {other : ThingId} (entry : (EntityClass.relation.key relid, other) ∈ (world.caches.of .relation).table) :
    other = owner := by
  have own := belongs.owner.2
  rw [belongs.isRelation, belongs.relationKey] at own
  exact (sound.unique .relation).eq entry own

/-! ## The gate of the relation -/

/-- Once the gate of the relation is tripped, nothing is valid that the attribute keeps. -/
theorem Belongs.spent (belongs : world.Belongs relid attnum id owner column relation) (sound : world.Sound {} []) :
    ((Operation.trip owner).apply world).entity? id = some column ∧
      column.Spent ((Operation.trip owner).apply world).gates := by
  have shaped := sound.shaped owner relation belongs.owner.1
  have tripped : (Operation.trip owner).apply world = { world with gates := world.gates.trip relation.gate } := by
    have its : (world.thing? owner).bind (·.gate?) = some relation.gate := by
      rw [entity?_eq_some.mp belongs.owner.1]
      exact shaped.gate?_eq
    unfold Operation.apply Task.exec Operation.task
    dsimp only
    rw [Task.bind_ok (Task.get_run world), its]
    rfl
  rw [tripped]
  refine ⟨belongs.cached.1, ?_⟩
  have shared : column.gate = relation.gate := by
    rw [Entity.gate, belongs.gates, Entity.gate]
  have detached := (sound.trip relation.gate).shaped id column belongs.cached.1
  refine detached.spent_of_commit ?_
  rw [shared]
  exact Coherence.Batch.mem_gates_add shaped.known

/-! ## Deletion of the relation -/

/-- The key is gone from its cache, and what is left of the entity is marked as evicted. -/
structure Ousted (key : EntityKey) (id : ThingId) (world : World) : Prop where
  absent : ∀ kind other, key.classOid = kind.oid → (key, other) ∉ (world.caches.of kind).table
  marked : ∀ later, world.entity? id = some later → later.table.evicted = true

theorem Ousted.lingers (key : EntityKey) (id : ThingId) : Lingers (Ousted key id) where
  reaped := fun ousted reaped => by
    refine ⟨fun kind other isClass => ?_, fun later found => ?_⟩
    · rw [reaped.caches]
      exact ousted.absent kind other isClass
    · exact ousted.marked later (entity?_eq_some.mpr (reaped.still id _ (entity?_eq_some.mp found)))
  stale := fun {world} ousted => by
    obtain ⟨gates, same⟩ := tripStale_gates world
    exact same ▸ ⟨ousted.absent, ousted.marked⟩

/-- The key waits for its eviction once its relation was told of. -/
theorem Belongs.condemned (belongs : world.Belongs relid attnum id owner column relation) (sound : world.Sound {} [])
    (tidy : Tidy [] world) (deleted : ∃ signal ∈ signals, signal.Deletes .relation relid) :
    column.key ∈ (collectAll signals world).1.evictions := by
  have hears := collectAll_hears sound tidy signals
  obtain ⟨signal, among, other, rfl, about⟩ := deleted
  have object : relation.key.object = relid := congrArg EntityKey.object belongs.relationKey
  have named : owner ∈ world.named .relation other := by
    unfold named
    cases valid : other.isValid with
    | true =>
      obtain rfl := about.resolve_right (by simp [valid])
      rw [if_pos rfl, sound.mem_found_iff]
      exact ⟨relation, belongs.owner, belongs.isRelation, object⟩
    | false =>
      have entry := belongs.owner.2
      rw [belongs.isRelation] at entry
      exact List.mem_map.mpr ⟨_, List.mem_filter.mpr ⟨entry, alive_of_entity belongs.owner.1⟩, rfl⟩
  refine (hears.evictions _).mpr ⟨(.deleted, owner), List.mem_flatMap.mpr ⟨_, among, ?_⟩, rfl, relation,
    belongs.owner.1, .attr, ?_⟩
  · exact List.mem_map.mpr ⟨owner, named, rfl⟩
  · rw [belongs.key, ← object]
    exact .attr belongs.isRelation belongs.noted

/-- The attribute is evicted with the keys that wait. -/
theorem Belongs.evicted (belongs : world.Belongs relid attnum id owner column relation) (sound : world.Sound {} [])
    (tidy : Tidy [] world) (deleted : ∃ signal ∈ signals, signal.Deletes .relation relid) :
    Ousted column.key id (evictAll (collectAll signals world).1.evictions
      (tripBatch (collectAll signals world).1.trips (collectAll signals world).2).2).2 := by
  have condemned := belongs.condemned sound tidy deleted
  have hears := collectAll_hears sound tidy signals
  have delivered : Batched [] world {} [] (tripBatch (collectAll signals world).1.trips (collectAll signals world).2).2 :=
    (Batched.refl.collectAll signals).tripBatch
  obtain ⟨culls, caches⟩ := evictAll_culls (tidy.batched delivered) (collectAll signals world).1.evictions
  have before : (tripBatch (collectAll signals world).1.trips (collectAll signals world).2).2.caches = world.caches :=
    hears.caches
  constructor
  · intro kind other isClass remains
    rw [caches, Caches.mem_foldl_without] at remains
    exact remains.2 ⟨condemned, isClass⟩
  · intro later found
    have isMember : world.caches.member? column.key = some id := by
      rw [Caches.member?, (sound.shaped id column belongs.cached.1).named.1, column.kind.ofOid?_oid, Option.bind_some]
      exact Identity.Cache.find?_of_mem (sound.unique column.kind) belongs.cached.2
    obtain ⟨thing, -, ⟨-, isMarked⟩ | ⟨unmarked, -⟩⟩ := culls.left id _ (entity?_eq_some.mp found)
    · cases thing with
      | entity entity =>
        cases isMarked
        rfl
      | encoding number table => cases isMarked
      | descriptor descriptor => cases isMarked
    · exact absurd ⟨column.key, condemned, before ▸ isMember⟩ unmarked

/-- A burst that deletes the relation evicts the attribute. -/
theorem Belongs.ousted (belongs : world.Belongs relid attnum id owner column relation) (sound : world.Sound {} [])
    (tidy : Tidy [] world) (deleted : ∃ signal ∈ signals, signal.Deletes .relation relid) :
    (dispatch signals).Ends world fun _ after => Ousted column.key id after :=
  .next rfl ((Ousted.lingers column.key id).commit (belongs.evicted sound tidy deleted))

end World

namespace Operation

open World (Belongs Ousted)

variable {config : Config} {world : World}

/-- Whatever was carried out, however entities are retained, and whatever the provider did: each live entry of an attribute
    is that of an attribute which belongs to the cached relation.  When the gate of the relation is tripped, nothing is
    valid any more that its cached attributes keep; and when it is deleted no live entry of an attribute is left, and all
    attributes that were cached are marked as evicted. -/
theorem attributes_belong (config : Config) (world : World) (attained : Attained config world)
    (opened : world.isOpen = true) :
    (∀ key id, (key, id) ∈ (world.caches.of .attr).table → world.alive id = true →
      ∃ relid attnum owner column relation, key = attributeKey relid attnum ∧
        world.Belongs relid attnum id owner column relation) ∧
    (∀ relid owner, (EntityClass.relation.key relid, owner) ∈ (world.caches.of .relation).table →
      ∀ attnum id, (attributeKey relid attnum, id) ∈ (world.caches.of .attr).table → world.alive id = true →
        ∃ column, ((trip owner).apply world).entity? id = some column ∧
          column.Spent ((trip owner).apply world).gates) ∧
    ∀ relid signals, (∃ signal ∈ signals, signal.Deletes .relation relid) → ∀ attnum,
      (∀ other, (attributeKey relid attnum, other) ∈ (((dispatch signals).apply world).caches.of .attr).table →
        ((dispatch signals).apply world).alive other = false) ∧
      ∀ id, (attributeKey relid attnum, id) ∈ (world.caches.of .attr).table → world.alive id = true →
        ∀ later, ((dispatch signals).apply world).entity? id = some later → later.table.evicted = true := by
  have sound := (attained.orderly opened).sound
  have tidy := attained.reached.tidy
  have belongs {relid : Oid} {attnum : Int16} {id : ThingId}
      (entry : (attributeKey relid attnum, id) ∈ (world.caches.of .attr).table) (live : world.alive id = true) :
      ∃ owner column relation, world.Belongs relid attnum id owner column relation := by
    obtain ⟨relid', attnum', owner, column, relation, isKey, belongs⟩ := sound.belongs entry live
    obtain ⟨rfl, rfl⟩ := attributeKey_inj isKey
    exact ⟨owner, column, relation, belongs⟩
  refine ⟨fun key id entry live => sound.belongs entry live, ?_, ?_⟩
  · intro relid owner own attnum id entry live
    obtain ⟨owner', column, relation, belongs⟩ := belongs entry live
    obtain rfl := belongs.owner_eq sound own
    exact ⟨column, belongs.spent sound⟩
  · intro relid signals deleted attnum
    have ousted {id : ThingId} (entry : (attributeKey relid attnum, id) ∈ (world.caches.of .attr).table)
        (live : world.alive id = true) : Ousted (attributeKey relid attnum) id ((dispatch signals).apply world) := by
      obtain ⟨owner, column, relation, belongs⟩ := belongs entry live
      exact belongs.key ▸ (Task.Ends.discard (belongs.ousted sound tidy deleted)).exec
    have fades : World.Fades world ((dispatch signals).apply world) :=
      (Task.Ends.discard (World.Fades.dispatch signals world (.refl world))).exec
    refine ⟨fun other remains => Bool.eq_false_iff.mpr fun lives => ?_, fun id entry live => (ousted entry live).marked⟩
    -- whatever is left was there before
    obtain ⟨thing', found⟩ := World.alive_iff.mp lives
    obtain ⟨thing, was, -⟩ := fades.things other thing' found
    have entry := fades.entries (.entities .attr) remains
    exact (ousted entry (World.alive_iff.mpr ⟨thing, was⟩)).absent .attr other rfl remains

/-- An attribute is held when its relation is deleted. -/
theorem attributes_belong_columnFound : AllowedAll columnFound (World.start {}) ∧
    (∃ owner column relation, (after columnFound (World.start {})).Belongs ⟨16384⟩ 1 2 owner column relation) ∧
    (∃ column, ((trip 1).apply (after columnFound (World.start {}))).entity? 2 = some column ∧
      column.Spent ((trip 1).apply (after columnFound (World.start {}))).gates) ∧
    ∃ later, ((dispatch [.row EntityClass.relation.oid ⟨16384⟩ .deleted]).apply
      (after columnFound (World.start {}))).entity? 2 = some later ∧ later.table.evicted = true := by
  have allowed : AllowedAll columnFound (World.start {}) := by decide +kernel
  have proper : ∀ operation ∈ columnFound, operation.Proper := by simp [columnFound, Proper]
  have opened : (after columnFound (World.start {})).isOpen = true := by decide +kernel
  have entry : (attributeKey ⟨16384⟩ 1, 2) ∈ ((after columnFound (World.start {})).caches.of .attr).table := by
    decide +kernel
  have own : (EntityClass.relation.key ⟨16384⟩, 1) ∈ ((after columnFound (World.start {})).caches.of .relation).table := by
    decide +kernel
  have live : (after columnFound (World.start {})).alive 2 = true := by decide +kernel
  have held : (((dispatch [.row EntityClass.relation.oid ⟨16384⟩ .deleted]).apply
      (after columnFound (World.start {}))).entity? 2).isSome = true := by decide +kernel
  -- the run is not to be carried out again
  generalize columnFound = operations at *
  obtain ⟨later, found⟩ := Option.isSome_iff_exists.mp held
  obtain ⟨belongs, spent, evicted⟩ := attributes_belong {} (after operations (World.start {}))
    (Attained.start.run allowed proper) opened
  obtain ⟨relid, attnum, owner, column, relation, isKey, belongs⟩ := belongs _ 2 entry live
  obtain ⟨rfl, rfl⟩ := attributeKey_inj isKey
  refine ⟨allowed, ⟨owner, column, relation, belongs⟩, spent _ 1 own _ 2 entry live, later, found, ?_⟩
  exact (evicted ⟨16384⟩ _ ⟨_, List.mem_cons_self, ⟨16384⟩, rfl, .inl rfl⟩ 1).2 2 entry live later found

end Operation

end CatalogReplica.Catalog
