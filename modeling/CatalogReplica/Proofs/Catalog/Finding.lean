import CatalogReplica.Proofs.Catalog.Lookups
import CatalogReplica.Proofs.Catalog.Waning

/-!
# Finding live entities

A dispatch finds the entities of a row without constructing any.  It finds every cached
one: types under all their type modifiers, and everything else under the one key that it
has.

* `Found`: what the search for entities does.
* `find_found`, `findAll_found`, `typesOf_found`, `targets_found`: the searches.
-/

namespace CatalogReplica.Catalog

open Identity (Cache CacheView Note)

/-- The class whose entities stand for the rows of a class. -/
def EntityClass.owner (kind : EntityClass) : EntityClass := if kind = .attr then .relation else kind

/-- Entities other than attributes and types have one key for their object number. -/
theorem EntityClass.Names.key_eq {kind : EntityClass} {key : EntityKey} (named : kind.Names key)
    (notAttr : kind ≠ .attr) (notType : kind ≠ .type) : key = kind.key key.object := by
  obtain ⟨isClass, -, isAttr | isType | sub⟩ := named
  · exact absurd isAttr notAttr
  · exact absurd isType notType
  · rw [EntityClass.key, if_neg notType, ← isClass, ← sub]

namespace World

variable {unsignalled : List EntityKey} {owed : List (EntityClass × Oid)} {cascade : Cascade}
  {world : World} {id : ThingId} {entity : Entity} {kind : EntityClass} {key : EntityKey}

/-- Those who were found are in their identity caches, and all who are wanted were found. -/
structure Found (unsignalled : List EntityKey) (owed : List (EntityClass × Oid)) (cascade : Cascade)
    (world : World) (wanted : Entity → Prop) (result : List ThingId × World) : Prop where
  collects : Collects unsignalled owed (cascade, world) (cascade, result.2)
  listed : ∀ id ∈ result.1, result.2.Listed id
  complete : ∀ id entity, result.2.Cached id entity → wanted entity → id ∈ result.1

theorem Found.fewer {wanted wanted' : Entity → Prop} {result : List ThingId × World}
    (found : Found unsignalled owed cascade world wanted result)
    (fewer : ∀ id entity, result.2.Cached id entity → wanted' entity → wanted entity) :
    Found unsignalled owed cascade world wanted' result :=
  ⟨found.collects, found.listed, fun id entity cached isWanted =>
    found.complete id entity cached (fewer id entity cached isWanted)⟩

/-- A live entry is that of an entity. -/
theorem Sound.listed (sound : world.Sound cascade owed) (entry : (key, id) ∈ (world.caches.of kind).table) :
    world.Listed id := by
  intro entity found
  obtain ⟨entity', found', isKind, isKey⟩ := sound.entered kind key id entry (alive_of_entity found)
  obtain rfl := Option.some.inj (found.symm.trans found')
  refine ⟨found, ?_⟩
  rw [isKind, isKey]
  exact entry

/-- A cache that lost dead entries is stored. -/
theorem Collects.store (underway : Underway unsignalled owed (cascade, world)) (notes : List (Note EntityKey))
    {cache : Cache EntityKey ThingId} (trimmed : Cache.Trimmed world.alive (world.caches.of kind) cache)
    (claims : cache.claims = (world.caches.of kind).claims) :
    Collects unsignalled owed (cascade, world) (cascade, (entityView kind).store notes cache world) := by
  have trims : world.Trims (world.caches.put kind cache) := by
    intro other
    rw [Caches.of_put]
    split
    · next same => exact same ▸ trimmed
    · exact .refl _
  have trim : Collects unsignalled owed (cascade, world)
      (cascade, { world with caches := world.caches.put kind cache }) := by
    refine .trim underway trims fun other => ?_
    rw [Caches.of_put]
    split
    · next same => rw [same, claims]
    · rfl
  exact trim.trans (.reaped trim.underway (.of_core rfl))

theorem find_found (underway : Underway unsignalled owed (cascade, world)) (kind : EntityClass) (key : EntityKey) :
    Found unsignalled owed cascade world (fun entity => entity.kind = kind ∧ entity.key = key)
      ((find kind key world).1.toList, (find kind key world).2) := by
  have unique := underway.sound.unique kind
  -- A hit is the one entity the shelf has for the key; after a miss nothing alive is cached under it.
  obtain ⟨id, entry, live, run⟩ | ⟨dead, notes, cache, run, trimmed, claims⟩ :=
    (world.caches.of kind).get?_cases world.alive key
  · have run' : find kind key world
        = (some id, reap [id] ((entityView kind).store [.hit] (world.caches.of kind) world)) := by
      unfold find CacheView.get?
      rw [show (entityView kind).get world = world.caches.of kind from rfl,
        show (entityView kind).alive world = world.alive from rfl, run]
      simp only [Option.toList_some, List.foldl_cons, List.foldl_nil, release]
      rw [show (entityView kind).hold id _ = hold id _ from rfl, hold, List.erase_cons_head]
    have stores := Collects.store underway [.hit] (.refl (world.caches.of kind)) rfl
    have collects := stores.trans (.reaped stores.underway (reap_reaped [id] _))
    rw [run']
    refine ⟨collects, fun other among => ?_, fun other later cached wanted => ?_⟩
    · obtain rfl : other = id := by simpa using among
      exact collects.wanes.listed (underway.sound.listed entry)
    · obtain ⟨entity, was, same⟩ := collects.wanes.cached cached
      have entry' := was.2
      rw [← same.kind, ← same.key, wanted.1, wanted.2] at entry'
      simp [unique.eq entry' entry]
  · have run' : find kind key world = (none, (entityView kind).store notes cache world) := by
      unfold find CacheView.get?
      rw [show (entityView kind).get world = world.caches.of kind from rfl,
        show (entityView kind).alive world = world.alive from rfl, run]
      rfl
    have collects := Collects.store underway notes (trimmed unique) claims
    rw [run']
    refine ⟨collects, fun other among => (nomatch among), fun other later cached wanted => ?_⟩
    obtain ⟨entity, was, same⟩ := collects.wanes.cached cached
    have entry := was.2
    rw [← same.kind, ← same.key, wanted.1, wanted.2] at entry
    have live := alive_of_entity was.1
    rw [dead unique other entry] at live
    cases live

theorem findAll_found (underway : Underway unsignalled owed (cascade, world)) (kind : EntityClass)
    (keys : List EntityKey) :
    Found unsignalled owed cascade world (fun entity => entity.kind = kind ∧ entity.key ∈ keys)
      (findAll kind keys world) := by
  induction keys generalizing world with
  | nil => exact ⟨.refl underway, fun _ among => (nomatch among), fun _ _ _ wanted => (nomatch wanted.2)⟩
  | cons key keys inductionHypothesis =>
    have first := find_found underway kind key
    have rest := inductionHypothesis first.collects.underway
    unfold findAll
    refine ⟨first.collects.trans rest.collects, fun id among => ?_, fun id entity cached wanted => ?_⟩
    · cases List.mem_append.mp among with
      | inl found => exact rest.collects.wanes.listed (first.listed id found)
      | inr later => exact rest.listed id later
    · cases List.mem_cons.mp wanted.2 with
      | inl same =>
        obtain ⟨before, was, wanes⟩ := rest.collects.wanes.cached cached
        refine List.mem_append_left _ (first.complete id before was ⟨?_, ?_⟩)
        · rw [← wanes.kind, wanted.1]
        · rw [← wanes.key, same]
      | inr later => exact List.mem_append_right _ (rest.complete id entity cached ⟨wanted.1, later⟩)

/-- The live entities of a class are those in its cache. -/
theorem liveOf_found (underway : Underway unsignalled owed (cascade, world)) (kind : EntityClass) :
    Found unsignalled owed cascade world (fun entity => entity.kind = kind) (world.liveOf kind, world) where
  collects := .refl underway
  listed id among := by
    obtain ⟨⟨key, other⟩, entry, rfl⟩ := List.mem_map.mp among
    exact underway.sound.listed (List.mem_filter.mp entry).1
  complete id entity cached wanted := by
    refine List.mem_map.mpr ⟨(entity.key, id), List.mem_filter.mpr ⟨?_, ?_⟩, rfl⟩
    · exact wanted ▸ cached.2
    · exact alive_of_entity cached.1

/-- Every cached type with an object number is found: it is known by its type modifier. -/
theorem typesOf_found (underway : Underway unsignalled owed (cascade, world)) (oid : Oid) :
    Found unsignalled owed cascade world (fun entity => entity.kind = .type ∧ entity.key.object = oid)
      (typesOf oid world) := by
  have found := findAll_found underway .type (world.typeKeys oid)
  refine found.fewer fun id later cached wanted => ⟨wanted.1, ?_⟩
  obtain ⟨entity, was, wanes⟩ := found.collects.wanes.cached cached
  have isType : entity.kind = .type := wanes.kind.symm.trans wanted.1
  have named := (underway.sound.shaped id entity was.1).named.1
  rw [isType] at named
  refine List.mem_map.mpr ⟨later.key.sub, ?_, ?_⟩
  · rw [wanes.key]
    cases underway.sound.typmods id entity was isType with
    | inl plain => exact plain ▸ List.mem_cons_self
    | inr modified =>
      rw [← wanes.key, wanted.2] at modified
      exact List.mem_cons_of_mem _ (wanes.key ▸ modified)
  · rw [← wanted.2, wanes.key, EntityClass.key, ← named]

/-- Every cached entity that stands for a row is found. -/
theorem targets_found (underway : Underway unsignalled owed (cascade, world)) (kind : EntityClass) (object : Oid) :
    Found unsignalled owed cascade world
      (fun entity => entity.kind = kind.owner ∧ (entity.key.object = object ∨ object.isValid = false))
      (targets kind object world) := by
  unfold targets
  rw [show (if kind = .attr then EntityClass.relation else kind) = kind.owner from rfl]
  cases valid : object.isValid with
  | false => exact (liveOf_found underway kind.owner).fewer fun _ _ _ wanted => wanted.1
  | true =>
    by_cases isType : kind = .type
    · rw [if_pos rfl, if_pos isType]
      refine (typesOf_found underway object).fewer fun id entity _ wanted => ⟨?_, ?_⟩
      · rw [wanted.1, isType]
        rfl
      · exact wanted.2.resolve_right Bool.true_eq_false.mp
    · rw [if_pos rfl, if_neg isType]
      have found := findAll_found underway kind.owner [kind.owner.key object]
      refine found.fewer fun id entity cached wanted => ⟨wanted.1, List.mem_singleton.mpr ?_⟩
      have named := (found.collects.underway.sound.shaped id entity cached.1).named
      rw [wanted.1] at named
      rw [← wanted.2.resolve_right Bool.true_eq_false.mp]
      refine named.key_eq ?_ ?_
      · cases kind <;> decide
      · cases kind <;> first | exact absurd rfl isType | decide

end World

end CatalogReplica.Catalog
