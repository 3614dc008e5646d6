import CatalogReplica.Proofs.Catalog.Signals

/-!
# Entities that are evicted

Once the batch of a dispatch is tripped, the condemned keys leave their identity caches one
after the other.  Whoever is evicted goes on living while something refers to it, but
nothing is said of it any more.

* `Clearing`: what holds while keys are waiting for their eviction.
* `evictAll_clearing`: in the end none is.
-/

namespace CatalogReplica.Catalog

open Identity (Cache CacheView Note)
open Coherence (SlotTable)

namespace World

variable {world after before : World} {cascade : Cascade} {owed : List (EntityClass × Oid)}
  {trips : Coherence.Batch} {unsignalled evictions : List EntityKey} {id : ThingId} {entity : Entity}
  {kind : EntityClass} {key : EntityKey}

/-! ## Keys that leave their caches -/

section uncache

variable {cache : Cache EntityKey ThingId} (table : cache.table = ((world.caches.of kind).erase key).table)

include table

/-- What is cached after the eviction of a key was cached before, under another key. -/
theorem cached_erased (sound : world.Sound cascade owed) (isClass : key.classOid = kind.oid) :
    ({ world with caches := world.caches.put kind cache } : World).Cached id entity ↔
      world.Cached id entity ∧ entity.key ≠ key := by
  unfold Cached
  rw [Caches.of_put]
  constructor
  · rintro ⟨found, entry⟩
    split at entry
    · next same =>
      rw [table, ← same] at entry
      obtain ⟨entry, differs⟩ := Cache.mem_erase.mp entry
      exact ⟨⟨found, entry⟩, differs⟩
    · next differs =>
      refine ⟨⟨found, entry⟩, fun isKey => differs ?_⟩
      exact (sound.shaped id entity found).kind_eq (isKey ▸ isClass)
  · rintro ⟨⟨found, entry⟩, differs⟩
    refine ⟨found, ?_⟩
    split
    · next same =>
      rw [table, ← same]
      exact Cache.mem_erase.mpr ⟨entry, differs⟩
    · exact entry

/-- A condemned key leaves its cache, once its entity is marked. -/
theorem Sound.uncache (sound : world.Sound cascade owed) (isClass : key.classOid = kind.oid)
    (condemned : key ∈ cascade.evictions)
    (marked : ∀ id entity, world.Cached id entity → entity.key = key → entity.table.evicted = true) :
    ({ world with caches := world.caches.put kind cache } : World).Sound cascade owed := by
  -- Only this key leaves the shelf: what a clause says of a cached entity, it said of it before.
  have erased {id : ThingId} {entity : Entity} :
      ({ world with caches := world.caches.put kind cache } : World).Cached id entity ↔
        world.Cached id entity ∧ entity.key ≠ key := cached_erased table sound isClass
  have fewer {other : EntityClass} {entry : EntityKey × ThingId}
      (among : entry ∈ ((world.caches.put kind cache).of other).table) : entry ∈ (world.caches.of other).table := by
    rw [Caches.of_put] at among
    split at among
    · next same =>
      rw [table] at among
      exact same ▸ (Cache.mem_erase.mp among).1
    · exact among
  have differs {other : EntityKey} (stays : other ∉ cascade.evictions) : other ≠ key := by
    rintro rfl
    exact stays condemned
  exact {
    below := sound.below
    unique := fun other => by
      rw [Caches.of_put]
      split
      · have sublist : cache.table.Sublist (world.caches.of kind).table := table ▸ List.filter_sublist
        exact List.Sublist.nodup (sublist.map _) (sound.unique kind)
      · exact sound.unique other
    handedOut := fun other entry among => sound.handedOut other entry (fewer among)
    entered := fun other key id among => sound.entered other key id (fewer among)
    closed := sound.closed
    holding := sound.holding
    gates := sound.gates
    shaped := sound.shaped
    tied := sound.tied
    attributes := fun id entity cached isAttr => by
      refine (sound.attributes id entity (erased.mp cached).1 isAttr).imp_right ?_
      rintro ⟨owner, relation, attnum, ties, its, stays, rest⟩
      exact ⟨owner, relation, attnum, ties, erased.mpr ⟨its, differs stays⟩, stays, rest⟩
    typmods := fun id entity cached => sound.typmods id entity (erased.mp cached).1
    links := fun id entity link target cached tracked isKind trusts => by
      obtain ⟨found, its, isTarget, stays, rest⟩ :=
        sound.links id entity link target (erased.mp cached).1 tracked isKind trusts
      exact ⟨found, erased.mpr ⟨its, differs stays⟩, isTarget, stays, rest⟩
    columns := sound.columns
    targets := fun id entity field kind memo target found isKind leadsTo kept value => by
      obtain ⟨other, its, isTarget, place⟩ :=
        sound.targets id entity field kind memo target found isKind leadsTo kept value
      refine ⟨other, its, isTarget, ?_⟩
      rcases place with cached | evicted
      · -- whoever leaves the cache is marked by now
        by_cases own : other.key = key
        · exact .inr (marked target other cached own)
        · exact .inl (erased.mpr ⟨cached, own⟩)
      · exact .inr evicted
    unmarked := fun id entity cached => sound.unmarked id entity (erased.mp cached).1
    indexed := sound.indexed }

theorem Fresh.uncache (fresh : world.Fresh trips unsignalled) (sound : world.Sound cascade owed)
    (isClass : key.classOid = kind.oid) :
    ({ world with caches := world.caches.put kind cache } : World).Fresh trips unsignalled :=
  fun id entity field datum cached isKind trusts =>
    fresh id entity field datum ((cached_erased table sound isClass).mp cached).1 isKind trusts

end uncache

/-- A type modifier is forgotten under which no type is cached. -/
theorem typmods_unindexTypmod {object : Oid} {sub : Int32} (other : object ≠ key.object ∨ sub ≠ key.sub)
    (known : sub ∈ (world.typmods.get? object).getD []) :
    sub ∈ ((unindexTypmod key world).typmods.get? object).getD [] := by
  unfold unindexTypmod
  split
  · exact known
  · split
    · exact known
    · next typmods found =>
      have rest (same : object = key.object) : sub ∈ typmods.erase key.sub := by
        rw [same, found] at known
        exact (List.mem_erase_of_ne (other.resolve_left (absurd same))).mpr known
      split
      · next none =>
        dsimp only
        rw [Assoc.get?_erase]
        split
        · next same =>
          have among := rest same
          rw [none] at among
          cases among
        · exact known
      · dsimp only
        rw [Assoc.get?_set]
        split
        · next same => exact rest same
        · exact known

theorem Indexed.unindex (indexed : Indexed world.typmods) (key : EntityKey) : Indexed (unindexTypmod key world).typmods := by
  intro oid
  have before := indexed oid
  unfold unindexTypmod
  split
  · exact before
  · split
    · exact before
    · next typmods found =>
      split
      · dsimp only
        rw [Assoc.get?_erase]
        split
        · exact List.pairwise_singleton _ noTypmod
        · exact before
      · dsimp only
        rw [Assoc.get?_set]
        split
        · next same =>
          rw [same, found] at before
          exact before.sublist (List.erase_sublist.cons_cons noTypmod)
        · exact before

theorem unindexTypmod_eq (key : EntityKey) (world : World) :
    unindexTypmod key world = { world with typmods := (unindexTypmod key world).typmods } := by
  unfold unindexTypmod
  repeat' split
  all_goals rfl

/-- What types are known by once the key left its cache. -/
def unindexed (world : World) (kind : EntityClass) (key : EntityKey) : Assoc Oid (List Int32) :=
  (if kind = .type then unindexTypmod key world else world).typmods

theorem unindexed_eq (world : World) (kind : EntityClass) (key : EntityKey) :
    (if kind = .type then unindexTypmod key world else world)
      = { world with typmods := world.unindexed kind key } := by
  unfold unindexed
  split
  · exact unindexTypmod_eq key world
  · rfl

theorem unindexed_of_typmods (world after : World) (same : after.typmods = world.typmods) (kind : EntityClass)
    (key : EntityKey) : after.unindexed kind key = world.unindexed kind key := by
  unfold unindexed unindexTypmod
  rw [same]
  repeat' split
  all_goals first | exact same | rfl

theorem Sound.unindex (sound : world.Sound cascade owed) (isType : key.classOid = EntityClass.type.oid)
    (absent : ∀ id entity, world.Cached id entity → entity.key ≠ key) :
    (unindexTypmod key world).Sound cascade owed := by
  rw [unindexTypmod_eq]
  exact { sound with
    typmods := fun id entity cached kind => by
      refine (sound.typmods id entity cached kind).imp_right (typmods_unindexTypmod ?_)
      refine Decidable.or_iff_not_imp_left.mpr fun object sub => absent id entity cached ?_
      have oid := (sound.shaped id entity cached.1).named.1
      rw [kind, ← isType] at oid
      cases own : entity.key
      cases key
      simp_all
    indexed := sound.indexed.unindex key }

/-- A key under which nothing is cached need not be evicted. -/
theorem Sound.forgo (sound : world.Sound cascade owed) {later : Cascade} (trips : later.trips = cascade.trips)
    (fewer : ∀ other ∈ later.evictions, other ∈ cascade.evictions)
    (rest : ∀ id entity, world.Cached id entity → entity.key ∈ cascade.evictions → entity.key ∈ later.evictions) :
    world.Sound later owed := by
  obtain ⟨batch, evictions, teardowns⟩ := later
  dsimp only at trips fewer rest
  subst trips
  exact { sound with
    attributes := fun id entity cached isAttr => by
      refine (sound.attributes id entity cached isAttr).imp (rest id entity cached) ?_
      rintro ⟨owner, relation, attnum, ties, its, stays, known⟩
      exact ⟨owner, relation, attnum, ties, its, fun goes => stays (fewer _ goes), known⟩
    links := fun id entity link target cached tracked isKind trusts => by
      obtain ⟨found, its, isTarget, stays, known⟩ :=
        sound.links id entity link target cached tracked isKind trusts
      exact ⟨found, its, isTarget, fun goes => stays (fewer _ goes), known⟩
    unmarked := fun id entity cached stays =>
      sound.unmarked id entity cached fun goes => stays (rest id entity cached goes) }

/-! ## Things that are marked -/

section mark

/-- The state in which a thing is marked as evicted. -/
def marking (id : ThingId) (world : World) : World :=
  onThing id (Thing.onTable fun table => { table with evicted := true }) world

theorem marking_cases {other : ThingId} {thing' : Thing} (found : (marking id world).thing? other = some thing') :
    ∃ thing, world.thing? other = some thing ∧ ((other = id ∧
      thing' = thing.onTable fun table => { table with evicted := true }) ∨ thing' = thing) := by
  rw [marking, thing?_onThing] at found
  split at found
  · next same =>
    obtain ⟨thing, was, rfl⟩ := Option.map_eq_some_iff.mp found
    exact ⟨thing, was, .inl ⟨same, rfl⟩⟩
  · exact ⟨thing', found, .inr rfl⟩

/-- An entity keeps its memos, and is marked if it is the one. -/
theorem entity?_marking {other : ThingId} {later : Entity} (found : (marking id world).entity? other = some later) :
    ∃ before, world.entity? other = some before ∧ before.Stays later ∧ later.ties = before.ties ∧
      (other = id → later.table.evicted = true) := by
  rw [entity?_eq_some, marking, thing?_onThing] at found
  split at found
  · obtain ⟨thing, was, turned⟩ := Option.map_eq_some_iff.mp found
    cases thing with
    | entity before =>
      cases turned
      exact ⟨before, entity?_eq_some.mpr was, ⟨⟨rfl, rfl, rfl⟩, rfl⟩, rfl, fun _ => rfl⟩
    | encoding number table => cases turned
    | descriptor descriptor => cases turned
  · next differs => exact ⟨later, entity?_eq_some.mpr found, .refl later, rfl, fun same => absurd same differs⟩

theorem refs_marked (thing : Thing) :
    (thing.onTable fun table => { table with evicted := true }).refs = thing.refs := by
  cases thing <;> rfl

theorem turns_marking (condemned : ∀ entity, world.entity? id = some entity → entity.key ∈ evictions) :
    Turns evictions owed world (marking id world).heap := by
  intro other thing' found
  obtain ⟨thing, was, ⟨rfl, rfl⟩ | rfl⟩ := marking_cases found
  · refine ⟨thing, was, ?_⟩
    cases thing with
    | entity entity =>
      exact ⟨⟨⟨rfl, rfl, rfl⟩, rfl⟩, .inr ⟨rfl, condemned entity (entity?_eq_some.mpr was)⟩, .refl _ _ _ _ _⟩
    | encoding number table => exact rfl
    | descriptor descriptor => exact rfl
  · exact ⟨_, was, .refl _⟩

theorem closed_marking (sound : world.Sound cascade owed) {other target : ThingId} {thing' : Thing}
    (found : (marking id world).thing? other = some thing') (among : target ∈ thing'.refs) :
    (marking id world).alive target = true := by
  rw [marking, alive_onThing]
  obtain ⟨thing, was, ⟨-, rfl⟩ | rfl⟩ := marking_cases found
  · exact sound.closed other thing was target (refs_marked thing ▸ among)
  · exact sound.closed other _ was target among

variable (sound : world.Sound cascade owed)
  (condemned : ∀ entity, world.entity? id = some entity → entity.key ∈ cascade.evictions)

include sound condemned

/-- The entity of a condemned key is marked. -/
theorem Sound.mark : (marking id world).Sound cascade owed :=
  sound.onHeap (fun _ due => due) (turns_marking condemned) (fun _ _ found _ => closed_marking sound found)
    fun other among => (alive_onThing world id other _).trans (sound.holding other among)

theorem Fresh.mark (fresh : world.Fresh trips unsignalled) : (marking id world).Fresh trips unsignalled := by
  have turns : Turns cascade.evictions owed world (marking id world).heap := turns_marking condemned
  exact fresh.onHeap sound turns fun _ _ found _ => closed_marking sound found

end mark

/-! ## Clearing -/

/-- Sound and fresh but for the keys that wait for their eviction; since an earlier state no
    memo was kept or became valid again, no row was written, and no key was claimed. -/
structure Clearing (unsignalled evictions : List EntityKey) (before world : World) : Prop where
  sound : world.Sound { evictions } []
  fresh : world.Fresh {} unsignalled
  entities : ∀ id later, world.entity? id = some later →
    ∃ entity, before.entity? id = some entity ∧ entity.Stays later
  gates : before.gates.Onward world.gates
  claims : ∀ kind, (world.caches.of kind).claims = (before.caches.of kind).claims
  store : world.provider.store = before.provider.store
  available : world.isOpen = before.isOpen

namespace Clearing

theorem reaped (clearing : Clearing unsignalled evictions before world) (reaped : Reaped world after) :
    Clearing unsignalled evictions before after where
  sound := clearing.sound.reaped reaped
  fresh := clearing.fresh.reaped clearing.sound reaped
  entities id later found := clearing.entities id later
    (entity?_eq_some.mpr (reaped.still id _ (entity?_eq_some.mp found)))
  gates := reaped.gates ▸ clearing.gates
  claims kind := by rw [reaped.caches kind, clearing.claims kind]
  store := reaped.provider.trans clearing.store
  available := reaped.isOpen.trans clearing.available

/-- Nothing has happened yet. -/
theorem start (sound : world.Sound { evictions } []) (fresh : world.Fresh {} unsignalled) :
    Clearing unsignalled evictions world world :=
  ⟨sound, fresh, fun _ entity found => ⟨entity, found, .refl entity⟩, .refl _, fun _ => rfl, rfl, rfl⟩

theorem trans {signalled others : List EntityKey} (first : Clearing signalled others before world)
    (second : Clearing unsignalled evictions world after) : Clearing unsignalled evictions before after where
  sound := second.sound
  fresh := second.fresh
  entities id entity found := by
    obtain ⟨mid, its, stays⟩ := second.entities id entity found
    obtain ⟨entity', was, stays'⟩ := first.entities id mid its
    exact ⟨entity', was, stays'.trans stays⟩
  gates := first.gates.trans second.gates
  claims kind := (second.claims kind).trans (first.claims kind)
  store := second.store.trans first.store
  available := second.available.trans first.available

theorem of_core (clearing : Clearing unsignalled evictions before world) (same : after.core = world.core) :
    Clearing unsignalled evictions before after := clearing.reaped (.of_core same)

/-- A live thing is held a while. -/
theorem hold (clearing : Clearing unsignalled evictions before world) (live : world.alive id = true) :
    Clearing unsignalled evictions before (World.hold id world) :=
  ⟨clearing.sound.hold live, clearing.fresh.holding _, clearing.entities, clearing.gates, clearing.claims,
    clearing.store, clearing.available⟩

theorem release (clearing : Clearing unsignalled evictions before world) (id : ThingId) :
    Clearing unsignalled evictions before (World.release id world) := by
  have unheld : Clearing unsignalled evictions before { world with held := world.held.erase id } :=
    ⟨clearing.sound.unhold fun _ among => List.mem_of_mem_erase among, clearing.fresh.holding _, clearing.entities,
      clearing.gates, clearing.claims, clearing.store, clearing.available⟩
  exact unheld.reaped (reap_reaped [id] _)

theorem marked (clearing : Clearing unsignalled evictions before world)
    (condemned : ∀ entity, world.entity? id = some entity → entity.key ∈ evictions) :
    Clearing unsignalled evictions before (marking id world) := by
  refine clearing.trans ⟨clearing.sound.mark condemned, clearing.fresh.mark clearing.sound condemned,
    fun other later found => ?_, .refl _, fun _ => rfl, rfl, rfl⟩
  obtain ⟨entity, was, stays, -⟩ := entity?_marking found
  exact ⟨entity, was, stays⟩

/-- The first key that waits leaves its cache, once its entity is marked. -/
theorem uncache (clearing : Clearing unsignalled (key :: evictions) before world) {cache : Cache EntityKey ThingId}
    (isClass : key.classOid = kind.oid) (table : cache.table = ((world.caches.of kind).erase key).table)
    (claims : cache.claims = (world.caches.of kind).claims)
    (marked : ∀ id entity, world.Cached id entity → entity.key = key → entity.table.evicted = true) :
    Clearing unsignalled evictions before
      { world with caches := world.caches.put kind cache, typmods := world.unindexed kind key } := by
  have sound := clearing.sound
  have gone := sound.uncache table isClass List.mem_cons_self marked
  have absent (id : ThingId) (entity : Entity)
      (cached : ({ world with caches := world.caches.put kind cache } : World).Cached id entity) : entity.key ≠ key :=
    ((cached_erased table sound isClass).mp cached).2
  have cleared : Clearing unsignalled evictions before { world with caches := world.caches.put kind cache } := by
    refine ⟨gone.forgo rfl (fun _ => List.mem_cons_of_mem _) fun id entity cached among =>
      (List.mem_cons.mp among).resolve_left (absent id entity cached),
      clearing.fresh.uncache table sound isClass, clearing.entities, clearing.gates, fun other => ?_, clearing.store,
      clearing.available⟩
    dsimp only
    rw [Caches.of_put]
    split
    · next same => rw [claims, ← same, clearing.claims]
    · exact clearing.claims other
  have typmods := unindexed_of_typmods world { world with caches := world.caches.put kind cache } rfl kind key
  rw [← typmods]
  unfold unindexed
  split
  · next isType =>
    have forgotten := cleared.sound.unindex (isType ▸ isClass) absent
    rw [unindexTypmod_eq] at forgotten
    exact ⟨forgotten, cleared.fresh.index _, cleared.entities, cleared.gates, cleared.claims, cleared.store,
      cleared.available⟩
  · exact cleared

end Clearing

theorem evict_run {found : Option ThingId} {notes : List (Note EntityKey)} {cache : Cache EntityKey ThingId}
    (run : (world.caches.of kind).evict world.alive key = (found, notes, cache)) :
    (entityView kind).evict key world = (found, (entityView kind).store notes cache
      (found.toList.foldl (fun state value => hold value state) world)) := by
  unfold CacheView.evict
  rw [show (entityView kind).get world = world.caches.of kind from rfl,
    show (entityView kind).alive world = world.alive from rfl, run]
  rfl

/-- The entity of the first key that waits is evicted. -/
theorem evict_clearing (clearing : Clearing unsignalled (key :: evictions) before world) :
    Clearing unsignalled evictions before (evict key world).2 := by
  have sound := clearing.sound
  unfold evict
  cases class' : EntityClass.ofOid? key.classOid with
  | none =>
    have unknown (id : ThingId) (entity : Entity) (cached : world.Cached id entity)
        (among : entity.key ∈ key :: evictions) : entity.key ∈ evictions := by
      refine (List.mem_cons.mp among).resolve_left fun isKey => ?_
      have isClass := (sound.shaped id entity cached.1).named.1
      rw [isKey] at isClass
      rw [isClass, entity.kind.ofOid?_oid] at class'
      cases class'
    exact { clearing with sound := sound.forgo rfl (fun _ => List.mem_cons_of_mem _) unknown }
  | some kind =>
    dsimp only
    have isClass := (EntityClass.oid_of_ofOid? class').symm
    obtain ⟨found, notes, cache, run, table, claims, live⟩ :=
      (world.caches.of kind).evict_cases world.alive key
    rw [unindexed_eq]
    have entry {other : ThingId} {later : Entity} (cached : world.Cached other later) (isKey : later.key = key) :
        (key, other) ∈ (world.caches.of kind).table := by
      have isKind : later.kind = kind := (sound.shaped other later cached.1).kind_eq (isKey ▸ isClass)
      have among := cached.2
      rwa [isKey, isKind] at among
    rw [@evict_run { world with typmods := world.unindexed kind key } kind key _ _ _ run]
    cases found with
    | none =>
      have cleared := clearing.uncache isClass table claims fun other later cached isKey => ?_
      · exact cleared.of_core rfl
      · -- the cache had no live entry under the key
        have dead := Cache.not_alive_of_evict (sound.unique kind) (congrArg Prod.fst run) (entry cached isKey)
        rw [alive_of_entity cached.1] at dead
        cases dead
    | some id =>
      obtain ⟨among, alive⟩ := live id rfl
      -- the entity is marked first: at no time is it neither cached nor marked
      have marked := @Clearing.marked _ _ _ _ id clearing fun entity found => by
        obtain ⟨entity', found', -, isKey⟩ := sound.entered kind key id among alive
        obtain rfl := Option.some.inj (found.symm.trans found')
        exact isKey ▸ List.mem_cons_self
      have cleared := marked.uncache isClass table claims fun other later cached isKey => ?_
      · rw [unindexed_of_typmods world (marking id world) rfl] at cleared
        have held := cleared.hold ((alive_onThing world id id _).trans alive)
        have stored : Clearing unsignalled evictions before (marking id ((entityView kind).store notes cache
            (hold id { world with typmods := world.unindexed kind key }))) := held.of_core rfl
        exact (stored.reaped (reap_reaped _ _)).release id
      · obtain ⟨before, was, stays, -, marks⟩ := entity?_marking cached.1
        have entry' := entry ⟨was, stays.kind ▸ stays.key ▸ cached.2⟩ (stays.key.symm.trans isKey)
        exact marks ((sound.unique kind).eq entry' among)

/-- The entities of the first keys that wait are evicted. -/
theorem evictFirst_clearing {keys : List EntityKey} (clearing : Clearing unsignalled (keys ++ evictions) before world) :
    Clearing unsignalled evictions before (evictAll keys world).2 := by
  -- each key is one less to wait for
  induction keys generalizing world with
  | nil => exact clearing
  | cons key keys inductionHypothesis => exact inductionHypothesis (evict_clearing clearing)

/-- The entities of all keys that wait are evicted. -/
theorem evictAll_clearing (clearing : Clearing unsignalled evictions before world) :
    Clearing unsignalled [] before (evictAll evictions world).2 :=
  evictFirst_clearing ((List.append_nil evictions).symm ▸ clearing)

end World

end CatalogReplica.Catalog
