import CatalogReplica.Proofs.Catalog.Bursts
import CatalogReplica.Proofs.Native.Recording

/-!
# Entries that leave, and those that are counted

A burst and an eviction count what lives when it leaves its cache.  Every entry that leaves is
counted but for those whose entity was gone by then: nobody held it any more, or it went with
another one that left before.

* `Caches.size`: how many entries there are.
* `World.Lapses`: keys whose entity is gone when their turn comes.
* `World.evictAll_size`, `World.evictDescriptors_count`: evictions count all the others.
* `World.dispatch_size`: so do bursts.
* `Operation.evictions_counted`: evictions and bursts, whatever was carried out before.
-/

namespace CatalogReplica.Catalog

open Identity (Cache CacheView)

namespace Caches

variable {caches : Caches} {key : EntityKey} {id : ThingId}

/-- How many entries the caches of entities and of native descriptors have, dead or alive. -/
def size (caches : Caches) : Nat := (EntityClass.all.map fun kind => (caches.of kind).length).sum + caches.descriptors.length

/-- The eviction of a key takes its entry away, if there is one, and no other. -/
theorem size_without (unique : ∀ kind, (caches.of kind).Unique) (key : EntityKey) :
    caches.size = (caches.without key).size + (caches.member? key).toList.length := by
  unfold size member?
  rw [descriptors_without]
  simp only [of_without]
  cases isClass : EntityClass.ofOid? key.classOid with
  | none => simp
  | some kind =>
    have one := Cache.length_dismiss (unique kind) key
    cases kind <;> simp [EntityClass.all] <;> omega

/-- What another cache of native descriptors comes to. -/
theorem size_descriptors (caches : Caches) (descriptors : Cache Address ThingId) :
    ({ caches with descriptors } : Caches).size + caches.descriptors.length = caches.size + descriptors.length := by
  have others : ∀ kind, ({ caches with descriptors } : Caches).of kind = caches.of kind := fun kind => by cases kind <;> rfl
  simp only [size, others]
  omega

/-- Evictions add no entries. -/
theorem member?_of_foldl (keys : List EntityKey) (found : (keys.foldl without caches).member? key = some id) :
    caches.member? key = some id := by
  induction keys generalizing caches with
  | nil => exact found
  | cons first keys ih =>
    have left := ih found
    rw [member?_without] at left
    split at left
    · cases left
    · exact left

end Caches

namespace World

variable {base world after : World} {unsignalled : List EntityKey} {signals : List Signal} {key : EntityKey} {id : ThingId}
  {marks : ThingId → Prop}

/-! ## Evictions -/

/-- An eviction tells whether the key had a live entity. -/
theorem evict_fst (tidy : Tidy [] world) (key : EntityKey) :
    (evict key world).1 = ((world.caches.member? key).filter world.alive).isSome := by
  unfold evict Caches.member?
  cases EntityClass.ofOid? key.classOid with
  | none => rfl
  | some kind =>
    obtain ⟨notes, run⟩ := (world.caches.of kind).evict_run (tidy.shelves (.entities kind)).soft key
    dsimp only
    rw [unindexed_eq, @evict_run { world with typmods := world.unindexed kind key } kind key _ _ _ run, Option.bind_some]
    cases ((world.caches.of kind).find? key).filter world.alive <;> rfl

theorem evict_iff (tidy : Tidy [] world) (key : EntityKey) :
    (evict key world).1 = true ↔ ∃ id, world.caches.member? key = some id ∧ world.alive id = true := by
  rw [evict_fst tidy]
  cases world.caches.member? key <;> simp

/-- An eviction takes the entry of the key away, whether its entity lives or not. -/
theorem evict_size (tidy : Tidy [] world) (key : EntityKey) :
    world.caches.size = (evict key world).2.caches.size + (world.caches.member? key).toList.length := by
  rw [(evict_culls tidy key).2]
  exact Caches.size_without (fun kind => (tidy.shelves (.entities kind)).unique) key

/-- The keys whose entity is gone when they are evicted, in order. -/
def lapsed : List EntityKey → World → List EntityKey
  | [], _ => []
  | key :: keys, world =>
      ((world.caches.member? key).filter (!world.alive ·)).toList.map (fun _ => key) ++ lapsed keys (evict key world).2

theorem evict_tidy (tidy : Tidy [] world) (key : EntityKey) : Tidy [] (evict key world).2 :=
  tidy.edits (Edits.refl.evict key : Edits [] world _ _)

/-- Every entry that leaves is counted, or its entity was gone. -/
theorem evictAll_size (tidy : Tidy [] world) (keys : List EntityKey) : world.caches.size
    = (evictAll keys world).2.caches.size + (evictAll keys world).1 + (lapsed keys world).length := by
  induction keys generalizing world with
  | nil => rfl
  | cons key keys ih =>
    have one := evict_size tidy key
    have rest := ih (evict_tidy tidy key)
    have counted : (world.caches.member? key).toList.length = (evict key world).1.toNat
        + ((world.caches.member? key).filter (!world.alive ·)).toList.length := by
      rw [evict_fst tidy]
      cases world.caches.member? key with
      | none => rfl
      | some id => cases live : world.alive id <;> simp [Option.filter, live]
    simp only [evictAll, lapsed, List.length_append, List.length_map]
    omega

/-- A key lapses when it has an entry still and the entity is gone that it stands for. -/
theorem mem_lapsed (tidy : Tidy [] world) {keys : List EntityKey} : key ∈ lapsed keys world ↔
    ∃ earlier later id, keys = earlier ++ key :: later ∧ (earlier.foldl Caches.without world.caches).member? key = some id ∧
      (evictAll earlier world).2.alive id = false := by
  induction keys generalizing world with
  | nil => simp [lapsed]
  | cons first keys ih =>
    rw [lapsed, List.mem_append, ih (evict_tidy tidy first), (evict_culls tidy first).2]
    constructor
    · rintro (now | ⟨earlier, later, id, rfl, found, gone⟩)
      · obtain ⟨id, its, rfl⟩ := List.mem_map.mp now
        obtain ⟨found, gone⟩ := Option.filter_eq_some_iff.mp (Option.mem_toList.mp its)
        exact ⟨[], keys, id, rfl, found, (Bool.not_eq_true' _).mp gone⟩
      · exact ⟨first :: earlier, later, id, rfl, found, gone⟩
    · rintro ⟨earlier, later, id, split, found, gone⟩
      cases earlier with
      | nil =>
        cases split
        refine .inl (List.mem_map.mpr ⟨id, Option.mem_toList.mpr (Option.filter_eq_some_iff.mpr ⟨found, ?_⟩), rfl⟩)
        rw [show world.alive id = false from gone]
        rfl
      | cons one earlier =>
        cases split
        exact .inr ⟨earlier, later, id, rfl, found, gone⟩

theorem nodup_lapsed (tidy : Tidy [] world) (keys : List EntityKey) : (lapsed keys world).Nodup := by
  induction keys generalizing world with
  | nil => exact List.nodup_nil
  | cons first keys ih =>
    refine List.nodup_append.mpr ⟨?_, ih (evict_tidy tidy first), ?_⟩
    · cases (world.caches.member? first).filter (!world.alive ·) <;> simp
    · -- a key that was evicted has no entry any more
      rintro one now _ later rfl
      obtain ⟨id, -, rfl⟩ := List.mem_map.mp now
      obtain ⟨earlier, _, id, -, found, -⟩ := (mem_lapsed (evict_tidy tidy first)).mp later
      have left := Caches.member?_of_foldl earlier found
      rw [(evict_culls tidy first).2, Caches.member?_without, if_pos rfl] at left
      cases left

/-- After evictions those live that keep one another alive. -/
theorem Culls.alive_iff (culls : Culls marks world after) (tidy : Tidy [] after) :
    after.alive id = true ↔ ∃ kept, world.SelfKept after.caches kept ∧ kept id := by
  constructor
  · intro live
    refine ⟨fun other => after.alive other = true, fun other lives => ⟨culls.still lives, ?_⟩, live⟩
    obtain isHeld | isCached | ⟨one, thing, found, refers⟩ := (tidy.wanted other lives).resolve_right List.not_mem_nil
    · exact .inl (culls.held ▸ isHeld)
    · exact .inr (.inl isCached)
    · obtain ⟨thing', was, same⟩ := culls.refs found
      exact .inr (.inr ⟨one, thing', World.alive_iff.mpr ⟨thing, found⟩, was, same ▸ refers⟩)
  · rintro ⟨kept, selfKept, isKept⟩
    exact culls.spares kept selfKept id isKept

/-- The key has an entry when its turn comes, and nothing keeps its entity alive any more. -/
def Lapses (world : World) (keys : List EntityKey) (key : EntityKey) : Prop :=
  ∃ earlier later id, keys = earlier ++ key :: later ∧ (earlier.foldl Caches.without world.caches).member? key = some id ∧
    ¬ ∃ kept, world.SelfKept (earlier.foldl Caches.without world.caches) kept ∧ kept id

theorem mem_lapsed_iff (tidy : Tidy [] world) {keys : List EntityKey} : key ∈ lapsed keys world ↔ world.Lapses keys key := by
  rw [mem_lapsed tidy]
  refine exists_congr fun earlier => exists_congr fun later => exists_congr fun id => and_congr_right fun _ =>
    and_congr_right fun _ => ?_
  obtain ⟨culls, caches⟩ := evictAll_culls tidy earlier
  have lives : (evictAll earlier world).2.alive id = true ↔ _ :=
    culls.alive_iff (tidy.edits (Edits.refl.evictAll earlier : Edits [] world _ _))
  rw [caches] at lives
  rw [← lives, Bool.not_eq_true]

/-! ## Native descriptors -/

/-- No two addresses have the same native descriptor, and none that is cached refers to other things. -/
structure Bare (world : World) : Prop where
  single : ∀ entry ∈ world.caches.descriptors.table, ∀ other ∈ world.caches.descriptors.table,
    entry.2 = other.2 → entry = other
  refs : ∀ entry ∈ world.caches.descriptors.table, ∀ thing, world.thing? entry.2 = some thing → thing.refs = []

theorem Recorded.bare (recorded : Recorded world) : Bare world where
  single := recorded.single
  refs entry among thing found := by
    obtain ⟨descriptor, its, -⟩ := recorded.shown entry.1 entry.2 among (World.alive_iff.mpr ⟨thing, found⟩)
    cases found.symm.trans (descriptor?_eq_some.mp its)
    rfl

theorem Bare.congr (bare : Bare world) (caches : after.caches = world.caches) (heap : after.heap = world.heap) : Bare after where
  single := by
    rw [caches]
    exact bare.single
  refs entry among thing found := by
    rw [thing?, heap] at found
    exact bare.refs entry (caches ▸ among) thing found

theorem Bare.culled (bare : Bare world) (culls : Culls marks world after)
    (fewer : ∀ entry ∈ after.caches.descriptors.table, entry ∈ world.caches.descriptors.table) : Bare after where
  single entry among other among' := bare.single entry (fewer entry among) other (fewer other among')
  refs entry among thing found := by
    obtain ⟨thing', was, same⟩ := culls.refs found
    exact same ▸ bare.refs entry (fewer entry among) thing' was

/-- Where a native descriptor is dismissed nothing else goes. -/
theorem Bare.spares {address : Address} {other : ThingId} (bare : Bare world) (tidy : Tidy [] world)
    (culls : Culls marks world after)
    (caches : after.caches = { world.caches with descriptors := world.caches.descriptors.dismiss address })
    (among : (address, id) ∈ world.caches.descriptors.table) (live : world.alive other = true) (differs : other ≠ id) :
    after.alive other = true := by
  have unique := (tidy.shelves .descriptors).unique
  refine culls.spares (fun one => world.alive one = true ∧ one ≠ id) (fun one isKept => ⟨isKept.1, ?_⟩) other ⟨live, differs⟩
  obtain isHeld | isCached | ⟨keeper, thing, found, refers⟩ := (tidy.wanted one isKept.1).resolve_right List.not_mem_nil
  · exact .inl isHeld
  · refine .inr (.inl ?_)
    rw [caches]
    unfold Caches.keeps at isCached ⊢
    simp only [Bool.or_eq_true] at isCached ⊢
    refine Or.imp_left (Or.imp_right fun kept => Cache.keeps_dismiss unique kept fun its => isKept.2 ?_) isCached
    exact Option.some.inj (its.symm.trans (Cache.find?_of_mem unique among))
  · refine .inr (.inr ⟨keeper, thing, ⟨World.alive_iff.mpr ⟨thing, found⟩, ?_⟩, found, refers⟩)
    rintro rfl
    rw [bare.refs _ among thing found] at refers
    cases refers

/-- Every native descriptor that is dismissed and lives is counted. -/
theorem evictDescriptors_count (tidy : Tidy [] world) (bare : Bare world) {addresses : List Address} (once : addresses.Nodup)
    (live : ∀ address ∈ addresses, ∃ id, (address, id) ∈ world.caches.descriptors.table ∧ world.alive id = true) :
    (evictDescriptors addresses world).1 = addresses.length ∧ world.caches.descriptors.length
      = (evictDescriptors addresses world).2.caches.descriptors.length + addresses.length := by
  -- On the addresses: each of them has a live descriptor of its own, so each eviction counts one.
  induction addresses generalizing world with
  | nil => exact ⟨rfl, rfl⟩
  | cons address addresses ih =>
    obtain ⟨id, among, lives⟩ := live address List.mem_cons_self
    have unique : world.caches.descriptors.Unique := (tidy.shelves .descriptors).unique
    have found : world.caches.descriptors.find? address = some id := Cache.find?_of_mem unique among
    have removed := Cache.length_dismiss unique address
    rw [found] at removed
    have counted : (descriptorView.evict address world).1 = some id := Cache.evict_of_live unique among lives
    obtain ⟨culls, caches⟩ := evictDescriptor_culls tidy address
    have fewer : ∀ entry, entry ∈ (world.caches.descriptors.dismiss address).table → entry ∈ world.caches.descriptors.table :=
      fun entry left => (Cache.mem_dismiss.mp left).1
    have rest := ih ((tidy.evict .descriptors address).releaseAll _) (bare.culled culls (caches ▸ fewer))
      (List.nodup_cons.mp once).2 fun other among' => ?_
    · rw [caches] at rest
      dsimp only at rest
      simp only [evictDescriptors, counted, Option.toList_some, List.length_cons, List.length_nil] at rest ⊢
      simp only [Option.toList_some, List.length_cons, List.length_nil] at removed
      omega
    · -- The descriptors that are still to come have other addresses, so they outlive this one.
      obtain ⟨one, its, lives'⟩ := live other (List.mem_cons_of_mem _ among')
      have differs : other ≠ address := by
        rintro rfl
        exact (List.nodup_cons.mp once).1 among'
      refine ⟨one, ?_, bare.spares tidy culls caches among lives' fun same => differs ?_⟩
      · rw [caches]
        exact Cache.mem_dismiss.mpr ⟨its, differs⟩
      · exact congrArg Prod.fst (bare.single _ its _ among same)

/-! ## Bursts -/

theorem refs_heard (news : List (Change × ThingId)) (id : ThingId) (ties : Ties) : (heard news id ties).refs = ties.refs := by
  unfold heard
  induction news generalizing ties with
  | nil => rfl
  | cons one news ih =>
    rw [List.foldl_cons, ih]
    split
    · cases ties <;> cases one.1 <;> rfl
    · rfl

/-- What keeps one another alive does so once a burst is collected, and before. -/
theorem selfKept_collected (sound : base.Sound {} []) (tidy : Tidy [] base) (signals : List Signal) (caches : Caches)
    (kept : ThingId → Prop) : (collected signals base).SelfKept caches kept ↔ base.SelfKept caches kept := by
  have hears := collectAll_hears sound tidy signals
  obtain ⟨heap, gates, tally, same⟩ := hears.same
  have held : (collected signals base).held = base.held := (congrArg World.held same :)
  have things (id : ThingId) : (collected signals base).thing? id
      = (base.thing? id).map (Thing.onTies (heard (signals.flatMap base.tells) id)) := hears.things id
  have alive (id : ThingId) : (collected signals base).alive id = base.alive id := by
    have there := things id
    unfold thing? at there
    rw [World.alive, World.alive, Numbered.has, Numbered.has, there, Option.isSome_map]
  have refs (other id : ThingId) : (∃ thing, (collected signals base).thing? other = some thing ∧ id ∈ thing.refs)
      ↔ ∃ thing, base.thing? other = some thing ∧ id ∈ thing.refs := by
    rw [things]
    cases base.thing? other with
    | none => rfl
    | some thing => simp [refs_onTies (refs_heard _ other)]
  unfold SelfKept
  simp only [held, alive, exists_and_left, refs]

theorem releasedAddresses_spec (tidy : Tidy [] world) : world.releasedAddresses.Nodup ∧
    ∀ address ∈ world.releasedAddresses, ∃ id, (address, id) ∈ world.caches.descriptors.table ∧ world.alive id = true := by
  constructor
  · have unique : world.caches.descriptors.Unique := (tidy.shelves .descriptors).unique
    exact List.Sublist.nodup ((List.filter_sublist.trans List.filter_sublist).map _) unique
  · intro address among
    obtain ⟨⟨_, id⟩, listed, rfl⟩ := List.mem_map.mp among
    obtain ⟨entry, lives⟩ := List.mem_filter.mp (List.mem_filter.mp listed).1
    exact ⟨id, entry, lives⟩

/-- What follows scopes that were torn down counts every descriptor that it dismisses. -/
theorem sweep_size (tidy : Tidy [] world) (bare : Bare world) (sound : world.gates.Sound {}) (entries : List (Address × Bool)) :
    ∃ addresses : List Address, (sweep entries world).2.caches
        = { world.caches with descriptors := addresses.foldl Cache.dismiss world.caches.descriptors } ∧
      world.caches.size = (sweep entries world).2.caches.size + dismissed entries world := by
  unfold sweep dismissed
  split
  · exact ⟨[], rfl, rfl⟩
  · have stale : Tidy [] (tripStale world).2 := tidy.batched (@Batched.refl [] world).tripStale
    obtain ⟨trips, gates, run, -⟩ := tripStale_took sound
    have caches : (tripStale world).2.caches = world.caches := by rw [run]
    have heap : (tripStale world).2.heap = world.heap := by rw [run]
    obtain ⟨once, live⟩ := releasedAddresses_spec stale
    obtain ⟨counted, left⟩ := evictDescriptors_count stale (bare.congr caches heap) once live
    have swept := (evictDescriptors_culls stale (tripStale world).2.releasedAddresses).2
    rw [caches] at swept left
    refine ⟨_, swept, ?_⟩
    have size := world.caches.size_descriptors
      ((tripStale world).2.releasedAddresses.foldl Cache.dismiss world.caches.descriptors)
    rw [← swept] at size
    rw [swept] at left
    dsimp only at left ⊢
    omega

/-- A burst counts every entry that leaves, but for those whose entity is gone by then. -/
theorem dispatch_size (stands : base.Stands unsignalled) (midway : Midway unsignalled base base) (lossless : base.Lossless)
    (recorded : Recorded base) (inSession : base.session.isSome = true) (signals : List Signal) :
    ∃ (keys : List EntityKey) (addresses : List Address) (lapsed : List EntityKey) (dispatched : Dispatched) (last : World),
      dispatch signals base = .ok dispatched last ∧
      (∀ key, key ∈ keys ↔ base.Taken (signals.flatMap base.tells) key) ∧
      last.caches = { keys.foldl Caches.without base.caches with
        descriptors := addresses.foldl Cache.dismiss base.caches.descriptors } ∧
      lapsed.Nodup ∧ (∀ key, key ∈ lapsed ↔ base.Lapses keys key) ∧
      base.caches.size = last.caches.size + dispatched.evicted + lapsed.length := by
  obtain ⟨session, its⟩ := Option.isSome_iff_exists.mp inSession
  obtain ⟨torn, drained, ended, waited, tally, run, course⟩ := dispatch_course stands midway lossless its signals
  obtain ⟨ledger, provider, isDrained⟩ := course.same
  obtain ⟨ledger', provider', isTorn⟩ := course.tears.same
  -- The batch evicts the collected keys, then the sweep takes descriptors; the two sizes are added at the end.
  have hears := collectAll_hears stands.sound midway.tidy signals
  have tidy : Tidy [] (collected signals base) := midway.tidy.batched (collected_batched signals base)
  have caches : (collected signals base).caches = base.caches := by
    obtain ⟨heap, gates, tally, same⟩ := hears.same
    exact (congrArg World.caches same :)
  have shed := (evictAll_culls tidy (collectAll signals base).1.evictions).2
  have sized := evictAll_size tidy (collectAll signals base).1.evictions
  rw [caches] at shed sized
  have bare : Bare torn :=
    (recorded.continues (shed_batched signals base).continues).bare.congr (by rw [isTorn]) (by rw [isTorn])
  have torn' : torn.caches = _ := (show torn.caches = (World.shed signals base).caches by rw [isTorn]).trans shed
  obtain ⟨addresses, swept, left⟩ := sweep_size course.midway.tidy bare course.midway.clearing.sound.gates
    (signals.filterMap Signal.scope?)
  have last : drained.caches = (sweep (signals.filterMap Signal.scope?) torn).2.caches := by rw [isDrained]
  refine ⟨_, addresses, lapsed (collectAll signals base).1.evictions (collected signals base), _, _, run, hears.evictions, ?_,
    nodup_lapsed tidy _, fun key => ?_, ?_⟩
  · change drained.caches = _
    rw [last, swept, torn', (Caches.foldl_without _ _).1]
  · rw [mem_lapsed_iff tidy, Lapses, Lapses, caches]
    simp only [selfKept_collected stands.sound midway.tidy]
  · change base.caches.size = drained.caches.size + (_ + _) + _
    rw [last]
    rw [torn', ← shed] at left
    omega

end World

namespace Operation

variable {config : Config} {operations : List Operation}

/-- Whatever was carried out before: an eviction takes the entry of its key away, and says whether the
    entity lived.  A burst takes the keys away of what was deleted and some native descriptors, and
    counts all of them but the keys that lapse: those that had an entry when their turn came, but
    no entity that anything kept alive. -/
theorem evictions_counted (config : Config) (operations : List Operation)
    (allowed : AllowedAll operations (World.start config)) (proper : ∀ operation ∈ operations, operation.Proper)
    (inSession : (after operations (World.start config)).session.isSome = true) :
    let world := after operations (World.start config)
    (∀ key, ((World.evict key world).1 = true ↔ ∃ id, world.caches.member? key = some id ∧ world.alive id = true) ∧
      world.caches.size = (World.evict key world).2.caches.size + (world.caches.member? key).toList.length) ∧
    ∀ signals, ∃ (keys : List EntityKey) (addresses : List Address) (lapsed : List EntityKey) (dispatched : Dispatched) (last : World),
      World.dispatch signals world = .ok dispatched last ∧
      (∀ key, key ∈ keys ↔ world.Taken (signals.flatMap world.tells) key) ∧
      last.caches = { keys.foldl Caches.without world.caches with
        descriptors := addresses.foldl Cache.dismiss world.caches.descriptors } ∧
      lapsed.Nodup ∧ (∀ key, key ∈ lapsed ↔ world.Lapses keys key) ∧
      world.caches.size = last.caches.size + dispatched.evicted + lapsed.length := by
  intro world
  have opened : world.isOpen = true := by
    rw [World.isOpen, inSession, Bool.or_true]
  have rests := after_rests allowed proper (World.rests_start config) opened
  have midway := after_midway allowed rests inSession
  have recorded := (after_retains (World.start_recorded config) operations).recorded
  exact ⟨fun key => ⟨World.evict_iff midway.tidy key, World.evict_size midway.tidy key⟩,
    World.dispatch_size rests.stands midway (after_lossless allowed opened) recorded inSession⟩

/-- A relation that is deleted, its attribute and the descriptor of a scope that is reset leave their
    caches, and all three are counted. -/
theorem evictions_counted_scopeRead : AllowedAll scopeRead (World.start {}) ∧
    ∃ (lapsed : List EntityKey) (dispatched : Dispatched) (last : World),
      World.dispatch scopeGone (after scopeRead (World.start {})) = .ok dispatched last ∧
      (after scopeRead (World.start {})).caches.size = 5 ∧ last.caches.size = 2 ∧ dispatched.evicted = 3 ∧ lapsed = [] ∧
      ∃ keys, ∀ key, key ∈ lapsed ↔ (after scopeRead (World.start {})).Lapses keys key := by
  have allowed : AllowedAll scopeRead (World.start {}) := by decide +kernel
  have inSession : (after scopeRead (World.start {})).session.isSome = true := by decide +kernel
  have size : (after scopeRead (World.start {})).caches.size = 5 := by decide +kernel
  have counts : (match World.dispatch scopeGone (after scopeRead (World.start {})) with
    | .ok dispatched last => decide (last.caches.size = 2 ∧ dispatched.evicted = 3)
    | .error .. => false) = true := by decide +kernel
  have proper : ∀ operation ∈ scopeRead, operation.Proper := by simp [scopeRead, columnFound, Proper]
  -- the run is not to be carried out again
  generalize scopeRead = operations at *
  obtain ⟨keys, -, lapsed, dispatched, last, run, -, -, -, lapses, counted⟩ :=
    (evictions_counted {} operations allowed proper inSession).2 scopeGone
  rw [run] at counts
  obtain ⟨left, evicted⟩ := of_decide_eq_true counts
  have none : lapsed.length = 0 := by
    rw [size, left, evicted] at counted
    omega
  exact ⟨allowed, lapsed, dispatched, last, run, size, left, evicted, List.length_eq_zero_iff.mp none, keys, lapses⟩

/-- The attribute is let go, and its entry stays. -/
def attributeDropped : List Operation := columnFound ++ [.drop 2]

/-- The entry of an attribute that is gone leaves its cache uncounted, when its relation is deleted and
    when it is evicted by its key. -/
theorem eviction_uncounted : AllowedAll attributeDropped (World.start {}) ∧
    (∃ dispatched last, World.dispatch [.row EntityClass.relation.oid ⟨16384⟩ .deleted] (after attributeDropped (World.start {}))
        = .ok dispatched last ∧
      (after attributeDropped (World.start {})).caches.size = 3 ∧ last.caches.size = 1 ∧ dispatched.evicted = 1) ∧
    (World.evict (attributeKey ⟨16384⟩ 1) (after attributeDropped (World.start {}))).1 = false ∧
    (World.evict (attributeKey ⟨16384⟩ 1) (after attributeDropped (World.start {}))).2.caches.size = 2 := by
  have counts : (match World.dispatch [.row EntityClass.relation.oid ⟨16384⟩ .deleted] (after attributeDropped (World.start {})) with
    | .ok dispatched last => decide (last.caches.size = 1 ∧ dispatched.evicted = 1)
    | .error .. => false) = true := by decide +kernel
  refine ⟨by decide +kernel, ?_, by decide +kernel, by decide +kernel⟩
  have size : (after attributeDropped (World.start {})).caches.size = 3 := by decide +kernel
  generalize after attributeDropped (World.start {}) = world at counts size
  cases run : World.dispatch [.row EntityClass.relation.oid ⟨16384⟩ .deleted] world with
  | ok dispatched last =>
    rw [run] at counts
    exact ⟨dispatched, last, rfl, size, of_decide_eq_true counts⟩
  | error interrupt last =>
    rw [run] at counts
    cases counts

end Operation

end CatalogReplica.Catalog
