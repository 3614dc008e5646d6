import CatalogReplica.Proofs.Catalog.Reaping

/-!
# Small changes of a catalog

What a lookup or a read of a field does to a catalog is made of a few small changes, and
each of them keeps the catalog sound.

* `Sound.trim`, `Sound.enter`: dead entries leave identity caches, a new entity enters.
* `Sound.add`: a new thing.
* `Sound.grow`: new gates.
* `Sound.index`: types become known by further type modifiers.
-/

namespace CatalogReplica.Catalog

open Coherence (Batch Gates GateId)
open Identity (Cache)

@[simp] theorem Caches.of_put (caches : Caches) (kind other : EntityClass)
    (cache : Cache EntityKey ThingId) :
    (caches.put kind cache).of other = if other = kind then cache else caches.of other := by
  cases kind <;> cases other <;> rfl

namespace World

variable {world : World} {cascade : Cascade} {owed : List (EntityClass × Oid)} {trips : Batch}
  {unsignalled : List EntityKey} {id : ThingId} {entity : Entity}

/-! ## Holding -/

theorem foldl_hold (ids : List ThingId) (world : World) :
    ids.foldl (fun world id => World.hold id world) world = { world with held := ids.reverse ++ world.held } := by
  induction ids generalizing world with
  | nil => rfl
  | cons id ids inductionHypothesis =>
    rw [List.foldl_cons, inductionHypothesis, List.reverse_cons, List.append_assoc]
    rfl

theorem Sound.hold (sound : world.Sound cascade owed) (live : world.alive id = true) :
    (hold id world).Sound cascade owed :=
  ⟨sound.below, sound.unique, sound.handedOut, sound.entered, sound.closed,
    fun other among => by
      cases List.mem_cons.mp among with
      | inl same => exact same ▸ live
      | inr before => exact sound.holding other before,
    sound.gates, sound.shaped, sound.tied, sound.attributes, sound.typmods, sound.links,
    sound.columns, sound.targets, sound.unmarked, sound.indexed⟩

/-- What is held has nothing to do with what is fresh. -/
theorem Fresh.holding (fresh : world.Fresh trips unsignalled) (held : List ThingId) :
    ({ world with held } : World).Fresh trips unsignalled :=
  fun id entity field datum cached kind trusts => fresh id entity field datum cached kind trusts

/-! ## Entries that go -/

section trim

variable {caches : Caches}

/-- Dead entries left the identity caches. -/
def Trims (world : World) (caches : Caches) : Prop :=
  ∀ kind, Cache.Trimmed world.alive (world.caches.of kind) (caches.of kind)

theorem Trims.cached (trims : world.Trims caches)
    (cached : ({ world with caches } : World).Cached id entity) : world.Cached id entity :=
  ⟨cached.1, (trims entity.kind).mem cached.2⟩

theorem Trims.still (trims : world.Trims caches) (cached : world.Cached id entity) :
    ({ world with caches } : World).Cached id entity :=
  ⟨cached.1, (trims entity.kind).live _ cached.2 (alive_of_entity cached.1)⟩

theorem Sound.trim (sound : world.Sound cascade owed) (trims : world.Trims caches) :
    ({ world with caches } : World).Sound cascade owed where
  below := sound.below
  unique kind := (trims kind).unique (sound.unique kind)
  handedOut kind entry among := sound.handedOut kind entry ((trims kind).mem among)
  entered kind key id among := sound.entered kind key id ((trims kind).mem among)
  closed := sound.closed
  holding := sound.holding
  gates := sound.gates
  shaped := sound.shaped
  tied := sound.tied
  attributes id entity cached isAttr := by
    cases sound.attributes id entity (trims.cached cached) isAttr with
    | inl evicted => exact .inl evicted
    | inr tied =>
      obtain ⟨owner, relation, attnum, ties, its, rest⟩ := tied
      exact .inr ⟨owner, relation, attnum, ties, trims.still its, rest⟩
  typmods id entity cached := sound.typmods id entity (trims.cached cached)
  links id entity link target cached tracked kind trusts := by
    obtain ⟨found, its, rest⟩ :=
      sound.links id entity link target (trims.cached cached) tracked kind trusts
    exact ⟨found, trims.still its, rest⟩
  columns := sound.columns
  targets id entity field kind memo target found isKind leadsTo kept value := by
    obtain ⟨other, its, isTarget, place⟩ :=
      sound.targets id entity field kind memo target found isKind leadsTo kept value
    exact ⟨other, its, isTarget, place.imp_left trims.still⟩
  unmarked id entity cached := sound.unmarked id entity (trims.cached cached)
  indexed := sound.indexed

theorem Fresh.trim (fresh : world.Fresh trips unsignalled) (trims : world.Trims caches) :
    ({ world with caches } : World).Fresh trips unsignalled :=
  fun id entity field datum cached kind trusts =>
    fresh id entity field datum (trims.cached cached) kind trusts

end trim

/-! ## An entity that enters its cache -/

section enter

variable {kind : EntityClass} {key : EntityKey} {cache : Cache EntityKey ThingId}

/-- The entity is new and can take the place of its key. -/
structure Enters (world : World) (cascade : Cascade) (id : ThingId) (entity : Entity) : Prop where
  found : world.entity? id = some entity
  known : id < world.nextThing
  blank : ∀ index, entity.table.memo? index = none
  unmarked : entity.table.evicted = false
  free : ∀ other, (entity.key, other) ∈ (world.caches.of entity.kind).table → world.alive other = false
  owner : entity.kind = .attr → ∃ owner relation attnum, entity.ties = .attr owner ∧
    world.Cached owner relation ∧ relation.key ∉ cascade.evictions ∧
    attnum ∈ relation.ties.attributes ∧ entity.key = attributeKey relation.key.object attnum
  typmod : entity.kind = .type → entity.key.sub = noTypmod ∨
    entity.key.sub ∈ (world.typmods.get? entity.key.object).getD []

variable (settled : Cache.Settled world.alive entity.key id (world.caches.of entity.kind) cache)

include settled

theorem Enters.cached (enters : world.Enters cascade id entity) {other : ThingId} {later : Entity}
    (cached : ({ world with caches := world.caches.put entity.kind cache } : World).Cached other later) :
    (other = id ∧ later = entity) ∨ world.Cached other later := by
  obtain ⟨found, entry⟩ := cached
  rw [Caches.of_put] at entry
  split at entry
  · next same =>
    cases settled.entries _ entry with
    | inl new =>
      obtain ⟨-, rfl⟩ := Prod.mk.inj new
      exact .inl ⟨rfl, Option.some.inj (found.symm.trans enters.found)⟩
    | inr old => exact .inr ⟨found, same ▸ old.1⟩
  · exact .inr ⟨found, entry⟩

theorem Enters.still (enters : world.Enters cascade id entity) {other : ThingId} {later : Entity}
    (cached : world.Cached other later) :
    ({ world with caches := world.caches.put entity.kind cache } : World).Cached other later := by
  obtain ⟨found, entry⟩ := cached
  refine ⟨found, ?_⟩
  rw [Caches.of_put]
  split
  · next same =>
    rw [same] at entry
    -- only an entry of the same key is replaced, and those are dead
    refine settled.live _ entry (fun isKey => ?_) (alive_of_entity found)
    have dead := enters.free other (isKey ▸ entry)
    rw [alive_of_entity found] at dead
    cases dead
  · exact entry

theorem Sound.enter (sound : world.Sound cascade owed) (enters : world.Enters cascade id entity) :
    ({ world with caches := world.caches.put entity.kind cache } : World).Sound cascade owed where
  below := sound.below
  unique kind := by
    rw [Caches.of_put]
    split
    · exact settled.unique (sound.unique entity.kind)
    · exact sound.unique kind
  handedOut kind entry among := by
    rw [Caches.of_put] at among
    split at among
    · cases settled.entries entry among with
      | inl new => exact new ▸ enters.known
      | inr old => exact sound.handedOut _ entry old.1
    · exact sound.handedOut kind entry among
  entered kind key other entry live := by
    rw [Caches.of_put] at entry
    split at entry
    · next same =>
      cases settled.entries _ entry with
      | inl new =>
        obtain ⟨isKey, isId⟩ := Prod.mk.inj new
        exact ⟨entity, isId ▸ enters.found, same.symm, isKey.symm⟩
      | inr old => exact sound.entered kind key other (same ▸ old.1) live
    · exact sound.entered kind key other entry live
  closed := sound.closed
  holding := sound.holding
  gates := sound.gates
  shaped := sound.shaped
  tied := sound.tied
  attributes other later cached isAttr := by
    cases enters.cached settled cached with
    | inl new =>
      obtain ⟨rfl, rfl⟩ := new
      obtain ⟨owner, relation, attnum, ties, its, rest⟩ := enters.owner isAttr
      exact .inr ⟨owner, relation, attnum, ties, enters.still settled its, rest⟩
    | inr old =>
      cases sound.attributes other later old isAttr with
      | inl evicted => exact .inl evicted
      | inr tied =>
        obtain ⟨owner, relation, attnum, ties, its, rest⟩ := tied
        exact .inr ⟨owner, relation, attnum, ties, enters.still settled its, rest⟩
  typmods other later cached isType := by
    cases enters.cached settled cached with
    | inl new =>
      obtain ⟨rfl, rfl⟩ := new
      exact enters.typmod isType
    | inr old => exact sound.typmods other later old isType
  links other later link target cached tracked kind trusts := by
    cases enters.cached settled cached with
    | inl new =>
      obtain ⟨rfl, rfl⟩ := new
      -- an entity that enters has resolved nothing yet
      obtain ⟨memo, kept, -⟩ := trusts
      rw [enters.blank] at kept
      cases kept
    | inr old =>
      obtain ⟨found, its, rest⟩ := sound.links other later link target old tracked kind trusts
      exact ⟨found, enters.still settled its, rest⟩
  columns := sound.columns
  targets other later field kind memo target found isKind leadsTo kept value := by
    obtain ⟨target', its, isTarget, place⟩ :=
      sound.targets other later field kind memo target found isKind leadsTo kept value
    exact ⟨target', its, isTarget, place.imp_left (enters.still settled)⟩
  unmarked other later cached := by
    cases enters.cached settled cached with
    | inl new =>
      obtain ⟨rfl, rfl⟩ := new
      exact fun _ => enters.unmarked
    | inr old => exact sound.unmarked other later old
  indexed := sound.indexed

theorem Fresh.enter (fresh : world.Fresh trips unsignalled) (enters : world.Enters cascade id entity) :
    ({ world with caches := world.caches.put entity.kind cache } : World).Fresh trips unsignalled := by
  intro other later field datum cached kind trusts
  cases enters.cached settled cached with
  | inl new =>
    obtain ⟨rfl, rfl⟩ := new
    obtain ⟨memo, kept, -⟩ := trusts
    rw [enters.blank] at kept
    cases kept
  | inr old => exact fresh other later field datum old kind trusts

end enter

/-! ## A new thing -/

section add

variable {thing : Thing}

/-- The thing refers to live things and, if it is an entity, keeps nothing yet. -/
structure Fits (world : World) (cascade : Cascade) (thing : Thing) : Prop where
  refs : ∀ other ∈ thing.refs, world.alive other = true
  shaped : ∀ entity, thing = .entity entity → entity.Shaped cascade.trips world.gates
  blank : ∀ entity, thing = .entity entity → ∀ index, entity.table.memo? index = none
  owner : ∀ entity owner, thing = .entity entity → entity.ties = .attr owner →
    ∃ relation, world.entity? owner = some relation ∧ relation.kind = .relation ∧
      relation.key.object = entity.key.object ∧ relation.gate = entity.gate

/-- The state with the thing, which no one holds yet. -/
def withThing (world : World) (thing : Thing) : World :=
  { world with heap := world.heap.add world.nextThing thing, nextThing := world.nextThing + 1 }

theorem thing?_withThing (sound : world.Sound cascade owed) (id : ThingId) :
    (world.withThing thing).thing? id = if id = world.nextThing then some thing else world.thing? id := by
  have added := Numbered.get?_add world.heap world.nextThing id thing
  rw [show (world.withThing thing).thing? id = (world.heap.add world.nextThing thing).get? id from rfl, added]
  split
  · next same =>
    subst same
    cases found : world.heap.get? world.nextThing with
    | none => rfl
    | some other =>
      exact absurd (sound.below _ (alive_iff.mpr ⟨other, found⟩)) (Nat.lt_irrefl _)
  · rw [Option.or_none]
    rfl

theorem entity?_withThing (sound : world.Sound cascade owed)
    (found : (world.withThing thing).entity? id = some entity) :
    (id = world.nextThing ∧ thing = .entity entity) ∨ world.entity? id = some entity := by
  rw [entity?_eq_some, thing?_withThing sound] at found
  split at found
  · next same => exact .inl ⟨same, Option.some.inj found⟩
  · exact .inr (entity?_eq_some.mpr found)

theorem alive_withThing (sound : world.Sound cascade owed) (live : world.alive id = true) :
    (world.withThing thing).alive id = true := by
  obtain ⟨other, found⟩ := alive_iff.mp live
  refine alive_iff.mpr ⟨other, ?_⟩
  rw [thing?_withThing sound, if_neg (Nat.ne_of_lt (sound.below id live)), found]

theorem entity?_withThing_of (sound : world.Sound cascade owed) (found : world.entity? id = some entity) :
    (world.withThing thing).entity? id = some entity := by
  have known := sound.below id (alive_of_entity found)
  rw [entity?_eq_some] at found ⊢
  rw [thing?_withThing sound, if_neg (Nat.ne_of_lt known), found]

theorem cached_withThing (sound : world.Sound cascade owed)
    (cached : (world.withThing thing).Cached id entity) : world.Cached id entity := by
  obtain ⟨found, entry⟩ := cached
  cases entity?_withThing sound found with
  | inl new => exact absurd (new.1 ▸ sound.handedOut _ _ entry) (Nat.lt_irrefl _)
  | inr old => exact ⟨old, entry⟩

theorem Sound.add (sound : world.Sound cascade owed) (fits : world.Fits cascade thing) :
    (world.withThing thing).Sound cascade owed where
  below id live := by
    obtain ⟨other, found⟩ := alive_iff.mp live
    rw [thing?_withThing sound] at found
    split at found
    · next same => exact same ▸ Nat.lt_succ_self _
    · exact Nat.lt_succ_of_lt (sound.below id (alive_iff.mpr ⟨other, found⟩))
  unique := sound.unique
  handedOut kind entry among := Nat.lt_succ_of_lt (sound.handedOut kind entry among)
  entered kind key id entry live := by
    have known := sound.handedOut kind _ entry
    obtain ⟨other, found⟩ := alive_iff.mp live
    rw [thing?_withThing sound, if_neg (Nat.ne_of_lt known)] at found
    obtain ⟨entity, its, rest⟩ := sound.entered kind key id entry (alive_iff.mpr ⟨other, found⟩)
    exact ⟨entity, entity?_withThing_of sound its, rest⟩
  closed id other found target among := by
    rw [thing?_withThing sound] at found
    refine alive_withThing sound ?_
    split at found
    · cases found
      exact fits.refs target among
    · exact sound.closed id other found target among
  holding id among := alive_withThing sound (sound.holding id among)
  gates := sound.gates
  shaped id entity found := by
    cases entity?_withThing sound found with
    | inl new => exact fits.shaped entity new.2
    | inr old => exact sound.shaped id entity old
  tied id entity owner found ties := by
    have its : ∃ relation, world.entity? owner = some relation ∧ relation.kind = .relation ∧
        relation.key.object = entity.key.object ∧ relation.gate = entity.gate := by
      cases entity?_withThing sound found with
      | inl new => exact fits.owner entity owner new.2 ties
      | inr old => exact sound.tied id entity owner old ties
    obtain ⟨relation, its, rest⟩ := its
    exact ⟨relation, entity?_withThing_of sound its, rest⟩
  attributes id entity cached isAttr := by
    cases sound.attributes id entity (cached_withThing sound cached) isAttr with
    | inl evicted => exact .inl evicted
    | inr tied =>
      obtain ⟨owner, relation, attnum, ties, its, rest⟩ := tied
      exact .inr ⟨owner, relation, attnum, ties, ⟨entity?_withThing_of sound its.1, its.2⟩, rest⟩
  typmods id entity cached := sound.typmods id entity (cached_withThing sound cached)
  links id entity link target cached tracked kind trusts := by
    obtain ⟨found, its, rest⟩ :=
      sound.links id entity link target (cached_withThing sound cached) tracked kind trusts
    exact ⟨found, ⟨entity?_withThing_of sound its.1, its.2⟩, rest⟩
  columns id entity datum found isType plain trusts := by
    cases entity?_withThing sound found with
    | inl new =>
      -- a new entity keeps nothing
      obtain ⟨memo, kept, -⟩ := trusts
      rw [fits.blank entity new.2] at kept
      cases kept
    | inr old => exact sound.columns id entity datum old isType plain trusts
  targets id entity field kind memo target found isKind leadsTo kept value := by
    cases entity?_withThing sound found with
    | inl new =>
      rw [fits.blank entity new.2] at kept
      cases kept
    | inr old =>
      obtain ⟨other, its, isTarget, place⟩ :=
        sound.targets id entity field kind memo target old isKind leadsTo kept value
      exact ⟨other, entity?_withThing_of sound its, isTarget,
        place.imp_left fun cached => ⟨entity?_withThing_of sound cached.1, cached.2⟩⟩
  unmarked id entity cached := sound.unmarked id entity (cached_withThing sound cached)
  indexed := sound.indexed

theorem carries_withThing (sound : world.Sound cascade owed) : world.Carries (world.withThing thing) := by
  intro id other found known
  rw [thing?_withThing sound, if_neg (Nat.ne_of_lt known)] at found
  exact ⟨other, found, .refl other⟩

theorem Fresh.add (fresh : world.Fresh trips unsignalled) (sound : world.Sound cascade owed)
    (fits : world.Fits cascade thing) : (world.withThing thing).Fresh trips unsignalled :=
  fresh.carry sound (sound.add fits).closed (carries_withThing sound) (fun _ => id) (.of_store rfl)
    fun _ entity _ _ cached trusts => ⟨entity, cached_withThing sound cached, .refl entity, trusts⟩

end add

/-! ## Gates and type modifiers -/

/-- New gates and cells change nothing for those who are governed by others. -/
theorem trusts_grows {gates after : Gates} (shaped : entity.Shaped trips gates)
    (grows : gates.Grows after) {index : Nat} {datum : Datum} :
    entity.Trusts trips after index datum ↔ entity.Trusts trips gates index datum := by
  constructor
  · rintro ⟨memo, kept, value, trusted⟩
    exact ⟨memo, kept, value, trusted.grows (shaped.governed index memo kept) grows⟩
  · rintro ⟨memo, kept, value, trusted⟩
    exact ⟨memo, kept, value, trusted.to_grows (shaped.governed index memo kept) grows⟩

theorem shaped_grows {gates after : Gates} (shaped : entity.Shaped trips gates)
    (grows : gates.Grows after) : entity.Shaped trips after where
  gated := shaped.gated
  known := Nat.lt_of_lt_of_le shaped.known grows.gates
  slots := shaped.slots
  named := shaped.named
  tied := shaped.tied
  governed index memo kept := (shaped.governed index memo kept).grows grows

theorem Sound.grow (sound : world.Sound cascade owed) {gates : Gates} (grows : world.gates.Grows gates)
    (fine : gates.Sound cascade.trips) : ({ world with gates } : World).Sound cascade owed where
  below := sound.below
  unique := sound.unique
  handedOut := sound.handedOut
  entered := sound.entered
  closed := sound.closed
  holding := sound.holding
  gates := fine
  shaped id entity found := shaped_grows (sound.shaped id entity found) grows
  tied := sound.tied
  attributes := sound.attributes
  typmods := sound.typmods
  links id entity link target cached tracked kind trusts :=
    sound.links id entity link target cached tracked kind
      ((trusts_grows (sound.shaped id entity cached.1) grows).mp trusts)
  columns id entity datum found isType plain trusts := by
    have shaped := sound.shaped id entity found
    obtain ⟨target, also⟩ :=
      sound.columns id entity datum found isType plain ((trusts_grows shaped grows).mp trusts)
    exact ⟨target, (trusts_grows shaped grows).mpr also⟩
  targets := sound.targets
  unmarked := sound.unmarked
  indexed := sound.indexed

theorem Fresh.grow (fresh : world.Fresh trips unsignalled)
    (shaped : ∀ id entity, world.entity? id = some entity → entity.Shaped trips world.gates)
    {gates : Gates} (grows : world.gates.Grows gates) :
    ({ world with gates } : World).Fresh trips unsignalled :=
  fun id entity field datum cached kind trusts =>
    fresh id entity field datum cached kind ((trusts_grows (shaped id entity cached.1) grows).mp trusts)

theorem Sound.index (sound : world.Sound cascade owed) {typmods : Assoc Oid (List Int32)}
    (more : ∀ oid, ∀ typmod ∈ (world.typmods.get? oid).getD [], typmod ∈ (typmods.get? oid).getD [])
    (indexed : Indexed typmods) :
    ({ world with typmods } : World).Sound cascade owed :=
  ⟨sound.below, sound.unique, sound.handedOut, sound.entered, sound.closed, sound.holding,
    sound.gates, sound.shaped, sound.tied, sound.attributes,
    fun id entity cached isType => (sound.typmods id entity cached isType).imp_right (more _ _),
    sound.links, sound.columns, sound.targets, sound.unmarked, indexed⟩

theorem Fresh.index (fresh : world.Fresh trips unsignalled) (typmods : Assoc Oid (List Int32)) :
    ({ world with typmods } : World).Fresh trips unsignalled :=
  fun id entity field datum cached kind trusts => fresh id entity field datum cached kind trusts

/-! ## Changing a thing -/

theorem thing?_onThing (world : World) (id other : ThingId) (f : Thing → Thing) :
    (onThing id f world).thing? other
      = if other = id then (world.thing? other).map f else world.thing? other :=
  Numbered.get?_update world.heap id other f

theorem alive_onThing (world : World) (id other : ThingId) (f : Thing → Thing) :
    (onThing id f world).alive other = world.alive other := by
  have found := thing?_onThing world id other f
  unfold thing? at found
  rw [alive, alive, Numbered.has, Numbered.has, found]
  split
  · rw [Option.isSome_map]
  · rfl

/-! ## Ties that change -/

section ties

variable {owed' : List (EntityClass × Oid)} {f : Ties → Ties}

theorem refs_onTies (refs : ∀ ties, (f ties).refs = ties.refs) (thing : Thing) :
    (thing.onTies f).refs = thing.refs := by
  cases thing with
  | entity entity => simp only [Thing.onTies, Thing.refs, refs]
  | encoding number table => rfl
  | descriptor descriptor => rfl

theorem onTies_cases {other : ThingId} {thing' : Thing}
    (found : (onThing id (Thing.onTies f) world).thing? other = some thing') :
    ∃ thing, world.thing? other = some thing ∧
      ((other = id ∧ thing' = thing.onTies f) ∨ thing' = thing) := by
  rw [thing?_onThing] at found
  split at found
  · next same =>
    obtain ⟨thing, was, rfl⟩ := Option.map_eq_some_iff.mp found
    exact ⟨thing, was, .inl ⟨same, rfl⟩⟩
  · exact ⟨thing', found, .inr rfl⟩

theorem turns_onTies (turns : ∀ entity, world.entity? id = some entity →
      entity.ties.Turns entity.kind entity.key.object cascade.evictions owed' (f entity.ties)) :
    Turns cascade.evictions owed' world (world.heap.update id (Thing.onTies f)) := by
  intro other thing' found
  obtain ⟨thing, was, ⟨rfl, rfl⟩ | rfl⟩ := onTies_cases found
  · refine ⟨thing, was, ?_⟩
    cases thing with
    | entity entity => exact ⟨⟨⟨rfl, rfl, rfl⟩, rfl⟩, .inl rfl, turns entity (entity?_eq_some.mpr was)⟩
    | encoding number table => exact rfl
    | descriptor descriptor => exact rfl
  · exact ⟨_, was, .refl _⟩

variable (refs : ∀ ties, (f ties).refs = ties.refs)

include refs

theorem closed_onTies (sound : world.Sound cascade owed) {other target : ThingId} {thing' : Thing}
    (found : (onThing id (Thing.onTies f) world).thing? other = some thing')
    (among : target ∈ thing'.refs) : (onThing id (Thing.onTies f) world).alive target = true := by
  rw [alive_onThing]
  obtain ⟨thing, was, ⟨-, rfl⟩ | rfl⟩ := onTies_cases found
  · exact sound.closed other thing was target (refs_onTies refs thing ▸ among)
  · exact sound.closed other _ was target among

variable (turns : ∀ entity, world.entity? id = some entity →
    entity.ties.Turns entity.kind entity.key.object cascade.evictions owed' (f entity.ties))

include turns

/-- An entity learns who depends on it, or forgets those who are owed something and
    attributes that are evicted. -/
theorem Sound.tie (sound : world.Sound cascade owed) (more : ∀ entry ∈ owed, entry ∈ owed') :
    (onThing id (Thing.onTies f) world).Sound cascade owed' :=
  sound.onHeap more (turns_onTies turns) (fun _ _ found _ => closed_onTies refs sound found)
    fun other among => (alive_onThing world id other _).trans (sound.holding other among)

theorem Fresh.tie (fresh : world.Fresh trips unsignalled) (sound : world.Sound cascade owed) :
    (onThing id (Thing.onTies f) world).Fresh trips unsignalled :=
  fresh.onHeap sound (turns_onTies turns) fun _ _ found _ => closed_onTies refs sound found

end ties

end World

end CatalogReplica.Catalog
