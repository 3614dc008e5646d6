import CatalogReplica.Proofs.Catalog.Soundness

/-!
# Carrying over what holds

How soundness and freshness are carried from one state of a catalog to a later one.

* `Sound.onHeap`: things go, learn who depends on them, or forget it.
* `Right.carry`, `Fresh.carry`: what was right stays right while the rows that it was
  made of and the things that it leads to stay.
-/

namespace CatalogReplica.Catalog

open Coherence (Batch Gates GateId Memo SlotTable)

/-! ## Keys -/

@[simp] theorem EntityClass.rowKey_classOid (kind : EntityClass) (key : EntityKey) :
    (kind.rowKey key).classOid = key.classOid := by
  unfold rowKey
  split <;> rfl

@[simp] theorem EntityClass.rowKey_object (kind : EntityClass) (key : EntityKey) :
    (kind.rowKey key).object = key.object := by
  unfold rowKey
  split <;> rfl

/-! ## Ties -/

namespace Ties

theorem eq_attr_of_refs {ties : Ties} {owner : ThingId} (refs : ties.refs = [owner]) :
    ties = .attr owner := by
  cases ties <;> simp [Ties.refs] at refs
  rw [refs]

/-- What is known of dependents stays known, unless they are owed something. -/
structure Turns (kind : EntityClass) (object : Oid) (evictions : List EntityKey)
    (owed : List (EntityClass × Oid)) (before after : Ties) : Prop where
  suits : before.Suit kind → after.Suit kind
  refs : after.refs = before.refs
  dependents : ∀ oid ∈ before.dependents, oid ∈ after.dependents ∨ (kind.dependent, oid) ∈ owed
  attributes : ∀ attnum ∈ before.attributes,
    attnum ∈ after.attributes ∨ attributeKey object attnum ∈ evictions

theorem Turns.refl (kind : EntityClass) (object : Oid) (evictions : List EntityKey)
    (owed : List (EntityClass × Oid)) (ties : Ties) : Turns kind object evictions owed ties ties :=
  ⟨id, rfl, fun _ => .inl, fun _ => .inl⟩

end Ties

/-! ## Things -/

namespace Entity

theorem Same.refl (entity : Entity) : entity.Same entity := ⟨rfl, rfl, rfl⟩

theorem Same.trans {one two three : Entity} (first : one.Same two) (second : two.Same three) :
    one.Same three :=
  ⟨second.kind.trans first.kind, second.key.trans first.key, second.gates.trans first.gates⟩

theorem Same.gate {before after : Entity} (same : before.Same after) : after.gate = before.gate := by
  unfold Entity.gate
  rw [same.gates]

/-- The same entity with the same memos. -/
structure Stays (before after : Entity) : Prop extends before.Same after where
  memos : after.table.memos = before.table.memos

theorem Stays.refl (entity : Entity) : entity.Stays entity := ⟨.refl entity, rfl⟩

theorem Stays.trans {one two three : Entity} (first : one.Stays two) (second : two.Stays three) :
    one.Stays three := ⟨first.toSame.trans second.toSame, second.memos.trans first.memos⟩

theorem Stays.memo? {before after : Entity} (stays : before.Stays after) (index : Nat) :
    after.table.memo? index = before.table.memo? index := by
  unfold SlotTable.memo?
  rw [stays.memos]

/-- The same entity with the same memos, and with ties that know as much as before.  It is
    marked as evicted only if its key is about to be evicted. -/
structure Turns (evictions : List EntityKey) (owed : List (EntityClass × Oid))
    (before after : Entity) : Prop extends before.Stays after where
  marks : after.table.evicted = before.table.evicted ∨
    (after.table.evicted = true ∧ before.key ∈ evictions)
  ties : before.ties.Turns before.kind before.key.object evictions owed after.ties

variable {evictions : List EntityKey} {owed : List (EntityClass × Oid)} {before after : Entity}
  {trips : Batch} {gates : Gates} {index : Nat} {datum : Datum}

/-- What was evicted stays marked. -/
theorem Turns.stillMarked (turns : before.Turns evictions owed after) (marked : before.table.evicted = true) :
    after.table.evicted = true := by
  obtain same | ⟨now, -⟩ := turns.marks
  · rw [same, marked]
  · exact now

theorem Turns.trusts (turns : before.Turns evictions owed after) :
    after.Trusts trips gates index datum ↔ before.Trusts trips gates index datum := by
  unfold Entity.Trusts
  rw [turns.memo? index, turns.gate]

theorem Shaped.gate?_eq (shaped : before.Shaped trips gates) :
    (Thing.entity before).gate? = some before.gate := by
  rw [Thing.gate?, Thing.table?, Option.bind_some, shaped.gated]
  rfl

theorem Shaped.turns (shaped : before.Shaped trips gates) (turns : before.Turns evictions owed after) :
    after.Shaped trips gates where
  gated := by rw [turns.gates, turns.gate, shaped.gated]
  known := turns.gate ▸ shaped.known
  slots := by rw [turns.memos, turns.kind, shaped.slots]
  named := by rw [turns.kind, turns.key]; exact shaped.named
  tied := turns.kind ▸ turns.ties.suits shaped.tied
  governed index memo kept := by
    rw [turns.memo? index] at kept
    rw [turns.gate]
    exact shaped.governed index memo kept

end Entity

namespace Thing

/-- The same thing, whatever it keeps. -/
def Same : Thing → Thing → Prop
  | .entity before, .entity after => before.Same after
  | .encoding before _, .encoding after _ => after = before
  | .descriptor before, .descriptor after => after = before
  | _, _ => False

theorem Same.refl (thing : Thing) : thing.Same thing := by
  cases thing with
  | entity entity => exact Entity.Same.refl entity
  | encoding id table => exact rfl
  | descriptor descriptor => exact rfl

theorem Same.trans {one two three : Thing} (first : one.Same two) (second : two.Same three) : one.Same three := by
  cases one <;> cases two <;> cases three <;> simp only [Same] at first second ⊢
  · exact Entity.Same.trans first second
  · exact Eq.trans second first
  · exact Eq.trans second first

/-- The same thing, an entity with the same memos. -/
def Turns (evictions : List EntityKey) (owed : List (EntityClass × Oid)) : Thing → Thing → Prop
  | .entity before, .entity after => before.Turns evictions owed after
  | .encoding before _, .encoding after _ => after = before
  | .descriptor before, .descriptor after => after = before
  | _, _ => False

variable {evictions : List EntityKey} {owed : List (EntityClass × Oid)} {before after : Thing}

theorem Turns.refl (thing : Thing) : thing.Turns evictions owed thing := by
  cases thing with
  | entity entity => exact ⟨.refl entity, .inl rfl, .refl _ _ _ _ _⟩
  | encoding id table => exact rfl
  | descriptor descriptor => exact rfl

theorem Turns.same (turns : before.Turns evictions owed after) : before.Same after := by
  cases before <;> cases after <;> simp only [Turns, Same] at turns ⊢
  · exact turns.toSame
  · exact turns
  · exact turns

theorem mem_refs_of_memo {entity : Entity} {index : Nat} {memo : Memo Datum} {id : ThingId}
    (kept : entity.table.memo? index = some memo) (among : id ∈ memo.value.refs) :
    id ∈ (Thing.entity entity).refs :=
  List.mem_append_left _ (List.mem_flatMap.mpr ⟨memo, SlotTable.mem_kept.mpr ⟨index, kept⟩, among⟩)

theorem mem_refs_of_link {entity : Entity} {index : Nat} {memo : Memo Datum} {target : ThingId}
    (kept : entity.table.memo? index = some memo) (value : memo.value = .link (some target)) :
    target ∈ (Thing.entity entity).refs := mem_refs_of_memo kept (by rw [value]; simp [Datum.refs])

theorem mem_refs_of_owner {entity : Entity} {owner : ThingId} (ties : entity.ties = .attr owner) :
    owner ∈ (Thing.entity entity).refs := List.mem_append_right _ (by rw [ties]; simp [Ties.refs])

end Thing

/-! ## Lookups in a state -/

namespace World

variable {world after : World} {cascade : Cascade} {owed owed' : List (EntityClass × Oid)}
  {trips trips' : Batch} {unsignalled unsignalled' : List EntityKey} {id : ThingId} {entity : Entity}

theorem entity?_eq_some : world.entity? id = some entity ↔ world.thing? id = some (.entity entity) := by
  unfold entity?
  cases world.thing? id with
  | none => simp
  | some thing => cases thing <;> simp [Thing.entity?]

theorem descriptor?_eq_some {descriptor : Descriptor} :
    world.descriptor? id = some descriptor ↔ world.thing? id = some (.descriptor descriptor) := by
  unfold descriptor?
  cases world.thing? id with
  | none => simp
  | some thing => cases thing <;> simp [Thing.descriptor?]

theorem alive_iff : world.alive id = true ↔ ∃ thing, world.thing? id = some thing :=
  Option.isSome_iff_exists

theorem thing?_add (world : World) (thing : Thing) (id : ThingId) : (world.add thing).2.thing? id
    = (world.thing? id).or (if id = world.nextThing then some thing else none) :=
  Numbered.get?_add world.heap world.nextThing id thing

/-- Nothing else is there after a thing was added. -/
theorem thing?_add_cases {thing thing' : Thing} (found : (world.add thing).2.thing? id = some thing') :
    world.thing? id = some thing' ∨ id = world.nextThing ∧ thing' = thing := by
  rw [thing?_add] at found
  obtain was | ⟨-, added⟩ := Option.or_eq_some_iff.mp found
  · exact .inl was
  · obtain ⟨new, ⟨⟩⟩ := Option.ite_none_right_eq_some.mp added
    exact .inr ⟨new, rfl⟩

theorem thing?_add_older (world : World) (thing : Thing) (older : id < world.nextThing) :
    (world.add thing).2.thing? id = world.thing? id := by
  rw [thing?_add, if_neg (Nat.ne_of_lt older), Option.or_none]

theorem alive_of_entity (found : world.entity? id = some entity) : world.alive id = true :=
  alive_iff.mpr ⟨_, entity?_eq_some.mp found⟩

/-- Things that were there before are the things that they were. -/
def Carries (world after : World) : Prop :=
  ∀ id thing', after.thing? id = some thing' → id < world.nextThing →
    ∃ thing, world.thing? id = some thing ∧ thing.Same thing'

/-! ## Things that go, and ties that change -/

section onHeap

variable {heap : Numbered Thing}

/-- Every thing keeps its memos, and has ties that know as much as before. -/
def Turns (evictions : List EntityKey) (owed : List (EntityClass × Oid)) (world : World)
    (heap : Numbered Thing) : Prop :=
  ∀ id thing', heap.get? id = some thing' →
    ∃ thing, world.thing? id = some thing ∧ thing.Turns evictions owed thing'

theorem Turns.earlier (turns : Turns cascade.evictions owed world heap)
    (found : ({ world with heap } : World).entity? id = some entity) :
    ∃ before, world.entity? id = some before ∧ before.Turns cascade.evictions owed entity := by
  obtain ⟨thing, was, turned⟩ := turns id _ (entity?_eq_some.mp found)
  cases thing with
  | entity before => exact ⟨before, entity?_eq_some.mpr was, turned⟩
  | encoding number table => exact turned.elim
  | descriptor descriptor => exact turned.elim

theorem Turns.alive (turns : Turns cascade.evictions owed world heap) (live : heap.has id = true) :
    world.alive id = true := by
  obtain ⟨thing', found⟩ := Option.isSome_iff_exists.mp live
  obtain ⟨thing, was, -⟩ := turns id thing' found
  exact alive_iff.mpr ⟨thing, was⟩

/-- An entity that is still there is the one that it was. -/
theorem Turns.still (turns : Turns cascade.evictions owed world heap)
    (was : world.entity? id = some entity) (live : heap.has id = true) :
    ∃ later, ({ world with heap } : World).entity? id = some later ∧
      entity.Turns cascade.evictions owed later := by
  obtain ⟨thing', found⟩ := Option.isSome_iff_exists.mp live
  obtain ⟨thing, was', turned⟩ := turns id thing' found
  rw [entity?_eq_some.mp was, Option.some.injEq] at was'
  subst was'
  cases thing' with
  | entity later => exact ⟨later, entity?_eq_some.mpr found, turned⟩
  | encoding number table => exact turned.elim
  | descriptor descriptor => exact turned.elim

theorem Turns.cached (turns : Turns cascade.evictions owed world heap)
    (cached : ({ world with heap } : World).Cached id entity) :
    ∃ before, world.Cached id before ∧ before.Turns cascade.evictions owed entity := by
  obtain ⟨before, was, turned⟩ := turns.earlier cached.1
  have entry := cached.2
  rw [turned.kind, turned.key] at entry
  exact ⟨before, ⟨was, entry⟩, turned⟩

theorem Turns.stillCached (turns : Turns cascade.evictions owed world heap)
    (cached : world.Cached id entity) (live : heap.has id = true) :
    ∃ later, ({ world with heap } : World).Cached id later ∧
      entity.Turns cascade.evictions owed later := by
  obtain ⟨later, found, turned⟩ := turns.still cached.1 live
  refine ⟨later, ⟨found, ?_⟩, turned⟩
  rw [turned.kind, turned.key]
  exact cached.2

section fields

variable (sound : world.Sound cascade owed) (turns : Turns cascade.evictions owed' world heap)
  (closed : ∀ id thing', heap.get? id = some thing' → ∀ other ∈ thing'.refs, heap.has other = true)

include sound turns closed

/-- An attribute and its relation still share a gate. -/
theorem Turns.tied {later : Entity} {owner : ThingId} (found : ({ world with heap } : World).entity? id = some later)
    (ties : later.ties = .attr owner) : ∃ relation, ({ world with heap } : World).entity? owner = some relation ∧
      relation.kind = .relation ∧ relation.key.object = later.key.object ∧ relation.gate = later.gate := by
  obtain ⟨entity, was, turned⟩ := turns.earlier found
  -- what an entity refers to by its ties never changes, so it had the same relation before
  have refs : entity.ties.refs = [owner] := by rw [← turned.ties.refs, ties]; rfl
  obtain ⟨relation, its, isRelation, object, gate⟩ := sound.tied id entity owner was (Ties.eq_attr_of_refs refs)
  have live := closed id _ (entity?_eq_some.mp found) owner (Thing.mem_refs_of_owner ties)
  obtain ⟨relation', found', turned'⟩ := turns.still its live
  exact ⟨relation', found', turned'.kind.trans isRelation, by rw [turned'.key, turned.key, object],
    by rw [turned'.gate, turned.gate, gate]⟩

/-- The relation of a cached attribute still knows it, or the attribute is condemned. -/
theorem Turns.attributes {later : Entity} (cached : ({ world with heap } : World).Cached id later) (isAttr : later.kind = .attr) :
    later.key ∈ cascade.evictions ∨ ∃ owner relation attnum, later.ties = .attr owner ∧
      ({ world with heap } : World).Cached owner relation ∧ relation.key ∉ cascade.evictions ∧
      attnum ∈ relation.ties.attributes ∧ later.key = attributeKey relation.key.object attnum := by
  obtain ⟨entity, was, turned⟩ := turns.cached cached
  rw [turned.key]
  cases sound.attributes id entity was (turned.kind ▸ isAttr) with
  | inl evicted => exact .inl evicted
  | inr tied =>
    obtain ⟨owner, relation, attnum, ties, its, stays, known, key⟩ := tied
    have ties' : later.ties = .attr owner := Ties.eq_attr_of_refs (by rw [turned.ties.refs, ties]; rfl)
    have live := closed id _ (entity?_eq_some.mp cached.1) owner (Thing.mem_refs_of_owner ties')
    obtain ⟨relation', its', turned'⟩ := turns.stillCached its live
    -- a relation forgets an attribute only if the attribute is condemned
    cases turned'.ties.attributes attnum known with
    | inl stillKnown =>
      refine .inr ⟨owner, relation', attnum, ties', its', ?_, stillKnown, ?_⟩ <;> rw [turned'.key]
      · exact stays
      · exact key
    | inr evicted => exact .inl (key ▸ evicted)

/-- Whoever trusts a link is still known where it leads to, or is owed a trip. -/
theorem Turns.links (more : ∀ entry ∈ owed, entry ∈ owed') {later : Entity} {link : Link} {target : ThingId}
    (cached : ({ world with heap } : World).Cached id later) (tracked : link.Tracked) (kind : later.kind = link.info.kind)
    (trusts : later.Trusts cascade.trips world.gates link.info.index (.link (some target))) :
    ∃ found, ({ world with heap } : World).Cached target found ∧ found.kind = link.info.target ∧
      found.key ∉ cascade.evictions ∧
      (later.key.object ∈ found.ties.dependents ∨ (later.kind, later.key.object) ∈ owed') := by
  obtain ⟨entity, was, turned⟩ := turns.cached cached
  have trusted := turned.trusts.mp trusts
  rw [turned.kind] at kind
  obtain ⟨found, its, isTarget, stays, known⟩ := sound.links id entity link target was tracked kind trusted
  obtain ⟨memo, kept, value, -⟩ := trusts
  have live := closed id _ (entity?_eq_some.mp cached.1) target (Thing.mem_refs_of_link kept value)
  obtain ⟨found', its', turned'⟩ := turns.stillCached its live
  refine ⟨found', its', turned'.kind.trans isTarget, turned'.key ▸ stays, ?_⟩
  rw [turned.key, turned.kind]
  cases known with
  | inl depends =>
    -- a target forgets a dependent only if it is owed a trip from then on
    cases turned'.ties.dependents _ depends with
    | inl still => exact .inl still
    | inr due =>
      refine .inr ?_
      have dependent : found.kind.dependent = entity.kind := by
        rw [isTarget, kind]
        cases tracked with
        | inl isType => rw [isType]; rfl
        | inr isRoutine => rw [isRoutine]; rfl
      exact dependent ▸ due
  | inr due => exact .inr (more _ due)

/-- A field still leads to an entity of its class, which is cached unless it was evicted. -/
theorem Turns.targets {later : Entity} {field : EntityField} {kind : EntityClass} {memo : Memo Datum} {target : ThingId}
    (found : ({ world with heap } : World).entity? id = some later) (isKind : later.kind = field.kind)
    (leadsTo : field.leadsTo? = some kind) (kept : later.table.memo? field.index = some memo)
    (value : memo.value = .link (some target)) : ∃ found, ({ world with heap } : World).entity? target = some found ∧
      found.kind = kind ∧ (({ world with heap } : World).Cached target found ∨ found.table.evicted = true) := by
  obtain ⟨entity, was, turned⟩ := turns.earlier found
  have live := closed id _ (entity?_eq_some.mp found) target (Thing.mem_refs_of_link kept value)
  rw [turned.kind] at isKind
  rw [turned.memo?] at kept
  obtain ⟨other, its, isTarget, place⟩ := sound.targets id entity field kind memo target was isKind leadsTo kept value
  obtain ⟨other', found', turned'⟩ := turns.still its live
  refine ⟨other', found', turned'.kind.trans isTarget, place.imp (fun cached => ?_) turned'.stillMarked⟩
  obtain ⟨later', cached', -⟩ := turns.stillCached cached live
  exact Option.some.inj (found'.symm.trans cached'.1) ▸ cached'

end fields

/-- A catalog stays sound if its things keep their memos, and what is no longer there is
    not missed. -/
theorem Sound.onHeap (sound : world.Sound cascade owed) (more : ∀ entry ∈ owed, entry ∈ owed')
    (turns : Turns cascade.evictions owed' world heap)
    (closed : ∀ id thing', heap.get? id = some thing' → ∀ other ∈ thing'.refs, heap.has other = true)
    (holding : ∀ id ∈ world.held, heap.has id = true) :
    ({ world with heap } : World).Sound cascade owed' where
  -- A thing of the new heap is an earlier one turned, so each clause is carried back, used and carried forth.
  below id live := sound.below id (turns.alive live)
  unique := sound.unique
  handedOut := sound.handedOut
  entered kind key id entry live := by
    obtain ⟨entity, was, isKind, isKey⟩ := sound.entered kind key id entry (turns.alive live)
    obtain ⟨later, found, turned⟩ := turns.still was live
    exact ⟨later, found, turned.kind.trans isKind, turned.key.trans isKey⟩
  closed := closed
  holding := holding
  gates := sound.gates
  shaped id later found := by
    obtain ⟨entity, was, turned⟩ := turns.earlier found
    exact (sound.shaped id entity was).turns turned
  tied _ _ _ := turns.tied sound closed
  attributes _ _ := turns.attributes sound closed
  typmods id later cached isType := by
    obtain ⟨entity, was, turned⟩ := turns.cached cached
    rw [turned.key]
    exact sound.typmods id entity was (turned.kind ▸ isType)
  links _ _ _ _ := turns.links sound closed more
  columns id later datum found isType plain trusts := by
    obtain ⟨entity, was, turned⟩ := turns.earlier found
    rw [turned.kind] at isType
    rw [turned.key] at plain
    obtain ⟨target, also⟩ :=
      sound.columns id entity datum was isType plain (turned.trusts.mp trusts)
    exact ⟨target, turned.trusts.mpr also⟩
  targets _ _ _ _ _ _ := turns.targets sound closed
  unmarked id later cached spared := by
    obtain ⟨entity, was, turned⟩ := turns.cached cached
    rw [turned.key] at spared
    rw [turned.marks.resolve_right fun marked => spared marked.2]
    exact sound.unmarked id entity was spared
  indexed := sound.indexed

end onHeap

/-! ## What stays right -/

theorem Carries.refl (world : World) : world.Carries world :=
  fun _ thing found _ => ⟨thing, found, .refl thing⟩

theorem clean_of_more (more : ∀ key ∈ unsignalled, key ∈ unsignalled') {classOid object : Oid}
    (clean : Clean unsignalled' classOid object) : Clean unsignalled classOid object :=
  fun key among => clean key (more key among)

/-- The things are still there. -/
def Keeps (world after : World) (ids : List ThingId) : Prop :=
  ∀ id ∈ ids, ∀ thing, world.thing? id = some thing →
    ∃ thing', after.thing? id = some thing' ∧ thing.Same thing'

theorem LeadsTo.carry {relation : Oid} {target : Option ThingId} (leads : world.LeadsTo relation target)
    (keeps : world.Keeps after target.toList) : after.LeadsTo relation target := by
  cases target with
  | none => exact leads
  | some id =>
    obtain ⟨valid, entity, found, isRelation, object⟩ := leads
    obtain ⟨thing', found', same⟩ := keeps id (by simp) _ (entity?_eq_some.mp found)
    cases thing' with
    | entity later =>
      exact ⟨valid, later, entity?_eq_some.mpr found', same.kind.trans isRelation, by rw [same.key, object]⟩
    | encoding number table => exact same.elim
    | descriptor descriptor => exact same.elim

theorem Shows.carry {target : Option ThingId} {contents : Descriptor}
    (shows' : world.Shows target contents) (keeps : world.Keeps after target.toList) :
    after.Shows target contents := by
  obtain ⟨id, rfl, found⟩ := shows'
  obtain ⟨thing', found', same⟩ := keeps id (by simp) _ (descriptor?_eq_some.mp found)
  cases thing' with
  | entity later => exact same.elim
  | encoding number table => exact same.elim
  | descriptor later =>
    refine ⟨id, rfl, descriptor?_eq_some.mpr ?_⟩
    rw [found', show later = contents from same]

/-- What is right stays right while the rows stay that it was made of, and the things that
    it leads to. -/
theorem Right.carry {kind : EntityClass} {key : EntityKey} {field : EntityField} {datum : Datum}
    (right : world.Right unsignalled kind key field datum)
    (more : ∀ key ∈ unsignalled, key ∈ unsignalled')
    (lasts : world.provider.Lasts unsignalled' after.provider)
    (keeps : world.Keeps after datum.refs) : after.Right unsignalled' kind key field datum := by
  have decode (clean : Clean unsignalled' key.classOid key.object) (source : String)
      (type : Storage.ColumnType) := lasts.decode kind (kind.rowKey key) source type
        (by rw [EntityClass.rowKey_classOid, EntityClass.rowKey_object]; exact clean)
  -- What was right at clean rows is right at the clean rows that are left, by the same witness.
  cases field with
  | tuple _ =>
    intro clean
    obtain ⟨address, rfl, found⟩ := right (clean_of_more more clean)
    refine ⟨address, rfl, (lasts.rows _ ?_).trans found⟩
    rw [EntityClass.rowKey_classOid, EntityClass.rowKey_object]
    exact clean
  | column field =>
    intro clean
    obtain ⟨value, rfl, decoded⟩ := right (clean_of_more more clean)
    exact ⟨value, rfl, decode clean _ _ value decoded⟩
  | link link =>
    cases link with
    | typeRelation =>
      intro clean
      obtain ⟨relation, target, rfl, leads, decoded⟩ := right (clean_of_more more clean)
      exact ⟨relation, target, rfl, leads.carry keeps, decode clean _ _ _ decoded⟩
    | _ => trivial
  | attributeType => trivial
  | relationDescriptor =>
    intro own attributes
    obtain ⟨target, contents, rfl, shows', described⟩ :=
      right (clean_of_more more own) (clean_of_more more attributes)
    exact ⟨target, contents, rfl, shows'.carry keeps,
      lasts.describe _ own attributes contents described⟩
  | typeDescriptor =>
    intro plain clean
    obtain ⟨relation, target, rfl, decoded, lone, shown⟩ := right plain (clean_of_more more clean)
    refine ⟨relation, target, rfl, decode clean _ _ _ decoded, lone, fun valid own attributes => ?_⟩
    obtain ⟨contents, shows', described⟩ :=
      shown valid (clean_of_more more own) (clean_of_more more attributes)
    exact ⟨contents, shows'.carry keeps, lasts.describe _ own attributes contents described⟩

/-- A catalog stays fresh if its cached entities trust nothing that they did not trust
    before. -/
theorem Fresh.carry (fresh : world.Fresh trips unsignalled) (sound : world.Sound cascade owed)
    (closed : ∀ id thing, after.thing? id = some thing → ∀ other ∈ thing.refs, after.alive other = true)
    (carries : world.Carries after) (more : ∀ key ∈ unsignalled, key ∈ unsignalled')
    (lasts : world.provider.Lasts unsignalled' after.provider)
    (before : ∀ id later index datum, after.Cached id later →
      later.Trusts trips' after.gates index datum → ∃ entity, world.Cached id entity ∧
        entity.Same later ∧ entity.Trusts trips world.gates index datum) :
    after.Fresh trips' unsignalled' := by
  intro id later field datum cached kind trusts
  obtain ⟨entity, was, same, trusted⟩ := before id later field.index datum cached trusts
  rw [same.kind] at kind
  have right := fresh id entity field datum was kind trusted
  rw [same.kind, same.key]
  refine right.carry more lasts fun other among thing found => ?_
  -- What the value leads to is there before and after, so it is the same thing.
  obtain ⟨memo, kept, value, -⟩ := trusts
  have live := closed id _ (entity?_eq_some.mp cached.1) other
    (Thing.mem_refs_of_memo kept (by rw [value]; exact among))
  obtain ⟨thing', found'⟩ := alive_iff.mp live
  have known := sound.below other (alive_iff.mpr ⟨thing, found⟩)
  obtain ⟨thing'', was', same'⟩ := carries other thing' found' known
  rw [found, Option.some.injEq] at was'
  exact ⟨thing', found', was' ▸ same'⟩

/-- Things that go, and ties that change, leave a catalog fresh. -/
theorem Fresh.onHeap {heap : Numbered Thing} (fresh : world.Fresh trips unsignalled)
    (sound : world.Sound cascade owed) (turns : Turns cascade.evictions owed' world heap)
    (closed : ∀ id thing', heap.get? id = some thing' → ∀ other ∈ thing'.refs, heap.has other = true) :
    ({ world with heap } : World).Fresh trips unsignalled := by
  refine fresh.carry sound closed (fun id thing' found _ => ?_) (fun _ => id) (.of_store rfl)
    fun id later index datum cached trusts => ?_
  · obtain ⟨thing, was, turned⟩ := turns id thing' found
    exact ⟨thing, was, turned.same⟩
  · obtain ⟨before, was, turned⟩ := turns.cached cached
    exact ⟨before, was, turned.toSame, turned.trusts.mp trusts⟩

end World

end CatalogReplica.Catalog
