import CatalogReplica.Proofs.Catalog.Steps

/-!
# Slots that keep values

A read keeps what it computed under the cell that was current when it started.  The
catalog stays sound if the slot accepts the value, and fresh if the value is right.

* `Accepts`: what a slot needs of a value.
* `Sound.keep`, `Fresh.keep`: what it does to a catalog to keep one.
-/

namespace CatalogReplica.Catalog

open Coherence (Batch Gates Memo SlotTable)

theorem memo?_keep {ν : Type} {table : SlotTable ν} {index : Nat} (inside : index < table.memos.size)
    (memo : Memo ν) (other : Nat) :
    (table.keep index memo).memo? other = if other = index then some memo else table.memo? other := by
  unfold SlotTable.keep SlotTable.memo?
  rw [Array.getElem?_setIfInBounds]
  by_cases same : index = other
  · subst same
    simp [inside]
  · simp [same, Ne.symm same]

namespace Entity

variable {entity : Entity} {index other : Nat} {datum kept : Datum} {cell : Coherence.CellId}
  {gates : Gates}

/-- The entity with a value in a slot. -/
def keep (entity : Entity) (index : Nat) (memo : Memo Datum) : Entity :=
  { entity with table := entity.table.keep index memo }

theorem same_keep (entity : Entity) (index : Nat) (memo : Memo Datum) :
    entity.Same (entity.keep index memo) := ⟨rfl, rfl, rfl⟩

/-- What is kept under a current cell is trusted, and so is what was trusted elsewhere. -/
theorem trusts_keep (inside : index < entity.table.memos.size)
    (untripped : gates.isTripped cell = false) :
    (entity.keep index ⟨datum, some cell⟩).Trusts {} gates other kept ↔
      (other = index ∧ kept = datum) ∨ (other ≠ index ∧ entity.Trusts {} gates other kept) := by
  unfold Entity.Trusts
  rw [show (entity.keep index ⟨datum, some cell⟩).table.memo? other = _ from
    memo?_keep inside ⟨datum, some cell⟩ other]
  by_cases same : other = index
  · subst same
    simp only [if_true, true_and, ne_eq, not_true_eq_false, false_and, or_false]
    constructor
    · rintro ⟨memo, new, value, -⟩
      cases new
      exact value.symm
    · rintro rfl
      refine ⟨_, rfl, rfl, ?_, List.not_mem_nil⟩
      rw [Memo.isValid_cell rfl, untripped]
      rfl
  · simp only [same, if_false, false_and, ne_eq, not_false_eq_true, true_and, false_or]
    exact Iff.rfl

end Entity

namespace World

variable {world : World} {unsignalled : List EntityKey} {id : ThingId} {entity : Entity}

/-! ## Keeping a value -/

section keep

variable {field : EntityField} {datum : Datum}

/-- What a slot needs of a value to keep it: what it refers to lives, entities are those in
    their identity caches, who tracks links tracks this one, and columns come with the
    relation. -/
structure Accepts (world : World) (id : ThingId) (entity : Entity) (field : EntityField)
    (datum : Datum) : Prop where
  found : world.entity? id = some entity
  kind : field.kind = entity.kind
  refs : ∀ other ∈ datum.refs, world.alive other = true
  target : ∀ kind target, field.leadsTo? = some kind → datum = .link (some target) →
    ∃ found, world.Cached target found ∧ found.kind = kind
  known : ∀ link target, field = .link link → link.Tracked → datum = .link (some target) →
    ∃ found, world.Cached target found ∧ found.kind = link.info.target ∧
      entity.key.object ∈ found.ties.dependents
  relation : field = .typeDescriptor → ¬ entity.key.Interned →
    ∃ target, entity.Trusts {} world.gates Link.typeRelation.info.index target

variable {cell : Coherence.CellId}

/-- The state in which the slot keeps the value under the cell. -/
def keeping (world : World) (id : ThingId) (field : EntityField) (datum : Datum)
    (cell : Coherence.CellId) : World :=
  onThing id (Thing.onTable (·.keep field.index ⟨datum, some cell⟩)) world

theorem keeps_keeping (world : World) (id : ThingId) (field : EntityField) (datum : Datum)
    (cell : Coherence.CellId) (ids : List ThingId) : world.Keeps (world.keeping id field datum cell) ids := by
  intro other _ thing found
  rw [keeping, thing?_onThing, found]
  split
  · refine ⟨_, rfl, ?_⟩
    cases thing with
    | entity entity => exact entity.same_keep _ _
    | encoding number table => exact rfl
    | descriptor descriptor => exact rfl
  · exact ⟨thing, rfl, .refl thing⟩

theorem Accepts.entity? (accepts : world.Accepts id entity field datum) {other : ThingId}
    {later : Entity} (found : (world.keeping id field datum cell).entity? other = some later) :
    (other = id ∧ later = entity.keep field.index ⟨datum, some cell⟩) ∨
      (other ≠ id ∧ world.entity? other = some later) := by
  rw [entity?_eq_some, keeping, thing?_onThing] at found
  split at found
  · next same =>
    subst same
    rw [entity?_eq_some.mp accepts.found] at found
    exact .inl ⟨rfl, (Thing.entity.inj (Option.some.inj found)).symm⟩
  · next differs => exact .inr ⟨differs, entity?_eq_some.mpr found⟩

theorem Accepts.own (accepts : world.Accepts id entity field datum) :
    (world.keeping id field datum cell).entity? id
      = some (entity.keep field.index ⟨datum, some cell⟩) := by
  rw [entity?_eq_some, keeping, thing?_onThing, if_pos rfl, entity?_eq_some.mp accepts.found]
  rfl

/-- Entities stay what they are, keep their ties, and are not marked. -/
theorem Accepts.still (accepts : world.Accepts id entity field datum) {other : ThingId}
    {before : Entity} (was : world.entity? other = some before) :
    ∃ later, (world.keeping id field datum cell).entity? other = some later ∧ before.Same later ∧
      later.ties = before.ties ∧ later.table.evicted = before.table.evicted := by
  by_cases same : other = id
  · subst same
    rw [accepts.found, Option.some.injEq] at was
    subst was
    exact ⟨_, accepts.own, entity.same_keep _ _, rfl, rfl⟩
  · refine ⟨before, ?_, .refl before, rfl, rfl⟩
    rw [entity?_eq_some] at was ⊢
    rw [keeping, thing?_onThing, if_neg same, was]

theorem Accepts.stillCached (accepts : world.Accepts id entity field datum) {other : ThingId}
    {before : Entity} (cached : world.Cached other before) :
    ∃ later, (world.keeping id field datum cell).Cached other later ∧ before.Same later ∧
      later.ties = before.ties ∧ later.table.evicted = before.table.evicted := by
  obtain ⟨later, found, same, rest⟩ := accepts.still cached.1
  refine ⟨later, ⟨found, ?_⟩, same, rest⟩
  rw [same.kind, same.key]
  exact cached.2

/-- Entities are what they were, and have the ties and the mark that they had. -/
theorem Accepts.before (accepts : world.Accepts id entity field datum) {other : ThingId}
    {later : Entity} (found : (world.keeping id field datum cell).entity? other = some later) :
    ∃ before, world.entity? other = some before ∧ before.Same later ∧ later.ties = before.ties ∧
      later.table.evicted = before.table.evicted := by
  cases accepts.entity? found with
  | inl own =>
    obtain ⟨rfl, rfl⟩ := own
    exact ⟨entity, accepts.found, entity.same_keep _ _, rfl, rfl⟩
  | inr old => exact ⟨later, old.2, .refl later, rfl, rfl⟩

theorem Accepts.cachedBefore (accepts : world.Accepts id entity field datum) {other : ThingId}
    {later : Entity} (cached : (world.keeping id field datum cell).Cached other later) :
    ∃ before, world.Cached other before ∧ before.Same later ∧ later.ties = before.ties ∧
      later.table.evicted = before.table.evicted := by
  obtain ⟨before, was, same, rest⟩ := accepts.before cached.1
  have entry := cached.2
  rw [same.kind, same.key] at entry
  exact ⟨before, ⟨was, entry⟩, same, rest⟩

section sound

variable (sound : world.Sound {} []) (accepts : world.Accepts id entity field datum)
  (current : world.gates.currentCell? entity.gate = some cell)

include sound accepts

theorem Accepts.inside : field.index < entity.table.memos.size := by
  rw [(sound.shaped id entity accepts.found).slots, ← accepts.kind]
  exact field.index_lt

/-- What the state refers to lives. -/
theorem Accepts.closed {other target : ThingId} {thing : Thing}
    (found : (world.keeping id field datum cell).thing? other = some thing)
    (among : target ∈ thing.refs) : world.alive target = true := by
  rw [keeping, thing?_onThing] at found
  split at found
  · next same =>
    subst same
    have own := entity?_eq_some.mp accepts.found
    rw [own] at found
    cases found
    cases List.mem_append.mp among with
    | inl kept =>
      obtain ⟨memo, isKept, among⟩ := List.mem_flatMap.mp kept
      obtain ⟨index, isMemo⟩ := SlotTable.mem_kept.mp isKept
      rw [memo?_keep (accepts.inside sound)] at isMemo
      split at isMemo
      · cases isMemo
        exact accepts.refs target among
      · exact sound.closed other _ own target (Thing.mem_refs_of_memo isMemo among)
    | inr tied => exact sound.closed other _ own target (List.mem_append_right _ tied)
  · exact sound.closed other thing found target among

include current

/-- What an entity trusts is the value, in its slot, or was trusted before. -/
theorem Accepts.trusts {other : Nat} {kept : Datum} :
    (entity.keep field.index ⟨datum, some cell⟩).Trusts {} world.gates other kept ↔
      (other = field.index ∧ kept = datum) ∨
        (other ≠ field.index ∧ entity.Trusts {} world.gates other kept) :=
  entity.trusts_keep (accepts.inside sound) (sound.gates.current _ _ current).2.1

theorem Accepts.shaped {other : ThingId} {later : Entity}
    (found : (world.keeping id field datum cell).entity? other = some later) :
    later.Shaped {} world.gates := by
  cases accepts.entity? found with
  | inr old => exact sound.shaped other later old.2
  | inl own =>
    obtain ⟨rfl, rfl⟩ := own
    have shaped := sound.shaped other entity accepts.found
    refine ⟨shaped.gated, shaped.known, Array.size_setIfInBounds.trans shaped.slots, shaped.named,
      shaped.tied, fun index memo kept => ?_⟩
    rw [show (entity.keep field.index ⟨datum, some cell⟩).table.memo? index = _ from
      memo?_keep (accepts.inside sound) ⟨datum, some cell⟩ index] at kept
    split at kept
    · cases kept
      exact ⟨cell, (sound.gates.current _ _ current).1, rfl, fun _ => ⟨(nomatch ·), fun _ => current⟩⟩
    · exact shaped.governed index memo kept

/-- Whoever trusts a link, the one that is kept included, is known where it leads to. -/
theorem Accepts.links {other : ThingId} {later : Entity} {link : Link} {target : ThingId}
    (cached : (world.keeping id field datum cell).Cached other later) (tracked : link.Tracked)
    (kind : later.kind = link.info.kind)
    (trusted : later.Trusts {} world.gates link.info.index (.link (some target))) :
    ∃ found, world.Cached target found ∧ found.kind = link.info.target ∧
      later.key.object ∈ found.ties.dependents := by
  have old (before : Entity) (was : world.Cached other before) (isKind : before.kind = link.info.kind)
      (trusted : before.Trusts {} world.gates link.info.index (.link (some target))) :
      ∃ found, world.Cached target found ∧ found.kind = link.info.target ∧
        before.key.object ∈ found.ties.dependents := by
    obtain ⟨found, its, isTarget, -, knows⟩ :=
      sound.links other before link target was tracked isKind trusted
    exact ⟨found, its, isTarget, knows.resolve_right List.not_mem_nil⟩
  cases accepts.entity? cached.1 with
  | inr same => exact old later ⟨same.2, cached.2⟩ kind trusted
  | inl own =>
    obtain ⟨rfl, rfl⟩ := own
    cases (accepts.trusts sound current).mp trusted with
    | inr kept => exact old entity ⟨accepts.found, cached.2⟩ kind kept.2
    | inl new =>
      have isField : EntityField.link link = field :=
        EntityField.eq_of_index (kind.symm.trans accepts.kind.symm) new.1
      exact accepts.known link target isField.symm tracked new.2.symm

theorem Accepts.columns {other : ThingId} {later : Entity} {kept : Datum}
    (found : (world.keeping id field datum cell).entity? other = some later)
    (isType : later.kind = .type) (plain : ¬ later.key.Interned)
    (trusted : later.Trusts {} world.gates Catalog.typeDescriptor.index kept) :
    ∃ target, later.Trusts {} world.gates Link.typeRelation.info.index target := by
  cases accepts.entity? found with
  | inr old => exact sound.columns other later kept old.2 isType plain trusted
  | inl own =>
    obtain ⟨rfl, rfl⟩ := own
    have trusts {index : Nat} {kept : Datum} :
        (entity.keep field.index ⟨datum, some cell⟩).Trusts {} world.gates index kept ↔ _ :=
      accepts.trusts sound current
    have also : ∃ target, entity.Trusts {} world.gates Link.typeRelation.info.index target := by
      cases trusts.mp trusted with
      | inr before => exact sound.columns other entity kept accepts.found isType plain before.2
      | inl new =>
        have isField : EntityField.typeDescriptor = field :=
          EntityField.eq_of_index (isType.symm.trans accepts.kind.symm) new.1
        exact accepts.relation isField.symm plain
    obtain ⟨target, before⟩ := also
    by_cases isLink : Link.typeRelation.info.index = field.index
    · exact ⟨datum, trusts.mpr (.inl ⟨isLink, rfl⟩)⟩
    · exact ⟨target, trusts.mpr (.inr ⟨isLink, before⟩)⟩

omit current in
theorem Accepts.targets {other target : ThingId} {later : Entity} {own : EntityField} {kind : EntityClass}
    {memo : Memo Datum} (found : (world.keeping id field datum cell).entity? other = some later)
    (isKind : later.kind = own.kind) (leadsTo : own.leadsTo? = some kind)
    (kept : later.table.memo? own.index = some memo) (value : memo.value = .link (some target)) :
    ∃ found, world.entity? target = some found ∧ found.kind = kind ∧
      (world.Cached target found ∨ found.table.evicted = true) := by
  cases accepts.entity? found with
  | inr old => exact sound.targets other later own kind memo target old.2 isKind leadsTo kept value
  | inl same =>
    obtain ⟨rfl, rfl⟩ := same
    rw [show (entity.keep field.index ⟨datum, some cell⟩).table.memo? own.index = _ from
      memo?_keep (accepts.inside sound) _ _] at kept
    split at kept
    · next isIndex =>
      obtain rfl := EntityField.eq_of_index (isKind.symm.trans accepts.kind.symm) isIndex
      cases kept
      obtain ⟨found, cached, isTarget⟩ := accepts.target kind target leadsTo value
      exact ⟨found, cached.1, isTarget, .inl cached⟩
    · exact sound.targets other entity own kind memo target accepts.found isKind leadsTo kept value

/-- A slot keeps a value that it accepts under the current cell of the gate. -/
theorem Sound.keep : (world.keeping id field datum cell).Sound {} [] where
  below other live := sound.below other (alive_onThing world id other _ ▸ live)
  unique := sound.unique
  handedOut := sound.handedOut
  entered kind key other entry live := by
    obtain ⟨before, was, isKind, isKey⟩ :=
      sound.entered kind key other entry (alive_onThing world id other _ ▸ live)
    obtain ⟨later, found, same, -⟩ := accepts.still was
    exact ⟨later, found, same.kind.trans isKind, same.key.trans isKey⟩
  closed other thing found target among :=
    (alive_onThing world id target _).trans (accepts.closed sound found among)
  holding other among := (alive_onThing world id other _).trans (sound.holding other among)
  gates := sound.gates
  shaped other later found := accepts.shaped sound current found
  tied other later owner found ties := by
    obtain ⟨before, was, same, keeps, -⟩ := accepts.before found
    obtain ⟨relation, its, isRelation, object, gate⟩ :=
      sound.tied other before owner was (keeps ▸ ties)
    obtain ⟨relation', its', same', -⟩ := accepts.still its
    exact ⟨relation', its', same'.kind.trans isRelation, by rw [same'.key, object, same.key],
      by rw [same'.gate, gate, same.gate]⟩
  attributes other later cached isAttr := by
    obtain ⟨before, was, same, keeps, -⟩ := accepts.cachedBefore cached
    obtain ⟨owner, relation, attnum, ties, its, -, knows, key⟩ :=
      (sound.attributes other before was (same.kind ▸ isAttr)).resolve_left List.not_mem_nil
    obtain ⟨relation', its', same', keeps', -⟩ := accepts.stillCached its
    exact .inr ⟨owner, relation', attnum, keeps.trans ties, its', List.not_mem_nil, keeps' ▸ knows,
      by rw [same.key, key, same'.key]⟩
  typmods other later cached isType := by
    obtain ⟨before, was, same, -⟩ := accepts.cachedBefore cached
    rw [same.key]
    exact sound.typmods other before was (same.kind ▸ isType)
  links other later link target cached tracked kind trusted := by
    -- what is kept now was accepted: its target knows who resolved it
    obtain ⟨found, its, isTarget, knows⟩ := accepts.links sound current cached tracked kind trusted
    obtain ⟨found', its', same', keeps', -⟩ := accepts.stillCached its
    exact ⟨found', its', same'.kind.trans isTarget, List.not_mem_nil, .inl (keeps' ▸ knows)⟩
  columns other later kept found isType plain trusted :=
    accepts.columns sound current found isType plain trusted
  targets other later own kind memo target found isKind leadsTo kept value := by
    obtain ⟨before, its, isTarget, place⟩ := accepts.targets sound found isKind leadsTo kept value
    obtain ⟨after, its', same, -, marks⟩ := accepts.still its
    refine ⟨after, its', same.kind.trans isTarget, place.imp (fun cached => ?_) fun marked => marks.trans marked⟩
    obtain ⟨after', cached', -⟩ := accepts.stillCached cached
    exact Option.some.inj (its'.symm.trans cached'.1) ▸ cached'
  unmarked other later cached := by
    obtain ⟨before, was, same, -, marks⟩ := accepts.cachedBefore cached
    rw [same.key, marks]
    exact sound.unmarked other before was
  indexed := sound.indexed

/-- A slot that keeps what is right stays fresh. -/
theorem Fresh.keep (fresh : world.Fresh {} unsignalled)
    (right : world.Cached id entity → Right unsignalled world entity.kind entity.key field datum) :
    (world.keeping id field datum cell).Fresh {} unsignalled := by
  intro other later isField kept cached kind trusted
  obtain ⟨before, was, same, -⟩ := accepts.cachedBefore cached
  rw [same.kind] at kind
  have old : Right unsignalled world before.kind before.key isField kept := by
    cases accepts.entity? cached.1 with
    | inr old =>
      obtain rfl := Option.some.inj (old.2.symm.trans was.1)
      exact fresh other later isField kept was kind trusted
    | inl own =>
      obtain ⟨rfl, rfl⟩ := own
      obtain rfl := Option.some.inj (accepts.found.symm.trans was.1)
      cases (accepts.trusts sound current).mp trusted with
      | inr before => exact fresh other entity isField kept was kind before.2
      | inl new =>
        obtain ⟨isIndex, rfl⟩ := new
        obtain rfl := EntityField.eq_of_index (kind.trans accepts.kind.symm) isIndex
        exact right was
  rw [same.kind, same.key]
  exact old.carry (fun _ among => among) (.of_store rfl) (keeps_keeping world _ field datum cell _)

end sound

end keep

end World

end CatalogReplica.Catalog
