import CatalogReplica.Proofs.Catalog.Edits

/-!
# What edits do to things and tables

An edit takes things away, adds a new one, or changes one of them a little.  Gates and the
native memory of things stay; what a thing leads to afterwards it led to before, or the
operation under way holds it.

* `Thing.Links`, `Thing.Describes`: what a thing leads to.
* `World.Alters`: what one change does.
* `World.Edit.alters`: every edit does no more.
-/

namespace CatalogReplica.Catalog

open Coherence (Gates Memo SlotTable)
open Identity (Cache CacheView Note)

/-! ## Things -/

theorem memo?_keep_cases {ν : Type} {table : SlotTable ν} {index other : Nat} {memo kept : Memo ν}
    (found : (table.keep index memo).memo? other = some kept) :
    other = index ∧ kept = memo ∨ table.memo? other = some kept := by
  rw [SlotTable.memo?, SlotTable.keep, Array.getElem?_setIfInBounds] at found
  split at found
  · next same =>
    split at found
    · exact .inl ⟨same.symm, (Option.some.inj found).symm⟩
    · cases found
  · exact .inr found

theorem memo?_keep_other {ν : Type} {table : SlotTable ν} {index other : Nat} {memo : Memo ν} (differs : index ≠ other) :
    (table.keep index memo).memo? other = table.memo? other := by
  rw [SlotTable.memo?, SlotTable.keep, Array.getElem?_setIfInBounds_ne differs]
  rfl

/-- The thing leads to the other by its ties or by a memo.  The columns that a type keeps are
    left out. -/
inductive Thing.Links (thing : Thing) (id : ThingId) : Prop
  | tied {entity : Entity} (is : thing.entity? = some entity) (among : id ∈ entity.ties.refs)
  | kept {table : SlotTable Datum} {index : Nat} {memo : Memo Datum} (has : thing.table? = some table)
      (found : table.memo? index = some memo) (other : index ≠ Catalog.typeDescriptor.index)
      (among : id ∈ memo.value.refs)

/-- The thing keeps the memo where types keep their columns. -/
def Thing.Describes (thing : Thing) (memo : Memo Datum) : Prop :=
  ∃ table, thing.table? = some table ∧ table.memo? Catalog.typeDescriptor.index = some memo

/-- The same thing, which leads to no more than it led to and to what is held, with the same
    columns if it is a type that keeps some. -/
structure Thing.Alters (got : List ThingId) (before after : Thing) : Prop where
  same : before.Same after
  gate : after.gate? = before.gate?
  links : ∀ id, after.Links id → before.Links id ∨ id ∈ got
  describes : ∀ memo, after.Describes memo ↔ before.Describes memo

namespace Thing

variable {got : List ThingId} {world : World} {thing : Thing}

theorem Same.guard {before after : Thing} (same : before.Same after) : after.guard? = before.guard? := by
  cases before <;> cases after <;> first | exact same.elim | rfl | exact congrArg Descriptor.guard same

theorem Alters.guard {before after : Thing} (alters : before.Alters got after) : after.guard? = before.guard? :=
  alters.same.guard

theorem Alters.refl (got : List ThingId) (thing : Thing) : thing.Alters got thing :=
  ⟨.refl thing, rfl, fun _ links => .inl links, fun _ => .rfl⟩

theorem Alters.onTies (got : List ThingId) {f : Ties → Ties} (refs : ∀ ties, (f ties).refs = ties.refs) (thing : Thing) :
    thing.Alters got (thing.onTies f) := by
  cases thing with
  | entity entity =>
    refine ⟨⟨rfl, rfl, rfl⟩, rfl, fun id links => .inl ?_, fun memo => .rfl⟩
    cases links with
    | tied is among =>
      cases is
      exact .tied rfl (refs entity.ties ▸ among)
    | kept has found other among => exact .kept has found other among
  | encoding number table => exact .refl got _
  | descriptor descriptor => exact .refl got _

/-- Slots are changed, and their memos stay or lead to what is held. -/
theorem Alters.onTable {f : SlotTable Datum → SlotTable Datum} (gates : ∀ table, (f table).gates = table.gates)
    (columns : ∀ table, (f table).memo? Catalog.typeDescriptor.index = table.memo? Catalog.typeDescriptor.index)
    (links : ∀ table index memo, (f table).memo? index = some memo → table.memo? index = some memo ∨
      ∀ id ∈ memo.value.refs, id ∈ got) (thing : Thing) : thing.Alters got (thing.onTable f) := by
  -- A slot other than the type descriptor's holds what it held, or what has been got since.
  have kept {table : SlotTable Datum} {id : ThingId} {index : Nat} {memo : Memo Datum} (has : thing.table? = some table)
      (found : (f table).memo? index = some memo) (other : index ≠ Catalog.typeDescriptor.index)
      (among : id ∈ memo.value.refs) : thing.Links id ∨ id ∈ got := by
    obtain before | held := links table index memo found
    · exact .inl (.kept has before other among)
    · exact .inr (held id among)
  have describes {table : SlotTable Datum} {memo : Memo Datum} (has : thing.table? = some table)
      (turned : (thing.onTable f).table? = some (f table)) : (thing.onTable f).Describes memo ↔ thing.Describes memo := by
    simp only [Describes, has, turned, Option.some.injEq, exists_eq_left', columns]
  cases thing with
  | entity entity =>
    refine ⟨⟨rfl, rfl, gates entity.table⟩, congrArg List.head? (gates entity.table), fun id links => ?_, fun memo =>
      describes rfl rfl⟩
    cases links with
    | tied is among =>
      cases is
      exact .inl (.tied rfl among)
    | kept has found other among =>
      cases has
      exact kept rfl found other among
  | encoding number table =>
    refine ⟨rfl, congrArg List.head? (gates table), fun id links => ?_, fun memo => describes rfl rfl⟩
    cases links with
    | tied is among => cases is
    | kept has found other among =>
      cases has
      exact kept rfl found other among
  | descriptor descriptor => exact .refl got _

theorem Fresh.links (fresh : thing.Fresh got world) {id : ThingId} (links : thing.Links id) : id ∈ got := by
  cases links with
  | tied is among =>
    cases thing with
    | entity entity =>
      cases is
      exact fresh.refs id (List.mem_append_right _ among)
    | encoding number table => cases is
    | descriptor descriptor => cases is
  | kept has found other among =>
    cases (fresh.blank _ has _).symm.trans found

theorem Fresh.describes (fresh : thing.Fresh got world) (memo : Memo Datum) : ¬ thing.Describes memo := by
  rintro ⟨table, has, found⟩
  cases (fresh.blank table has _).symm.trans found

end Thing

namespace World

variable {got : List ThingId} {before world after : World}

/-! ## Caches -/

namespace Shelf

variable {κ κ' : Type} {view : CacheView World κ ThingId} {view' : CacheView World κ' ThingId}

/-- A cache is replaced, and the others stay. -/
theorem mem_set (shelf : Shelf view) (shelf' : Shelf view') (new : ThingId → Prop) {cache : Cache κ ThingId}
    (table : ∀ entry ∈ cache.table, entry ∈ (view.get world).table ∨ Ordinary view ∧ new entry.2) :
    ∀ entry ∈ (view'.get (view.set cache world)).table, entry ∈ (view'.get world).table ∨ Ordinary view' ∧ new entry.2 := by
  have stays : ∀ entry ∈ (view'.get world).table, entry ∈ (view'.get world).table ∨ Ordinary view' ∧ new entry.2 :=
    fun _ among => .inl among
  cases shelf with
  | entities kind =>
    cases shelf' with
    | entities kind' => cases kind <;> cases kind' <;> first | exact table | exact stays
    | descriptors => cases kind <;> exact stays
    | encodings => cases kind <;> exact stays
  | descriptors =>
    cases shelf' with
    | entities kind' => cases kind' <;> exact stays
    | descriptors => exact table
    | encodings => exact stays
  | encodings =>
    cases shelf' with
    | entities kind' => cases kind' <;> exact stays
    | descriptors => exact stays
    | encodings => exact table

theorem mem_congr (shelf : Shelf view) (same : after.caches = world.caches) {entry : κ × ThingId}
    (among : entry ∈ (view.get after).table) : entry ∈ (view.get world).table := by
  rwa [shelf.get_congr same] at among

theorem note (shelf : Shelf view) : view.note = World.note := by cases shelf <;> rfl

end Shelf

theorem not_ordinary_descriptorView : ¬ Ordinary descriptorView := by
  intro ordinary
  let claimed : Cache Address ThingId := { (Caches.blank {}).descriptors with claims := [⟨⟨0⟩, 0⟩] }
  have same := congrArg (·.caches.descriptors.claims.length) (ordinary.abandon claimed (start {})).native
  cases same

theorem caches_reapWithin (steps : Nat) (ids : List ThingId) (world : World) :
    (reapWithin steps ids world).caches = world.caches := by
  induction steps generalizing ids world with
  | zero => rfl
  | succ steps ih =>
    cases ids with
    | nil => rfl
    | cons id ids =>
      unfold reapWithin
      split
      · exact ih ids world
      · next thing _ =>
        split
        · exact ih ids world
        · refine (ih _ _).trans ?_
          unfold dropGuard
          split
          · unfold Task.exec onLedger Task.within
            cases Lifetime.Ledger.dropOwner _ _ <;> rfl
          · rfl

theorem caches_reap (ids : List ThingId) (world : World) : (reap ids world).caches = world.caches :=
  caches_reapWithin _ ids world

theorem nextThing_settle {κ : Type} [DecidableEq κ] {view : CacheView World κ ThingId} (shelf : Shelf view) (key : κ)
    (id : ThingId) (world : World) : (view.settle key id world).nextThing = world.nextThing := by
  have same (notes : List (Note κ)) (cache : Cache κ ThingId) : (view.store notes cache world).nextThing = world.nextThing := by
    cases shelf <;> rfl
  unfold CacheView.settle
  rw [shelf.letGo]
  generalize (view.get world).settle (view.alive world) key id = settled
  obtain ⟨out, notes, cache⟩ := settled
  exact (congrArg (·.nextThing) (reap_reaped out.toList (view.store notes cache world)).core).trans (same notes cache)

/-! ## One change -/

/-- Things are gone, there is one new thing, or one changed; entries left the caches, or the new
    thing entered one, but not that of native descriptors; gates were made. -/
structure Alters (got : List ThingId) (before after : World) : Prop where
  next : before.nextThing ≤ after.nextThing
  things : ∀ id thing', after.thing? id = some thing' →
    (∃ thing, before.thing? id = some thing ∧ thing.Alters got thing') ∨
      thing'.Fresh got before ∧ id = before.nextThing ∧ before.nextThing < after.nextThing
  entries : ∀ {κ : Type} {view : CacheView World κ ThingId}, Shelf view → ∀ entry ∈ (view.get after).table,
    entry ∈ (view.get before).table ∨ Ordinary view ∧ entry.2 = before.nextThing ∧ before.nextThing < after.nextThing
  gates : after.gates = before.gates ∨ after.gates = before.gates.newGate.2

namespace Alters

theorem grows (alters : Alters got before after) : before.gates.Grows after.gates := by
  obtain same | made := alters.gates
  · rw [same]
    exact .refl _
  · rw [made]
    exact Gates.grows_newGate _

/-- Nothing enters the cache of native descriptors. -/
theorem descriptors (alters : Alters got before after) : after.caches.descriptors.table ⊆ before.caches.descriptors.table :=
  fun entry among => (alters.entries .descriptors entry among).resolve_right fun new => not_ordinary_descriptorView new.1

/-- Native memory stays with its thing. -/
theorem guardOf (alters : Alters got before after) {id : ThingId} {guard : Lifetime.GuardId}
    (its : after.guardOf id = some guard) : before.guardOf id = some guard := by
  obtain ⟨thing', found, has⟩ := Option.bind_eq_some_iff.mp its
  obtain ⟨thing, was, same⟩ | ⟨fresh, -⟩ := alters.things id thing' found
  · rw [World.guardOf, was]
    exact same.guard.symm.trans has
  · cases fresh.unguarded.symm.trans has

/-- Some things are gone, and nothing else changed that matters here. -/
theorem fewer (alters : Alters got before world) (things : ∀ id thing, after.thing? id = some thing → world.thing? id = some thing)
    (caches : after.caches = world.caches) (next : after.nextThing = world.nextThing) (gates : after.gates = world.gates) :
    Alters got before after where
  next := next ▸ alters.next
  things id thing' found := by
    rw [next]
    exact alters.things id thing' (things id thing' found)
  entries shelf entry among := by
    rw [shelf.get_congr caches] at among
    rw [next]
    exact alters.entries shelf entry among
  gates := gates ▸ alters.gates

theorem refl (got : List ThingId) (world : World) : Alters got world world :=
  ⟨Nat.le_refl _, fun _ thing found => .inl ⟨thing, found, .refl got thing⟩, fun _ _ among => .inl among, .inl rfl⟩

theorem reap (alters : Alters got before world) (ids : List ThingId) : Alters got before (World.reap ids world) :=
  have reaped := reap_reaped ids world
  alters.fewer reaped.still (caches_reap ids world) (congrArg (·.nextThing) reaped.core) reaped.gates

theorem holdAll (alters : Alters got before world) (ids : List ThingId) :
    Alters got before (ids.foldl (fun world id => World.hold id world) world) := by
  rw [foldl_hold]
  exact alters.fewer (fun _ _ found => found) rfl rfl rfl

theorem release (alters : Alters got before world) (id : ThingId) : Alters got before (World.release id world) := by
  have unheld : Alters got before { world with held := world.held.erase id } :=
    alters.fewer (fun _ _ found => found) rfl rfl rfl
  exact unheld.reap [id]

theorem releaseAll (alters : Alters got before world) (ids : List ThingId) :
    Alters got before (ids.foldl (fun world id => World.release id world) world) := by
  induction ids generalizing world with
  | nil => exact alters
  | cons id ids ih => exact ih (alters.release id)

/-- One thing changed. -/
theorem onThing (id : ThingId) {f : Thing → Thing} (alters : ∀ thing : Thing, thing.Alters got (f thing)) (world : World) :
    Alters got world (World.onThing id f world) := by
  have caches : (World.onThing id f world).caches = world.caches := rfl
  refine ⟨Nat.le_refl _, fun other thing' found => .inl ?_, fun shelf _ among => .inl (shelf.mem_congr caches among), .inl rfl⟩
  rw [thing?_onThing] at found
  split at found
  · obtain ⟨thing, was, rfl⟩ := Option.map_eq_some_iff.mp found
    exact ⟨thing, was, alters thing⟩
  · exact ⟨thing', found, .refl got thing'⟩

/-- The slots of one thing changed, and what they no longer refer to may be gone. -/
theorem onTable (id : ThingId) {f : SlotTable Datum → SlotTable Datum} (gates : ∀ table, (f table).gates = table.gates)
    (columns : ∀ table, (f table).memo? Catalog.typeDescriptor.index = table.memo? Catalog.typeDescriptor.index)
    (links : ∀ table index memo, (f table).memo? index = some memo → table.memo? index = some memo ∨
      ∀ id ∈ memo.value.refs, id ∈ got) (world : World) : Alters got world (World.onTable id f world) :=
  (onThing id (Thing.Alters.onTable gates columns links) world).reap _

section caches

variable {κ : Type} {view : CacheView World κ ThingId} {cache : Cache κ ThingId}

/-- A cache is replaced by one whose entries were there, or are about the new thing. -/
theorem set (shelf : Shelf view) (alters : Alters got before world)
    (table : ∀ entry ∈ cache.table, entry ∈ (view.get world).table ∨
      Ordinary view ∧ entry.2 = before.nextThing ∧ before.nextThing < world.nextThing) : Alters got before (view.set cache world) := by
  have same : (view.set cache world).heap = world.heap ∧ (view.set cache world).nextThing = world.nextThing ∧
      (view.set cache world).gates = world.gates := by cases shelf <;> exact ⟨rfl, rfl, rfl⟩
  refine ⟨same.2.1 ▸ alters.next, fun id thing' found => ?_, fun shelf' entry among => ?_, same.2.2 ▸ alters.gates⟩
  · rw [same.2.1]
    rw [thing?, same.1] at found
    exact alters.things id thing' found
  · rw [same.2.1]
    obtain there | new := shelf.mem_set shelf' (fun id => id = before.nextThing ∧ before.nextThing < world.nextThing)
      table entry among
    · exact alters.entries shelf' entry there
    · exact .inr new

theorem store (shelf : Shelf view) (notes : List (Note κ)) (alters : Alters got before world)
    (table : ∀ entry ∈ cache.table, entry ∈ (view.get world).table ∨
      Ordinary view ∧ entry.2 = before.nextThing ∧ before.nextThing < world.nextThing) : Alters got before (view.store notes cache world) := by
  rw [CacheView.store, shelf.note]
  exact (alters.set shelf table).fewer (fun _ _ found => found) rfl rfl rfl

/-- A key leaves a cache, and what it stood for is held. -/
theorem evict [DecidableEq κ] (shelf : Shelf view) (key : κ) (world : World) :
    Alters got world (view.evict key world).2 := by
  unfold CacheView.evict
  rw [shelf.hold]
  refine ((Alters.refl got world).holdAll _).store shelf _ fun entry among => .inl ?_
  have held (ids : List ThingId) : (ids.foldl (fun world id => World.hold id world) world).caches = world.caches := by
    rw [foldl_hold]
  rw [shelf.get_congr (held _)]
  exact (Cache.mem_of_evict among).1

end caches

/-- A thing is added. -/
theorem add {thing : Thing} (fresh : thing.Fresh got world) : Alters got world (world.add thing).2 := by
  have caches : (world.add thing).2.caches = world.caches := rfl
  refine ⟨Nat.le_succ _, fun id thing' found => ?_, fun shelf entry among => .inl (shelf.mem_congr caches among), .inl rfl⟩
  obtain was | ⟨same, rfl⟩ := thing?_add_cases found
  · exact .inl ⟨thing', was, .refl got thing'⟩
  · exact .inr ⟨fresh, same, Nat.lt_succ_self _⟩

end Alters

/-- Every edit takes things away, adds a new one, or changes one a little. -/
theorem Edit.alters {got' : List ThingId} (edit : Edit got world got' after) : Alters got world after := by
  -- Most edits leave heap and shelves as they are; the rest turn one thing or one shelf.
  have same {got : List ThingId} {world after : World} (heap : after.heap = world.heap) (caches : after.caches = world.caches)
      (next : after.nextThing = world.nextThing) (gates : after.gates = world.gates) : Alters got world after :=
    (Alters.refl got world).fewer (fun id thing found => by rwa [thing?, heap] at found) caches next gates
  cases edit with
  | perm _ | less => exact .refl _ world
  | counted | asked | typmods => exact same rfl rfl rfl rfl
  | gated =>
    have caches : ({ world with gates := world.gates.newGate.2 } : World).caches = world.caches := rfl
    exact ⟨Nat.le_refl _, fun _ thing found => .inl ⟨thing, found, .refl _ thing⟩, fun shelf _ among =>
      .inl (shelf.mem_congr caches among), .inr rfl⟩
  | tied id f refs => exact .onThing id (Thing.Alters.onTies _ refs) world
  | marked id =>
    let mark (table : SlotTable Datum) : SlotTable Datum := { table with evicted := true }
    have same (table : SlotTable Datum) : (mark table).gates = table.gates := rfl
    exact .onTable id same (fun _ => rfl) (fun _ _ _ found => .inl found) world
  | kept id index cell other =>
    rename_i got datum
    let keep (table : SlotTable Datum) : SlotTable Datum := table.keep index ⟨datum, cell⟩
    have same (table : SlotTable Datum) : (keep table).gates = table.gates := rfl
    refine .onTable id same (fun table => memo?_keep_other other) (fun table slot memo found => ?_) world
    obtain ⟨rfl, rfl⟩ | before := memo?_keep_cases found
    · exact .inr fun id among => List.mem_append_left _ among
    · exact .inl before
  | served _ _ _ _ => exact (Alters.refl _ world).holdAll _
  | owned _ _ => exact same rfl rfl rfl rfl
  | released id => exact (Alters.refl _ world).release id
  | added fresh => exact .add fresh
  | sought shelf _ thread key =>
    exact (Alters.refl _ world).store shelf _ fun _ among => .inl (Cache.mem_of_ask among)
  | @found _ _ view shelf _ _ _ _ thread key id hit =>
    have sought : Alters got world (view.ask thread key world).2 :=
      (Alters.refl _ world).store shelf _ fun _ among => .inl (Cache.mem_of_ask among)
    rw [hit] at sought
    exact sought.holdAll [id]
  | @made _ _ view shelf ordinary _ _ key thing fresh _ =>
    have added := Alters.add fresh
    unfold CacheView.settle
    rw [shelf.letGo]
    refine (added.store shelf _ fun entry among => ?_).reap _
    -- An entry of the settled shelf is the one just made or was there before.
    obtain rfl | ⟨before, -⟩ := (Cache.settle_spec _ _ key world.nextThing).entries entry among
    · exact .inr ⟨ordinary, rfl, Nat.lt_succ_self _⟩
    · exact .inl before
  | abandoned shelf _ key => exact (Alters.refl _ world).set shelf fun _ among => .inl among
  | got? shelf _ key =>
    unfold CacheView.get?
    simp only [shelf.hold]
    exact ((Alters.refl _ world).store shelf _ fun _ among => .inl (Cache.mem_of_get? among)).holdAll _
  | evicted shelf _ key => exact .evict shelf key world
  | dismissed address => exact (Alters.evict .descriptors address world).releaseAll _
  | purged shelf =>
    exact (Alters.refl _ world).store shelf _ fun _ among => .inl (List.mem_filter.mp among).1
  | relieved shelf =>
    unfold CacheView.relieve
    rw [shelf.letGo]
    refine Alters.reap (.set shelf (.refl _ world) ?_) _
    exact fun _ among => .inl among

end World

end CatalogReplica.Catalog
