import CatalogReplica.Proofs.Catalog.Fading

/-!
# What is referred to lives

Nothing dangles: whatever someone holds, a cache keeps alive, or a thing refers to, lives.  An operation that
lets a thing refer to another one holds the other one meanwhile.

* `World.Backed`: what is referred to lives, and what the operation under way counts on is held.
* `World.Backed.reap`, `World.Backed.onThing`, ...: the changes that keep it so.
* `World.Backed.touch`, `Operation.Reached.backed`: all changes, and every run.
-/

namespace CatalogReplica.Catalog

open Identity (Cache CacheView Note)

namespace World

variable {κ : Type} {view : CacheView World κ ThingId} {cache : Cache κ ThingId} {got got' : List ThingId}
  {world after : World} {id : ThingId}

/-- Where a cache is replaced by another one, a cache that keeps a thing alive did so before, or it is the new one. -/
theorem Shelf.keeps_set (shelf : Shelf view) (kept : (view.set cache world).caches.keeps id = true) :
    world.caches.keeps id = true ∨ cache.keeps id = true := by
  obtain ⟨κ', view', shelf', keeps⟩ := keeps_iff.mp kept
  have before (keeps : (view'.get world).keeps id = true) : world.caches.keeps id = true ∨ cache.keeps id = true :=
    .inl (keeps_iff.mpr ⟨κ', view', shelf', keeps⟩)
  cases shelf with
  | entities kind =>
    cases shelf' with
    | entities kind' => cases kind <;> cases kind' <;> first | exact .inr keeps | exact before keeps
    | descriptors => cases kind <;> exact before keeps
    | encodings => cases kind <;> exact before keeps
  | descriptors =>
    cases shelf' with
    | entities kind' => cases kind' <;> exact before keeps
    | descriptors => exact .inr keeps
    | encodings => exact before keeps
  | encodings =>
    cases shelf' with
    | entities kind' => cases kind' <;> exact before keeps
    | descriptors => exact before keeps
    | encodings => exact .inr keeps

/-- A thing refers to what it keeps in a slot. -/
theorem wanted_of_peek {spec : Coherence.SlotSpec} {datum : Datum} (peeked : ((World.view id).place spec).peek world = some datum)
    {other : ThingId} (among : other ∈ datum.refs) : world.Wanted other := by
  obtain ⟨thing, table, memo, there, has, found, -, rfl⟩ := peek_iff.mp peeked
  exact .inr (.inr ⟨id, thing, there, Thing.mem_refs.mpr (.inl ⟨spec.index, memo.value, ⟨table, memo, has, found, rfl⟩, among⟩)⟩)

theorem referenced_of_wanted (wanted : world.Wanted id) : world.referenced id = true := by
  unfold referenced
  simp only [Bool.or_eq_true, List.any_eq_true, List.contains_iff_mem, or_assoc]
  refine wanted.imp_right (Or.imp_right ?_)
  rintro ⟨source, thing, found, refers⟩
  exact ⟨(source, thing), Numbered.mem_of_get? found, refers⟩

/-- Blank caches keep nothing alive. -/
theorem keeps_blank (config : Config) (id : ThingId) : (Caches.blank config).keeps id = false := by
  simp only [Caches.keeps, Bool.or_eq_false_iff, List.any_eq_false]
  refine ⟨⟨fun kind _ => ?_, ?_⟩, ?_⟩
  · cases kind <;> simp [Caches.of, Caches.blank, Caches.blank.entities, Cache.keeps]
  · simp [Caches.blank, Cache.keeps]
  · simp [Caches.blank, Cache.keeps]

/-- Whatever is referred to lives, and what the operation under way counts on is held. -/
structure Backed (got : List ThingId) (world : World) : Prop where
  mine : ∀ id, got.count id ≤ world.held.count id
  lives : ∀ id, world.Wanted id → world.alive id = true

namespace Backed

theorem holding (backed : Backed got world) (among : id ∈ got) : world.alive id = true := by
  have counted := backed.mine id
  have positive := List.count_pos_iff.mpr among
  exact backed.lives id (.inl (List.count_pos_iff.mp (by omega)))

/-- Things are as they were, and what is held and what caches keep alive lives. -/
theorem still (backed : Backed got world) (heap : after.heap = world.heap) (mine : ∀ id, got'.count id ≤ after.held.count id)
    (held : ∀ id ∈ after.held, id ∈ world.held ∨ world.alive id = true)
    (keeps : ∀ id, after.caches.keeps id = true → world.caches.keeps id = true ∨ world.alive id = true) : Backed got' after := by
  refine ⟨mine, fun id wanted => ?_⟩
  have thing? : after.thing? = world.thing? := by
    funext id
    rw [World.thing?, heap, World.thing?]
  suffices live : world.alive id = true by rwa [World.alive, heap]
  obtain among | kept | link := wanted
  · exact (held id among).elim (fun held => backed.lives id (.inl held)) fun live => live
  · exact (keeps id kept).elim (fun kept => backed.lives id (.inr (.inl kept))) fun live => live
  · rw [thing?] at link
    exact backed.lives id (.inr (.inr link))

theorem stays (backed : Backed got world) (stays : Stays world after) : Backed got after :=
  backed.still stays.heap (stays.held ▸ backed.mine) (fun _ among => .inl (stays.held ▸ among)) fun _ kept =>
    .inl (stays.caches ▸ kept)

/-! ## Holding -/

theorem perm (backed : Backed got world) (same : got.Perm got') : Backed got' world :=
  ⟨fun id => same.count_eq id ▸ backed.mine id, backed.lives⟩

theorem less (backed : Backed (id :: got) world) : Backed got world := by
  refine ⟨fun other => Nat.le_trans ?_ (backed.mine other), backed.lives⟩
  exact List.count_le_count_cons

theorem holdAll (backed : Backed got world) {ids : List ThingId} (live : ∀ id ∈ ids, world.alive id = true) :
    Backed (ids ++ got) (ids.foldl (fun world id => World.hold id world) world) := by
  rw [foldl_hold]
  refine backed.still rfl (fun id => ?_) (fun id among => ?_) fun _ kept => .inl kept
  · have mine := backed.mine id
    simp only [List.count_append, List.count_reverse]
    omega
  · exact (List.mem_append.mp among).symm.imp_right fun among => live id (List.mem_reverse.mp among)

theorem hold (backed : Backed got world) (live : world.alive id = true) : Backed (id :: got) (World.hold id world) :=
  @holdAll _ _ backed [id] fun other among => by rwa [List.mem_singleton.mp among]

/-! ## Reaping -/

/-- A thing that nothing refers to is missed by nothing. -/
theorem erase (backed : Backed got world) (unwanted : ¬ world.Wanted id) :
    Backed got { world with heap := world.heap.erase id } := by
  have thing? (other : ThingId) : ({ world with heap := world.heap.erase id } : World).thing? other
      = if other = id then none else world.thing? other := Numbered.get?_erase world.heap id other
  refine ⟨backed.mine, fun other wanted => ?_⟩
  have before : world.Wanted other := by
    refine wanted.imp_right (Or.imp_right ?_)
    rintro ⟨source, thing, there, refers⟩
    rw [thing?] at there
    split at there
    · cases there
    · exact ⟨source, thing, there, refers⟩
  obtain ⟨thing, found⟩ := alive_iff.mp (backed.lives other before)
  refine alive_iff.mpr ⟨thing, ?_⟩
  rw [thing?, if_neg, found]
  rintro rfl
  exact unwanted before

theorem reapWithin (backed : Backed got world) (steps : Nat) (ids : List ThingId) :
    Backed got (World.reapWithin steps ids world) := by
  induction steps generalizing ids world with
  | zero => exact backed
  | succ steps ih =>
    cases ids with
    | nil => exact backed
    | cons id ids =>
      unfold World.reapWithin
      split
      · exact ih backed ids
      · next thing _ =>
        split
        · exact ih backed ids
        · next unreferenced =>
          refine ih ((backed.erase fun wanted => unreferenced ?_).stays (Stays.dropGuard thing _)) _
          exact referenced_of_wanted wanted

theorem reap (backed : Backed got world) (ids : List ThingId) : Backed got (World.reap ids world) := backed.reapWithin _ ids

theorem unhold (backed : Backed got world) (mine : ∀ other, got'.count other ≤ (world.held.erase id).count other) :
    Backed got' (World.release id world) := by
  have unheld : Backed got' { world with held := world.held.erase id } :=
    backed.still rfl mine (fun _ among => .inl (List.mem_of_mem_erase among)) fun _ kept => .inl kept
  exact unheld.reap [id]

theorem release (backed : Backed (id :: got) world) : Backed got (World.release id world) := by
  refine backed.unhold fun other => ?_
  have mine := backed.mine other
  rw [List.count_cons] at mine
  rw [List.count_erase]
  omega

theorem releaseAll {ids : List ThingId} (backed : Backed (ids ++ got) world) :
    Backed got (ids.foldl (fun world id => World.release id world) world) := by
  induction ids generalizing world with
  | nil => exact backed
  | cons id ids ih => exact ih backed.release

/-! ## Things that change -/

/-- A thing changes, and what it refers to besides lives. -/
theorem onThing {f : Thing → Thing} (backed : Backed got world)
    (refs : ∀ thing, world.thing? id = some thing → ∀ other ∈ (f thing).refs, other ∈ thing.refs ∨ world.alive other = true) :
    Backed got (World.onThing id f world) := by
  refine ⟨backed.mine, fun other wanted => ?_⟩
  rw [alive_onThing]
  obtain among | kept | ⟨source, thing, there, refers⟩ := wanted
  · exact backed.lives other (.inl among)
  · exact backed.lives other (.inr (.inl kept))
  · have before {thing : Thing} (there : world.thing? source = some thing) (refers : other ∈ thing.refs) :
        world.alive other = true := backed.lives other (.inr (.inr ⟨source, thing, there, refers⟩))
    rw [thing?_onThing] at there
    split at there
    · next same =>
      obtain ⟨was, found, rfl⟩ := Option.map_eq_some_iff.mp there
      exact (refs was (same ▸ found) other refers).elim (before found) fun live => live
    · exact before there refers

theorem onTies {f : Ties → Ties} (backed : Backed got world) (refs : ∀ ties, (f ties).refs = ties.refs) :
    Backed got (World.onThing id (Thing.onTies f) world) := by
  refine backed.onThing fun thing _ other refers => .inl ?_
  cases thing with
  | entity entity =>
    rw [Thing.onTies, Thing.refs, refs] at refers
    exact refers
  | encoding => exact refers
  | descriptor => exact refers

/-- A slot keeps a value that leads to what is alive. -/
theorem keep (backed : Backed got world) {index : Nat} {memo : Coherence.Memo Datum}
    (live : ∀ other ∈ memo.value.refs, world.alive other = true) : Backed got (World.onTable id (·.keep index memo) world) := by
  refine Backed.reap (backed.onThing fun thing _ other refers => ?_) _
  obtain ⟨slot, datum, keeps, among⟩ | tied := Thing.mem_refs.mp refers
  · obtain ⟨-, rfl⟩ | before := Thing.keeps_keep keeps
    · exact .inr (live other among)
    · exact .inl (Thing.mem_refs.mpr (.inl ⟨slot, datum, before, among⟩))
  · refine .inl (Thing.mem_refs.mpr (.inr ?_))
    obtain ⟨entity, its, among⟩ := tied
    cases thing with
    | entity entity => cases its; exact ⟨_, rfl, among⟩
    | encoding | descriptor => cases its

theorem mark (backed : Backed got world) : Backed got (World.onTable id (fun table => { table with evicted := true }) world) := by
  refine Backed.reap (backed.onThing fun thing _ other refers => .inl ?_) _
  cases thing <;> exact refers

/-- A thing is added that refers to what is alive. -/
theorem add {thing : Thing} (backed : Backed got world) (live : ∀ other ∈ thing.refs, world.alive other = true) :
    Backed (world.nextThing :: got) (world.add thing).2 := by
  have still {other : ThingId} (live : world.alive other = true) : (world.add thing).2.alive other = true := by
    obtain ⟨found, there⟩ := alive_iff.mp live
    exact alive_iff.mpr ⟨found, by rw [thing?_add, there, Option.some_or]⟩
  refine ⟨fun other => ?_, fun other wanted => ?_⟩
  · have mine := backed.mine other
    change _ ≤ (world.nextThing :: world.held).count other
    simp only [List.count_cons]
    omega
  · obtain among | kept | ⟨source, found, there, refers⟩ := wanted
    · obtain rfl | among := List.mem_cons.mp among
      · exact alive_add world thing
      · exact still (backed.lives other (.inl among))
    · exact still (backed.lives other (.inr (.inl kept)))
    · obtain was | ⟨-, rfl⟩ := thing?_add_cases there
      · exact still (backed.lives other (.inr (.inr ⟨source, found, was, refers⟩)))
      · exact still (live other refers)

/-! ## Caches -/

/-- A cache is replaced by one that keeps no more alive, but for what lives anyway. -/
theorem set (backed : Backed got world) (shelf : Shelf view)
    (keeps : ∀ id, cache.keeps id = true → (view.get world).keeps id = true ∨ world.alive id = true) :
    Backed got (view.set cache world) := by
  have same : (view.set cache world).heap = world.heap ∧ (view.set cache world).held = world.held := by
    cases shelf <;> exact ⟨rfl, rfl⟩
  obtain ⟨heap, held⟩ := same
  refine backed.still heap (held ▸ backed.mine) (fun _ among => .inl (held ▸ among)) fun id kept => ?_
  obtain before | kept := shelf.keeps_set kept
  · exact .inl before
  · exact (keeps id kept).imp_left fun before => keeps_iff.mpr ⟨κ, view, shelf, before⟩

theorem store (backed : Backed got world) (shelf : Shelf view) (notes : List (Note κ))
    (keeps : ∀ id, cache.keeps id = true → (view.get world).keeps id = true ∨ world.alive id = true) :
    Backed got (view.store notes cache world) := by
  rw [CacheView.store, shelf.note]
  exact (backed.set shelf keeps).stays ⟨rfl, rfl, rfl, rfl⟩

section views

variable [DecidableEq κ] {key : κ}

theorem ask (backed : Backed got world) (shelf : Shelf view) (thread : Nat) (key : κ) :
    Backed got (view.ask thread key world).2 := backed.store shelf _ fun _ kept => .inl (Cache.keeps_of_ask kept)

/-- What is found is alive. -/
theorem found {thread : Nat} (backed : Backed got world) (shelf : Shelf view)
    (hit : view.ask thread key world = (.hit id, after)) : Backed (id :: got) (World.hold id after) := by
  have asked := backed.ask shelf thread key
  rw [hit] at asked
  refine asked.hold ?_
  obtain ⟨value, -, live, run⟩ | ⟨asked', notes, cache', run, -, -, state⟩ :=
    (view.get world).ask_cases (view.alive world) thread key
  · rw [CacheView.ask, run] at hit
    obtain ⟨⟨⟩, rfl⟩ := Prod.mk.inj hit
    rw [shelf.alive] at live
    have heap : (view.store [.hit] (view.get world) world).heap = world.heap := by cases shelf <;> rfl
    rwa [World.alive, heap]
  · rw [CacheView.ask, run] at hit
    obtain ⟨rfl, -⟩ := Prod.mk.inj hit
    obtain ⟨⟨⟨⟩⟩ | ⟨⟨⟩⟩, -⟩ | ⟨⟨⟩, -⟩ := state

/-- A living thing enters a cache. -/
theorem settle (backed : Backed got world) (shelf : Shelf view) (live : world.alive id = true) :
    Backed got (view.settle key id world) := by
  unfold CacheView.settle
  rw [shelf.letGo]
  refine Backed.reap (backed.store shelf _ fun other kept => ?_) _
  obtain before | rfl := Cache.keeps_of_settle kept
  · exact .inl before
  · exact .inr live

theorem abandon (backed : Backed got world) (shelf : Shelf view) (key : κ) : Backed got (view.abandon key world) :=
  backed.set shelf fun _ kept => .inl kept

theorem get? (backed : Backed got world) (shelf : Shelf view) (key : κ) :
    Backed ((view.get? key world).1.toList ++ got) (view.get? key world).2 := by
  unfold CacheView.get?
  rw [shelf.hold]
  refine holdAll (backed.store shelf _ fun _ kept => .inl (Cache.keeps_of_get? kept)) fun id among => ?_
  have heap (notes : List (Note κ)) (cache : Cache κ ThingId) : (view.store notes cache world).heap = world.heap := by
    cases shelf <;> rfl
  have live := Cache.alive_of_get? (Option.mem_toList.mp among)
  rw [shelf.alive] at live
  rwa [World.alive, heap]

theorem evict (backed : Backed got world) (shelf : Shelf view) (key : κ) :
    Backed ((view.evict key world).1.toList ++ got) (view.evict key world).2 := by
  unfold CacheView.evict
  rw [shelf.hold]
  have live {id : ThingId} (among : id ∈ ((view.get world).evict (view.alive world) key).1.toList) : world.alive id = true := by
    have live := Cache.alive_of_evict (Option.mem_toList.mp among)
    rwa [shelf.alive] at live
  have holding := backed.holdAll fun _ among => live among
  refine holding.store shelf _ fun id kept => .inl ?_
  have get : view.get (((view.get world).evict (view.alive world) key).1.toList.foldl
      (fun world id => World.hold id world) world) = view.get world := shelf.get_congr (by rw [foldl_hold])
  rw [get]
  exact Cache.keeps_of_evict kept

omit [DecidableEq κ] in
theorem purge (backed : Backed got world) (shelf : Shelf view) : Backed got (view.purge world).2 := by
  refine backed.store shelf _ fun id kept => .inl ?_
  have fewer : ((view.get world).purge (view.alive world)).2.2.table ⊆ (view.get world).table :=
    fun _ among => (List.mem_filter.mp among).1
  exact Cache.keeps_of_fewer fewer rfl rfl kept

omit [DecidableEq κ] in
theorem relieve (backed : Backed got world) (shelf : Shelf view) : Backed got (view.relieve world).2 := by
  unfold CacheView.relieve
  rw [shelf.letGo]
  refine Backed.reap (backed.set shelf fun id kept => .inl ?_) _
  rw [Cache.keeps_iff] at kept ⊢
  exact .inr (kept.resolve_left List.not_mem_nil)

end views

/-! ## All changes -/

theorem edit (backed : Backed got world) (edit : Edit got world got' after) : Backed got' after := by
  cases edit with
  | perm same => exact backed.perm same
  | less => exact backed.less
  | counted | asked | gated | typmods => exact backed.stays ⟨rfl, rfl, rfl, rfl⟩
  | tied id f refs => exact backed.onTies refs
  | marked id => exact backed.mark
  | kept id index cell _ => exact backed.keep fun other among => backed.holding (List.mem_append_left _ among)
  | served id spec peeked _ => exact backed.holdAll fun other among => backed.lives other (wanted_of_peek peeked among)
  | @owned _ _ id relation entity found among =>
    refine backed.hold (backed.lives relation (.inr (.inr ⟨id, .entity entity, entity?_eq_some.mp found, ?_⟩)))
    exact Thing.mem_refs.mpr (.inr ⟨entity, rfl, among⟩)
  | released id => exact backed.release
  | added fresh => exact backed.add fun other refers => backed.holding (fresh.refs other refers)
  | sought shelf _ thread key => exact backed.ask shelf thread key
  | found shelf _ hit => exact backed.found shelf hit
  | made shelf _ fresh _ =>
    exact (backed.add fun other refers => backed.holding (fresh.refs other refers)).settle shelf (alive_add world _)
  | abandoned shelf _ key => exact backed.abandon shelf key
  | got? shelf _ key => exact backed.get? shelf key
  | evicted shelf _ key => exact backed.evict shelf key
  | dismissed address => exact (backed.evict .descriptors address).releaseAll
  | purged shelf => exact backed.purge shelf
  | relieved shelf => exact backed.relieve shelf

/-- Whatever changes, what is referred to lives. -/
theorem touch (backed : Backed got world) (touch : Touch got world got' after) : Backed got' after := by
  cases touch with
  | edit edit => exact backed.edit edit
  | stays stays => exact backed.stays stays
  | sought address => exact backed.ask .descriptors mutatorThread address
  | found hit => exact backed.found .descriptors hit
  | @made _ _ _ thing refs _ =>
    exact (backed.add fun other refers => by simp [refs] at refers).settle .descriptors (alive_add world thing)
  | abandoned address => exact backed.abandon .descriptors address
  | served id peeked => exact backed.holdAll fun other among => backed.lives other (wanted_of_peek peeked among)
  | kept id cell => exact backed.keep fun other among => backed.holding (List.mem_append_left _ among)
  | pinned id live => exact (backed.hold live).less
  | dropped id => exact backed.unhold fun _ => Nat.zero_le _
  | emptied =>
    have blank : Backed got { world with caches := .blank world.config } :=
      backed.still rfl backed.mine (fun _ among => .inl among) fun id kept => by
        cases (keeps_blank world.config id).symm.trans kept
    exact blank.reap _

end Backed

end World

namespace Operation

open World (Backed)

variable {world : World} {config : Config}

theorem apply_backed (operation : Operation) (backed : Backed [] world) : Backed [] (operation.apply world) :=
  (operation.touched world).keeps (fun backed touch => backed.touch touch) backed

/-- Whatever ran and whatever the provider did meanwhile, what is referred to lives. -/
theorem Reached.backed (reached : Reached config world) : Backed [] world := by
  induction reached with
  | start =>
    refine ⟨fun _ => Nat.le_refl _, fun id wanted => ?_⟩
    obtain among | kept | ⟨_, _, there, -⟩ := wanted
    · cases among
    · cases (World.keeps_blank config id).symm.trans kept
    · cases there
  | step operation _ _ backed => exact apply_backed operation backed
  | served provider _ backed => exact backed.stays ⟨rfl, rfl, rfl, rfl⟩

end Operation

end CatalogReplica.Catalog
