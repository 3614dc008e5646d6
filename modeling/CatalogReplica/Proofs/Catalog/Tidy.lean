import CatalogReplica.Proofs.Catalog.Altering
import CatalogReplica.Proofs.Identity.Retaining

/-!
# Nothing lives without a reason

Between operations everything that lives is referred to: someone holds it, an identity cache
keeps it alive, or another living thing refers to it.  Whatever takes a reference away reaps
what it referred to, and reaping goes on until nothing is left that could go.

* `World.Wanted`: what refers to a thing.
* `World.Tidy`: everything that lives is wanted, up to some things that are about to be reaped.
* `World.Tidy.reap`: reaping leaves nothing unwanted.
* `World.Tidy.edit`, `World.Tidy.batched`: lookups, reads, signals and clean-up leave nothing
  unwanted.
-/

namespace CatalogReplica.Catalog.World

open Coherence (SlotTable)
open Identity (Cache CacheView Note)

variable {κ : Type} {view : CacheView World κ ThingId} {cache : Cache κ ThingId} {slack slack' spare got : List ThingId}
  {world after : World} {id : ThingId}

/-! ## What refers to things -/

/-- Someone holds the thing, a cache keeps it alive, or a living thing refers to it. -/
def Wanted (world : World) (id : ThingId) : Prop :=
  id ∈ world.held ∨ world.caches.keeps id = true ∨ ∃ other thing, world.thing? other = some thing ∧ id ∈ thing.refs

theorem keeps_iff : world.caches.keeps id = true ↔
    ∃ (κ : Type) (view : CacheView World κ ThingId), Shelf view ∧ (view.get world).keeps id = true := by
  unfold Caches.keeps
  simp only [Bool.or_eq_true, List.any_eq_true]
  constructor
  · rintro ((⟨kind, -, keeps⟩ | keeps) | keeps)
    · exact ⟨_, _, .entities kind, keeps⟩
    · exact ⟨_, _, .descriptors, keeps⟩
    · exact ⟨_, _, .encodings, keeps⟩
  · rintro ⟨κ, view, shelf, keeps⟩
    cases shelf with
    | entities kind => exact .inl (.inl ⟨kind, by cases kind <;> decide, keeps⟩)
    | descriptors => exact .inl (.inr keeps)
    | encodings => exact .inr keeps

theorem referenced_iff (once : world.heap.ids.Nodup) : world.referenced id = true ↔ world.Wanted id := by
  unfold referenced Wanted
  simp only [Bool.or_eq_true, List.any_eq_true, List.contains_iff_mem, or_assoc]
  refine or_congr_right (or_congr_right ⟨?_, ?_⟩)
  · rintro ⟨⟨other, thing⟩, among, refers⟩
    exact ⟨other, thing, Numbered.get?_of_mem once among, refers⟩
  · rintro ⟨other, thing, found, refers⟩
    exact ⟨(other, thing), Numbered.mem_of_get? found, refers⟩

/-- Everything that lives is wanted, but for the slack; caches are shared, and keep only living
    things alive. -/
structure Tidy (slack : List ThingId) (world : World) : Prop where
  once : world.heap.ids.Nodup
  below : ∀ id ∈ world.heap.ids, id < world.nextThing
  wanted : ∀ id, world.alive id = true → world.Wanted id ∨ id ∈ slack
  shelves : ∀ {κ : Type} {view : CacheView World κ ThingId}, Shelf view → (view.get world).Shelved world.alive

/-- Things, who holds them and caches are as they were. -/
structure Stays (before after : World) : Prop where
  heap : after.heap = before.heap
  held : after.held = before.held
  caches : after.caches = before.caches
  nextThing : after.nextThing = before.nextThing

namespace Stays

theorem thing? (stays : Stays world after) : after.thing? = world.thing? := by
  funext id
  rw [World.thing?, World.thing?, stays.heap]

theorem alive (stays : Stays world after) : after.alive = world.alive := by
  funext id
  rw [World.alive, World.alive, stays.heap]

theorem onLedger {α : Type} (body : Task Lifetime.Ledger α) (world : World) :
    (World.onLedger body).Ends world fun _ after => Stays world after := by
  unfold Task.Ends World.onLedger Task.within
  cases body world.ledger <;> exact ⟨rfl, rfl, rfl, rfl⟩

theorem dropGuard (thing : Thing) (world : World) : Stays world (World.dropGuard thing world) := by
  unfold World.dropGuard
  split
  · exact (onLedger _ world).exec
  · exact ⟨rfl, rfl, rfl, rfl⟩

end Stays

namespace Shelf

/-- The caches are as they were, and what they keep alive lives. -/
theorem shelved (shelf : Shelf view) (shelved : (view.get world).Shelved world.alive) (caches : after.caches = world.caches)
    (live : ∀ id ∈ (view.get world).soft, world.alive id = true → after.alive id = true) :
    (view.get after).Shelved after.alive := by
  rw [shelf.get_congr caches]
  exact ⟨shelved.unique, shelved.shared, fun id kept => live id kept (shelved.soft id kept)⟩

/-- A cache is replaced by one that keeps alive what the other did, and the others stay. -/
theorem retains_set (shelf : Shelf view) (tidy : Tidy slack world)
    (retains : Cache.Retains world.alive spare (view.get world) cache) {κ' : Type} {view' : CacheView World κ' ThingId}
    (shelf' : Shelf view') :
    Cache.Retains world.alive spare (view'.get world) (view'.get (view.set cache world)) := by
  have stays := Cache.Retains.refl (tidy.shelves shelf') spare
  cases shelf with
  | entities kind =>
    cases shelf' with
    | entities kind' => cases kind <;> cases kind' <;> first | exact retains | exact stays
    | descriptors => cases kind <;> exact stays
    | encodings => cases kind <;> exact stays
  | descriptors =>
    cases shelf' with
    | entities kind' => cases kind' <;> exact stays
    | descriptors => exact retains
    | encodings => exact stays
  | encodings =>
    cases shelf' with
    | entities kind' => cases kind' <;> exact stays
    | descriptors => exact stays
    | encodings => exact retains

end Shelf

/-- What is added lives. -/
theorem alive_add (world : World) (thing : Thing) : (world.add thing).2.alive world.nextThing = true := by
  rw [alive_iff, thing?_add, if_pos rfl]
  cases world.thing? world.nextThing with
  | none => exact ⟨thing, rfl⟩
  | some other => exact ⟨other, rfl⟩

namespace Tidy

theorem stays (tidy : Tidy slack world) (stays : Stays world after) : Tidy slack after := by
  refine ⟨stays.heap ▸ tidy.once, ?_, fun id live => (tidy.wanted id (stays.alive ▸ live)).imp_left ?_, fun shelf => ?_⟩
  · rw [stays.heap, stays.nextThing]
    exact tidy.below
  · unfold Wanted
    rw [stays.held, stays.thing?, stays.caches]
    exact fun wanted => wanted
  · exact shelf.shelved (tidy.shelves shelf) stays.caches fun id _ live => by rwa [stays.alive]

/-! ## Holding -/

theorem hold (tidy : Tidy slack world) (id : ThingId) : Tidy slack (World.hold id world) := by
  refine ⟨tidy.once, tidy.below, fun other live => (tidy.wanted other live).imp_left ?_, fun shelf =>
    shelf.shelved (tidy.shelves shelf) rfl fun _ _ live => live⟩
  exact fun wanted => wanted.imp_left (List.mem_cons_of_mem _)

theorem holdAll (tidy : Tidy slack world) (ids : List ThingId) :
    Tidy slack (ids.foldl (fun world id => World.hold id world) world) := by
  induction ids generalizing world with
  | nil => exact tidy
  | cons id ids ih => exact ih (tidy.hold id)

/-- What is held is wanted. -/
theorem held (tidy : Tidy (spare ++ slack) world) (held : ∀ id ∈ spare, id ∈ world.held) : Tidy slack world :=
  { tidy with wanted := fun id live => (tidy.wanted id live).elim .inl fun among =>
      (List.mem_append.mp among).imp_left fun spare => .inl (held id spare) }

theorem unhold (tidy : Tidy slack world) (id : ThingId) : Tidy (id :: slack) { world with held := world.held.erase id } := by
  refine ⟨tidy.once, tidy.below, fun other live => ?_, fun shelf => shelf.shelved (tidy.shelves shelf) rfl fun _ _ live => live⟩
  obtain (held | kept) | spare := tidy.wanted other live
  · by_cases same : other = id
    · exact .inr (List.mem_cons.mpr (.inl same))
    · exact .inl (.inl ((List.mem_erase_of_ne same).mpr held))
  · exact .inl (.inr kept)
  · exact .inr (List.mem_cons_of_mem _ spare)

/-! ## Reaping -/

/-- How much there is to reap: things, and what they refer to. -/
def weight : Numbered Thing → Nat
  | [] => 0
  | entry :: heap => weight heap + (entry.2.refs.length + 1)

theorem weight_eq (heap : Numbered Thing) :
    heap.foldl (fun total entry => total + entry.2.refs.length + 1) 0 = weight heap := by
  suffices all : ∀ total, heap.foldl (fun total entry => total + entry.2.refs.length + 1) total = total + weight heap by
    rw [all, Nat.zero_add]
  induction heap with
  | nil => exact fun _ => rfl
  | cons entry heap ih =>
    intro total
    rw [List.foldl_cons, ih, weight]
    omega

theorem weight_le_of_sublist {fewer all : Numbered Thing} (sublist : fewer.Sublist all) : weight fewer ≤ weight all := by
  induction sublist with
  | slnil => exact Nat.le_refl _
  | cons _ _ ih => exact Nat.le_trans ih (Nat.le_add_right _ _)
  | cons_cons _ _ ih => exact Nat.add_le_add_right ih _

/-- A thing that goes leaves less to reap, and that by what it referred to. -/
theorem weight_erase {heap : Numbered Thing} {thing : Thing} (found : heap.get? id = some thing) :
    weight (heap.erase id) + thing.refs.length + 1 ≤ weight heap := by
  unfold Numbered.erase
  induction heap with
  | nil => cases found
  | cons entry heap ih =>
    obtain ⟨key, first⟩ := entry
    rw [Numbered.get?, List.lookup_cons] at found
    rw [weight, List.filter_cons]
    have fewer : weight (heap.filter fun entry => entry.1 != id) ≤ weight heap := weight_le_of_sublist List.filter_sublist
    by_cases same : key = id
    · subst same
      rw [beq_self_eq_true] at found
      cases found
      simp only [bne_self_eq_false, Bool.false_eq_true, if_false]
      omega
    · have skip : (id == key) = false := by simpa using Ne.symm same
      rw [skip] at found
      have rest := ih found
      simp only [bne_iff_ne, ne_eq, same, not_false_eq_true, if_true, weight]
      omega

/-- A thing that nothing refers to goes, and leaves behind what it referred to. -/
theorem erase {thing : Thing} (tidy : Tidy slack world) (found : world.thing? id = some thing)
    (unwanted : ¬ world.Wanted id) : Tidy (thing.refs ++ slack.erase id) { world with heap := world.heap.erase id } := by
  have thing? (other : ThingId) : ({ world with heap := world.heap.erase id } : World).thing? other
      = if other = id then none else world.thing? other := Numbered.get?_erase world.heap id other
  have alive {other : ThingId} : ({ world with heap := world.heap.erase id } : World).alive other = true ↔
      other ≠ id ∧ world.alive other = true := by
    rw [alive_iff, alive_iff, thing?]
    by_cases same : other = id <;> simp [same]
  have fewer : (world.heap.erase id).ids.Sublist world.heap.ids := List.filter_sublist.map _
  refine ⟨tidy.once.sublist fewer, fun other among => tidy.below other (fewer.subset among), fun other live => ?_, fun shelf => ?_⟩
  · obtain ⟨differs, lives⟩ := alive.mp live
    obtain (held | kept | ⟨from', other', there, refers⟩) | spare := tidy.wanted other lives
    · exact .inl (.inl held)
    · exact .inl (.inr (.inl kept))
    · by_cases same : from' = id
      · subst same
        cases found.symm.trans there
        exact .inr (List.mem_append_left _ refers)
      · exact .inl (.inr (.inr ⟨from', other', by rw [thing?, if_neg same, there], refers⟩))
    · exact .inr (List.mem_append_right _ ((List.mem_erase_of_ne differs).mpr spare))
  · refine shelf.shelved (tidy.shelves shelf) rfl fun other soft lives => alive.mpr ⟨?_, lives⟩
    rintro rfl
    exact unwanted (.inr (.inl (keeps_iff.mpr ⟨_, _, shelf, Cache.keeps_iff.mpr (.inl soft)⟩)))

theorem reapWithin {steps : Nat} {ids : List ThingId} (tidy : Tidy ids world) (enough : weight world.heap + ids.length ≤ steps) :
    Tidy [] (World.reapWithin steps ids world) := by
  -- On the steps: an erased thing adds its references to the list, and the weight pays for them.
  induction steps generalizing ids world with
  | zero =>
    obtain rfl : ids = [] := List.eq_nil_of_length_eq_zero (by omega)
    exact tidy
  | succ steps ih =>
    cases ids with
    | nil => exact tidy
    | cons id ids =>
      -- A thing still wanted leaves the list without a trace.
      have skip (wanted : world.alive id = true → world.Wanted id) : Tidy ids world := by
        refine { tidy with wanted := fun other live => ?_ }
        obtain before | among := tidy.wanted other live
        · exact .inl before
        · obtain rfl | later := List.mem_cons.mp among
          · exact .inl (wanted live)
          · exact .inr later
      rw [List.length_cons] at enough
      unfold World.reapWithin
      cases found : world.thing? id with
      | none =>
        refine ih (skip fun live => ?_) (by omega)
        obtain ⟨thing, there⟩ := alive_iff.mp live
        cases found.symm.trans there
      | some thing =>
        dsimp only
        cases referenced : world.referenced id with
        | true => exact ih (skip fun _ => (referenced_iff tidy.once).mp referenced) (by omega)
        | false =>
          have unwanted : ¬ world.Wanted id := fun wanted => by
            cases referenced.symm.trans ((referenced_iff tidy.once).mpr wanted)
          have erased := tidy.erase found unwanted
          rw [List.erase_cons_head] at erased
          have dropped := Stays.dropGuard thing { world with heap := world.heap.erase id }
          have less : weight (world.heap.erase id) + thing.refs.length + 1 ≤ weight world.heap := weight_erase found
          refine ih (erased.stays dropped) ?_
          rw [dropped.heap, List.length_append]
          dsimp only
          omega

/-- Reaping leaves nothing unwanted. -/
theorem reap {ids : List ThingId} (tidy : Tidy ids world) : Tidy [] (World.reap ids world) := by
  unfold World.reap
  refine tidy.reapWithin (Nat.le_of_eq ?_)
  rw [weight_eq]

/-- Where everything is wanted there is nothing to reap. -/
theorem reap_nothing (tidy : Tidy [] world) (ids : List ThingId) : World.reap ids world = world := by
  suffices nothing : ∀ steps, World.reapWithin steps ids world = world from nothing _
  intro steps
  induction steps generalizing ids with
  | zero => rfl
  | succ steps ih =>
    cases ids with
    | nil => rfl
    | cons id ids =>
      unfold World.reapWithin
      cases found : world.thing? id with
      | none => exact ih ids
      | some thing =>
        have wanted := (tidy.wanted id (alive_iff.mpr ⟨thing, found⟩)).resolve_right List.not_mem_nil
        dsimp only
        rw [(referenced_iff tidy.once).mpr wanted, if_pos rfl]
        exact ih ids

/-- What is held for a while stays as it is. -/
theorem release_hold (tidy : Tidy [] world) (id : ThingId) : World.release id (World.hold id world) = world := by
  unfold World.release
  rw [show (World.hold id world).held = id :: world.held from rfl, List.erase_cons_head]
  exact tidy.reap_nothing [id]

theorem release (tidy : Tidy [] world) (id : ThingId) : Tidy [] (World.release id world) := (tidy.unhold id).reap

theorem releaseAll (tidy : Tidy [] world) (ids : List ThingId) :
    Tidy [] (ids.foldl (fun world id => World.release id world) world) := by
  induction ids generalizing world with
  | nil => exact tidy
  | cons id ids ih => exact ih (tidy.release id)

/-! ## Changes of things -/

/-- A thing changes, and what it does not refer to any more is to be reaped. -/
theorem onThing {f : Thing → Thing} (tidy : Tidy slack world) (among : slack ⊆ slack')
    (refs : ∀ thing, world.thing? id = some thing → ∀ other ∈ thing.refs, other ∈ (f thing).refs ∨ other ∈ slack') :
    Tidy slack' (World.onThing id f world) := by
  have ids : (World.onThing id f world).heap.ids = world.heap.ids := Numbered.ids_update world.heap id f
  refine ⟨ids ▸ tidy.once, ids ▸ tidy.below, fun other live => ?_, fun shelf => ?_⟩
  · rw [alive_onThing] at live
    obtain (held | kept | ⟨from', thing, there, refers⟩) | spare := tidy.wanted other live
    · exact .inl (.inl held)
    · exact .inl (.inr (.inl kept))
    · by_cases same : from' = id
      · subst same
        refine (refs thing there other refers).imp_left fun refers => .inr (.inr ⟨from', f thing, ?_, refers⟩)
        rw [thing?_onThing, if_pos rfl, there, Option.map_some]
      · exact .inl (.inr (.inr ⟨from', thing, by rw [thing?_onThing, if_neg same, there], refers⟩))
    · exact .inr (among spare)
  · exact shelf.shelved (tidy.shelves shelf) rfl fun other _ live => (alive_onThing world id other f).trans live

theorem onTies {f : Ties → Ties} (tidy : Tidy slack world) (id : ThingId) (refs : ∀ ties, (f ties).refs = ties.refs) :
    Tidy slack (World.onThing id (Thing.onTies f) world) := by
  refine tidy.onThing (List.Subset.refl _) fun thing _ other refers => .inl ?_
  cases thing with
  | entity entity =>
    rw [Thing.onTies, Thing.refs, refs]
    exact refers
  | encoding => exact refers
  | descriptor => exact refers

/-- The slots of a thing change. -/
theorem onTable (tidy : Tidy [] world) (id : ThingId) (f : SlotTable Datum → SlotTable Datum) :
    Tidy [] (World.onTable id f world) := by
  refine reap (tidy.onThing nofun fun thing found other refers => .inr ?_)
  rw [found]
  exact refers

/-- A thing is added and held. -/
theorem add (tidy : Tidy slack world) (thing : Thing) : Tidy slack (world.add thing).2 := by
  have still {other : ThingId} {found : Thing} (there : world.thing? other = some found) :
      (world.add thing).2.thing? other = some found := by rw [thing?_add, there, Option.some_or]
  refine ⟨Numbered.nodup_add tidy.once tidy.below thing, Numbered.below_add tidy.below thing, fun other live => ?_, fun shelf => ?_⟩
  · by_cases new : other = world.nextThing
    · exact .inl (.inl (new ▸ List.mem_cons_self))
    · have lives : world.alive other = true := by
        obtain ⟨found, there⟩ := alive_iff.mp live
        rw [thing?_add, if_neg new, Option.or_none] at there
        exact alive_iff.mpr ⟨found, there⟩
      obtain (held | kept | ⟨from', other', there, refers⟩) | spare := tidy.wanted other lives
      · exact .inl (.inl (List.mem_cons_of_mem _ held))
      · exact .inl (.inr (.inl kept))
      · exact .inl (.inr (.inr ⟨from', other', still there, refers⟩))
      · exact .inr spare
  · refine shelf.shelved (tidy.shelves shelf) rfl fun other _ live => ?_
    obtain ⟨found, there⟩ := alive_iff.mp live
    exact alive_iff.mpr ⟨found, still there⟩

/-! ## Changes of caches -/

/-- A cache is replaced by another one, and what it does not keep alive any more is to be reaped. -/
theorem set (tidy : Tidy slack world) (shelf : Shelf view)
    (retains : Cache.Retains world.alive spare (view.get world) cache) : Tidy (spare ++ slack) (view.set cache world) := by
  have same : (view.set cache world).heap = world.heap ∧ (view.set cache world).held = world.held ∧
      (view.set cache world).nextThing = world.nextThing := by cases shelf <;> exact ⟨rfl, rfl, rfl⟩
  obtain ⟨heap, held, next⟩ := same
  have alive : (view.set cache world).alive = world.alive := by
    funext id
    rw [World.alive, World.alive, heap]
  refine ⟨heap ▸ tidy.once, ?_, fun id live => ?_, fun shelf' => ?_⟩
  · rw [heap, next]
    exact tidy.below
  · rw [alive] at live
    obtain (among | kept | link) | spare := tidy.wanted id live
    · exact .inl (.inl (held ▸ among))
    · obtain ⟨κ', view', shelf', keeps⟩ := keeps_iff.mp kept
      refine ((shelf.retains_set tidy retains shelf').keeps id live keeps).imp (fun keeps => ?_) (List.mem_append_left _)
      exact .inr (.inl (keeps_iff.mpr ⟨κ', view', shelf', keeps⟩))
    · refine .inl (.inr (.inr ?_))
      unfold World.thing? at link ⊢
      rwa [heap]
    · exact .inr (List.mem_append_right _ spare)
  · rw [alive]
    exact (shelf.retains_set tidy retains shelf').shelved

theorem store (tidy : Tidy slack world) (shelf : Shelf view) (notes : List (Note κ))
    (retains : Cache.Retains world.alive spare (view.get world) cache) :
    Tidy (spare ++ slack) (view.store notes cache world) := by
  rw [CacheView.store, shelf.note]
  exact (tidy.set shelf retains).stays ⟨rfl, rfl, rfl, rfl⟩

section views

variable [DecidableEq κ] {key : κ}

/-- A key is looked up. -/
theorem ask (tidy : Tidy slack world) (shelf : Shelf view) (thread : Nat) (key : κ) :
    Tidy slack (view.ask thread key world).2 := by
  unfold CacheView.ask
  rw [shelf.alive]
  exact tidy.store shelf _ (.ask (tidy.shelves shelf) thread key : Cache.Retains _ [] _ _)

/-- A living thing enters a cache. -/
theorem settle (tidy : Tidy [] world) (shelf : Shelf view) (lives : world.alive id = true)
    (absent : ∀ entry ∈ (view.get world).table, entry.1 ≠ key) : Tidy [] (view.settle key id world) := by
  unfold CacheView.settle
  rw [shelf.alive, shelf.letGo]
  have stored := tidy.store shelf ((view.get world).settle world.alive key id).2.1
    (.settle (tidy.shelves shelf) lives absent)
  rw [List.append_nil] at stored
  exact stored.reap

theorem abandon (tidy : Tidy slack world) (shelf : Shelf view) (key : κ) : Tidy slack (view.abandon key world) :=
  tidy.set shelf (.abandon (tidy.shelves shelf) key : Cache.Retains _ [] _ _)

theorem get? (tidy : Tidy slack world) (shelf : Shelf view) (key : κ) : Tidy slack (view.get? key world).2 := by
  obtain ⟨notes, run⟩ := (tidy.shelves shelf).get? key
  unfold CacheView.get?
  rw [shelf.alive, run, shelf.hold]
  exact (tidy.store shelf notes (.refl (tidy.shelves shelf) [])).holdAll _

/-- A key leaves a cache, and what it stood for is held. -/
theorem evict (tidy : Tidy slack world) (shelf : Shelf view) (key : κ) : Tidy slack (view.evict key world).2 := by
  let found := ((view.get world).evict world.alive key).1.toList
  let holding := found.foldl (fun world id => World.hold id world) world
  have same : holding = { world with held := found.reverse ++ world.held } := foldl_hold found world
  have get : view.get holding = view.get world := shelf.get_congr (by rw [same])
  have retains : Cache.Retains holding.alive found (view.get holding) ((view.get world).evict world.alive key).2.2 := by
    rw [get, show holding.alive = world.alive by rw [same]; rfl]
    exact .evict (tidy.shelves shelf) key
  have stored := (tidy.holdAll found).store shelf ((view.get world).evict world.alive key).2.1 retains
  unfold CacheView.evict
  rw [shelf.alive, shelf.hold]
  refine stored.held fun id among => ?_
  have held : (view.store ((view.get world).evict world.alive key).2.1 ((view.get world).evict world.alive key).2.2
      holding).held = holding.held := by cases shelf <;> rfl
  rw [held, same]
  exact List.mem_append_left _ (List.mem_reverse.mpr among)

omit [DecidableEq κ] in
theorem purge (tidy : Tidy slack world) (shelf : Shelf view) : Tidy slack (view.purge world).2 := by
  unfold CacheView.purge
  rw [shelf.alive]
  exact tidy.store shelf _ (.purge (tidy.shelves shelf) : Cache.Retains _ [] _ _)

omit [DecidableEq κ] in
theorem relieve (tidy : Tidy [] world) (shelf : Shelf view) : Tidy [] (view.relieve world).2 := by
  unfold CacheView.relieve
  rw [shelf.letGo]
  have stored := tidy.set shelf (.relieve (tidy.shelves shelf))
  rw [List.append_nil] at stored
  exact stored.reap

end views

/-! ## Edits -/

/-- Every edit leaves nothing unwanted. -/
theorem edit {got' : List ThingId} (tidy : Tidy [] world) (edit : Edit got world got' after) : Tidy [] after := by
  cases edit with
  | perm _ | less => exact tidy
  | counted | asked | gated | typmods => exact tidy.stays ⟨rfl, rfl, rfl, rfl⟩
  | tied id f refs => exact tidy.onTies id refs
  | marked id => exact tidy.onTable id _
  | kept id index cell _ => exact tidy.onTable id _
  | served _ _ _ _ => exact tidy.holdAll _
  | owned _ _ => exact tidy.hold _
  | released id => exact tidy.release id
  | added _ => exact tidy.add _
  | sought shelf _ thread key => exact tidy.ask shelf thread key
  | @found _ _ view shelf _ _ _ _ thread key id hit =>
    have asked := tidy.ask shelf thread key
    rw [hit] at asked
    exact asked.hold id
  | @made _ _ view shelf _ _ _ key thing _ absent =>
    have get : view.get (world.add thing).2 = view.get world := shelf.get_congr rfl
    exact (tidy.add thing).settle shelf (alive_add world thing) (get ▸ absent)
  | abandoned shelf _ key => exact tidy.abandon shelf key
  | got? shelf _ key => exact tidy.get? shelf key
  | evicted shelf _ key => exact tidy.evict shelf key
  | dismissed address => exact (tidy.evict .descriptors address).releaseAll _
  | purged shelf => exact tidy.purge shelf
  | relieved shelf => exact tidy.relieve shelf

theorem edits {got' : List ThingId} (tidy : Tidy [] world) (edits : Edits got world got' after) : Tidy [] after :=
  @Edits.keeps (fun _ world => Tidy [] world) (fun tidy edit => tidy.edit edit) _ _ _ _ tidy edits

/-- Signals leave nothing unwanted. -/
theorem batched {got' : List ThingId} {trips : Coherence.Batch} (tidy : Tidy [] world)
    (batched : Batched got world trips got' after) : Tidy [] after :=
  @Batched.keeps (fun _ _ world => Tidy [] world) (fun tidy edit => tidy.edit edit)
    (fun _ tidy => tidy.stays ⟨rfl, rfl, rfl, rfl⟩) (fun tidy => tidy.stays ⟨rfl, rfl, rfl, rfl⟩) _ _ _ _ _ tidy batched

end Tidy

end CatalogReplica.Catalog.World
