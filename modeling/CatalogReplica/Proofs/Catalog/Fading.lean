import CatalogReplica.Proofs.Catalog.Upkeep

/-!
# What only takes away

Signals, clean-up, native resources and callers that let go take things, memos and entries away
and add none.  What is said of all things, of all that they keep, and of all entries of caches
lasts through them.

* `Thing.Keeps`, `Thing.Tied`: what a thing refers to, and from where.
* `Thing.Fades`, `World.Fades`: nothing was added.
* `World.Fades.dispatch`: a burst is delivered.
* `World.Fades.purge`, `World.Fades.relieve`, `World.Fades.closeIfUnheld`: clean-up.
-/

namespace CatalogReplica.Catalog

open Coherence (SlotTable)
open Identity (Cache CacheView Note)

/-! ## Things -/

namespace Thing

/-- The thing keeps the value in a slot, valid or not. -/
def Keeps (thing : Thing) (index : Nat) (datum : Datum) : Prop :=
  ∃ table memo, thing.table? = some table ∧ table.memo? index = some memo ∧ memo.value = datum

/-- The ties of the thing refer to the other one. -/
def Tied (thing : Thing) (id : ThingId) : Prop := ∃ entity, thing.entity? = some entity ∧ id ∈ entity.ties.refs

/-- A thing refers to what it keeps and to what it is tied to. -/
theorem mem_refs {thing : Thing} {id : ThingId} :
    id ∈ thing.refs ↔ (∃ index datum, thing.Keeps index datum ∧ id ∈ datum.refs) ∨ thing.Tied id := by
  have kept (table : SlotTable Datum) (has : thing.table? = some table) :
      id ∈ table.kept.flatMap (·.value.refs) ↔ ∃ index datum, thing.Keeps index datum ∧ id ∈ datum.refs := by
    simp only [List.mem_flatMap, SlotTable.mem_kept, Keeps]
    constructor
    · rintro ⟨memo, ⟨index, found⟩, among⟩
      exact ⟨index, memo.value, ⟨table, memo, has, found, rfl⟩, among⟩
    · rintro ⟨index, _, ⟨table', memo, has', found, rfl⟩, among⟩
      cases has.symm.trans has'
      exact ⟨memo, ⟨index, found⟩, among⟩
  cases thing with
  | entity entity => simp [← kept entity.table rfl, refs, Tied, Thing.entity?]
  | encoding number table => simp [← kept table rfl, refs, Tied, Thing.entity?]
  | descriptor descriptor => simp [refs, Tied, Keeps, Thing.entity?, Thing.table?]

/-- What a thing keeps once a slot of it was filled. -/
theorem keeps_keep {thing : Thing} {index other : Nat} {memo : Coherence.Memo Datum} {datum : Datum}
    (keeps : (thing.onTable (·.keep index memo)).Keeps other datum) :
    other = index ∧ datum = memo.value ∨ thing.Keeps other datum := by
  obtain ⟨_, found, has, its, rfl⟩ := keeps
  have table : ∃ table, thing.table? = some table ∧ (table.keep index memo).memo? other = some found := by
    cases thing with
    | entity entity => cases has; exact ⟨_, rfl, its⟩
    | encoding number table => cases has; exact ⟨_, rfl, its⟩
    | descriptor descriptor => cases has
  obtain ⟨table, was, its⟩ := table
  obtain ⟨rfl, rfl⟩ | before := memo?_keep_cases its
  · exact .inl ⟨rfl, rfl⟩
  · exact .inr ⟨table, found, was, before, rfl⟩

/-- The same thing, which keeps no value and has no tie that it did not have before. -/
structure Fades (before after : Thing) : Prop where
  same : before.Same after
  keeps : ∀ index datum, after.Keeps index datum → before.Keeps index datum
  tied : ∀ id, after.Tied id → before.Tied id

namespace Fades

theorem refl (thing : Thing) : thing.Fades thing := ⟨.refl thing, fun _ _ keeps => keeps, fun _ tied => tied⟩

theorem trans {one two three : Thing} (first : one.Fades two) (second : two.Fades three) : one.Fades three :=
  ⟨first.same.trans second.same, fun index datum keeps => first.keeps index datum (second.keeps index datum keeps),
    fun id tied => first.tied id (second.tied id tied)⟩

theorem onTies {f : Ties → Ties} (refs : ∀ ties, (f ties).refs = ties.refs) (thing : Thing) : thing.Fades (thing.onTies f) := by
  cases thing with
  | entity entity =>
    refine ⟨⟨rfl, rfl, rfl⟩, fun _ _ keeps => keeps, fun id tied => ?_⟩
    obtain ⟨_, ⟨⟩, among⟩ := tied
    exact ⟨entity, rfl, refs entity.ties ▸ among⟩
  | encoding number table => exact .refl _
  | descriptor descriptor => exact .refl _

/-- An entity is marked as evicted. -/
theorem mark (thing : Thing) : thing.Fades (thing.onTable fun table => { table with evicted := true }) := by
  have keeps {table : SlotTable Datum} (index : Nat) (datum : Datum) (has : thing.table? = some table)
      (turned : (thing.onTable fun table => { table with evicted := true }).table? = some { table with evicted := true })
      (keeps : (thing.onTable fun table => { table with evicted := true }).Keeps index datum) : thing.Keeps index datum := by
    obtain ⟨table', memo, has', found, value⟩ := keeps
    cases turned.symm.trans has'
    exact ⟨table, memo, has, found, value⟩
  cases thing with
  | entity entity =>
    refine ⟨⟨rfl, rfl, rfl⟩, fun index datum => keeps index datum rfl rfl, fun id tied => ?_⟩
    obtain ⟨_, ⟨⟩, among⟩ := tied
    exact ⟨entity, rfl, among⟩
  | encoding number table => exact ⟨rfl, fun index datum => keeps index datum rfl rfl, fun _ tied => tied⟩
  | descriptor descriptor => exact .refl _

end Fades

end Thing

namespace World

variable {κ : Type} {view : CacheView World κ ThingId} {cache : Cache κ ThingId} {base world after : World} {id : ThingId}
  {state : Cascade × World}

/-! ## States -/

/-- No thing, value, tie, entry or claim was added, and no row changed. -/
structure Fades (before after : World) : Prop where
  next : after.nextThing = before.nextThing
  things : ∀ id thing', after.thing? id = some thing' → ∃ thing, before.thing? id = some thing ∧ thing.Fades thing'
  entries : ∀ {κ : Type} {view : CacheView World κ ThingId}, Shelf view → (view.get after).table ⊆ (view.get before).table
  claims : ∀ {κ : Type} {view : CacheView World κ ThingId}, Shelf view → (view.get after).claims ⊆ (view.get before).claims
  scopes : (lifespanView.get after).claims ⊆ (lifespanView.get before).claims
  store : after.provider.store = before.provider.store

namespace Shelf

variable {κ' : Type} {view' : CacheView World κ' ThingId}

/-- Where a cache is replaced by one with no other claims, no cache has other claims. -/
theorem claims_set (shelf : Shelf view) (shelf' : Shelf view') (claims : cache.claims ⊆ (view.get world).claims) :
    (view'.get (view.set cache world)).claims ⊆ (view'.get world).claims := by
  have stays : (view'.get world).claims ⊆ (view'.get world).claims := List.Subset.refl _
  cases shelf with
  | entities kind =>
    cases shelf' with
    | entities kind' => cases kind <;> cases kind' <;> first | exact claims | exact stays
    | descriptors => cases kind <;> exact stays
    | encodings => cases kind <;> exact stays
  | descriptors =>
    cases shelf' with
    | entities kind' => cases kind' <;> exact stays
    | descriptors => exact claims
    | encodings => exact stays
  | encodings =>
    cases shelf' with
    | entities kind' => cases kind' <;> exact stays
    | descriptors => exact stays
    | encodings => exact claims

end Shelf

namespace Fades

theorem refl (world : World) : Fades world world :=
  ⟨rfl, fun _ thing found => ⟨thing, found, .refl thing⟩, fun _ => List.Subset.refl _, fun _ => List.Subset.refl _,
    List.Subset.refl _, rfl⟩

theorem trans (first : Fades base world) (second : Fades world after) : Fades base after where
  next := second.next.trans first.next
  things id thing'' found := by
    obtain ⟨thing', was, fades'⟩ := second.things id thing'' found
    obtain ⟨thing, was, fades⟩ := first.things id thing' was
    exact ⟨thing, was, fades.trans fades'⟩
  entries shelf := List.Subset.trans (second.entries shelf) (first.entries shelf)
  claims shelf := List.Subset.trans (second.claims shelf) (first.claims shelf)
  scopes := List.Subset.trans second.scopes first.scopes
  store := second.store.trans first.store

/-- Things, caches and the session are as they were, and so are rows. -/
theorem congr (fades : Fades base world) (heap : after.heap = world.heap) (next : after.nextThing = world.nextThing)
    (caches : after.caches = world.caches) (session : after.session = world.session)
    (store : after.provider.store = world.provider.store) : Fades base after := by
  refine fades.trans ⟨next, fun id thing found => ⟨thing, ?_, .refl thing⟩, fun shelf => ?_, fun shelf => ?_, ?_, store⟩
  · rwa [thing?, heap] at found
  · rw [shelf.get_congr caches]
    exact List.Subset.refl _
  · rw [shelf.get_congr caches]
    exact List.Subset.refl _
  · rw [show lifespanView.get after = lifespanView.get world from congrArg (fun session : Option Session =>
      (session.getD (.blank 0)).lifespans) session]
    exact List.Subset.refl _

/-! ## Native resources and rows -/

theorem setLedger (fades : Fades base world) (ledger : Lifetime.Ledger) : Fades base (World.setLedger ledger world) :=
  fades.congr rfl rfl rfl rfl (store_notice _ _)

theorem onLedger {α : Type} (body : Task Lifetime.Ledger α) : (World.onLedger body).Keeps (Fades base) := by
  intro world fades
  unfold Task.Ends World.onLedger Task.within
  cases body world.ledger <;> exact fades.setLedger _

theorem gates (fades : Fades base world) (gates : Coherence.Gates) : Fades base { world with gates } :=
  fades.congr rfl rfl rfl rfl rfl

theorem count (fades : Fades base world) (counter : Counter) : Fades base (World.count counter world) :=
  fades.congr rfl rfl rfl rfl rfl

/-! ## Things that go -/

theorem erase (fades : Fades base world) (id : ThingId) : Fades base { world with heap := world.heap.erase id } := by
  have caches : ({ world with heap := world.heap.erase id } : World).caches = world.caches := rfl
  refine fades.trans ⟨rfl, fun other thing found => ⟨thing, ?_, .refl thing⟩, fun shelf => ?_, fun shelf => ?_,
    List.Subset.refl _, rfl⟩
  · have found : (world.heap.erase id).get? other = some thing := found
    rw [Numbered.get?_erase] at found
    split at found
    · cases found
    · exact found
  · rw [shelf.get_congr caches]
    exact List.Subset.refl _
  · rw [shelf.get_congr caches]
    exact List.Subset.refl _

theorem dropGuard (fades : Fades base world) (thing : Thing) : Fades base (World.dropGuard thing world) := by
  unfold World.dropGuard
  split
  · exact (onLedger _ world fades).exec
  · exact fades

theorem reapWithin (fades : Fades base world) (steps : Nat) (ids : List ThingId) :
    Fades base (World.reapWithin steps ids world) := by
  induction steps generalizing ids world with
  | zero => exact fades
  | succ steps ih =>
    cases ids with
    | nil => exact fades
    | cons id ids =>
      unfold World.reapWithin
      split
      · exact ih fades ids
      · next thing _ =>
        split
        · exact ih fades ids
        · exact ih ((fades.erase id).dropGuard thing) _

theorem reap (fades : Fades base world) (ids : List ThingId) : Fades base (World.reap ids world) := fades.reapWithin _ ids

theorem hold (fades : Fades base world) (id : ThingId) : Fades base (World.hold id world) := fades.congr rfl rfl rfl rfl rfl

theorem holdAll (fades : Fades base world) (ids : List ThingId) :
    Fades base (ids.foldl (fun world id => World.hold id world) world) := by
  rw [foldl_hold]
  exact fades.congr rfl rfl rfl rfl rfl

theorem release (fades : Fades base world) (id : ThingId) : Fades base (World.release id world) := by
  have unheld : Fades base { world with held := world.held.erase id } := fades.congr rfl rfl rfl rfl rfl
  exact unheld.reap [id]

theorem releaseAll (fades : Fades base world) (ids : List ThingId) :
    Fades base (ids.foldl (fun world id => World.release id world) world) := by
  induction ids generalizing world with
  | nil => exact fades
  | cons id ids ih => exact ih (fades.release id)

/-! ## Things that change -/

theorem onThing (fades : Fades base world) (id : ThingId) {f : Thing → Thing} (each : ∀ thing : Thing, thing.Fades (f thing)) :
    Fades base (World.onThing id f world) := by
  have caches : (World.onThing id f world).caches = world.caches := rfl
  refine fades.trans ⟨rfl, fun other thing' found => ?_, fun shelf => ?_, fun shelf => ?_, List.Subset.refl _, rfl⟩
  · rw [thing?_onThing] at found
    split at found
    · obtain ⟨thing, was, rfl⟩ := Option.map_eq_some_iff.mp found
      exact ⟨thing, was, each thing⟩
    · exact ⟨thing', found, .refl thing'⟩
  · rw [shelf.get_congr caches]
    exact List.Subset.refl _
  · rw [shelf.get_congr caches]
    exact List.Subset.refl _

theorem onTies (fades : Fades base world) (id : ThingId) {f : Ties → Ties} (refs : ∀ ties, (f ties).refs = ties.refs) :
    Fades base (World.onThing id (Thing.onTies f) world) := fades.onThing id (.onTies refs)

theorem mark (fades : Fades base world) (id : ThingId) :
    Fades base (World.onTable id (fun table => { table with evicted := true }) world) := (fades.onThing id .mark).reap _

/-! ## Caches -/

theorem set (fades : Fades base world) (shelf : Shelf view) (table : cache.table ⊆ (view.get world).table)
    (claims : cache.claims ⊆ (view.get world).claims) : Fades base (view.set cache world) := by
  have same : (view.set cache world).heap = world.heap ∧ (view.set cache world).nextThing = world.nextThing ∧
      (view.set cache world).session = world.session ∧ (view.set cache world).provider = world.provider := by
    cases shelf <;> exact ⟨rfl, rfl, rfl, rfl⟩
  obtain ⟨heap, next, session, provider⟩ := same
  refine fades.trans ⟨next, fun id thing found => ⟨thing, ?_, .refl thing⟩, fun shelf' entry among => ?_,
    fun shelf' => shelf.claims_set shelf' claims, ?_, congrArg (·.store) provider⟩
  · rwa [thing?, heap] at found
  · exact (shelf.mem_set shelf' (fun _ => False) (fun entry among => .inl (table among)) entry among).resolve_right fun new => new.2
  · rw [show lifespanView.get (view.set cache world) = lifespanView.get world from congrArg (fun session : Option Session =>
      (session.getD (.blank 0)).lifespans) session]
    exact List.Subset.refl _

theorem store' (fades : Fades base world) (shelf : Shelf view) (notes : List (Note κ))
    (table : cache.table ⊆ (view.get world).table) (claims : cache.claims ⊆ (view.get world).claims) :
    Fades base (view.store notes cache world) := by
  rw [CacheView.store, shelf.note]
  exact (fades.set shelf table claims).congr rfl rfl rfl rfl rfl

section views

variable [DecidableEq κ]

theorem get? (fades : Fades base world) (shelf : Shelf view) (key : κ) : Fades base (view.get? key world).2 := by
  have claims : ((view.get world).get? (view.alive world) key).2.2.claims = (view.get world).claims := by
    obtain ⟨value, _, _, given⟩ | ⟨_, notes, after, given, _, claims⟩ :=
      Cache.get?_cases (view.get world) (view.alive world) key
    · rw [given]
    · rw [given]
      exact claims
  unfold CacheView.get?
  simp only [shelf.hold]
  refine (fades.store' shelf _ (fun _ among => Cache.mem_of_get? among) ?_).holdAll _
  rw [claims]
  exact List.Subset.refl _

theorem evict' (fades : Fades base world) (shelf : Shelf view) (key : κ) : Fades base (view.evict key world).2 := by
  obtain ⟨found, notes, after, given, -, claims, -⟩ := Cache.evict_cases (view.get world) (view.alive world) key
  have left {entry : κ × ThingId} (among : entry ∈ after.table) : entry ∈ (view.get world).table := by
    have evicted : entry ∈ ((view.get world).evict (view.alive world) key).2.2.table := by rwa [given]
    exact (Cache.mem_of_evict evicted).1
  unfold CacheView.evict
  rw [given, shelf.hold]
  have same : view.get (found.toList.foldl (fun world id => World.hold id world) world) = view.get world :=
    shelf.get_congr (by rw [foldl_hold])
  refine (fades.holdAll _).store' shelf _ (fun entry among => ?_) ?_
  · rw [same]
    exact left among
  · rw [same, claims]
    exact List.Subset.refl _

end views

/-! ## Collecting signals -/

theorem find (fades : Fades base world) (kind : EntityClass) (key : EntityKey) : Fades base (World.find kind key world).2 :=
  (fades.get? (.entities kind) key).releaseAll _

theorem findAll (fades : Fades base world) (kind : EntityClass) (keys : List EntityKey) :
    Fades base (World.findAll kind keys world).2 := by
  induction keys generalizing world with
  | nil => exact fades
  | cons key keys ih => exact ih (fades.find kind key)

theorem tripThing (fades : Fades base state.2) (id : ThingId) : Fades base (World.tripThing id state).2 := by
  obtain ⟨cascade, world⟩ := state
  unfold World.tripThing
  dsimp only
  split
  · exact fades
  · exact fades.gates _

theorem invalidateAlone (fades : Fades base state.2) (change : Change) (id : ThingId) :
    Fades base (World.invalidateAlone change id state).2 := by
  have tripped := fades.tripThing id
  unfold World.invalidateAlone
  dsimp only
  split <;> exact tripped

theorem invalidateTypes (fades : Fades base world) (oids : List Oid) (cascade : Cascade) :
    Fades base (World.invalidateTypes oids (cascade, world)).2 := by
  induction oids generalizing cascade world with
  | nil => exact fades
  | cons oid oids ih =>
    unfold World.invalidateTypes
    dsimp only
    refine ih (foldl_keeps _ (fun state id fades => fades.invalidateAlone .updated id) ?_) _
    exact fades.findAll .type (world.typeKeys oid)

theorem invalidateRoutines (fades : Fades base world) (oids : List Oid) (cascade : Cascade) :
    Fades base (World.invalidateRoutines oids (cascade, world)).2 := by
  unfold World.invalidateRoutines
  dsimp only
  refine foldl_keeps _ (fun _ id fades => fades.invalidateAlone .updated id) ?_
  exact fades.findAll .routine _

theorem invalidate (fades : Fades base state.2) (change : Change) (id : ThingId) :
    Fades base (World.invalidate change id state).2 := by
  have tripped := fades.tripThing id
  unfold World.invalidate
  split
  · exact fades
  · next entity _ =>
    split
    · have types := (tripped.onTies id (f := Ties.withoutTypes) fun ties => by cases ties <;> rfl).invalidateTypes
        entity.ties.types (World.tripThing id state).1
      dsimp only
      split
      · exact types
      · exact types.onTies id fun ties => by cases ties <;> rfl
    · have routines := (tripped.onTies id (f := Ties.withoutRoutines) fun ties => by cases ties <;> rfl).invalidateRoutines
        entity.ties.routines (World.tripThing id state).1
      dsimp only
      split <;> exact routines
    · exact fades.invalidateAlone change id

theorem targets (fades : Fades base world) (kind : EntityClass) (object : Oid) :
    Fades base (World.targets kind object world).2 := by
  unfold World.targets
  dsimp only
  split
  · split <;> exact fades.findAll _ _
  · exact fades

theorem collectRow (fades : Fades base state.2) (kind : EntityClass) (object : Oid) (change : Change) :
    Fades base (World.collectRow kind object change state).2 := by
  unfold World.collectRow
  dsimp only
  exact foldl_keeps _ (fun _ id fades => fades.invalidate _ id) (fades.targets kind object)

theorem collect (fades : Fades base world) (signal : Signal) (cascade : Cascade) :
    Fades base (World.collect signal (cascade, world)).2 := by
  cases signal with
  | row classOid object change =>
    unfold World.collect
    dsimp only
    split
    · exact fades.collectRow _ object change
    · exact fades
  | scope address deleted => exact fades
  | all => exact foldl_keeps _ (fun _ kind fades => fades.collectRow kind _ .updated) fades

theorem collectAll (fades : Fades base world) (signals : List Signal) : Fades base (World.collectAll signals world).2 :=
  foldl_keeps _ (fun state signal fades => (fades.count .dispatchSignal).collect signal state.1) fades

/-! ## Carrying out -/

theorem evict (fades : Fades base world) (key : EntityKey) : Fades base (World.evict key world).2 := by
  unfold World.evict
  split
  · exact fades
  · next kind _ =>
    have indexed : Fades base (if kind = .type then unindexTypmod key world else world) := by
      unfold unindexTypmod
      repeat' split
      all_goals exact fades.congr rfl rfl rfl rfl rfl
    dsimp only
    generalize (if kind = .type then unindexTypmod key world else world) = world at indexed
    have evicted := indexed.evict' (.entities kind) key
    generalize (entityView kind).evict key world = left at evicted
    obtain ⟨_ | id, after⟩ := left
    · exact evicted
    · exact (evicted.mark id).release id

theorem evictAll (fades : Fades base world) (keys : List EntityKey) : Fades base (World.evictAll keys world).2 := by
  induction keys generalizing world with
  | nil => exact fades
  | cons key keys ih => exact ih (fades.evict key)

theorem evictDescriptors (fades : Fades base world) (addresses : List Address) :
    Fades base (World.evictDescriptors addresses world).2 := by
  induction addresses generalizing world with
  | nil => exact fades
  | cons address addresses ih => exact ih ((fades.evict' .descriptors address).releaseAll _)

theorem tripStale (fades : Fades base world) : Fades base (World.tripStale world).2 := by
  have tripped : Fades base (((world.liveOf .type).filter world.keepsReleased).foldl
      (fun state id => World.tripThing id state) ({}, world)).2 :=
    foldl_keeps _ (fun _ id fades => fades.tripThing id) fades
  exact tripped.gates _

theorem relist (fades : Fades base world) {lifespans : Cache Address Lifetime.LifespanId}
    (claims : lifespans.claims = (lifespanView.get world).claims) (notes : List (Note Address)) :
    Fades base (lifespanView.store notes lifespans world) := by
  have caches : (lifespanView.store notes lifespans world).caches = world.caches := rfl
  refine fades.trans ⟨rfl, fun _ thing found => ⟨thing, found, .refl thing⟩, fun shelf => ?_, fun shelf => ?_, ?_, rfl⟩
  · rw [shelf.get_congr caches]
    exact List.Subset.refl _
  · rw [shelf.get_congr caches]
    exact List.Subset.refl _
  · have got : lifespanView.get (lifespanView.store notes lifespans world)
        = ((world.session.map fun session : Session => { session with lifespans }).getD (Session.blank 0)).lifespans := rfl
    rw [got]
    cases world.session with
    | none => exact List.nil_subset _
    | some session =>
      rw [← claims]
      exact List.Subset.refl _

/-- The lifespan of a scope is looked for. -/
theorem lifespan (fades : Fades base world) (address : Address) : Fades base (lifespanView.get? address world).2 := by
  have claims : ((lifespanView.get world).get? (lifespanView.alive world) address).2.2.claims
      = (lifespanView.get world).claims := by
    obtain ⟨value, _, _, given⟩ | ⟨_, notes, after, given, _, claims⟩ :=
      Cache.get?_cases (lifespanView.get world) (lifespanView.alive world) address
    · rw [given]
    · rw [given]
      exact claims
  have stored := fades.relist claims ((lifespanView.get world).get? (lifespanView.alive world) address).2.1
  unfold CacheView.get?
  generalize (lifespanView.get world).get? (lifespanView.alive world) address = answer at stored ⊢
  obtain ⟨_ | lifespan, notes, cache⟩ := answer <;> exact stored

theorem evictLifespan (fades : Fades base world) (address : Address) : Fades base (lifespanView.evict address world).2 := by
  obtain ⟨found, notes, after, given, -, claims, -⟩ :=
    Cache.evict_cases (lifespanView.get world) (lifespanView.alive world) address
  unfold CacheView.evict
  rw [given]
  cases found <;> exact fades.relist claims notes

theorem teardown (address : Address) (deleted : Bool) : (World.teardown address deleted).Keeps (Fades base) := by
  refine Task.Keeps.bind (.lift fun world fades => ?_) fun lifespan => ?_
  · cases deleted with
    | false => exact fades.lifespan address
    | true => exact fades.evictLifespan address
  · cases lifespan with
    | none => exact .pure 0
    | some lifespan => exact onLedger _

theorem tearDownAll (teardowns : List (Address × Bool)) : (World.tearDownAll teardowns).Keeps (Fades base) := by
  unfold World.tearDownAll
  split
  · exact .pure _
  · refine Task.Keeps.bind (.sum fun entry _ => teardown entry.1 entry.2) fun _ => ?_
    refine Task.Keeps.bind (.lift fun world fades => fades.tripStale) fun _ => ?_
    exact Task.Keeps.bind (.lift fun world fades => fades.evictDescriptors _) fun _ => .pure _

theorem drain : World.drain.Keeps (Fades base) := Task.Keeps.get.bind fun _ => onLedger _

/-- A burst is delivered. -/
theorem dispatch (signals : List Signal) : (World.dispatch signals).Keeps (Fades base) := by
  refine Task.Keeps.bind (.lift fun world fades => fades.collectAll signals) fun cascade => ?_
  refine Task.Keeps.bind (.lift fun world fades => fades.gates _) fun _ => ?_
  refine Task.Keeps.bind (.lift fun world fades => fades.evictAll _) fun _ => ?_
  refine (tearDownAll _).bind fun _ => drain.bind fun _ => ?_
  exact Task.Keeps.bind (.modify fun _ fades => fades.congr rfl rfl rfl rfl rfl) fun _ => .pure _

/-! ## Clean-up -/

theorem purged (fades : Fades base world) (shelf : Shelf view) : Fades base (view.purge world).2 :=
  fades.store' shelf _ (fun _ among => (List.mem_filter.mp among).1) (List.Subset.refl _)

theorem relieved (fades : Fades base world) (shelf : Shelf view) : Fades base (view.relieve world).2 := by
  have emptied : Fades base (view.set (view.get world).relieve.2 world) :=
    fades.set shelf (List.Subset.refl _) (List.Subset.refl _)
  unfold CacheView.relieve
  rw [shelf.letGo]
  exact emptied.reap _

theorem purge (fades : Fades base world) : Fades base (World.purge world).2 := by
  have entities := foldl_total_keeps EntityClass.all 0 (fun kind _ fades => Fades.purged fades (.entities kind)) fades
  unfold World.purge
  generalize EntityClass.all.foldl _ _ = state at entities ⊢
  exact (entities.purged .descriptors).purged .encodings

theorem relieve (fades : Fades base world) : Fades base (World.relieve world).2 := by
  have entities := foldl_total_keeps EntityClass.all 0 (fun kind _ fades => Fades.relieved fades (.entities kind)) fades
  unfold World.relieve
  generalize EntityClass.all.foldl _ _ = state at entities ⊢
  exact (entities.relieved .descriptors).relieved .encodings

/-- A catalog that is gone has nothing in its caches. -/
theorem closeIfUnheld (fades : Fades base world) : Fades base (World.closeIfUnheld world) := by
  unfold World.closeIfUnheld
  split
  · exact fades
  · have blank {κ : Type} {view : CacheView World κ ThingId} (shelf : Shelf view) :
        (view.get { world with caches := .blank world.config }).table = [] ∧
          (view.get { world with caches := .blank world.config }).claims = [] := by
      cases shelf with
      | entities kind => cases kind <;> exact ⟨rfl, rfl⟩
      | descriptors => exact ⟨rfl, rfl⟩
      | encodings => exact ⟨rfl, rfl⟩
    have emptied : Fades base { world with caches := .blank world.config } := by
      refine fades.trans ⟨rfl, fun _ thing found => ⟨thing, found, .refl thing⟩, fun shelf => ?_, fun shelf => ?_,
        List.Subset.refl _, rfl⟩
      · rw [(blank shelf).1]
        exact List.nil_subset _
      · rw [(blank shelf).2]
        exact List.nil_subset _
    exact (onLedger _ _ (emptied.reap _)).exec

end Fades

end World

end CatalogReplica.Catalog
