import CatalogReplica.Proofs.Catalog.Tidy
import CatalogReplica.Proofs.Catalog.Delivering
import CatalogReplica.Proofs.Identity.Dismissing

/-!
# What evictions leave

Whatever is evicted, the things that keep one another alive from what is held and cached stay,
and nothing else does.  What remains is thus a matter of the caches that are left, not of the
order in which things went.

* `World.SelfKept`: things that keep one another alive.
* `World.Culls`: entries left the caches, and the things went that nothing kept alive any more.
* `World.evictAll_culls`, `World.evictDescriptors_culls`: evictions do so.
* `World.Culls.agree`: from two catalogs with the same things, to the same things.
-/

namespace CatalogReplica.Catalog

open Identity (Cache CacheView Note)
open Lifetime (Ledger)

/-! ## Entries -/

namespace Caches

variable {caches : Caches} {kind : EntityClass} {key other : EntityKey} {id : ThingId}

/-- The entry of a key in the cache of its class. -/
def member? (caches : Caches) (key : EntityKey) : Option ThingId :=
  (EntityClass.ofOid? key.classOid).bind fun kind => (caches.of kind).find? key

/-- What the eviction of a key leaves. -/
def without (caches : Caches) (key : EntityKey) : Caches :=
  match EntityClass.ofOid? key.classOid with
  | some kind => caches.put kind ((caches.of kind).dismiss key)
  | none => caches

theorem without_of (isClass : EntityClass.ofOid? key.classOid = some kind) :
    caches.without key = caches.put kind ((caches.of kind).dismiss key) := by
  unfold without
  rw [isClass]

theorem without_unknown (unknown : EntityClass.ofOid? key.classOid = none) : caches.without key = caches := by
  unfold without
  rw [unknown]

theorem of_without (caches : Caches) (key : EntityKey) (kind : EntityClass) : (caches.without key).of kind
    = if EntityClass.ofOid? key.classOid = some kind then (caches.of kind).dismiss key else caches.of kind := by
  cases isClass : EntityClass.ofOid? key.classOid with
  | none => rw [without_unknown isClass, if_neg (by simp)]
  | some its =>
    rw [without_of isClass, Caches.of_put]
    by_cases same : kind = its
    · rw [same, if_pos rfl, if_pos rfl]
    · rw [if_neg same, if_neg (by simpa using Ne.symm same)]

theorem ext_of {one two : Caches} (entities : ∀ kind, one.of kind = two.of kind)
    (descriptors : one.descriptors = two.descriptors) (encodings : one.encodings = two.encodings) : one = two := by
  have schemas := entities .schema
  have relations := entities .relation
  have attributes := entities .attr
  have types := entities .type
  have routines := entities .routine
  have languages := entities .language
  cases one
  cases two
  simp_all [Caches.of]

theorem descriptors_without (caches : Caches) (key : EntityKey) : (caches.without key).descriptors = caches.descriptors := by
  cases isClass : EntityClass.ofOid? key.classOid with
  | none => rw [without_unknown isClass]
  | some kind =>
    rw [without_of isClass]
    cases kind <;> rfl

theorem encodings_without (caches : Caches) (key : EntityKey) : (caches.without key).encodings = caches.encodings := by
  cases isClass : EntityClass.ofOid? key.classOid with
  | none => rw [without_unknown isClass]
  | some kind =>
    rw [without_of isClass]
    cases kind <;> rfl

theorem without_comm (caches : Caches) (key other : EntityKey) :
    (caches.without key).without other = (caches.without other).without key := by
  refine ext_of (fun kind => ?_) (by simp only [descriptors_without]) (by simp only [encodings_without])
  simp only [of_without]
  split <;> split <;> first | rfl | exact Cache.dismiss_comm _ _ _

theorem without_without (caches : Caches) (key : EntityKey) : (caches.without key).without key = caches.without key := by
  refine ext_of (fun kind => ?_) (by simp only [descriptors_without]) (by simp only [encodings_without])
  simp only [of_without]
  split
  · exact Cache.dismiss_dismiss _ _
  · rfl

theorem member?_without (caches : Caches) (key other : EntityKey) :
    (caches.without key).member? other = if other = key then none else caches.member? other := by
  unfold member?
  cases isClass : EntityClass.ofOid? other.classOid with
  | none => simp
  | some kind =>
    simp only [Option.bind_some, of_without]
    by_cases same : other = key
    · subst same
      rw [if_pos isClass, if_pos rfl, Cache.find?_dismiss, if_pos rfl]
    · rw [if_neg same]
      split
      · rw [Cache.find?_dismiss, if_neg same]
      · rfl

theorem mem_without {entry : EntityKey × ThingId} : entry ∈ ((caches.without key).of kind).table ↔
    entry ∈ (caches.of kind).table ∧ ¬ (entry.1 = key ∧ entry.1.classOid = kind.oid) := by
  rw [of_without]
  split
  · next isClass =>
    rw [Cache.mem_dismiss]
    refine and_congr_right fun _ => not_congr ⟨fun same => ⟨same, ?_⟩, And.left⟩
    rw [same, EntityClass.oid_of_ofOid? isClass]
  · next other =>
    refine (and_iff_left ?_).symm
    rintro ⟨rfl, isClass⟩
    exact other (isClass ▸ kind.ofOid?_oid)

/-- The entries that are left when keys were evicted. -/
theorem mem_foldl_without {entry : EntityKey × ThingId} (keys : List EntityKey) (caches : Caches) :
    entry ∈ ((keys.foldl without caches).of kind).table ↔
      entry ∈ (caches.of kind).table ∧ ¬ (entry.1 ∈ keys ∧ entry.1.classOid = kind.oid) := by
  induction keys generalizing caches with
  | nil => simp
  | cons key keys ih =>
    rw [List.foldl_cons, ih, mem_without, and_assoc, ← not_or, ← or_and_right, List.mem_cons]

theorem foldl_without (keys : List EntityKey) (caches : Caches) :
    (keys.foldl without caches).descriptors = caches.descriptors ∧ (keys.foldl without caches).encodings = caches.encodings := by
  induction keys generalizing caches with
  | nil => exact ⟨rfl, rfl⟩
  | cons key keys ih =>
    rw [List.foldl_cons, (ih _).1, (ih _).2]
    exact ⟨descriptors_without caches key, encodings_without caches key⟩

/-- What the caches keep alive after an eviction they kept alive before. -/
theorem keeps_without (kept : (caches.without key).keeps id = true) : caches.keeps id = true := by
  unfold keeps at kept ⊢
  rw [descriptors_without, encodings_without] at kept
  simp only [Bool.or_eq_true, List.any_eq_true] at kept ⊢
  refine Or.imp_left (Or.imp_left ?_) kept
  rintro ⟨kind, among, kept⟩
  refine ⟨kind, among, ?_⟩
  rw [of_without] at kept
  split at kept
  · exact Cache.keeps_of_dismiss kept
  · exact kept

end Caches

/-- The thing, marked as evicted. -/
def Thing.marked (thing : Thing) : Thing := thing.onTable fun table => { table with evicted := true }

theorem Thing.marked_marked (thing : Thing) : thing.marked.marked = thing.marked := by cases thing <;> rfl

namespace World

variable {α : Type} {world before mid after : World} {id : ThingId} {key : EntityKey} {marks marks' : ThingId → Prop}

/-! ## What owners leave alone -/

theorem onLedger_run {body : Task Ledger α} {value : α} {ledger : Ledger} (run : body world.ledger = .ok value ledger) :
    onLedger body world = .ok value (setLedger ledger world) := by
  unfold onLedger Task.within
  rw [run]

theorem onLedger_same (body : Task Ledger α) (world : World) :
    (onLedger body).Ends world fun _ after => ∃ ledger provider, after = { world with ledger, provider } := by
  unfold Task.Ends onLedger Task.within
  cases body world.ledger <;> exact ⟨_, _, rfl⟩

theorem dropGuard_same (thing : Thing) (world : World) :
    ∃ ledger provider, dropGuard thing world = { world with ledger, provider } := by
  unfold dropGuard
  split
  · exact (onLedger_same _ world).exec
  · exact ⟨_, _, rfl⟩

theorem thing?_marking (id other : ThingId) (world : World) :
    (marking id world).thing? other = if other = id then (world.thing? other).map Thing.marked else world.thing? other :=
  thing?_onThing world id other _

/-! ## What goes -/

/-- Things that keep one another alive, where caches are what is said. -/
def SelfKept (world : World) (caches : Caches) (kept : ThingId → Prop) : Prop :=
  ∀ id, kept id → world.alive id = true ∧ (id ∈ world.held ∨ caches.keeps id = true ∨
    ∃ other thing, kept other ∧ world.thing? other = some thing ∧ id ∈ thing.refs)

/-- Caches keep fewer things alive, and things went, but none that the rest kept alive.  Of those
    that are left some are marked as evicted. -/
structure Culls (marks : ThingId → Prop) (before after : World) : Prop where
  same : ∃ heap caches typmods ledger provider, after = { before with heap, caches, typmods, ledger, provider }
  left : ∀ id thing', after.thing? id = some thing' → ∃ thing, before.thing? id = some thing ∧
    (marks id ∧ thing' = thing.marked ∨ ¬ marks id ∧ thing' = thing)
  fewer : ∀ id, after.caches.keeps id = true → before.caches.keeps id = true
  spares : ∀ kept, before.SelfKept after.caches kept → ∀ id, kept id → after.alive id = true

namespace Culls

theorem held (culls : Culls marks before after) : after.held = before.held := by
  obtain ⟨_, _, _, _, _, same⟩ := culls.same
  rw [same]

theorem gates (culls : Culls marks before after) : after.gates = before.gates := by
  obtain ⟨_, _, _, _, _, same⟩ := culls.same
  rw [same]

theorem session (culls : Culls marks before after) : after.session = before.session := by
  obtain ⟨_, _, _, _, _, same⟩ := culls.same
  rw [same]

theorem still (culls : Culls marks before after) (live : after.alive id = true) : before.alive id = true := by
  obtain ⟨thing', found⟩ := alive_iff.mp live
  obtain ⟨thing, was, -⟩ := culls.left id thing' found
  exact alive_iff.mpr ⟨thing, was⟩

theorem refs {thing' : Thing} (culls : Culls marks before after) (found : after.thing? id = some thing') :
    ∃ thing, before.thing? id = some thing ∧ thing.refs = thing'.refs := by
  obtain ⟨thing, was, ⟨-, rfl⟩ | ⟨-, rfl⟩⟩ := culls.left id thing' found
  · exact ⟨thing, was, (refs_marked thing).symm⟩
  · exact ⟨_, was, rfl⟩

theorem refl (world : World) : Culls (fun _ => False) world world where
  same := ⟨_, _, _, _, _, rfl⟩
  left _ thing found := ⟨thing, found, .inr ⟨False.elim, rfl⟩⟩
  fewer _ kept := kept
  spares _ selfKept id kept := (selfKept id kept).1

theorem congr (culls : Culls marks before after) (same : ∀ id, after.alive id = true → (marks' id ↔ marks id)) :
    Culls marks' before after := by
  refine { culls with left := fun id thing' found => ?_ }
  obtain ⟨thing, was, its⟩ := culls.left id thing' found
  rw [← same id (alive_iff.mpr ⟨thing', found⟩)] at its
  exact ⟨thing, was, its⟩

theorem trans (first : Culls marks before mid) (second : Culls marks' mid after) :
    Culls (fun id => marks id ∨ marks' id) before after where
  same := by
    obtain ⟨_, _, _, _, _, same⟩ := first.same
    obtain ⟨_, _, _, _, _, same'⟩ := second.same
    exact ⟨_, _, _, _, _, same'.trans (by rw [same])⟩
  left id thing'' found := by
    obtain ⟨thing', there, its'⟩ := second.left id thing'' found
    obtain ⟨thing, was, its⟩ := first.left id thing' there
    refine ⟨thing, was, ?_⟩
    obtain ⟨marked, rfl⟩ | ⟨unmarked, rfl⟩ := its <;> obtain ⟨marked', rfl⟩ | ⟨unmarked', rfl⟩ := its'
    · exact .inl ⟨.inl marked, thing.marked_marked⟩
    · exact .inl ⟨.inl marked, rfl⟩
    · exact .inl ⟨.inr marked', rfl⟩
    · exact .inr ⟨fun either => either.elim unmarked unmarked', rfl⟩
  fewer id kept := first.fewer id (second.fewer id kept)
  spares kept selfKept := by
    have lives := first.spares kept fun id isKept => by
      obtain ⟨live, why⟩ := selfKept id isKept
      exact ⟨live, why.imp_right (Or.imp_left (second.fewer id))⟩
    refine second.spares kept fun id isKept => ⟨lives id isKept, ?_⟩
    -- those that are kept refer to the same things still
    obtain isHeld | isCached | ⟨other, thing, keeper, found, refers⟩ := (selfKept id isKept).2
    · exact .inl (first.held ▸ isHeld)
    · exact .inr (.inl isCached)
    · obtain ⟨thing', there⟩ := alive_iff.mp (lives other keeper)
      obtain ⟨thing'', was, same⟩ := first.refs there
      obtain rfl := Option.some.inj (found.symm.trans was)
      exact .inr (.inr ⟨other, thing', keeper, there, same ▸ refers⟩)

/-- Entities that are left have their slots still. -/
theorem stays {entity : Entity} (culls : Culls marks before after) (found : before.entity? id = some entity)
    (live : after.alive id = true) : ∃ later, after.entity? id = some later ∧ entity.Stays later := by
  obtain ⟨thing', there⟩ := alive_iff.mp live
  obtain ⟨thing, was, its⟩ := culls.left id thing' there
  cases (entity?_eq_some.mp found).symm.trans was
  obtain ⟨-, rfl⟩ | ⟨-, rfl⟩ := its
  · exact ⟨_, entity?_eq_some.mpr there, ⟨rfl, rfl, rfl⟩, rfl⟩
  · exact ⟨entity, entity?_eq_some.mpr there, .refl entity⟩

/-- What went nothing refers to any more. -/
theorem lives (culls : Culls marks before after) (tidy : Tidy [] after) (live : before.alive id = true) :
    after.alive id = true ∨ ¬ after.Wanted id := by
  by_cases wanted : after.Wanted id
  · refine .inl (culls.spares (fun other => after.alive other = true ∨ other = id) (fun other kept => ?_) id (.inr rfl))
    have why : after.Wanted other := by
      obtain lives | rfl := kept
      · exact (tidy.wanted other lives).resolve_right List.not_mem_nil
      · exact wanted
    refine ⟨?_, ?_⟩
    · obtain lives | rfl := kept
      · exact culls.still lives
      · exact live
    · obtain isHeld | isCached | ⟨one, thing, found, refers⟩ := why
      · exact .inl (culls.held ▸ isHeld)
      · exact .inr (.inl isCached)
      · obtain ⟨thing', was, same⟩ := culls.refs found
        exact .inr (.inr ⟨one, thing', .inl (alive_iff.mpr ⟨thing, found⟩), was, same ▸ refers⟩)
  · exact .inr wanted

/-! ## Steps -/

/-- Nothing that something refers to goes. -/
theorem erase {thing : Thing} (found : world.thing? id = some thing) (unreferenced : world.referenced id = false) :
    Culls (fun _ => False) world (dropGuard thing { world with heap := world.heap.erase id }) := by
  have stays := Stays.dropGuard thing { world with heap := world.heap.erase id }
  have things (other : ThingId) : (dropGuard thing { world with heap := world.heap.erase id }).thing? other
      = if other = id then none else world.thing? other := by
    rw [stays.thing?]
    exact Numbered.get?_erase world.heap id other
  obtain ⟨ledger, provider, same⟩ := dropGuard_same thing { world with heap := world.heap.erase id }
  refine ⟨⟨_, _, _, _, _, same⟩, fun other thing' there => ?_, fun other kept => ?_, fun kept selfKept other isKept => ?_⟩
  · rw [things] at there
    split at there
    · cases there
    · exact ⟨thing', there, .inr ⟨False.elim, rfl⟩⟩
  · rwa [stays.caches] at kept
  · obtain ⟨live, why⟩ := selfKept other isKept
    have differs : other ≠ id := by
      rintro rfl
      rw [stays.caches] at why
      refine Bool.eq_false_iff.mp unreferenced ?_
      rw [referenced, Bool.or_eq_true, Bool.or_eq_true]
      obtain isHeld | isCached | ⟨one, its, -, there, refers⟩ := why
      · exact .inl (.inl (List.contains_iff_mem.mpr isHeld))
      · exact .inl (.inr isCached)
      · exact .inr (List.any_eq_true.mpr ⟨(one, its), Numbered.mem_of_get? there, List.contains_iff_mem.mpr refers⟩)
    obtain ⟨its, there⟩ := alive_iff.mp live
    exact alive_iff.mpr ⟨its, by rw [things, if_neg differs, there]⟩

theorem reap (ids : List ThingId) (world : World) : Culls (fun _ => False) world (World.reap ids world) := by
  suffices within : ∀ steps, Culls (fun _ => False) world (reapWithin steps ids world) from within _
  intro steps
  induction steps generalizing ids world with
  | zero => exact refl world
  | succ steps ih =>
    cases ids with
    | nil => exact refl world
    | cons id ids =>
      unfold reapWithin
      cases found : world.thing? id with
      | none => exact ih ids world
      | some thing =>
        dsimp only
        split
        · exact ih ids world
        · next unreferenced =>
          have first := erase found (Bool.eq_false_iff.mpr unreferenced)
          exact (first.trans (ih (thing.refs ++ ids) _)).congr (by simp)

/-- A thing is marked as evicted. -/
theorem mark (id : ThingId) (world : World) : Culls (· = id) world (marking id world) where
  same := ⟨_, _, _, _, _, rfl⟩
  left other thing' found := by
    rw [thing?_marking] at found
    split at found
    · next same =>
      obtain ⟨thing, was, rfl⟩ := Option.map_eq_some_iff.mp found
      exact ⟨thing, was, .inl ⟨same, rfl⟩⟩
    · next differs => exact ⟨thing', found, .inr ⟨differs, rfl⟩⟩
  fewer _ kept := kept
  spares kept selfKept other isKept := by
    rw [marking, alive_onThing]
    exact (selfKept other isKept).1

/-- Entries leave the caches. -/
theorem uncache {caches : Caches} (fewer : ∀ id, caches.keeps id = true → world.caches.keeps id = true)
    (typmods : Assoc Oid (List Int32)) (tally : Tally) :
    Culls (fun _ => False) world { world with caches, typmods, ledger := { world.ledger with tally } } where
  same := ⟨_, _, _, _, _, rfl⟩
  left _ thing found := ⟨thing, found, .inr ⟨False.elim, rfl⟩⟩
  fewer := fewer
  spares _ selfKept id kept := (selfKept id kept).1

/-! ## Two catalogs -/

/-- Those that are left in one catalog keep one another alive in the other. -/
theorem spreads {before' after' : World} (culls : Culls marks before after) (culls' : Culls marks' before' after')
    (tidy : Tidy [] after) (things : ∀ id, before'.thing? id = before.thing? id) (held : before'.held = before.held)
    (caches : after'.caches = after.caches) (live : after.alive id = true) : after'.alive id = true := by
  refine culls'.spares (fun id => after.alive id = true) (fun id live => ?_) id live
  constructor
  · obtain ⟨thing, was⟩ := alive_iff.mp (culls.still live)
    exact alive_iff.mpr ⟨thing, (things id).trans was⟩
  · obtain isHeld | isCached | ⟨other, thing, found, refers⟩ := (tidy.wanted id live).resolve_right List.not_mem_nil
    · exact .inl (held ▸ culls.held ▸ isHeld)
    · exact .inr (.inl (caches ▸ isCached))
    · obtain ⟨thing', was, same⟩ := culls.refs found
      exact .inr (.inr ⟨other, thing', alive_iff.mpr ⟨thing, found⟩, (things other).trans was, same ▸ refers⟩)

/-- From the same things, where the same caches are left, the same things are left. -/
theorem agree {before' after' : World} (culls : Culls marks before after) (culls' : Culls marks' before' after')
    (tidy : Tidy [] after) (tidy' : Tidy [] after') (things : ∀ id, before'.thing? id = before.thing? id)
    (held : before'.held = before.held) (caches : after'.caches = after.caches) (same : ∀ id, marks' id ↔ marks id)
    (id : ThingId) : after'.thing? id = after.thing? id := by
  cases found : after.thing? id with
  | none =>
    cases found' : after'.thing? id with
    | none => rfl
    | some thing' =>
      have lives := culls'.spreads culls tidy' (fun id => (things id).symm) held.symm caches.symm
        (alive_iff.mpr ⟨thing', found'⟩)
      obtain ⟨thing, there⟩ := alive_iff.mp lives
      cases found.symm.trans there
  | some thing =>
    obtain ⟨thing', found'⟩ := alive_iff.mp
      (culls.spreads culls' tidy things held caches (alive_iff.mpr ⟨thing, found⟩))
    obtain ⟨one, was, its⟩ := culls.left id thing found
    obtain ⟨two, was', its'⟩ := culls'.left id thing' found'
    rw [things, was] at was'
    cases was'
    rw [same] at its'
    rw [found']
    obtain ⟨marked, rfl⟩ | ⟨unmarked, rfl⟩ := its <;> obtain ⟨marked', rfl⟩ | ⟨unmarked', rfl⟩ := its'
    · rfl
    · exact absurd marked unmarked'
    · exact absurd marked' unmarked
    · rfl

end Culls

/-! ## Evictions -/

/-- The entry of a key leaves its cache; its entity is marked if it lives, and may go. -/
theorem evict_eq (tidy : Tidy [] world) (key : EntityKey) : ∃ typmods tally,
    (evict key world).2 = match (world.caches.member? key).filter world.alive with
      | none => { world with caches := world.caches.without key, typmods, ledger := { world.ledger with tally } }
      | some id => reap [id] (marking id
          { world with caches := world.caches.without key, typmods, ledger := { world.ledger with tally } }) := by
  unfold evict
  cases isClass : EntityClass.ofOid? key.classOid with
  | none =>
    refine ⟨world.typmods, world.ledger.tally, ?_⟩
    rw [Caches.member?, isClass, Caches.without_unknown isClass]
    rfl
  | some kind =>
    dsimp only
    have shelved := tidy.shelves (.entities kind)
    obtain ⟨notes, run⟩ := (world.caches.of kind).evict_run shelved.soft key
    have indexed : Tidy [] { world with typmods := world.unindexed kind key } := tidy.stays ⟨rfl, rfl, rfl, rfl⟩
    have evicted := indexed.edits
      (Edits.refl.step (.evicted (.entities kind) (ordinary_entityView kind) key) : Edits [] _ _ _)
    refine ⟨world.unindexed kind key, Note.count notes world.ledger.tally, ?_⟩
    rw [unindexed_eq]
    rw [@evict_run { world with typmods := world.unindexed kind key } kind key _ _ _ run] at evicted ⊢
    rw [Caches.member?, isClass, Option.bind_some, Caches.without_of isClass]
    generalize ((world.caches.of kind).find? key).filter world.alive = found at evicted ⊢
    cases found with
    | none => rfl
    | some id =>
      -- the entity is held while it is marked, so that nothing goes before it is released
      have marked : Tidy [] (marking id ((entityView kind).store notes ((world.caches.of kind).dismiss key)
          (hold id { world with typmods := world.unindexed kind key }))) :=
        evicted.onThing (List.Subset.refl _) fun thing _ other refers => .inl (refs_marked thing ▸ refers)
      dsimp only [Option.toList_some, List.foldl_cons, List.foldl_nil, onTable]
      rw [← marking, marked.reap_nothing, release]
      congr 1
      rw [show (marking id ((entityView kind).store notes ((world.caches.of kind).dismiss key)
        (hold id { world with typmods := world.unindexed kind key }))).held = id :: world.held from rfl,
        List.erase_cons_head]
      rfl

theorem evict_culls (tidy : Tidy [] world) (key : EntityKey) :
    Culls (fun id => world.caches.member? key = some id) world (evict key world).2 ∧
      (evict key world).2.caches = world.caches.without key := by
  obtain ⟨typmods, tally, run⟩ := evict_eq tidy key
  have uncached := Culls.uncache (fun id => Caches.keeps_without : ∀ id, (world.caches.without key).keeps id = true → _)
    typmods tally
  rw [run]
  cases entry : world.caches.member? key with
  | none => exact ⟨uncached.congr (by simp), rfl⟩
  | some id =>
    cases live : world.alive id with
    | false =>
      simp only [Option.filter, live]
      refine ⟨uncached.congr fun other lives => ?_, rfl⟩
      simp only [Option.some.injEq, iff_false]
      rintro rfl
      cases live.symm.trans (uncached.still lives)
    | true =>
      simp only [Option.filter, live, if_true]
      refine ⟨(uncached.trans ((Culls.mark id _).trans (.reap [id] _))).congr fun other _ => ?_, ?_⟩
      · simp [eq_comm]
      · rw [caches_reap]
        rfl

/-- The entities of keys are evicted. -/
theorem evictAll_culls (tidy : Tidy [] world) (keys : List EntityKey) :
    Culls (fun id => ∃ key ∈ keys, world.caches.member? key = some id) world (evictAll keys world).2 ∧
      (evictAll keys world).2.caches = keys.foldl Caches.without world.caches := by
  induction keys generalizing world with
  | nil => exact ⟨(Culls.refl world).congr (by simp), rfl⟩
  | cons key keys ih =>
    obtain ⟨first, caches⟩ := evict_culls tidy key
    obtain ⟨rest, last⟩ := ih (tidy.edits (Edits.refl.evict key : Edits [] world _ _))
    rw [caches] at rest last
    refine ⟨(first.trans rest).congr fun id _ => ?_, last⟩
    simp only [Caches.member?_without, List.mem_cons, exists_eq_or_imp]
    constructor
    · rintro (its | ⟨other, among, its⟩)
      · exact .inl its
      · by_cases same : other = key
        · exact .inl (same ▸ its)
        · exact .inr ⟨other, among, by rw [if_neg same, its]⟩
    · rintro (its | ⟨other, among, its⟩)
      · exact .inl its
      · split at its
        · cases its
        · exact .inr ⟨other, among, its⟩

/-! ## Native descriptors -/

/-- The entry of an address leaves the cache of native descriptors. -/
theorem evictDescriptor_culls (tidy : Tidy [] world) (address : Address) :
    let evicted := descriptorView.evict address world
    let after := evicted.1.toList.foldl (fun world id => release id world) evicted.2
    Culls (fun _ => False) world after ∧
      after.caches = { world.caches with descriptors := world.caches.descriptors.dismiss address } := by
  obtain ⟨notes, run⟩ := world.caches.descriptors.evict_run (tidy.shelves .descriptors).soft address
  have fewer (id : ThingId)
      (kept : ({ world.caches with descriptors := world.caches.descriptors.dismiss address } : Caches).keeps id = true) :
      world.caches.keeps id = true := by
    unfold Caches.keeps at kept ⊢
    simp only [Bool.or_eq_true] at kept ⊢
    exact Or.imp_left (Or.imp_right Cache.keeps_of_dismiss) kept
  have uncached := Culls.uncache fewer world.typmods (Note.count notes world.ledger.tally)
  intro evicted after
  have same := evictDescriptor_eq run
  rw [show evicted.1.toList.foldl _ evicted.2 = after from rfl] at same
  rw [same]
  cases (world.caches.descriptors.find? address).filter world.alive with
  | none => exact ⟨uncached, rfl⟩
  | some id =>
    dsimp only [Option.toList_some, List.foldl_cons, List.foldl_nil]
    rw [caches_reap]
    exact ⟨(uncached.trans (.reap [id] _)).congr (by simp), rfl⟩

/-- Native descriptors are evicted by address. -/
theorem evictDescriptors_culls (tidy : Tidy [] world) (addresses : List Address) :
    Culls (fun _ => False) world (evictDescriptors addresses world).2 ∧
      (evictDescriptors addresses world).2.caches
        = { world.caches with descriptors := addresses.foldl Cache.dismiss world.caches.descriptors } := by
  induction addresses generalizing world with
  | nil => exact ⟨.refl world, rfl⟩
  | cons address addresses ih =>
    obtain ⟨first, caches⟩ := evictDescriptor_culls tidy address
    obtain ⟨rest, last⟩ := ih ((tidy.evict .descriptors address).releaseAll _)
    rw [caches] at last
    exact ⟨(first.trans rest).congr (by simp), last⟩

end World

end CatalogReplica.Catalog
