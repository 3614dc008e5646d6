import CatalogReplica.Catalog.Lookup
import CatalogReplica.Proofs.Catalog.Onward

/-!
# What lookups do

A lookup at rest gives what is cached, or constructs it and caches it, and holds it for its
caller.  It is never refused: no key is under construction.

* `lookup_ends`: looking up an entity by its key, from what its preparation does.
* `entity_ends`, `typeWith_ends`, `attributeOf_ends`: looking up an entity by numbers.
-/

namespace CatalogReplica.Catalog

open Coherence (Gates GateId SlotTable)
open Identity (Cache CacheView Note)

theorem Caches.put_of (caches : Caches) (kind : EntityClass) : caches.put kind (caches.of kind) = caches := by
  cases kind <;> rfl

theorem memo?_blank {ν : Type} (slots : Nat) (gates : List GateId) (index : Nat) :
    (SlotTable.blank slots gates : SlotTable ν).memo? index = none := by
  rw [SlotTable.memo?, SlotTable.blank, Option.join_eq_none_iff, Array.getElem?_replicate]
  split
  · exact .inr rfl
  · exact .inl rfl

namespace World

variable {world after : World} {unsignalled : List EntityKey} {id : ThingId} {entity : Entity}
  {kind : EntityClass} {key : EntityKey}

/-! ## Entries -/

theorem Reaped.stillCached (reaped : Reaped world after) (cached : world.Cached id entity)
    (live : after.alive id = true) : after.Cached id entity := by
  obtain ⟨thing, found⟩ := alive_iff.mp live
  have was := reaped.still id thing found
  rw [entity?_eq_some.mp cached.1, Option.some.injEq] at was
  refine ⟨entity?_eq_some.mpr (was ▸ found), ?_⟩
  rw [reaped.caches]
  exact cached.2

theorem Cached.release (cached : world.Cached id entity) {other : ThingId}
    (live : (release other world).alive id = true) : (World.release other world).Cached id entity := by
  have before : ({ world with held := world.held.erase other } : World).Cached id entity := cached
  exact (reap_reaped [other] _).stillCached before live

theorem Onward.trim {caches : Caches} (trims : world.Trims caches) :
    Onward world { world with caches } where
  next := Nat.le_refl _
  kept _ thing found _ := ⟨thing, found, .refl _ thing⟩
  entries kind _ _ _ live := ⟨(trims kind).mem, fun among => (trims kind).live _ among live⟩
  gates := .refl _
  store := rfl
  available := rfl

/-- An entity that was not there before enters its cache. -/
theorem Onward.enter (onward : Onward world after) {cache : Cache EntityKey ThingId}
    (enters : after.Enters {} id entity) (new : world.nextThing ≤ id)
    (settled : Cache.Settled after.alive entity.key id (after.caches.of entity.kind) cache) :
    Onward world { after with caches := after.caches.put entity.kind cache } where
  next := onward.next
  kept := onward.kept
  entries kind key other known live := by
    refine Iff.trans ?_ (onward.entries kind key other known live)
    rw [Caches.of_put]
    split
    · next same =>
      subst same
      constructor
      · intro among
        cases settled.entries _ among with
        | inl own => exact absurd ((Prod.mk.inj own).2 ▸ known) (Nat.not_lt_of_le new)
        | inr old => exact old.1
      · intro among
        refine settled.live _ among (fun isKey => ?_) live
        have dead := enters.free other (isKey ▸ among)
        exact Bool.false_ne_true (dead.symm.trans live)
    · exact Iff.rfl
  gates := onward.gates
  store := onward.store
  available := onward.available

/-! ## Entities -/

/-- A gate and ties for an entity that is about to be constructed. -/
structure Prepared (world : World) (kind : EntityClass) (key : EntityKey) (gate : GateId)
    (ties : Ties) : Prop where
  known : gate < world.gates.current.size
  suits : ties.Suit kind
  refs : ∀ other ∈ ties.refs, world.alive other = true
  owner : ∀ owner, ties = .attr owner → ∃ relation attnum, world.Cached owner relation ∧
    relation.kind = .relation ∧ relation.gate = gate ∧ attnum ∈ relation.ties.attributes ∧
    key = attributeKey relation.key.object attnum
  typmod : kind = .type → key.sub = noTypmod ∨ key.sub ∈ (world.typmods.get? key.object).getD []

/-- An entity that keeps nothing yet. -/
def blankEntity (kind : EntityClass) (key : EntityKey) (gate : GateId) (ties : Ties) : Entity :=
  { kind, key, ties, table := .blank kind.slots [gate] }

theorem Prepared.fits {gate : GateId} {ties : Ties} (prepared : world.Prepared kind key gate ties)
    (named : kind.Names key) : world.Fits {} (.entity (blankEntity kind key gate ties)) where
  refs other among := by
    refine prepared.refs other ((List.mem_append.mp among).resolve_left fun kept => ?_)
    obtain ⟨memo, isKept, -⟩ := List.mem_flatMap.mp kept
    obtain ⟨index, isMemo⟩ := SlotTable.mem_kept.mp isKept
    rw [show (blankEntity kind key gate ties).table.memo? index = _ from memo?_blank _ _ index] at isMemo
    cases isMemo
  shaped := by
    rintro _ ⟨⟩
    refine ⟨rfl, prepared.known, Array.size_replicate, named, prepared.suits, fun index memo kept => ?_⟩
    rw [show (blankEntity kind key gate ties).table.memo? index = _ from memo?_blank _ _ index] at kept
    cases kept
  blank := by
    rintro _ ⟨⟩ index
    exact memo?_blank _ _ index
  owner := by
    rintro _ owner ⟨⟩ isOwner
    obtain ⟨relation, attnum, its, isRelation, gate, -, isKey⟩ := prepared.owner owner isOwner
    exact ⟨relation, its.1, isRelation, congrArg (·.object) isKey.symm, gate⟩

theorem Prepared.enters {gate : GateId} {ties : Ties} (prepared : world.Prepared kind key gate ties)
    (sound : world.Sound {} []) (absent : ∀ other, (key, other) ∉ (world.caches.of kind).table) :
    (World.hold world.nextThing (world.withThing (.entity (blankEntity kind key gate ties)))).Enters {}
      world.nextThing (blankEntity kind key gate ties) where
  found := entity?_eq_some.mpr ((thing?_withThing sound world.nextThing).trans (if_pos rfl))
  known := Nat.lt_succ_self _
  blank index := memo?_blank _ _ index
  unmarked := rfl
  free other among := absurd among (absent other)
  owner isAttr := by
    obtain ⟨owner, isOwner⟩ : ∃ owner, ties = .attr owner := by
      have suits := prepared.suits
      rw [show kind = .attr from isAttr] at suits
      exact suits
    obtain ⟨relation, attnum, its, -, -, knows, isKey⟩ := prepared.owner owner isOwner
    exact ⟨owner, relation, attnum, isOwner, ⟨entity?_withThing_of sound its.1, its.2⟩, List.not_mem_nil,
      knows, isKey⟩
  typmod isType := prepared.typmod isType

/-- What a lookup gives: an entity of the key, cached and held. -/
def Finds (unsignalled : List EntityKey) (kind : EntityClass) (key : EntityKey) (world : World)
    (outcome : Except Interrupt ThingId) (after : World) : Prop :=
  ∃ id entity, outcome = .ok id ∧ Leads unsignalled [id] world after ∧ after.Cached id entity ∧
    entity.kind = kind ∧ entity.key = key

/-- What is so while a key is claimed and its entity is constructed. -/
structure Claims (unsignalled : List EntityKey) (kind : EntityClass) (key : EntityKey)
    (world mid : World) : Prop where
  stands : mid.Stands unsignalled
  onward : Onward world mid
  claims : ∀ other, (mid.caches.of other).claims
    = if other = kind then [⟨key, mutatorThread⟩] else []
  absent : ∀ other, (key, other) ∉ (mid.caches.of kind).table
  held : ∀ other, world.held.count other ≤ mid.held.count other

/-- A key is claimed, and a dead entry goes. -/
theorem claims_store (notes : List (Note EntityKey)) (stands : world.Stands unsignalled) (quiet : world.Quiet)
    {cache : Cache EntityKey ThingId}
    (table : cache.table = ((world.caches.of kind).erase key).table)
    (trimmed : Cache.Trimmed world.alive (world.caches.of kind) cache)
    (claims : cache.claims = ⟨key, mutatorThread⟩ :: (world.caches.of kind).claims) :
    Claims unsignalled kind key world ((entityView kind).store notes cache world) := by
  let mid : World := { world with caches := world.caches.put kind cache }
  have trims : world.Trims mid.caches := by
    intro other
    rw [Caches.of_put]
    split
    · next same => exact same ▸ trimmed
    · exact .refl _
  have stands' : mid.Stands unsignalled :=
    ⟨stands.sound.trim trims, stands.fresh.trim trims, stands.plain, stands.available⟩
  have same : ((entityView kind).store notes cache world).core = mid.core := rfl
  have of (other : EntityClass) : mid.caches.of other = if other = kind then cache else world.caches.of other :=
    Caches.of_put _ _ _ _
  refine ⟨stands'.of_core same, (Onward.trim trims).trans (.of_reaped (.of_core same)), fun other => ?_,
    fun other among => ?_, fun _ => Nat.le_refl _⟩
  · refine (congrArg (·.claims) (of other)).trans ?_
    split
    · rw [claims, quiet kind]
    · exact quiet other
  · have among : (key, other) ∈ (mid.caches.of kind).table := among
    rw [of, if_pos rfl, table] at among
    exact (Cache.mem_erase.mp among).2 rfl

/-- A claim ends with an entity that was constructed. -/
theorem Claims.settle {mid : World} (quiet : world.Quiet)
    (claims : Claims unsignalled entity.kind entity.key world mid)
    (enters : mid.Enters {} id entity) (new : world.nextThing ≤ id) (live : id ∈ mid.held)
    (held : ∀ other, [id].count other + world.held.count other ≤ mid.held.count other) :
    Leads unsignalled [id] world ((entityView entity.kind).settle entity.key id mid) ∧
      ((entityView entity.kind).settle entity.key id mid).Cached id entity := by
  let settling := (mid.caches.of entity.kind).settle mid.alive entity.key id
  have settled : Cache.Settled mid.alive entity.key id (mid.caches.of entity.kind) settling.2.2 :=
    Cache.settle_spec _ _ _ _
  let last : World := { mid with caches := mid.caches.put entity.kind settling.2.2 }
  have stands : last.Stands unsignalled := ⟨claims.stands.sound.enter settled enters,
    claims.stands.fresh.enter settled enters, claims.stands.plain, claims.stands.available⟩
  have noted : Reaped last (note settling.2.1 last) := .of_core rfl
  have reaped : Reaped last ((entityView entity.kind).settle entity.key id mid) :=
    noted.trans (reap_reaped settling.1.toList _)
  have of (other : EntityClass) : last.caches.of other
      = if other = entity.kind then settling.2.2 else mid.caches.of other := Caches.of_put _ _ _ _
  have leads : Leads unsignalled [id] world ((entityView entity.kind).settle entity.key id mid) := by
    refine ⟨stands.reaped reaped, (claims.onward.enter enters new settled).trans (.of_reaped reaped),
      fun other => ?_, fun other => ?_⟩
    · rw [reaped.caches, of, quiet other]
      split
      · rw [settled.claims, claims.claims, if_pos rfl]
        simp
      · next differs => rw [claims.claims, if_neg differs]
    · rw [reaped.held]
      exact held other
  refine ⟨leads, reaped.stillCached ⟨enters.found, ?_⟩ (leads.stands.sound.holding id (leads.gives (by simp)))⟩
  rw [of, if_pos rfl]
  exact settled.own (claims.stands.sound.holding id live)

/-- What a construction gives: a new entity of the key, held but not cached yet. -/
def Constructs (unsignalled : List EntityKey) (kind : EntityClass) (key : EntityKey) (world : World)
    (outcome : Except Interrupt ThingId) (last : World) : Prop :=
  ∃ id entity, outcome = .ok id ∧ entity.kind = kind ∧ entity.key = key ∧
    Claims unsignalled kind key world last ∧ last.Enters {} id entity ∧ world.nextThing ≤ id ∧
    id ∈ last.held ∧ ∀ other, [id].count other + world.held.count other ≤ last.held.count other

theorem construct_ends {prepare : Task World (GateId × Ties)} {mid : World}
    (claims : Claims unsignalled kind key world mid) (named : kind.Names key)
    (prepared : prepare.Ends mid fun outcome last => ∃ gate ties, outcome = .ok (gate, ties) ∧
        Leads unsignalled [] mid last ∧ last.caches = mid.caches ∧ last.Prepared kind key gate ties) :
    (construct do
      let (gate, ties) ← prepare
      return .entity { kind, key, ties, table := .blank kind.slots [gate] }).Ends mid
      (Constructs unsignalled kind key world) := by
  have made : (do
      let (gate, ties) ← prepare
      return Thing.entity { kind, key, ties, table := .blank kind.slots [gate] } : Task World Thing).Ends mid
      fun outcome last => ∃ gate ties, outcome = .ok (.entity (blankEntity kind key gate ties)) ∧
        Leads unsignalled [] mid last ∧ last.caches = mid.caches ∧ last.Prepared kind key gate ties := by
    refine prepared.bind ?_ ?_
    · rintro _ last ⟨gate, ties, ⟨⟩, rest⟩
      exact .pure ⟨gate, ties, rfl, rest⟩
    · rintro interrupt last ⟨gate, ties, ⟨⟩, -⟩
  refine made.bind ?_ ?_
  · rintro _ last ⟨gate, ties, ⟨⟩, leads, caches, prepared⟩
    have fits := prepared.fits named
    have added := Leads.add leads.stands fits
    have both := leads.trans added
    refine ⟨last.nextThing, blankEntity kind key gate ties, rfl, rfl, rfl, ?_,
      prepared.enters leads.stands.sound fun other => caches ▸ claims.absent other,
      (claims.onward.trans leads.onward).next, List.mem_cons_self, fun other => ?_⟩
    · exact ⟨added.stands, claims.onward.trans both.onward,
        fun other => (both.claims other).trans (claims.claims other),
        fun other => by exact caches ▸ claims.absent other,
        fun other => Nat.le_trans (claims.held other) (Nat.le_trans (Nat.le_add_left _ _) (both.held other))⟩
    · exact Nat.le_trans (Nat.add_le_add_left (claims.held other) _) (both.held other)
  · rintro interrupt last ⟨gate, ties, ⟨⟩, -⟩

/-- Looking an entity up by its key: its preparation is not interrupted, and leaves the
    identity caches alone. -/
theorem lookup_ends {prepare : Task World (GateId × Ties)} (stands : world.Stands unsignalled)
    (quiet : world.Quiet) (named : kind.Names key)
    (prepared : ∀ mid, Claims unsignalled kind key world mid →
      prepare.Ends mid fun outcome last => ∃ gate ties, outcome = .ok (gate, ties) ∧
        Leads unsignalled [] mid last ∧ last.caches = mid.caches ∧ last.Prepared kind key gate ties) :
    (lookup kind key prepare).Ends world (Finds unsignalled kind key world) := by
  have hit (value : ThingId) (among : (key, value) ∈ (world.caches.of kind).table)
      (live : world.alive value = true) : Finds unsignalled kind key world (.ok value)
        (hold value ((entityView kind).store [.hit] (world.caches.of kind) world)) := by
    obtain ⟨entity, found, rfl, rfl⟩ := stands.sound.entered kind key value among live
    have same : ((entityView entity.kind).store [.hit] (world.caches.of entity.kind) world).core = world.core := by
      simp only [CacheView.store, entityView, Caches.put_of]
      rfl
    have noted := Leads.of_core stands same
    have leads := noted.trans (.hold noted.stands live)
    refine ⟨value, entity, rfl, leads, ⟨found, ?_⟩, rfl, rfl⟩
    have caches := (Reaped.of_core same).caches entity.kind
    exact (congrArg (fun cache => (entity.key, value) ∈ cache.table) caches).mpr among
  have built (notes : List (Note EntityKey)) (cache : Cache EntityKey ThingId)
      (_ : (world.caches.of kind).claim? key = none)
      (table : cache.table = ((world.caches.of kind).erase key).table)
      (trimmed : (world.caches.of kind).Unique → Cache.Trimmed world.alive (world.caches.of kind) cache)
      (claims : cache.claims = ⟨key, mutatorThread⟩ :: (world.caches.of kind).claims) :=
    have claimed := claims_store notes stands quiet table (trimmed (stands.sound.unique kind)) claims
    construct_ends claimed named (prepared _ claimed)
  -- Between steps nothing is being built, so no claim can block the miss.
  refine CacheView.lookup_ends hit ?_ built ?_ ?_
  · intro interrupt notes cache claimed _
    have free : (world.caches.of kind).claim? key = none := by
      rw [Cache.claim?, quiet kind]
      rfl
    exact absurd free claimed
  · rintro value last ⟨id, entity, ⟨⟩, rfl, rfl, claims, enters, new, live, held⟩
    obtain ⟨leads, cached⟩ := claims.settle quiet enters new live held
    exact ⟨value, entity, rfl, leads, cached, rfl, rfl⟩
  · -- Nothing that `construct_ends` leads to throws.
    rintro interrupt last ⟨id, entity, ⟨⟩, -⟩

/-! ## Entities by numbers -/

theorem requireValid_run {oid : Oid} (valid : oid.isValid = true) (kind : EntityClass) (world : World) :
    requireValid kind oid world = .ok () world := by
  unfold requireValid
  rw [if_pos valid]
  rfl

theorem requireValid_fails {oid : Oid} (invalid : oid.isValid = false) (kind : EntityClass) (world : World) :
    ∃ interrupt, requireValid kind oid world = .error interrupt world := by
  unfold requireValid
  rw [if_neg (by rw [invalid]; exact Bool.false_ne_true)]
  exact ⟨_, rfl⟩

theorem freshGate_run (world : World) : freshGate world
    = .ok world.gates.current.size { world with gates := world.gates.newGate.2 } := rfl

theorem prepared_freshGate {ties : Ties} (suits : ties.Suit kind) (untied : ties.refs = [])
    (typmod : kind = .type → key.sub = noTypmod ∨ key.sub ∈ (world.typmods.get? key.object).getD []) :
    ({ world with gates := world.gates.newGate.2 } : World).Prepared kind key world.gates.current.size ties where
  known := by rw [Gates.current_size_newGate]; exact Nat.lt_succ_self _
  suits := suits
  refs other among := by rw [untied] at among; cases among
  owner owner isOwner := by rw [isOwner] at untied; cases untied
  typmod := typmod

theorem names_key (kind : EntityClass) {oid : Oid} (valid : oid.isValid = true) : kind.Names (kind.key oid) := by
  refine ⟨rfl, valid, ?_⟩
  cases kind <;> simp [EntityClass.key]

/-- An entity of a class whose entities stand for themselves. -/
theorem entity_ends (stands : world.Stands unsignalled) (quiet : world.Quiet) {oid : Oid}
    (valid : oid.isValid = true) (plain : kind ≠ .attr) :
    (World.entity kind oid).Ends world (Finds unsignalled kind (kind.key oid) world) := by
  refine .next (requireValid_run valid kind world) (lookup_ends stands quiet (names_key kind valid) fun mid claims => ?_)
  refine .next (freshGate_run mid) (.pure ⟨_, _, rfl, .newGate claims.stands, rfl, prepared_freshGate ?_ ?_ ?_⟩)
  · cases kind <;> simp_all [blankTies, Ties.Suit]
  · cases kind <;> rfl
  · rintro rfl
    exact .inl rfl

theorem indexTypmod_leads (stands : world.Stands unsignalled) (oid : Oid) (typmod : Int32) :
    Leads unsignalled [] world (indexTypmod oid typmod world) ∧
      (indexTypmod oid typmod world).caches = world.caches ∧
      (typmod = noTypmod ∨ typmod ∈ ((indexTypmod oid typmod world).typmods.get? oid).getD []) := by
  unfold indexTypmod
  dsimp only
  split
  · next known => exact ⟨.refl stands, rfl, known⟩
  · next unknown =>
    refine ⟨.index stands (fun other known among => ?_) fun other => ?_, rfl, .inr ?_⟩ <;> rw [Assoc.get?_set]
    · split
      · next same => exact List.mem_append_left _ (same ▸ among)
      · exact among
    · split
      · next same =>
        have before := stands.sound.indexed oid
        rw [not_or] at unknown
        rw [Option.getD_some, ← List.cons_append]
        refine List.nodup_append.mpr ⟨before, List.pairwise_singleton _ typmod, fun one among two new => ?_⟩
        obtain rfl := List.mem_singleton.mp new
        rintro rfl
        exact (List.mem_cons.mp among).elim unknown.1 unknown.2
      · exact stands.sound.indexed other
    · rw [if_pos rfl]
      exact List.mem_append_right _ List.mem_cons_self

/-- A type under a type modifier. -/
theorem typeWith_ends (stands : world.Stands unsignalled) (quiet : world.Quiet) {oid : Oid}
    (valid : oid.isValid = true) (typmod : Int32) :
    (typeWith oid typmod).Ends world
      (Finds unsignalled .type { EntityClass.type.key oid with sub := typmod } world) := by
  have named : EntityClass.type.Names { EntityClass.type.key oid with sub := typmod } :=
    ⟨rfl, valid, .inr (.inl rfl)⟩
  refine .next (requireValid_run valid .type world) (lookup_ends stands quiet named fun mid claims => ?_)
  obtain ⟨leads, caches, known⟩ := indexTypmod_leads claims.stands oid typmod
  refine .next (Task.modify_run _ mid) (.next (freshGate_run _) (.pure ⟨_, _, rfl, ?_, caches, ?_⟩))
  · exact leads.trans (.newGate leads.stands)
  · exact prepared_freshGate rfl rfl fun _ => known

/-- The entity with the ties that it learns. -/
theorem Cached.tie (cached : world.Cached id entity) (f : Ties → Ties) :
    (onThing id (Thing.onTies f) world).Cached id { entity with ties := f entity.ties } := by
  refine ⟨entity?_eq_some.mpr ?_, cached.2⟩
  rw [thing?_onThing, if_pos rfl, entity?_eq_some.mp cached.1]
  rfl

/-- The relation of an attribute learns of it. -/
theorem prepared_trackAttribute {owner : ThingId} {relation : Entity} (attnum : Int16)
    (stands : world.Stands unsignalled) (cached : world.Cached owner relation)
    (isRelation : relation.kind = .relation) :
    (onThing owner (Thing.onTies (Ties.trackAttribute attnum)) world).Prepared .attr
      (attributeKey relation.key.object attnum) relation.gate (.attr owner) where
  known := (stands.sound.shaped owner relation cached.1).known
  suits := ⟨owner, rfl⟩
  refs other among := by
    obtain rfl := List.mem_singleton.mp among
    exact (alive_onThing world other other _).trans (alive_of_entity cached.1)
  owner other isOwner := by
    cases isOwner
    refine ⟨_, attnum, cached.tie _, isRelation, rfl, ?_, rfl⟩
    obtain ⟨types, attributes, ties⟩ := isRelation ▸ (stands.sound.shaped owner relation cached.1).tied
    rw [ties]
    exact Dependents.mem_insert.mpr (.inl rfl)
  typmod isType := by cases isType

/-- An attribute of a relation. -/
theorem attributeOf_ends (stands : world.Stands unsignalled) (quiet : world.Quiet) {oid : Oid}
    (valid : oid.isValid = true) (attnum : Int16) :
    (attributeOf oid attnum).Ends world (Finds unsignalled .attr (attributeKey oid attnum) world) := by
  have plain : EntityClass.relation ≠ .attr := by decide
  refine (entity_ends stands quiet valid plain).bind ?_ (by rintro interrupt mid ⟨id, entity, ⟨⟩, -⟩)
  rintro owner mid ⟨_, relation, ⟨⟩, toOwner, its, isRelation, isKey⟩
  have isOid : relation.key.object = oid := congrArg (·.object) isKey
  have named : EntityClass.attr.Names (attributeKey oid attnum) := ⟨rfl, valid, .inl rfl⟩
  refine .ensuring ((lookup_ends toOwner.stands (toOwner.quiet quiet) named fun claimed claims => ?_).weaken ?_)
  · have held : owner ∈ claimed.held := List.count_pos_iff.mp
      (Nat.lt_of_lt_of_le (List.count_pos_iff.mpr (toOwner.gives List.mem_cons_self)) (claims.held owner))
    obtain ⟨later, stays, becomes⟩ := claims.onward.cached its
      (toOwner.stands.sound.below owner (alive_of_entity its.1)) (claims.stands.sound.holding owner held)
    have tied := Leads.tie claims.stands (Ties.learns_trackAttribute attnum) owner
    have prepared := prepared_trackAttribute attnum claims.stands stays (becomes.kind.trans isRelation)
    have gate : ((onThing owner (Thing.onTies (Ties.trackAttribute attnum)) claimed).thing? owner).bind
        (·.gate?) = some later.gate := by
      rw [entity?_eq_some.mp (stays.tie _).1, Option.bind_some]
      exact (claims.stands.sound.shaped owner later stays.1).gate?_eq
    refine .next (Task.modify_run _ claimed) (.next (Task.get_run _) ?_)
    rw [gate]
    refine .pure ⟨_, _, rfl, tied, rfl, ?_⟩
    rw [← isOid, ← becomes.key]
    exact prepared
  · rintro _ last ⟨id, entity, rfl, leads, cached, isAttr, isKey⟩
    have both := (toOwner.trans leads).release
    exact ⟨id, entity, rfl, both, cached.release (both.stands.sound.holding id (both.gives List.mem_cons_self)),
      isAttr, isKey⟩

end World

end CatalogReplica.Catalog
