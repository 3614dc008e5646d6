import CatalogReplica.Proofs.Catalog.Finding

/-!
# Collecting the effects of signals

Once a signal is collected, nothing is trusted that was made of the rows that it is about,
and no one is known any more at the entities that stand for them.

* `invalidate_collects`: what happens to an entity and to those who depend on it.
* `collectRow_collects`: what happens to the entities of a row.
* `Reached`: what a signal brings about for the key of a row.
* `collectAll_collects`: a burst of signals.
-/

namespace CatalogReplica.Catalog

open Coherence (Batch)

/-! ## Ties -/

namespace Ties

theorem dependents_of_suit {ties : Ties} {kind : EntityClass} (suits : ties.Suit kind)
    (notRelation : kind ≠ .relation) (notLanguage : kind ≠ .language) : ties.dependents = [] := by
  cases kind with
  | relation => exact absurd rfl notRelation
  | language => exact absurd rfl notLanguage
  | attr =>
    obtain ⟨owner, rfl⟩ := suits
    rfl
  | schema | type | routine =>
    cases suits
    rfl

theorem attributes_of_suit {ties : Ties} {kind : EntityClass} (suits : ties.Suit kind)
    (notRelation : kind ≠ .relation) : ties.attributes = [] := by
  cases kind with
  | relation => exact absurd rfl notRelation
  | language =>
    obtain ⟨routines, rfl⟩ := suits
    rfl
  | attr =>
    obtain ⟨owner, rfl⟩ := suits
    rfl
  | schema | type | routine =>
    cases suits
    rfl

/-- A change of ties that keeps everything but those who depend on where they are. -/
structure Forgets (f : Ties → Ties) : Prop where
  suits : ∀ ties kind, ties.Suit kind → (f ties).Suit kind
  refs : ∀ ties, (f ties).refs = ties.refs
  dependents : ∀ ties, ∀ oid ∈ (f ties).dependents, oid ∈ ties.dependents
  attributes : ∀ ties, (f ties).attributes = ties.attributes

theorem forgets_withoutTypes : Forgets withoutTypes where
  suits ties kind suits := by cases ties <;> cases kind <;> simp_all [Suit, withoutTypes]
  refs ties := by cases ties <;> rfl
  dependents ties oid among := by
    cases ties <;> simp_all [Ties.dependents, types, routines, withoutTypes]
  attributes ties := by cases ties <;> rfl

theorem forgets_withoutRoutines : Forgets withoutRoutines where
  suits ties kind suits := by cases ties <;> cases kind <;> simp_all [Suit, withoutRoutines]
  refs ties := by cases ties <;> rfl
  dependents ties oid among := by
    cases ties <;> simp_all [Ties.dependents, types, routines, withoutRoutines]
  attributes ties := by cases ties <;> rfl

theorem refs_withoutAttributes (ties : Ties) : ties.withoutAttributes.refs = ties.refs := by cases ties <;> rfl

theorem dependents_withoutAttributes (ties : Ties) : ties.withoutAttributes.dependents = ties.dependents := by
  cases ties <;> rfl

theorem attributes_withoutAttributes (ties : Ties) : ties.withoutAttributes.attributes = [] := by
  cases ties <;> rfl

theorem suits_withoutAttributes {ties : Ties} {kind : EntityClass} (suits : ties.Suit kind) :
    ties.withoutAttributes.Suit kind := by
  cases ties <;> cases kind <;> simp_all [Suit, withoutAttributes]

end Ties

/-! ## Keys that are condemned -/

namespace Cascade

variable {cascade : Cascade} {key other : EntityKey}

theorem mem_evict : other ∈ (cascade.evict key).evictions ↔ other = key ∨ other ∈ cascade.evictions := by
  unfold evict
  split
  · next among =>
    constructor
    · exact .inr
    · rintro (rfl | before)
      · exact among
      · exact before
  · simp [or_comm]

@[simp] theorem trips_evict (cascade : Cascade) (key : EntityKey) : (cascade.evict key).trips = cascade.trips := by
  unfold evict
  split <;> rfl

/-- The cascade with the keys of attributes of a relation. -/
theorem mem_evict_attributes {relation : Oid} (attnums : List Int16) (cascade : Cascade) :
    other ∈ (attnums.foldl (fun cascade attnum => cascade.evict (attributeKey relation attnum)) cascade).evictions ↔
      other ∈ cascade.evictions ∨ ∃ attnum ∈ attnums, other = attributeKey relation attnum := by
  induction attnums generalizing cascade with
  | nil => simp
  | cons attnum attnums inductionHypothesis =>
    rw [List.foldl_cons, inductionHypothesis, mem_evict]
    simp only [List.mem_cons, exists_eq_or_imp, or_assoc]
    exact or_left_comm

theorem trips_evict_attributes {relation : Oid} (attnums : List Int16) (cascade : Cascade) :
    (attnums.foldl (fun cascade attnum => cascade.evict (attributeKey relation attnum)) cascade).trips
      = cascade.trips := by
  induction attnums generalizing cascade with
  | nil => rfl
  | cons attnum attnums inductionHypothesis => rw [List.foldl_cons, inductionHypothesis, trips_evict]

end Cascade

namespace World

variable {unsignalled : List EntityKey} {owed : List (EntityClass × Oid)} {cascade : Cascade}
  {world : World} {id : ThingId} {entity : Entity} {kind : EntityClass} {key : EntityKey}
  {state : Cascade × World}

/-! ## One entity -/

theorem tripThing_collects (underway : Underway unsignalled owed state) (id : ThingId) :
    Collects unsignalled owed state (tripThing id state) ∧ Tripped id (tripThing id state) ∧
      (tripThing id state).2.heap = state.2.heap ∧ (tripThing id state).1.evictions = state.1.evictions := by
  obtain ⟨cascade, world⟩ := state
  unfold tripThing
  dsimp only
  cases governs : (world.thing? id).bind (·.gate?) with
  | none =>
    refine ⟨.refl underway, fun entity found => ?_, rfl, rfl⟩
    rw [entity?_eq_some.mp found, Option.bind_some,
      (underway.sound.shaped id entity found).gate?_eq] at governs
    cases governs
  | some gate =>
    refine ⟨.trip underway gate, fun entity found => ?_, rfl, rfl⟩
    have was : world.entity? id = some entity := found
    have shaped := underway.sound.shaped id entity was
    rw [entity?_eq_some.mp was, Option.bind_some, shaped.gate?_eq, Option.some.injEq] at governs
    exact governs ▸ Batch.mem_gates_add shaped.known

theorem kind_of_attributeKey {trips : Batch} {gates : Coherence.Gates} (shaped : entity.Shaped trips gates)
    {relation : Oid} {attnum : Int16} (isAttr : entity.key = attributeKey relation attnum) : entity.kind = .attr :=
  shaped.kind_eq (isAttr ▸ rfl)

/-- The key of an entity that was reached is condemned, and those of its attributes if it
    is a relation. -/
theorem Collects.condemn (underway : Underway unsignalled [] (cascade, world)) {later : Cascade} (key : EntityKey)
    (trips : later.trips = cascade.trips) (more : ∀ other ∈ cascade.evictions, other ∈ later.evictions)
    (new : ∀ other ∈ later.evictions, other ∈ cascade.evictions ∨ other = key ∨
      (key = EntityClass.relation.key key.object ∧ ∃ attnum, other = attributeKey key.object attnum))
    (struck : ∀ id entity, world.Cached id entity → entity.key = key →
      entity.gate ∈ cascade.trips.gates ∧ entity.ties.dependents = [])
    (attributes : ∀ id entity, world.Cached id entity → entity.key = key →
      ∀ attnum ∈ entity.ties.attributes, attributeKey key.object attnum ∈ later.evictions) :
    Collects unsignalled [] (cascade, world) (later, world) := by
  have sound := underway.sound
  have condemned : world.Sound later [] := by
    refine sound.condemn trips more (fun other relation cached isRelation goes stays attnum knows => ?_)
      fun other entity cached goes stays => ?_
    · obtain before | own | ⟨-, attnum', isAttr⟩ := new relation.key goes
      · exact absurd before stays
      · exact own ▸ attributes other relation cached own attnum knows
      · have also := kind_of_attributeKey (sound.shaped other relation cached.1) isAttr
        exact absurd (isRelation.symm.trans also) (by decide)
    · obtain before | own | ⟨-, attnum, isAttr⟩ := new entity.key goes
      · exact absurd before stays
      · exact (struck other entity cached own).2
      · have shaped := sound.shaped other entity cached.1
        have kind := kind_of_attributeKey shaped isAttr
        exact Ties.dependents_of_suit (kind ▸ shaped.tied) (by decide) (by decide)
  refine ⟨⟨condemned, trips ▸ underway.fresh, fun other entity cached goes => ?_⟩, fun _ among => ?_, fun _ => rfl,
    fun _ live => live, fun _ entity found => ⟨entity, found, .refl entity⟩, fun _ _ _ _ => Iff.rfl,
    fun _ => rfl, rfl, rfl, rfl⟩
  · rw [trips]
    obtain before | own | ⟨isRelation, attnum, isAttr⟩ := new entity.key goes
    · exact underway.doomed other entity cached before
    · exact (struck other entity cached own).1
    · have kind := kind_of_attributeKey (sound.shaped other entity cached.1) isAttr
      cases sound.attributes other entity cached kind with
      | inl before => exact underway.doomed other entity cached before
      | inr tied =>
        -- Its relation is the one with the key, and shares its gate.
        obtain ⟨owner, relation, attnum', ties, its, -, -, isKey⟩ := tied
        obtain ⟨relation', its', isKind, -, gate⟩ := sound.tied other entity owner cached.1 ties
        obtain rfl := Option.some.inj (its.1.symm.trans its')
        have object : relation.key.object = key.object :=
          (congrArg (·.object) (isKey.symm.trans isAttr) : _)
        have named := (sound.shaped owner relation its.1).named
        rw [isKind] at named
        have own : relation.key = key := by
          rw [named.key_eq (by decide) (by decide), object, ← isRelation]
        exact gate ▸ (struck owner relation its own).1
  · rwa [trips]

/-- What was reached under a key is what was there before under the key. -/
theorem Struck.of_key {after : Cascade × World} (underway : Underway unsignalled owed state)
    (cached : state.2.Cached id entity) (wanes : Wanes state after) (struck : Struck id after) :
    ∀ other later, after.2.Cached other later → later.key = entity.key →
      later.gate ∈ after.1.trips.gates ∧ later.ties.dependents = [] := by
  intro other later cached' same
  obtain ⟨before, was, turned⟩ := wanes.cached cached'
  obtain rfl : other = id := underway.sound.cached_unique was cached (turned.key.symm.trans same)
  exact struck later cached'.1

/-- An entity where no one is ever known. -/
theorem invalidateAlone_collects (underway : Underway unsignalled [] state) (listed : state.2.Listed id)
    (alone : ∀ entity, state.2.entity? id = some entity → entity.kind ≠ .relation ∧ entity.kind ≠ .language)
    (change : Change) :
    Collects unsignalled [] state (invalidateAlone change id state) ∧
      Struck id (invalidateAlone change id state) := by
  obtain ⟨collects, tripped, heap, -⟩ := tripThing_collects underway id
  have same : (tripThing id state).2.entity? id = state.2.entity? id := by
    rw [World.entity?, thing?, heap]
    rfl
  have struck : Struck id (tripThing id state) := by
    intro entity found
    obtain ⟨notRelation, notLanguage⟩ := alone entity (same ▸ found)
    have suits := (collects.underway.sound.shaped id entity found).tied
    exact ⟨tripped entity found, Ties.dependents_of_suit suits notRelation notLanguage⟩
  -- An update stops at the gates; only a deletion goes on to take the entry out.
  cases change with
  | updated => exact ⟨collects, struck⟩
  | deleted =>
    unfold invalidateAlone
    generalize tripThing id state = after at collects same struck
    obtain ⟨cascade, world⟩ := after
    dsimp only at same ⊢
    cases found : world.entity? id with
    | none => exact ⟨collects, struck⟩
    | some entity =>
      have cached := collects.wanes.listed listed entity found
      -- A shelf has one entity for each key, so condemning this key strikes no other.
      have condemns : Collects unsignalled [] (cascade, world) (cascade.evict entity.key, world) := by
        refine .condemn collects.underway entity.key (Cascade.trips_evict _ _)
          (fun other among => Cascade.mem_evict.mpr (.inr among))
          (fun other among => (Cascade.mem_evict.mp among).symm.imp_right .inl)
          (struck.of_key collects.underway cached (.refl _)) fun other later cached' isKey => ?_
        obtain rfl := collects.underway.sound.cached_unique cached' cached isKey
        have suits := (collects.underway.sound.shaped other later cached'.1).tied
        rw [Ties.attributes_of_suit suits (alone later (same ▸ cached'.1)).1]
        rintro _ ⟨⟩
      exact ⟨collects.trans condemns, struck.later condemns.wanes⟩

/-! ## Those who depend on it -/

theorem tripAll_collects (underway : Underway unsignalled owed state) (ids : List ThingId)
    (listed : ∀ id ∈ ids, state.2.Listed id) :
    Collects unsignalled owed state (ids.foldl (fun state id => invalidateAlone .updated id state) state) ∧
      ∀ id ∈ ids, Tripped id (ids.foldl (fun state id => invalidateAlone .updated id state) state) := by
  refine foldl_collects (fun id state underway _ => ?_) (fun _ _ _ wanes tripped => tripped.later wanes) ids state
    underway listed
  obtain ⟨collects, tripped, -⟩ := tripThing_collects underway id
  exact ⟨collects, tripped⟩

/-- The types that were known somewhere are reached, under every type modifier. -/
theorem invalidateTypes_collects (oids : List Oid) (state : Cascade × World)
    (underway : Underway unsignalled (oids.map (EntityClass.type, ·)) state) :
    Collects unsignalled [] state (invalidateTypes oids state) := by
  induction oids generalizing state with
  | nil => exact .refl underway
  | cons oid oids inductionHypothesis =>
    obtain ⟨cascade, world⟩ := state
    have found := typesOf_found underway oid
    obtain ⟨trips, tripped⟩ := tripAll_collects found.collects.underway _ found.listed
    -- the types of this number are tripped, so that the others alone are owed it
    have paid := @Collects.paid _ _ (oids.map (EntityClass.type, ·)) _ _ trips fun id entity cached due => by
      cases List.mem_cons.mp due with
      | inr later => exact .inl later
      | inl own =>
        obtain ⟨isType, object⟩ := Prod.mk.inj own
        obtain ⟨before, was, wanes⟩ := trips.wanes.cached cached
        have among := found.complete id before was
          ⟨wanes.kind.symm.trans isType, by rw [← wanes.key, object]⟩
        exact .inr (tripped id among entity cached.1)
    exact (found.collects.trans paid).trans (inductionHypothesis _ paid.underway)

/-- The routines that were known somewhere are reached. -/
theorem invalidateRoutines_collects (oids : List Oid) (state : Cascade × World)
    (underway : Underway unsignalled (oids.map (EntityClass.routine, ·)) state) :
    Collects unsignalled [] state (invalidateRoutines oids state) := by
  obtain ⟨cascade, world⟩ := state
  have found := findAll_found underway .routine (oids.map EntityClass.routine.key)
  obtain ⟨trips, tripped⟩ := tripAll_collects found.collects.underway _ found.listed
  refine found.collects.trans (trips.paid fun id entity cached due => .inr ?_)
  obtain ⟨oid, among, own⟩ := List.mem_map.mp due
  obtain ⟨isRoutine, object⟩ := Prod.mk.inj own
  obtain ⟨before, was, wanes⟩ := trips.wanes.cached cached
  have named := (trips.underway.sound.shaped id entity cached.1).named
  rw [← isRoutine] at named
  refine tripped id (found.complete id before was ⟨wanes.kind.symm.trans isRoutine.symm, ?_⟩) entity cached.1
  rw [← wanes.key, named.key_eq (by decide) (by decide), ← object]
  exact List.mem_map_of_mem among

/-- An entity is tripped, forgets those who depend on it, and they are reached. -/
theorem forget_collects (underway : Underway unsignalled [] state) (found : state.2.entity? id = some entity)
    (cached : state.2.Cached id entity)
    {f : Ties → Ties} (forgets : Ties.Forgets f) (lonely : (f entity.ties).dependents = []) {oids : List Oid}
    (all : ∀ oid ∈ entity.ties.dependents, oid ∈ oids)
    (reach : Cascade × World → Cascade × World)
    (reaches : ∀ state, Underway unsignalled (oids.map (entity.kind.dependent, ·)) state →
      Collects unsignalled [] state (reach state)) :
    let after := reach ((tripThing id state).1, onThing id (Thing.onTies f) (tripThing id state).2)
    Collects unsignalled [] state after ∧ Struck id after ∧
      ∀ other later, after.2.Cached other later → later.key = entity.key →
        ∀ attnum ∈ later.ties.attributes, attnum ∈ entity.ties.attributes := by
  intro after
  obtain ⟨trips, tripped, heap, -⟩ := tripThing_collects underway id
  have same : (tripThing id state).2.entity? id = some entity := by
    rw [← found, World.entity?, thing?, heap]
    rfl
  have ties : Collects unsignalled (oids.map (entity.kind.dependent, ·)) (tripThing id state)
      ((tripThing id state).1, onThing id (Thing.onTies f) (tripThing id state).2) := by
    refine .tie trips.underway forgets.refs (fun later found' => ?_) (by rintro _ ⟨⟩)
      fun ties => ⟨forgets.dependents ties, fun attnum among => forgets.attributes ties ▸ among⟩
    obtain rfl := Option.some.inj (same.symm.trans found')
    refine ⟨forgets.suits _ _, forgets.refs _, fun oid known => .inr (List.mem_map_of_mem (all oid known)),
      fun attnum known => .inl ?_⟩
    rw [forgets.attributes]
    exact known
  -- who was known is forgotten first and reached then; in between it is owed a trip
  have reached := reaches _ ties.underway
  have struck : Struck id ((tripThing id state).1, onThing id (Thing.onTies f) (tripThing id state).2) := by
    intro later found'
    refine ⟨(tripped.later ties.wanes) later found', ?_⟩
    rw [entity?_eq_some, thing?_onThing, if_pos rfl, entity?_eq_some.mp same] at found'
    cases found'
    exact lonely
  have collects := (trips.trans ties).trans reached
  refine ⟨collects, struck.later reached.wanes, fun other later cached' isKey attnum known => ?_⟩
  obtain ⟨before, was, wanes⟩ := collects.wanes.cached cached'
  obtain rfl := underway.sound.cached_unique was cached (wanes.key.symm.trans isKey)
  obtain rfl := Option.some.inj (found.symm.trans was.1)
  exact wanes.attributes attnum known

section deleted

variable {after : Cascade × World} (cached : state.2.Cached id entity) (collects : Collects unsignalled [] state after)
  (fewer : ∀ other later, after.2.Cached other later → later.key = entity.key →
    ∀ attnum ∈ later.ties.attributes, attnum ∈ entity.ties.attributes)

include cached collects fewer

/-- A relation and its attributes are condemned together: neither outlives the other. -/
theorem condemn_attributes (underway : Underway unsignalled [] state) (isRelation : entity.kind = .relation)
    (struck : Struck id after) :
    Collects unsignalled [] after
      (entity.ties.attributes.foldl (fun cascade attnum => cascade.evict (attributeKey entity.key.object attnum))
        (after.1.evict entity.key), after.2) := by
  have key : entity.key = EntityClass.relation.key entity.key.object := by
    have named := (underway.sound.shaped id entity cached.1).named
    rw [isRelation] at named
    exact named.key_eq (by decide) (by decide)
  refine .condemn collects.underway entity.key ?_ (fun other among => ?_) (fun other among => ?_)
    (struck.of_key underway cached collects.wanes) fun other later cached' isKey attnum known => ?_
  · rw [Cascade.trips_evict_attributes, Cascade.trips_evict]
  · exact (Cascade.mem_evict_attributes _ _).mpr (.inl (Cascade.mem_evict.mpr (.inr among)))
  · obtain among | ⟨attnum, -, isAttr⟩ := (Cascade.mem_evict_attributes _ _).mp among
    · exact (Cascade.mem_evict.mp among).symm.imp_right .inl
    · exact .inr (.inr ⟨key, attnum, isAttr⟩)
  · exact (Cascade.mem_evict_attributes _ _).mpr (.inr ⟨attnum, fewer other later cached' isKey attnum known, rfl⟩)

/-- A relation forgets its attributes once they are condemned. -/
theorem forget_attributes {cascade : Cascade} (condemns : Collects unsignalled [] after
      (entity.ties.attributes.foldl (fun cascade attnum => cascade.evict (attributeKey entity.key.object attnum)) cascade,
        after.2)) :
    Collects unsignalled []
      (entity.ties.attributes.foldl (fun cascade attnum => cascade.evict (attributeKey entity.key.object attnum)) cascade,
        after.2)
      (entity.ties.attributes.foldl (fun cascade attnum => cascade.evict (attributeKey entity.key.object attnum)) cascade,
        onThing id (Thing.onTies Ties.withoutAttributes) after.2) := by
  refine .tie condemns.underway Ties.refs_withoutAttributes (fun later found' => ?_) (fun _ among => among)
    fun ties => ⟨fun oid known => ?_, fun attnum known => ?_⟩
  · obtain ⟨before, was, wanes⟩ := collects.wanes.entities id later found'
    obtain rfl := Option.some.inj (cached.1.symm.trans was)
    have cached' := collects.wanes.listed (fun _ found' => Option.some.inj (cached.1.symm.trans found') ▸ cached)
      later found'
    refine ⟨Ties.suits_withoutAttributes, Ties.refs_withoutAttributes _, fun oid known => .inl ?_,
      fun attnum known => .inr ?_⟩
    · rwa [Ties.dependents_withoutAttributes]
    · rw [wanes.key]
      exact (Cascade.mem_evict_attributes _ _).mpr
        (.inr ⟨attnum, fewer id later cached' wanes.key attnum known, rfl⟩)
  · rwa [Ties.dependents_withoutAttributes] at known
  · rw [Ties.attributes_withoutAttributes] at known
    cases known

end deleted

/-- A relation and the types that resolved it; a deleted one takes its attributes along. -/
theorem invalidate_relation (underway : Underway unsignalled [] state) (found : state.2.entity? id = some entity)
    (cached : state.2.Cached id entity) (isRelation : entity.kind = .relation) (change : Change) :
    Collects unsignalled [] state (invalidate change id state) ∧ Struck id (invalidate change id state) := by
  obtain ⟨types, attributes, ties⟩ : ∃ types attributes, entity.ties = .relation types attributes := by
    have suits := (underway.sound.shaped id entity found).tied
    rw [isRelation] at suits
    exact suits
  have lonely : (Ties.withoutTypes entity.ties).dependents = [] := by
    rw [ties]
    rfl
  have all (oid : Oid) (known : oid ∈ entity.ties.dependents) : oid ∈ entity.ties.types := by
    rw [ties] at known ⊢
    simpa [Ties.dependents, Ties.routines] using known
  obtain ⟨collects, struck, fewer⟩ := forget_collects underway found cached Ties.forgets_withoutTypes lonely all
    (invalidateTypes entity.ties.types) fun state underway => by
      rw [isRelation] at underway
      exact invalidateTypes_collects _ state underway
  unfold invalidate
  rw [found]
  dsimp only
  rw [isRelation]
  dsimp only
  generalize invalidateTypes entity.ties.types _ = after at collects struck fewer ⊢
  cases change with
  | updated => exact ⟨collects, struck⟩
  | deleted =>
    have condemns := condemn_attributes cached collects fewer underway isRelation struck
    have forgets := forget_attributes cached collects fewer condemns
    exact ⟨(collects.trans condemns).trans forgets, struck.later (condemns.trans forgets).wanes⟩

/-- A language and the routines that resolved it. -/
theorem invalidate_language (underway : Underway unsignalled [] state) (found : state.2.entity? id = some entity)
    (cached : state.2.Cached id entity) (isLanguage : entity.kind = .language) (change : Change) :
    Collects unsignalled [] state (invalidate change id state) ∧ Struck id (invalidate change id state) := by
  obtain ⟨routines, ties⟩ : ∃ routines, entity.ties = .language routines := by
    have suits := (underway.sound.shaped id entity found).tied
    rw [isLanguage] at suits
    exact suits
  have lonely : (Ties.withoutRoutines entity.ties).dependents = [] := by
    rw [ties]
    rfl
  have all (oid : Oid) (known : oid ∈ entity.ties.dependents) : oid ∈ entity.ties.routines := by
    rw [ties] at known ⊢
    simpa [Ties.dependents, Ties.types] using known
  obtain ⟨collects, struck, fewer⟩ := forget_collects underway found cached Ties.forgets_withoutRoutines lonely all
    (invalidateRoutines entity.ties.routines) fun state underway => by
      rw [isLanguage] at underway
      exact invalidateRoutines_collects _ state underway
  unfold invalidate
  rw [found]
  dsimp only
  rw [isLanguage]
  dsimp only
  generalize invalidateRoutines entity.ties.routines _ = after at collects struck fewer ⊢
  obtain ⟨cascade, world⟩ := after
  cases change with
  | updated => exact ⟨collects, struck⟩
  | deleted =>
    have condemns : Collects unsignalled [] (cascade, world) (cascade.evict entity.key, world) := by
      refine .condemn collects.underway entity.key (Cascade.trips_evict _ _)
        (fun other among => Cascade.mem_evict.mpr (.inr among))
        (fun other among => (Cascade.mem_evict.mp among).symm.imp_right .inl)
        (struck.of_key underway cached collects.wanes) fun other later cached' isKey attnum known => ?_
      -- a language knows no attributes
      have none := fewer other later cached' isKey attnum known
      rw [ties] at none
      cases none
    exact ⟨collects.trans condemns, struck.later condemns.wanes⟩

/-- Whatever happens to an entity, nothing is trusted any more that depended on it. -/
theorem invalidate_collects (underway : Underway unsignalled [] state) (listed : state.2.Listed id)
    (change : Change) :
    Collects unsignalled [] state (invalidate change id state) ∧ Struck id (invalidate change id state) := by
  cases found : state.2.entity? id with
  | none =>
    unfold invalidate
    rw [found]
    exact ⟨.refl underway, fun entity found' => nomatch found.symm.trans found'⟩
  | some entity =>
    have cached := listed entity found
    by_cases isRelation : entity.kind = .relation
    · exact invalidate_relation underway found cached isRelation change
    · by_cases isLanguage : entity.kind = .language
      · exact invalidate_language underway found cached isLanguage change
      · have run : invalidate change id state = invalidateAlone change id state := by
          unfold invalidate
          rw [found]
          dsimp only
          cases kind : entity.kind <;> first | rfl | contradiction
        rw [run]
        refine invalidateAlone_collects underway listed (fun later found' => ?_) change
        obtain rfl := Option.some.inj (found.symm.trans found')
        exact ⟨isRelation, isLanguage⟩

end World

end CatalogReplica.Catalog
