import CatalogReplica.Proofs.Catalog.Collecting

/-!
# Bursts of signals

What a burst brings about is collected signal by signal.  Afterwards a row that one of
them was about is signalled: nothing is trusted that was made of it.

* `Signal.Covers`: the rows that a signal is about.
* `Reached`: what a signal brings about for the key of a row.
* `collectAll_collects`: a burst.
* `Underway.settle`: rows that were reached need not be remembered as unsignalled.
-/

namespace CatalogReplica.Catalog

/-- Whether the signal is about the row of a key. -/
def Signal.Covers (key : EntityKey) : Signal → Prop
  | .row classOid object _ =>
      classOid = key.classOid ∧ (object = key.object ∨ object.isValid = false)
  | .scope _ _ => False
  | .all => True

instance (key : EntityKey) : (signal : Signal) → Decidable (signal.Covers key)
  | .row classOid object _ => inferInstanceAs (Decidable (classOid = key.classOid ∧ (object = key.object ∨ _)))
  | .scope _ _ => .isFalse id
  | .all => .isTrue trivial

theorem EntityClass.mem_all (kind : EntityClass) : kind ∈ EntityClass.all := by
  cases kind <;> decide

namespace World

variable {unsignalled signalled : List EntityKey} {world : World} {id : ThingId} {entity : Entity}
  {kind : EntityClass} {key : EntityKey} {state after : Cascade × World}

/-! ## What signals bring about -/

/-- Nothing is trusted at the entities that stand for rows of the class with the object
    number, and no one is known there; no valid number stands for all of them. -/
def Covered (kind : EntityClass) (object : Oid) (state : Cascade × World) : Prop :=
  ∀ id entity, state.2.Cached id entity → entity.kind = kind.owner →
    entity.key.object = object ∨ object.isValid = false →
    entity.gate ∈ state.1.trips.gates ∧ entity.ties.dependents = []

/-- Nothing is trusted at the entity that stands for the row of the key, and no one is
    known there. -/
def Reached (key : EntityKey) (state : Cascade × World) : Prop :=
  ∀ kind : EntityClass, key.classOid = kind.oid → Covered kind key.object state

theorem Covered.later {object : Oid} (covered : Covered kind object state) (wanes : Wanes state after) :
    Covered kind object after := by
  intro id later cached isOwner about
  obtain ⟨entity, was, turned⟩ := wanes.cached cached
  obtain ⟨among, lonely⟩ := covered id entity was (turned.kind ▸ isOwner) (turned.key ▸ about)
  refine ⟨turned.gate ▸ wanes.trips _ among, List.eq_nil_iff_forall_not_mem.mpr fun oid known => ?_⟩
  have before := turned.dependents oid known
  rw [lonely] at before
  cases before

theorem Reached.later (reached : Reached key state) (wanes : Wanes state after) : Reached key after :=
  fun kind isClass => (reached kind isClass).later wanes

theorem Covered.of_object {object : Oid} (covered : Covered kind object state) (other : Oid)
    (about : object = other ∨ object.isValid = false) : Covered kind other state := by
  cases about with
  | inl same => exact same ▸ covered
  | inr every => exact fun id entity cached isOwner _ => covered id entity cached isOwner (.inr every)

/-- A changed row is collected. -/
theorem collectRow_collects (underway : Underway unsignalled [] state) (kind : EntityClass) (object : Oid)
    (change : Change) :
    Collects unsignalled [] state (collectRow kind object change state) ∧
      Covered kind object (collectRow kind object change state) := by
  obtain ⟨cascade, world⟩ := state
  have found := targets_found underway kind object
  obtain ⟨collects, struck⟩ := foldl_collects
    (fun id state underway listed => invalidate_collects underway listed
      (if kind = .attr then .updated else change))
    (fun _ _ _ wanes struck => struck.later wanes) _ _ found.collects.underway found.listed
  refine ⟨found.collects.trans collects, fun id later cached isOwner about => ?_⟩
  obtain ⟨entity, was, turned⟩ := collects.wanes.cached cached
  have among := found.complete id entity was ⟨turned.kind ▸ isOwner, turned.key ▸ about⟩
  exact struck id among later cached.1

/-- Rows of many classes are collected. -/
theorem collectRows_collects (kinds : List EntityClass) (object : Oid) (change : Change)
    (state : Cascade × World) (underway : Underway unsignalled [] state) :
    Collects unsignalled [] state
        (kinds.foldl (fun state kind => collectRow kind object change state) state) ∧
      ∀ kind ∈ kinds, Covered kind object
        (kinds.foldl (fun state kind => collectRow kind object change state) state) := by
  induction kinds generalizing state with
  | nil => exact ⟨.refl underway, fun _ among => nomatch among⟩
  | cons kind kinds inductionHypothesis =>
    obtain ⟨collects, covered⟩ := collectRow_collects underway kind object change
    obtain ⟨collects', covered'⟩ := inductionHypothesis _ collects.underway
    refine ⟨collects.trans collects', fun other among => ?_⟩
    cases List.mem_cons.mp among with
    | inl same => exact same ▸ covered.later collects'.wanes
    | inr rest => exact covered' other rest

theorem Collects.tearing (underway : Underway unsignalled [] state) (teardowns : List (Address × Bool)) :
    Collects unsignalled [] state ({ state.1 with teardowns }, state.2) where
  underway := ⟨{ underway.sound with }, underway.fresh, underway.doomed⟩
  wanes := { Wanes.refl state with }

/-- A signal is collected. -/
theorem collect_collects (underway : Underway unsignalled [] state) (signal : Signal) :
    Collects unsignalled [] state (collect signal state) ∧
      ∀ key, signal.Covers key → Reached key (collect signal state) := by
  cases signal with
  | row classOid object change =>
    simp only [collect]
    cases class' : EntityClass.ofOid? classOid with
    | none =>
      refine ⟨.refl underway, fun key covers kind isClass => ?_⟩
      rw [covers.1, isClass, kind.ofOid?_oid] at class'
      cases class'
    | some kind =>
      obtain ⟨collects, covered⟩ := collectRow_collects underway kind object change
      refine ⟨collects, fun key covers kind' isClass => ?_⟩
      rw [covers.1, isClass, kind'.ofOid?_oid, Option.some.injEq] at class'
      exact class' ▸ covered.of_object key.object covers.2
  | scope address deleted => exact ⟨.tearing underway _, fun _ covers => covers.elim⟩
  | all =>
    obtain ⟨collects, covered⟩ := collectRows_collects EntityClass.all Oid.invalid .updated state underway
    exact ⟨collects, fun key _ kind _ => (covered kind kind.mem_all).of_object key.object (.inr rfl)⟩

/-- A burst of signals is collected. -/
theorem collectSignals_collects (signals : List Signal) (state : Cascade × World)
    (underway : Underway unsignalled [] state) :
    let after := signals.foldl
      (fun state signal => collect signal (state.1, count .dispatchSignal state.2)) state
    Collects unsignalled [] state after ∧
      ∀ key, (∃ signal ∈ signals, signal.Covers key) → Reached key after := by
  induction signals generalizing state with
  | nil => exact ⟨.refl underway, fun _ covers => nomatch covers.choose_spec.1⟩
  | cons signal signals inductionHypothesis =>
    have counts : Collects unsignalled [] state (state.1, count .dispatchSignal state.2) :=
      .reaped underway (.of_core rfl)
    obtain ⟨collects, reached⟩ := collect_collects counts.underway signal
    obtain ⟨collects', reached'⟩ := inductionHypothesis _ collects.underway
    refine ⟨(counts.trans collects).trans collects', fun key covers => ?_⟩
    obtain ⟨other, among, covers⟩ := covers
    cases List.mem_cons.mp among with
    | inl same => exact (reached key (same ▸ covers)).later collects'.wanes
    | inr rest => exact reached' key ⟨other, rest, covers⟩

theorem collectAll_collects (stands : world.Stands unsignalled) (signals : List Signal) :
    Collects unsignalled [] ({}, world) (collectAll signals world) ∧
      ∀ key, (∃ signal ∈ signals, signal.Covers key) → Reached key (collectAll signals world) :=
  collectSignals_collects signals ({}, world) (.of_stands stands)

/-! ## What need not be remembered -/

/-- No one is known at a relation whose rows were reached, and nothing is trusted there. -/
theorem Reached.relation (reached : Reached key state) (cached : state.2.Cached id entity)
    (isRelation : entity.kind = .relation)
    (about : key.classOid = EntityClass.relation.oid ∨ key.classOid = EntityClass.attr.oid)
    (object : key.object = entity.key.object) :
    entity.gate ∈ state.1.trips.gates ∧ entity.ties.dependents = [] := by
  cases about with
  | inl own => exact reached .relation own id entity cached isRelation (.inl object.symm)
  | inr ofAttr => exact reached .attr ofAttr id entity cached isRelation (.inl object.symm)

/-- A cached relation with a gate that is not in the batch stands for no row that was reached, nor do its attributes. -/
theorem not_reached_of_spared (cached : state.2.Cached id entity) (isRelation : entity.kind = .relation)
    (spared : entity.gate ∉ state.1.trips.gates)
    (about : key.classOid = EntityClass.relation.oid ∨ key.classOid = EntityClass.attr.oid)
    (object : key.object = entity.key.object) : ¬ Reached key state := fun reached =>
  spared (reached.relation cached isRelation about object).1

/-- Nor does one that knows who depends on it. -/
theorem not_reached_of_known {oid : Oid} (cached : state.2.Cached id entity) (isRelation : entity.kind = .relation)
    (known : oid ∈ entity.ties.dependents)
    (about : key.classOid = EntityClass.relation.oid ∨ key.classOid = EntityClass.attr.oid)
    (object : key.object = entity.key.object) : ¬ Reached key state := by
  intro reached
  rw [(reached.relation cached isRelation about object).2] at known
  cases known

section settle

variable (underway : Underway unsignalled [] state)

include underway

/-- An attribute whose gate is not in the batch is one of the cached relation with the gate. -/
theorem Underway.relationOf (cached : state.2.Cached id entity) (isAttr : entity.kind = .attr)
    (spared : entity.gate ∉ state.1.trips.gates) :
    ∃ owner relation, state.2.Cached owner relation ∧ relation.kind = .relation ∧
      relation.key.object = entity.key.object ∧ relation.gate = entity.gate := by
  cases underway.sound.attributes id entity cached isAttr with
  | inl goes => exact absurd (underway.doomed id entity cached goes) spared
  | inr tied =>
    obtain ⟨owner, relation, attnum, ties, its, -⟩ := tied
    obtain ⟨relation', its', isRelation, object, gate⟩ := underway.sound.tied id entity owner cached.1 ties
    obtain rfl := Option.some.inj (its.1.symm.trans its')
    exact ⟨owner, relation, its, isRelation, object, gate⟩

/-- A cached entity that trusts something stands for no row that was reached. -/
theorem Underway.not_reached (cached : state.2.Cached id entity) (spared : entity.gate ∉ state.1.trips.gates)
    (own : key.classOid = entity.key.classOid) (object : key.object = entity.key.object) :
    ¬ Reached key state := by
  intro reached
  have isClass := own.trans (underway.sound.shaped id entity cached.1).named.1
  by_cases isAttr : entity.kind = .attr
  · obtain ⟨owner, relation, its, isRelation, sameObject, gate⟩ := underway.relationOf cached isAttr spared
    refine spared (gate ▸ (reached .attr (isAttr ▸ isClass) owner relation its isRelation (.inl ?_)).1)
    rw [sameObject, object]
  · refine spared (reached entity.kind isClass id entity cached ?_ (.inl object.symm)).1
    rw [EntityClass.owner, if_neg isAttr]

/-- Where a cached type trusts that it leads to a relation, neither the relation nor its attributes were reached:
    the relation knows the type, and forgets those it knows when it is reached. -/
theorem Underway.not_reached_linked {target : Option ThingId} {relation : Oid} (cached : state.2.Cached id entity)
    (isType : entity.kind = .type)
    (trusts : entity.Trusts state.1.trips state.2.gates Link.typeRelation.info.index (.link target))
    (leads : state.2.LeadsTo relation target) (valid : relation.isValid = true)
    (about : key.classOid = EntityClass.relation.oid ∨ key.classOid = EntityClass.attr.oid)
    (object : key.object = relation) : ¬ Reached key state := by
  cases target with
  | none =>
    rw [show relation.isValid = false from leads] at valid
    cases valid
  | some target =>
    obtain ⟨-, other, isOther, -, isObject⟩ := leads
    obtain ⟨found, its, isRelation, -, known⟩ := underway.sound.links id entity .typeRelation target cached
      (.inl rfl) isType trusts
    obtain rfl := Option.some.inj (its.1.symm.trans isOther)
    exact not_reached_of_known its isRelation (known.resolve_right List.not_mem_nil) about (object.trans isObject.symm)

/-- Rows that were reached need not be remembered as unsignalled. -/
theorem Underway.settle (settled : ∀ key ∈ unsignalled, key ∈ signalled ∨ Reached key state) :
    Underway signalled [] state := by
  refine ⟨underway.sound, fun id entity field datum cached kind trusts => ?_, underway.doomed⟩
  have right := underway.fresh id entity field datum cached kind trusts
  -- what is trusted was not reached, so that what is clean now was clean before
  have keeps {classOid object : Oid} (clean : Clean signalled classOid object)
      (spared : ∀ key, key.classOid = classOid → key.object = object → ¬ Reached key state) :
      Clean unsignalled classOid object := by
    intro key among about
    cases settled key among with
    | inl still => exact clean key still about
    | inr reached => exact spared key about.1 about.2 reached
  have own (clean : Clean signalled entity.key.classOid entity.key.object) :
      Clean unsignalled entity.key.classOid entity.key.object :=
    keeps clean fun _ isClass object => underway.not_reached cached trusts.spared isClass object
  cases field with
  | tuple _ => exact fun clean => right (own clean)
  | column field => exact fun clean => right (own clean)
  | link link =>
    cases link with
    | typeRelation => exact fun clean => right (own clean)
    | _ => trivial
  | attributeType => trivial
  | relationDescriptor =>
    exact fun ofRelation ofAttributes =>
      right (keeps ofRelation fun _ isClass => not_reached_of_spared cached kind.symm trusts.spared (.inl isClass))
        (keeps ofAttributes fun _ isClass => not_reached_of_spared cached kind.symm trusts.spared (.inr isClass))
  | typeDescriptor =>
    intro plain clean
    obtain ⟨relation, target, isLink, decoded, lone, shown⟩ := right plain (own clean)
    refine ⟨relation, target, isLink, decoded, lone, fun valid ofRelation ofAttributes => ?_⟩
    -- the type trusts the link to the relation, where it is known
    obtain ⟨owner, links⟩ := underway.sound.columns id entity datum cached.1 kind.symm plain trusts
    obtain ⟨relation', owner', rfl, leads, decoded'⟩ :=
      underway.fresh id entity (.link .typeRelation) owner cached kind links (own clean)
    obtain rfl : relation' = relation := by
      rw [decoded] at decoded'
      cases decoded'
      rfl
    exact shown valid
      (keeps ofRelation fun _ isClass => underway.not_reached_linked cached kind.symm links leads valid (.inl isClass))
      (keeps ofAttributes fun _ isClass => underway.not_reached_linked cached kind.symm links leads valid (.inr isClass))

end settle

end World

end CatalogReplica.Catalog
