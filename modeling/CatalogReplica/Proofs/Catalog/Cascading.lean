import CatalogReplica.Proofs.Catalog.Current

/-!
# Whom a burst reaches

A type keeps a link to its relation, and a routine keeps one to its language.  As long as
such a link is valid its target knows who resolved it, so that a signal about the target
reaches whoever depends on it.

* `World.Tracks`: whoever keeps a valid link is known where it leads to.
* `World.Dependent`: who depends on a relation or a language.
* `World.dispatch_reaches`: after a burst about it, nothing that they keep is valid.
* `Operation.dependents_reached`: both, for the state that any run leaves.
-/

namespace CatalogReplica.Catalog

open Coherence (Batch Gates Memo)

namespace Entity

variable {entity : Entity} {gates : Gates} {link : Link} {target : ThingId}

/-- The slot of the link keeps a valid memo that leads to the target. -/
def Links (gates : Gates) (entity : Entity) (link : Link) (target : ThingId) : Prop :=
  entity.kind = link.info.kind ∧ ∃ memo, entity.table.memo? link.info.index = some memo ∧
    memo.value = .link (some target) ∧ memo.isValid gates = true

/-- No slot keeps a valid memo. -/
def Spent (gates : Gates) (entity : Entity) : Prop :=
  ∀ index memo, entity.table.memo? index = some memo → memo.isValid gates = false

-- a valid memo is trusted as long as no batch holds the gate
theorem Links.trusts (links : entity.Links gates link target) {trips : Batch} (spared : entity.gate ∉ trips.gates) :
    entity.Trusts trips gates link.info.index (.link (some target)) := by
  obtain ⟨-, memo, kept, value, valid⟩ := links
  exact ⟨memo, kept, value, valid, spared⟩

/-- Once a batch with the gate is tripped, nothing is valid. -/
theorem Shaped.spent_of_commit {trips : Batch} (shaped : entity.Shaped trips gates)
    (among : entity.gate ∈ trips.gates) : entity.Spent (trips.commit gates).2 := by
  refine fun index memo kept => Bool.eq_false_iff.mpr fun valid => ?_
  have trusted : memo.Trusted {} (trips.commit gates).2 entity.gate := ⟨valid, List.not_mem_nil⟩
  exact (trusted.of_commit (shaped.governed index memo kept)).2 among

theorem Spent.later {later : Entity} {after : Gates} (spent : entity.Spent gates) (stays : entity.Stays later)
    (onward : gates.Onward after) : later.Spent after := by
  refine fun index memo kept => Bool.eq_false_iff.mpr fun valid => ?_
  have before := onward.valid_before valid
  rw [spent index memo (stays.memo? index ▸ kept)] at before
  cases before

end Entity

/-- The signal is about the row of the entity, or about rows of its attributes if it is a
    relation. -/
def Signal.About (entity : Entity) (signal : Signal) : Prop :=
  ∃ row : EntityKey, signal.Covers row ∧ (row.IsOf entity.kind entity.key.object ∨
    (entity.kind = .relation ∧ row.IsOf .attr entity.key.object))

namespace World

variable {world : World} {unsignalled : List EntityKey} {signals : List Signal} {id other : ThingId}
  {entity : Entity} {state : Cascade × World}

/-- Every cached type that keeps a valid link to a relation is known there, and every cached
    routine that keeps one to a language. -/
structure Tracks (world : World) : Prop where
  types : ∀ id type target, world.Cached id type → type.Links world.gates .typeRelation target →
    ∃ relation, world.Cached target relation ∧ relation.kind = .relation ∧
      type.key.object ∈ relation.ties.types
  routines : ∀ id routine target, world.Cached id routine → routine.Links world.gates .routineLanguage target →
    ∃ language, world.Cached target language ∧ language.kind = .language ∧
      routine.key.object ∈ language.ties.routines

/-- Who depends on a relation or a language: itself, its cached attributes, and whoever is
    cached and keeps a valid link to it. -/
inductive Dependent (world : World) (id : ThingId) (entity : Entity) : ThingId → Prop where
  | self : Dependent world id entity id
  | attr (other : ThingId) (column : Entity) (cached : world.Cached other column) (isAttr : column.kind = .attr)
      (isRelation : entity.kind = .relation) (object : column.key.object = entity.key.object) :
      Dependent world id entity other
  | link (other : ThingId) (dependent : Entity) (link : Link) (cached : world.Cached other dependent)
      (tracked : link.Tracked) (links : dependent.Links world.gates link id) : Dependent world id entity other

/-! ## Who is known -/

theorem Rests.tracks (rests : world.Rests unsignalled) : world.Tracks := by
  have sound := rests.stands.sound
  -- at rest nobody is owed anything
  have known (link : Link) (tracked : link.Tracked) (id : ThingId) (entity : Entity) (target : ThingId)
      (cached : world.Cached id entity) (links : entity.Links world.gates link target) :
      ∃ found, world.Cached target found ∧ found.kind = link.info.target ∧
        entity.key.object ∈ found.ties.dependents := by
    obtain ⟨found, its, isTarget, -, knows⟩ :=
      sound.links id entity link target cached tracked links.1 (links.trusts List.not_mem_nil)
    exact ⟨found, its, isTarget, knows.resolve_right List.not_mem_nil⟩
  constructor
  · intro id type target cached links
    obtain ⟨relation, its, isRelation, knows⟩ := known .typeRelation (.inl rfl) id type target cached links
    obtain ⟨types, attributes, ties⟩ := isRelation ▸ (sound.shaped target relation its.1).tied
    refine ⟨relation, its, isRelation, ?_⟩
    simpa [ties, Ties.dependents, Ties.types, Ties.routines] using knows
  · intro id routine target cached links
    obtain ⟨language, its, isLanguage, knows⟩ := known .routineLanguage (.inr rfl) id routine target cached links
    obtain ⟨routines, ties⟩ := isLanguage ▸ (sound.shaped target language its.1).tied
    refine ⟨language, its, isLanguage, ?_⟩
    simpa [ties, Ties.dependents, Ties.types, Ties.routines] using knows

/-! ## Who is reached -/

theorem Cached.listed (cached : world.Cached id entity) : world.Listed id := by
  intro later found
  obtain rfl := Option.some.inj (cached.1.symm.trans found)
  exact cached

/-- The signals of a burst reach the entity that one of them is about. -/
theorem struck_of_about (stands : world.Stands unsignalled) (cached : world.Cached id entity)
    (plain : entity.kind ≠ .attr) (about : ∃ signal ∈ signals, signal.About entity) :
    Struck id (collectAll signals world) := by
  obtain ⟨collects, reached⟩ := collectAll_collects stands signals
  obtain ⟨signal, among, row, covers, about⟩ := about
  intro later found
  obtain ⟨before, was, turned⟩ := collects.wanes.entities id later found
  obtain rfl := Option.some.inj (cached.1.symm.trans was)
  have cached' := collects.wanes.listed cached.listed later found
  have covered := reached row ⟨signal, among, covers⟩
  rcases about with own | ⟨isRelation, ofAttr⟩
  · refine covered entity.kind own.1 id later cached' ?_ (.inl (turned.key ▸ own.2.symm))
    rw [turned.kind, EntityClass.owner, if_neg plain]
  · refine covered .attr ofAttr.1 id later cached' ?_ (.inl (turned.key ▸ ofAttr.2.symm))
    rw [turned.kind, isRelation]
    rfl

/-- With it, the signals reach whoever depends on it. -/
theorem Dependent.tripped (stands : world.Stands unsignalled) (cached : world.Cached id entity)
    (collects : Collects unsignalled [] ({}, world) state) (struck : Struck id state)
    (depends : world.Dependent id entity other) : Tripped other state := by
  have sound := collects.underway.sound
  intro later found
  obtain ⟨before, was, turned⟩ := collects.wanes.entities other later found
  by_cases spared : later.gate ∈ state.1.trips.gates
  · exact spared
  exfalso
  cases depends with
  | self => exact spared (struck later found).1
  | attr _ column its isAttr isRelation object =>
    obtain rfl := Option.some.inj (its.1.symm.trans was)
    have still := collects.wanes.listed its.listed later found
    -- its relation has the number of the entity, so it is the entity, and shares the gate
    obtain ⟨owner, relation, its', isRelation', object', gate⟩ :=
      collects.underway.relationOf still (turned.kind.trans isAttr) spared
    obtain ⟨relation', was', turned'⟩ := collects.wanes.cached its'
    have named := (stands.sound.shaped owner relation' was'.1).named
    have named' := (stands.sound.shaped id entity cached.1).named
    rw [← turned'.kind, isRelation'] at named
    rw [isRelation] at named'
    have same : relation'.key = entity.key := by
      rw [named.key_eq (by decide) (by decide), named'.key_eq (by decide) (by decide), ← turned'.key, object',
        turned.key, object]
    obtain rfl := stands.sound.cached_unique was' cached same
    exact spared (gate ▸ (struck relation its'.1).1)
  | link _ dependent link its tracked links =>
    obtain rfl := Option.some.inj (its.1.symm.trans was)
    have still := collects.wanes.listed its.listed later found
    -- nothing was tripped yet, so the link is still trusted, and its target knows no one
    have links' : later.Links state.2.gates link id := by
      obtain ⟨isKind, memo, kept, value, valid⟩ := links
      have untripped : state.2.gates.Onward world.gates := .of_eq fun cell => (collects.wanes.cells cell).symm
      exact ⟨turned.kind.trans isKind, memo, turned.table ▸ kept, value, untripped.valid_before valid⟩
    obtain ⟨target, its', -, -, knows⟩ :=
      sound.links other later link id still tracked links'.1 (links'.trusts spared)
    rw [(struck target its'.1).2] at knows
    exact knows.elim List.not_mem_nil List.not_mem_nil

/-- After a burst about an entity nothing is valid that its dependents keep. -/
theorem dispatch_reaches (stands : world.Stands unsignalled) (cached : world.Cached id entity)
    (plain : entity.kind ≠ .attr) (about : ∃ signal ∈ signals, signal.About entity) :
    (dispatch signals).Ends world fun _ after => ∀ other, world.Dependent id entity other →
      ∀ dependent, after.entity? other = some dependent → dependent.Spent after.gates := by
  obtain ⟨collects, -⟩ := collectAll_collects stands signals
  have underway := collects.underway
  have struck := struck_of_about stands cached plain about
  have tripped := underway.tripped collects.wanes
  -- the rest of the burst is counted from where the batch is tripped
  have clears := commit_clearing (.start tripped.sound tripped.fresh)
  refine .next rfl (clears.weaken fun _ after clearing => ?_)
  intro other depends dependent found
  obtain ⟨mid, its, stays⟩ := clearing.entities other dependent found
  have tripped := depends.tripped stands cached collects struck mid its
  have spent := (underway.sound.shaped other mid its).spent_of_commit tripped
  exact spent.later stays clearing.gates

end World

namespace Operation

/-- Whatever was carried out before: whoever keeps a valid link to a relation or a language is
    known there, and when a burst about it is delivered, nothing stays valid that it, its
    attributes or those who keep the link have in their slots. -/
theorem dependents_reached (config : Config) (operations : List Operation)
    (allowed : AllowedAll operations (World.start config)) (proper : ∀ operation ∈ operations, operation.Proper)
    (opened : (after operations (World.start config)).isOpen = true) :
    (after operations (World.start config)).Tracks ∧
    ∀ signals id entity, (after operations (World.start config)).Cached id entity →
      entity.kind = .relation ∨ entity.kind = .language → (∃ signal ∈ signals, signal.About entity) →
      ∀ other, (after operations (World.start config)).Dependent id entity other → ∀ dependent,
        ((Operation.dispatch signals).apply (after operations (World.start config))).entity? other = some dependent →
        dependent.Spent ((Operation.dispatch signals).apply (after operations (World.start config))).gates := by
  have rests := after_rests allowed proper (World.rests_start config) opened
  refine ⟨rests.tracks, fun signals id entity cached kind about => ?_⟩
  have plain : entity.kind ≠ .attr := by
    rintro isAttr
    rw [isAttr] at kind
    exact absurd kind (by decide)
  exact (Task.Ends.discard (World.dispatch_reaches rests.stands cached plain about)).exec

/-- The relation of a composite type is read under a type modifier. -/
def relationRead : List Operation := [
  .put (.relation ⟨16384⟩ "items" ⟨2200⟩ ⟨16386⟩ 1), .put (.composite ⟨16386⟩ "items" ⟨16384⟩), .openSession,
  .lookup (.type ⟨16386⟩ 4), .read 0 "relation" .mutator]

/-- A column of the relation changed. -/
def columnChanged : Operation := .dispatch [.row EntityClass.attr.oid ⟨16384⟩ .updated]

theorem dependents_reached_relationRead : AllowedAll relationRead (World.start {}) ∧
    ∃ type, (after relationRead (World.start {})).Cached 0 type ∧
      type.Links (after relationRead (World.start {})).gates .typeRelation 1 ∧
      (∃ relation, (after relationRead (World.start {})).Cached 1 relation ∧ type.key.object ∈ relation.ties.types) ∧
      ∃ later, (columnChanged.apply (after relationRead (World.start {}))).entity? 0 = some later ∧
        later.Spent (columnChanged.apply (after relationRead (World.start {}))).gates := by
  have allowed : AllowedAll relationRead (World.start {}) := by decide +kernel
  have proper : ∀ operation ∈ relationRead, operation.Proper := by simp [relationRead, Proper]
  have opened : (after relationRead (World.start {})).isOpen = true := by decide +kernel
  have isType : ((after relationRead (World.start {})).entity? 0).any (fun type =>
      (type.key, 0) ∈ ((after relationRead (World.start {})).caches.of type.kind).table ∧ type.kind = .type ∧
      (type.table.memo? Link.typeRelation.info.index).any fun memo => memo.value = .link (some 1) ∧
        memo.isValid (after relationRead (World.start {})).gates = true) = true := by decide +kernel
  have isRelation : ((after relationRead (World.start {})).entity? 1).any (fun relation =>
      (relation.key, 1) ∈ ((after relationRead (World.start {})).caches.of relation.kind).table ∧
      relation.kind = .relation ∧ relation.key.object = ⟨16384⟩) = true := by decide +kernel
  have isLater : ((columnChanged.apply (after relationRead (World.start {}))).entity? 0).isSome = true := by
    decide +kernel
  -- the run is not to be carried out again
  generalize relationRead = operations at *
  simp only [Option.any_eq_true, decide_eq_true_eq] at isType isRelation
  obtain ⟨type, found, entry, kind, memo, kept, value, valid⟩ := isType
  obtain ⟨relation, found', entry', kind', object⟩ := isRelation
  obtain ⟨later, left⟩ := Option.isSome_iff_exists.mp isLater
  obtain ⟨tracks, reaches⟩ := dependents_reached {} operations allowed proper opened
  have links : type.Links (after operations (World.start {})).gates .typeRelation 1 :=
    ⟨kind, memo, kept, value, valid⟩
  obtain ⟨known, its, -, knows⟩ := tracks.types 0 type 1 ⟨found, entry⟩ links
  have about : Signal.About relation (.row EntityClass.attr.oid ⟨16384⟩ .updated) :=
    ⟨attributeKey ⟨16384⟩ 1, ⟨rfl, .inl rfl⟩, .inr ⟨kind', rfl, object.symm⟩⟩
  exact ⟨allowed, type, ⟨found, entry⟩, links, ⟨known, its, knows⟩, later, left,
    reaches _ 1 relation ⟨found', entry'⟩ (.inl kind') ⟨_, List.mem_cons_self, about⟩ 0
      (.link 0 type .typeRelation ⟨found, entry⟩ (.inl rfl) links) later left⟩

end Operation

end CatalogReplica.Catalog
