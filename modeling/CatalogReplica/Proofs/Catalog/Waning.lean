import CatalogReplica.Proofs.Catalog.Tripping

/-!
# A dispatch in progress

While the signals of a burst are collected, gates join the batch, keys are condemned, and
entities forget who depends on them; nothing is written or constructed.

* `Underway`: what holds all the time.
* `Wanes`: how one state of the collection leads to another.
* `Collects`: both, for one step.
* `foldl_collects`: one step for each of many things.
-/

namespace CatalogReplica.Catalog

open Coherence (Batch Gates GateId)

/-- The same entity with the same slots, which knows no one that it did not know before. -/
structure Entity.Wanes (before after : Entity) : Prop extends before.Same after where
  table : after.table = before.table
  dependents : ∀ oid ∈ after.ties.dependents, oid ∈ before.ties.dependents
  attributes : ∀ attnum ∈ after.ties.attributes, attnum ∈ before.ties.attributes

theorem Entity.Wanes.refl (entity : Entity) : entity.Wanes entity :=
  ⟨.refl entity, rfl, fun _ among => among, fun _ among => among⟩

theorem Entity.Wanes.trans {one two three : Entity} (first : one.Wanes two) (second : two.Wanes three) :
    one.Wanes three :=
  ⟨first.toSame.trans second.toSame, second.table.trans first.table,
    fun oid among => first.dependents oid (second.dependents oid among),
    fun attnum among => first.attributes attnum (second.attributes attnum among)⟩

namespace World

variable {unsignalled : List EntityKey} {owed rest : List (EntityClass × Oid)} {cascade : Cascade}
  {world after : World} {id : ThingId} {entity : Entity}

/-! ## Waning -/

/-- What lives was there before, gates stay in the batch, no cell was tripped, and no row was
    written. -/
structure Wanes (before after : Cascade × World) : Prop where
  trips : ∀ gate ∈ before.1.trips.gates, gate ∈ after.1.trips.gates
  cells : ∀ cell, after.2.gates.isTripped cell = before.2.gates.isTripped cell
  alive : ∀ id, after.2.alive id = true → before.2.alive id = true
  entities : ∀ id later, after.2.entity? id = some later →
    ∃ entity, before.2.entity? id = some entity ∧ entity.Wanes later
  entries : ∀ kind key id, after.2.alive id = true →
    ((key, id) ∈ (after.2.caches.of kind).table ↔ (key, id) ∈ (before.2.caches.of kind).table)
  claims : ∀ kind, (after.2.caches.of kind).claims = (before.2.caches.of kind).claims
  held : after.2.held = before.2.held
  store : after.2.provider.store = before.2.provider.store
  available : after.2.isOpen = before.2.isOpen

/-- The thing is no entity, or it is the one in its identity cache. -/
def Listed (world : World) (id : ThingId) : Prop :=
  ∀ entity, world.entity? id = some entity → world.Cached id entity

namespace Wanes

variable {one two three : Cascade × World}

theorem refl (state : Cascade × World) : Wanes state state :=
  ⟨fun _ among => among, fun _ => rfl, fun _ live => live,
    fun _ entity found => ⟨entity, found, .refl entity⟩, fun _ _ _ _ => Iff.rfl, fun _ => rfl, rfl, rfl, rfl⟩

theorem trans (first : Wanes one two) (second : Wanes two three) : Wanes one three where
  trips gate among := second.trips gate (first.trips gate among)
  cells cell := (second.cells cell).trans (first.cells cell)
  alive id live := first.alive id (second.alive id live)
  entities id later found := by
    obtain ⟨mid, was, same⟩ := second.entities id later found
    obtain ⟨entity, was', same'⟩ := first.entities id mid was
    exact ⟨entity, was', same'.trans same⟩
  entries kind key id live :=
    (second.entries kind key id live).trans (first.entries kind key id (second.alive id live))
  claims kind := (second.claims kind).trans (first.claims kind)
  held := second.held.trans first.held
  store := second.store.trans first.store
  available := second.available.trans first.available

theorem cached (wanes : Wanes one two) {later : Entity} (cached : two.2.Cached id later) :
    ∃ entity, one.2.Cached id entity ∧ entity.Wanes later := by
  obtain ⟨entity, was, same⟩ := wanes.entities id later cached.1
  have entry := (wanes.entries _ _ id (alive_of_entity cached.1)).mp cached.2
  rw [same.kind, same.key] at entry
  exact ⟨entity, ⟨was, entry⟩, same⟩

theorem listed (wanes : Wanes one two) (listed : one.2.Listed id) : two.2.Listed id := by
  intro later found
  obtain ⟨entity, was, same⟩ := wanes.entities id later found
  refine ⟨found, (wanes.entries _ _ id (alive_of_entity found)).mpr ?_⟩
  rw [same.kind, same.key]
  exact (listed entity was).2

end Wanes

/-! ## Reaching -/

/-- Nothing that the thing keeps is trusted any more. -/
def Tripped (id : ThingId) (state : Cascade × World) : Prop :=
  ∀ entity, state.2.entity? id = some entity → entity.gate ∈ state.1.trips.gates

/-- Nothing that the thing keeps is trusted any more, and no one is known there. -/
def Struck (id : ThingId) (state : Cascade × World) : Prop :=
  ∀ entity, state.2.entity? id = some entity →
    entity.gate ∈ state.1.trips.gates ∧ entity.ties.dependents = []

theorem Tripped.later {before after : Cascade × World} (tripped : Tripped id before)
    (wanes : Wanes before after) : Tripped id after := by
  intro later found
  obtain ⟨entity, was, same⟩ := wanes.entities id later found
  rw [same.gate]
  exact wanes.trips _ (tripped entity was)

theorem Struck.later {before after : Cascade × World} (struck : Struck id before)
    (wanes : Wanes before after) : Struck id after := by
  intro later found
  obtain ⟨entity, was, same⟩ := wanes.entities id later found
  obtain ⟨among, lonely⟩ := struck entity was
  refine ⟨same.gate ▸ wanes.trips _ among, List.eq_nil_iff_forall_not_mem.mpr fun oid known => ?_⟩
  have before := same.dependents oid known
  rw [lonely] at before
  cases before

/-! ## Under way -/

/-- The catalog is sound and fresh, but for what the cascade is about to do; nothing that
    is going to be evicted is trusted. -/
structure Underway (unsignalled : List EntityKey) (owed : List (EntityClass × Oid))
    (state : Cascade × World) : Prop where
  sound : state.2.Sound state.1 owed
  fresh : state.2.Fresh state.1.trips unsignalled
  doomed : ∀ id entity, state.2.Cached id entity → entity.key ∈ state.1.evictions →
    entity.gate ∈ state.1.trips.gates

/-- From one state of a collection to a later one. -/
structure Collects (unsignalled : List EntityKey) (owed : List (EntityClass × Oid))
    (before after : Cascade × World) : Prop where
  underway : Underway unsignalled owed after
  wanes : Wanes before after

theorem Underway.of_stands (stands : world.Stands unsignalled) : Underway unsignalled [] ({}, world) :=
  ⟨stands.sound, stands.fresh, fun _ _ _ among => nomatch among⟩

theorem Underway.paid {state : Cascade × World} (underway : Underway unsignalled owed state)
    (reached : ∀ id entity, state.2.Cached id entity → (entity.kind, entity.key.object) ∈ owed →
      (entity.kind, entity.key.object) ∈ rest ∨ entity.gate ∈ state.1.trips.gates) :
    Underway unsignalled rest state :=
  ⟨underway.sound.paid reached, underway.fresh, underway.doomed⟩

theorem Sound.cached_unique (sound : world.Sound cascade owed) {one two : ThingId} {first second : Entity}
    (cached : world.Cached one first) (cached' : world.Cached two second) (same : first.key = second.key) :
    one = two := by
  have isClass := (sound.shaped two second cached'.1).named.1
  have kind : first.kind = second.kind := (sound.shaped one first cached.1).kind_eq (same ▸ isClass)
  have entry := cached'.2
  rw [← kind, ← same] at entry
  exact (sound.unique first.kind).eq cached.2 entry

namespace Collects

variable {one two three : Cascade × World}

theorem refl {state : Cascade × World} (underway : Underway unsignalled owed state) :
    Collects unsignalled owed state state := ⟨underway, .refl state⟩

theorem trans (first : Collects unsignalled owed one two) (second : Collects unsignalled rest two three) :
    Collects unsignalled rest one three := ⟨second.underway, first.wanes.trans second.wanes⟩

theorem paid (collects : Collects unsignalled owed one two)
    (reached : ∀ id entity, two.2.Cached id entity → (entity.kind, entity.key.object) ∈ owed →
      (entity.kind, entity.key.object) ∈ rest ∨ entity.gate ∈ two.1.trips.gates) :
    Collects unsignalled rest one two := ⟨collects.underway.paid reached, collects.wanes⟩

/-! ## Steps -/

section steps

variable (underway : Underway unsignalled owed (cascade, world))

include underway

/-- A gate joins the batch. -/
theorem trip (gate : GateId) :
    Collects unsignalled owed (cascade, world)
      ({ cascade with trips := (cascade.trips.add gate world.gates).1 },
        { world with gates := (cascade.trips.add gate world.gates).2 }) where
  underway := ⟨underway.sound.trip gate, underway.fresh.trip gate, fun id entity cached among =>
    Batch.gates_add (underway.doomed id entity cached among) gate world.gates⟩
  wanes := ⟨fun _ among => Batch.gates_add among gate world.gates, fun _ => Batch.isTripped_add .., fun _ live => live,
    fun _ entity found => ⟨entity, found, .refl entity⟩, fun _ _ _ _ => Iff.rfl, fun _ => rfl, rfl, rfl,
    rfl⟩

/-- Dead entries leave the identity caches. -/
theorem trim {caches : Caches} (trims : world.Trims caches)
    (claims : ∀ kind, (caches.of kind).claims = (world.caches.of kind).claims) :
    Collects unsignalled owed (cascade, world) (cascade, { world with caches }) where
  underway := ⟨underway.sound.trim trims, underway.fresh.trim trims, fun id entity cached among =>
    underway.doomed id entity (trims.cached cached) among⟩
  wanes := ⟨fun _ among => among, fun _ => rfl, fun _ live => live, fun _ entity found => ⟨entity, found, .refl entity⟩,
    fun kind _ _ live => ⟨(trims kind).mem, fun among => (trims kind).live _ among live⟩, claims, rfl, rfl,
    rfl⟩

/-- Things go that nothing refers to. -/
theorem reaped (reaped : Reaped world after) :
    Collects unsignalled owed (cascade, world) (cascade, after) where
  underway := ⟨underway.sound.reaped reaped, underway.fresh.reaped underway.sound reaped,
    fun id entity cached among => underway.doomed id entity (reaped.cached cached) among⟩
  wanes := by
    refine ⟨fun _ among => among, fun _ => by rw [reaped.gates], fun id live => ?_,
      fun id entity found => ⟨entity, ?_, .refl entity⟩,
      fun kind _ _ _ => by rw [reaped.caches kind], fun kind => by rw [reaped.caches kind], reaped.held,
      reaped.provider, reaped.isOpen⟩
    · obtain ⟨thing, found⟩ := alive_iff.mp live
      exact alive_iff.mpr ⟨thing, reaped.still id thing found⟩
    · exact entity?_eq_some.mpr (reaped.still id _ (entity?_eq_some.mp found))

/-- An entity forgets those who are owed something, or attributes that are going to be
    evicted. -/
theorem tie {f : Ties → Ties} (refs : ∀ ties, (f ties).refs = ties.refs)
    (turns : ∀ entity, world.entity? id = some entity →
      entity.ties.Turns entity.kind entity.key.object cascade.evictions rest (f entity.ties))
    (more : ∀ entry ∈ owed, entry ∈ rest)
    (fewer : ∀ ties, (∀ oid ∈ (f ties).dependents, oid ∈ ties.dependents) ∧
      ∀ attnum ∈ (f ties).attributes, attnum ∈ ties.attributes) :
    Collects unsignalled rest (cascade, world) (cascade, onThing id (Thing.onTies f) world) := by
  have before {other : ThingId} {later : Entity}
      (found : (onThing id (Thing.onTies f) world).entity? other = some later) :
      ∃ entity, world.entity? other = some entity ∧ entity.Wanes later := by
    obtain ⟨thing, was, ⟨-, turned⟩ | rfl⟩ := onTies_cases (entity?_eq_some.mp found)
    · cases thing with
      | entity entity =>
        cases turned
        exact ⟨entity, entity?_eq_some.mpr was, ⟨rfl, rfl, rfl⟩, rfl, (fewer entity.ties).1, (fewer entity.ties).2⟩
      | encoding number table => cases turned
      | descriptor descriptor => cases turned
    · exact ⟨later, entity?_eq_some.mpr was, .refl later⟩
  refine ⟨⟨underway.sound.tie refs turns more, underway.fresh.tie refs turns underway.sound,
    fun other later cached among => ?_⟩, ⟨fun _ among => among, fun _ => rfl, fun other live => ?_,
      fun _ _ found => before found, fun _ _ _ _ => Iff.rfl, fun _ => rfl, rfl, rfl, rfl⟩⟩
  · obtain ⟨entity, was, same⟩ := before cached.1
    have entry := cached.2
    rw [same.kind, same.key] at entry
    rw [same.gate]
    exact underway.doomed other entity ⟨was, entry⟩ (same.key ▸ among)
  · rwa [alive_onThing] at live

end steps

end Collects

/-- One step for each of many things, each of which is the one in its cache. -/
theorem foldl_collects {f : Cascade × World → ThingId → Cascade × World}
    {reaches : ThingId → Cascade × World → Prop}
    (step : ∀ id state, Underway unsignalled owed state → state.2.Listed id →
      Collects unsignalled owed state (f state id) ∧ reaches id (f state id))
    (lasts : ∀ id before after, Wanes before after → reaches id before → reaches id after)
    (ids : List ThingId) (state : Cascade × World) (underway : Underway unsignalled owed state)
    (listed : ∀ id ∈ ids, state.2.Listed id) :
    Collects unsignalled owed state (ids.foldl f state) ∧ ∀ id ∈ ids, reaches id (ids.foldl f state) := by
  induction ids generalizing state with
  | nil => exact ⟨.refl underway, fun _ among => nomatch among⟩
  | cons first ids inductionHypothesis =>
    obtain ⟨collects, reached⟩ := step first state underway (listed first List.mem_cons_self)
    obtain ⟨collects', reached'⟩ := inductionHypothesis (f state first) collects.underway fun id among =>
      collects.wanes.listed (listed id (List.mem_cons_of_mem _ among))
    refine ⟨collects.trans collects', fun id among => ?_⟩
    cases List.mem_cons.mp among with
    | inl same => exact lasts id _ _ collects'.wanes (same ▸ reached)
    | inr later => exact reached' id later

end World

end CatalogReplica.Catalog
