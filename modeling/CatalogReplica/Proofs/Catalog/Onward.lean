import CatalogReplica.Proofs.Catalog.Keeping

/-!
# From rest to rest

Between dispatches nothing is about to be tripped, and lookups and reads lead from one
such state to another.  They take nothing away that someone holds, and what was trusted
stays trusted.

* `Stands`: a sound and fresh catalog whose provider serves everything.
* `Onward`: what lookups and reads leave alone.
* `Leads`: an operation that holds things for its caller.
-/

namespace CatalogReplica.Catalog

open Coherence (Gates Memo)

/-! ## Things -/

/-- The same entity, with ties that know as much, and with the memos that are still
    valid. -/
structure Entity.Becomes (now : Gates) (before after : Entity) : Prop
    extends before.Same after where
  refs : after.ties.refs = before.ties.refs
  dependents : ∀ oid ∈ before.ties.dependents, oid ∈ after.ties.dependents
  attributes : ∀ attnum ∈ before.ties.attributes, attnum ∈ after.ties.attributes
  memos : ∀ index memo, before.table.memo? index = some memo → memo.isValid now = true →
    after.table.memo? index = some memo

theorem Entity.Becomes.refl (now : Gates) (entity : Entity) : entity.Becomes now entity :=
  ⟨.refl entity, rfl, fun _ among => among, fun _ among => among, fun _ _ kept _ => kept⟩

namespace Thing

/-- The same thing, with what it knew and kept. -/
def Becomes (now : Gates) : Thing → Thing → Prop
  | .entity before, .entity after => before.Becomes now after
  | .encoding before _, .encoding after _ => after = before
  | .descriptor before, .descriptor after => after = before
  | _, _ => False

variable {gates now : Gates} {one two three : Thing}

theorem Becomes.refl (now : Gates) (thing : Thing) : thing.Becomes now thing := by
  cases thing with
  | entity entity => exact Entity.Becomes.refl now entity
  | encoding number table => exact rfl
  | descriptor descriptor => exact rfl

theorem Becomes.trans (first : one.Becomes gates two) (second : two.Becomes now three)
    (onward : gates.Onward now) : one.Becomes now three := by
  cases one <;> cases two <;> cases three <;> simp only [Becomes] at first second ⊢
  · refine ⟨first.toSame.trans second.toSame, second.refs.trans first.refs,
      fun oid among => second.dependents oid (first.dependents oid among),
      fun attnum among => second.attributes attnum (first.attributes attnum among),
      fun index memo kept valid => ?_⟩
    exact second.memos index memo (first.memos index memo kept (onward.valid_before valid)) valid
  · exact second.trans first
  · exact second.trans first

end Thing

namespace World

variable {world after last : World} {id : ThingId} {entity : Entity} {unsignalled : List EntityKey}
  {got more : List ThingId}

/-! ## Onward -/

/-- Things and entries that were there are there while they live, and nothing was tripped
    or written. -/
structure Onward (world after : World) : Prop where
  next : world.nextThing ≤ after.nextThing
  kept : ∀ id thing', after.thing? id = some thing' → id < world.nextThing →
    ∃ thing, world.thing? id = some thing ∧ thing.Becomes after.gates thing'
  entries : ∀ kind key id, id < world.nextThing → after.alive id = true →
    ((key, id) ∈ (after.caches.of kind).table ↔ (key, id) ∈ (world.caches.of kind).table)
  gates : world.gates.Grows after.gates
  store : after.provider.store = world.provider.store
  available : after.isOpen = world.isOpen

namespace Onward

theorem alive_before (onward : Onward world after) (known : id < world.nextThing)
    (live : after.alive id = true) : world.alive id = true := by
  obtain ⟨thing', found⟩ := alive_iff.mp live
  obtain ⟨thing, was, -⟩ := onward.kept id thing' found known
  exact alive_iff.mpr ⟨thing, was⟩

theorem trans (first : Onward world after) (second : Onward after last) : Onward world last where
  next := Nat.le_trans first.next second.next
  kept id thing'' found known := by
    obtain ⟨thing', mid, becomes'⟩ := second.kept id thing'' found (Nat.lt_of_lt_of_le known first.next)
    obtain ⟨thing, was, becomes⟩ := first.kept id thing' mid known
    exact ⟨thing, was, becomes.trans becomes' second.gates.onward⟩
  entries kind key id known live := by
    have known' := Nat.lt_of_lt_of_le known first.next
    exact (second.entries kind key id known' live).trans
      (first.entries kind key id known (second.alive_before known' live))
  gates := first.gates.trans second.gates
  store := second.store.trans first.store
  available := second.available.trans first.available

theorem of_reaped (reaped : Reaped world after) : Onward world after where
  next := Nat.le_of_eq (congrArg (·.nextThing) reaped.core).symm
  kept id thing found _ := ⟨thing, reaped.still id thing found, .refl _ thing⟩
  entries kind key id _ _ := by rw [reaped.caches kind]
  gates := reaped.gates ▸ .refl _
  store := reaped.provider
  available := reaped.isOpen

theorem hold (world : World) (held : List ThingId) : Onward world { world with held } :=
  ⟨Nat.le_refl _, fun _ thing found _ => ⟨thing, found, .refl _ thing⟩, fun _ _ _ _ _ => Iff.rfl, .refl _, rfl, rfl⟩

theorem release (id : ThingId) (world : World) : Onward world (World.release id world) :=
  (hold world _).trans (.of_reaped (reap_reaped [id] _))

/-- A descriptor that lives all the time shows what it showed. -/
theorem shows_still (onward : Onward world after) {contents : Descriptor}
    (was : world.descriptor? id = some contents) (known : id < world.nextThing) (live : after.alive id = true) :
    after.descriptor? id = some contents := by
  obtain ⟨thing', found⟩ := alive_iff.mp live
  obtain ⟨thing, was', becomes⟩ := onward.kept id thing' found known
  rw [descriptor?_eq_some.mp was, Option.some.injEq] at was'
  subst was'
  cases thing' with
  | entity later => exact becomes.elim
  | encoding number table => exact becomes.elim
  | descriptor later =>
    refine descriptor?_eq_some.mpr ?_
    rw [found, show later = contents from becomes]

/-- A thing that lives all the time stays what it is. -/
theorem becomes (onward : Onward world after) (was : world.entity? id = some entity)
    (known : id < world.nextThing) (live : after.alive id = true) :
    ∃ later, after.entity? id = some later ∧ entity.Becomes after.gates later := by
  obtain ⟨thing', found⟩ := alive_iff.mp live
  obtain ⟨thing, was', becomes⟩ := onward.kept id thing' found known
  rw [entity?_eq_some.mp was, Option.some.injEq] at was'
  subst was'
  cases thing' with
  | entity later => exact ⟨later, entity?_eq_some.mpr found, becomes⟩
  | encoding number table => exact becomes.elim
  | descriptor descriptor => exact becomes.elim

/-- A cached entity that lives all the time stays cached. -/
theorem cached (onward : Onward world after) (cached : world.Cached id entity)
    (known : id < world.nextThing) (live : after.alive id = true) :
    ∃ later, after.Cached id later ∧ entity.Becomes after.gates later := by
  obtain ⟨later, found, becomes⟩ := onward.becomes cached.1 known live
  refine ⟨later, ⟨found, ?_⟩, becomes⟩
  rw [becomes.kind, becomes.key]
  exact (onward.entries _ _ id known live).mpr cached.2

/-- Who was there before and is cached was cached. -/
theorem cached_before (onward : Onward world after) (was : world.entity? id = some entity)
    (known : id < world.nextThing) {later : Entity} (cached : after.Cached id later) :
    world.Cached id entity := by
  have live := alive_of_entity cached.1
  obtain ⟨later', found, becomes⟩ := onward.becomes was known live
  obtain rfl := Option.some.inj (cached.1.symm.trans found)
  have entry := cached.2
  rw [becomes.kind, becomes.key] at entry
  exact ⟨was, (onward.entries _ _ id known live).mp entry⟩

end Onward

/-! ## Standing -/

/-- A sound and fresh catalog at rest; it is there, and its provider serves everything if there is an object that
    anything is promised of. -/
structure Stands (unsignalled : List EntityKey) (world : World) : Prop where
  sound : world.Sound {} []
  fresh : world.Fresh {} unsignalled
  plain : Vouched unsignalled → world.provider.Plain
  available : world.isOpen = true

namespace Stands

theorem requireOpen_run (stands : world.Stands unsignalled) : requireOpen world = .ok () world := by
  unfold requireOpen
  rw [Task.bind_ok (Task.get_run world)]
  simp only [stands.available, if_true]
  rfl

theorem reaped (stands : world.Stands unsignalled) (reaped : Reaped world after) :
    after.Stands unsignalled where
  sound := stands.sound.reaped reaped
  fresh := stands.fresh.reaped stands.sound reaped
  plain vouched := (stands.plain vouched).of_store reaped.provider
  available := reaped.isOpen.trans stands.available

theorem of_core (stands : world.Stands unsignalled) (same : after.core = world.core) :
    after.Stands unsignalled := stands.reaped (.of_core same)

/-- What an entity trusts it goes on to trust. -/
theorem trusts (stands : world.Stands unsignalled) (onward : Onward world after)
    (was : world.entity? id = some entity) {later : Entity} (becomes : entity.Becomes after.gates later)
    {index : Nat} {datum : Datum} (trusts : entity.Trusts {} world.gates index datum) :
    later.Trusts {} after.gates index datum := by
  obtain ⟨memo, kept, value, trusted⟩ := trusts
  have still := trusted.to_grows ((stands.sound.shaped id entity was).governed index memo kept) onward.gates
  exact ⟨memo, becomes.memos index memo kept still.1, value, becomes.gate ▸ still⟩

end Stands

/-! ## Leading on -/

/-- From one state at rest to another, with things that are held for the caller. -/
structure Leads (unsignalled : List EntityKey) (got : List ThingId) (world after : World) : Prop where
  stands : after.Stands unsignalled
  onward : Onward world after
  claims : ∀ kind, (after.caches.of kind).claims = (world.caches.of kind).claims
  held : ∀ id, got.count id + world.held.count id ≤ after.held.count id

namespace Leads

theorem trans (first : Leads unsignalled got world after) (second : Leads unsignalled more after last) :
    Leads unsignalled (got ++ more) world last where
  stands := second.stands
  onward := first.onward.trans second.onward
  claims kind := (second.claims kind).trans (first.claims kind)
  held id := by
    have one := first.held id
    have two := second.held id
    rw [List.count_append]
    omega

theorem forget (leads : Leads unsignalled got world after) : Leads unsignalled [] world after :=
  ⟨leads.stands, leads.onward, leads.claims, fun id => by
    have count := leads.held id
    rw [List.count_nil]
    omega⟩

theorem further (leads : Leads unsignalled got world after) (rest : Leads unsignalled [] after last) :
    Leads unsignalled got world last := List.append_nil got ▸ leads.trans rest

theorem quiet (leads : Leads unsignalled got world after) (quiet : world.Quiet) : after.Quiet :=
  fun kind => (leads.claims kind).trans (quiet kind)

/-- Who was held is held. -/
theorem holds (leads : Leads unsignalled got world after) (held : id ∈ world.held) : id ∈ after.held := by
  have before := List.count_pos_iff.mpr held
  have count := leads.held id
  exact List.count_pos_iff.mp (by omega)

/-- What the operation gives is held. -/
theorem gives (leads : Leads unsignalled got world after) (among : id ∈ got) : id ∈ after.held := by
  have given := List.count_pos_iff.mpr among
  have count := leads.held id
  exact List.count_pos_iff.mp (by omega)

/-- A cached entity that someone holds stays what it is. -/
theorem cached (leads : Leads unsignalled got world after) (stands : world.Stands unsignalled)
    (cached : world.Cached id entity) (held : id ∈ world.held) :
    ∃ later, after.Cached id later ∧ entity.Becomes after.gates later :=
  leads.onward.cached cached (stands.sound.below id (alive_of_entity cached.1))
    (leads.stands.sound.holding id (leads.holds held))

theorem becomes (leads : Leads unsignalled got world after) (stands : world.Stands unsignalled)
    (found : world.entity? id = some entity) (held : id ∈ world.held) :
    ∃ later, after.entity? id = some later ∧ entity.Becomes after.gates later :=
  leads.onward.becomes found (stands.sound.below id (alive_of_entity found))
    (leads.stands.sound.holding id (leads.holds held))

theorem reaped (stands : world.Stands unsignalled) (reaped : Reaped world after) :
    Leads unsignalled [] world after where
  stands := stands.reaped reaped
  onward := .of_reaped reaped
  claims kind := by rw [reaped.caches kind]
  held id := by
    rw [reaped.held]
    exact Nat.le_of_eq (Nat.zero_add _)

theorem of_core (stands : world.Stands unsignalled) (same : after.core = world.core) :
    Leads unsignalled [] world after := .reaped stands (.of_core same)

theorem refl (stands : world.Stands unsignalled) : Leads unsignalled [] world world := of_core stands rfl

theorem hold (stands : world.Stands unsignalled) (live : world.alive id = true) :
    Leads unsignalled [id] world (hold id world) where
  stands := ⟨stands.sound.hold live, stands.fresh.holding _, stands.plain, stands.available⟩
  onward := .hold world _
  claims _ := rfl
  held _ := Nat.le_of_eq List.count_append.symm

/-- One of the things is released again. -/
theorem release (leads : Leads unsignalled (id :: got) world after) :
    Leads unsignalled got world (release id after) := by
  let mid : World := { after with held := after.held.erase id }
  have stands : mid.Stands unsignalled :=
    ⟨leads.stands.sound.unhold fun _ among => List.mem_of_mem_erase among,
      leads.stands.fresh.holding _, leads.stands.plain, leads.stands.available⟩
  have first : Leads unsignalled got world mid := by
    refine ⟨stands, leads.onward.trans (.hold after _), leads.claims, fun other => ?_⟩
    have count := leads.held other
    rw [List.count_cons] at count
    rw [List.count_erase]
    by_cases same : other = id
    · subst same
      simp only [beq_self_eq_true, if_true] at count ⊢
      omega
    · simp only [beq_eq_false_iff_ne.mpr (Ne.symm same), if_false, Bool.false_eq_true] at count ⊢
      omega
  exact first.further (.reaped stands (reap_reaped [id] mid))

/-- A new gate is made. -/
theorem newGate (stands : world.Stands unsignalled) :
    Leads unsignalled [] world { world with gates := world.gates.newGate.2 } where
  stands := ⟨stands.sound.grow (Gates.grows_newGate _) stands.sound.gates.newGate,
    stands.fresh.grow stands.sound.shaped (Gates.grows_newGate _), stands.plain, stands.available⟩
  onward := ⟨Nat.le_refl _, fun _ thing found _ => ⟨thing, found, .refl _ thing⟩,
    fun _ _ _ _ _ => Iff.rfl, Gates.grows_newGate _, rfl, rfl⟩
  claims _ := rfl
  held _ := Nat.le_of_eq (Nat.zero_add _)

/-- A type becomes known by further type modifiers. -/
theorem index (stands : world.Stands unsignalled) {typmods : Assoc Oid (List Int32)}
    (more : ∀ oid, ∀ typmod ∈ (world.typmods.get? oid).getD [], typmod ∈ (typmods.get? oid).getD [])
    (indexed : Indexed typmods) : Leads unsignalled [] world { world with typmods } where
  stands := ⟨stands.sound.index more indexed, stands.fresh.index typmods, stands.plain, stands.available⟩
  onward := ⟨Nat.le_refl _, fun _ thing found _ => ⟨thing, found, .refl _ thing⟩,
    fun _ _ _ _ _ => Iff.rfl, .refl _, rfl, rfl⟩
  claims _ := rfl
  held _ := Nat.le_of_eq (Nat.zero_add _)

/-- A new thing is held. -/
theorem add (stands : world.Stands unsignalled) {thing : Thing} (fits : world.Fits {} thing) :
    Leads unsignalled [world.nextThing] world (World.hold world.nextThing (world.withThing thing)) := by
  have added : (world.withThing thing).Stands unsignalled :=
    ⟨stands.sound.add fits, stands.fresh.add stands.sound fits, stands.plain, stands.available⟩
  have first : Leads unsignalled [] world (world.withThing thing) := by
    refine ⟨added, ⟨Nat.le_succ _, fun id other found known => ?_, fun _ _ _ _ _ => Iff.rfl, .refl _,
      rfl, rfl⟩, fun _ => rfl, fun _ => Nat.le_of_eq (Nat.zero_add _)⟩
    rw [thing?_withThing stands.sound, if_neg (Nat.ne_of_lt known)] at found
    exact ⟨other, found, .refl _ other⟩
  have live : (world.withThing thing).alive world.nextThing = true :=
    alive_iff.mpr ⟨thing, by rw [thing?_withThing stands.sound, if_pos rfl]⟩
  exact first.trans (.hold added live)

end Leads

end World

/-! ## Ties that learn -/

namespace Dependents

variable {κ : Type} [DecidableEq κ] {below : κ → κ → Bool} {key other : κ}

omit [DecidableEq κ] in
theorem mem_insertSorted {keys : List κ} : other ∈ insertSorted below key keys ↔ other = key ∨ other ∈ keys := by
  induction keys with
  | nil => simp [insertSorted]
  | cons first rest inductionHypothesis =>
    unfold insertSorted
    split
    · simp only [List.mem_cons, inductionHypothesis]
      exact or_left_comm
    · exact List.mem_cons

theorem mem_insert {set : Dependents κ} : other ∈ (set.insert below key).2.keys ↔ other = key ∨ other ∈ set.keys := by
  unfold insert
  split
  · next among =>
    constructor
    · exact .inr
    · rintro (rfl | known)
      · exact among
      · exact known
  · exact mem_insertSorted

end Dependents

namespace Ties

/-- A change of ties that takes nothing away. -/
structure Learns (f : Ties → Ties) : Prop where
  suits : ∀ ties kind, ties.Suit kind → (f ties).Suit kind
  refs : ∀ ties, (f ties).refs = ties.refs
  dependents : ∀ ties, ∀ oid ∈ ties.dependents, oid ∈ (f ties).dependents
  attributes : ∀ ties, ∀ attnum ∈ ties.attributes, attnum ∈ (f ties).attributes

theorem learns_trackType (oid : Oid) : Learns (trackType oid) where
  suits ties kind suits := by cases ties <;> cases kind <;> simp_all [Suit, trackType]
  refs ties := by cases ties <;> rfl
  dependents ties other among := by
    cases ties <;> simp_all [dependents, types, routines, trackType, Dependents.mem_insert]
  attributes ties attnum among := by cases ties <;> exact among

theorem learns_trackRoutine (oid : Oid) : Learns (trackRoutine oid) where
  suits ties kind suits := by cases ties <;> cases kind <;> simp_all [Suit, trackRoutine]
  refs ties := by cases ties <;> rfl
  dependents ties other among := by
    cases ties <;> simp_all [dependents, types, routines, trackRoutine, Dependents.mem_insert]
  attributes ties attnum among := by cases ties <;> exact among

theorem learns_trackAttribute (attnum : Int16) : Learns (trackAttribute attnum) where
  suits ties kind suits := by cases ties <;> cases kind <;> simp_all [Suit, trackAttribute]
  refs ties := by cases ties <;> rfl
  dependents ties other among := by cases ties <;> exact among
  attributes ties other among := by
    cases ties <;> simp_all [attributes, trackAttribute, Dependents.mem_insert]

end Ties

/-- An entity learns who depends on it. -/
theorem World.Leads.tie {world : World} {unsignalled : List EntityKey} {f : Ties → Ties}
    (stands : world.Stands unsignalled) (learns : Ties.Learns f) (id : ThingId) :
    Leads unsignalled [] world (onThing id (Thing.onTies f) world) := by
  have turns (entity : Entity) (_ : world.entity? id = some entity) :
      entity.ties.Turns entity.kind entity.key.object ({} : Cascade).evictions [] (f entity.ties) :=
    ⟨learns.suits _ _, learns.refs _, fun oid among => .inl (learns.dependents _ oid among),
      fun attnum among => .inl (learns.attributes _ attnum among)⟩
  refine ⟨⟨stands.sound.tie learns.refs turns fun _ due => due, stands.fresh.tie learns.refs turns stands.sound,
    stands.plain, stands.available⟩, ⟨Nat.le_refl _, fun other thing' found _ => ?_, fun _ _ _ _ _ => Iff.rfl,
    .refl _, rfl, rfl⟩, fun _ => rfl, fun _ => Nat.le_of_eq (Nat.zero_add _)⟩
  obtain ⟨thing, was, ⟨-, rfl⟩ | rfl⟩ := onTies_cases found
  · refine ⟨thing, was, ?_⟩
    cases thing with
    | entity entity =>
      exact ⟨⟨rfl, rfl, rfl⟩, learns.refs _, learns.dependents _, learns.attributes _, fun _ _ kept _ => kept⟩
    | encoding number table => exact rfl
    | descriptor descriptor => exact rfl
  · exact ⟨_, was, .refl _ _⟩

end CatalogReplica.Catalog
