import CatalogReplica.Proofs.Catalog.Gathering
import CatalogReplica.Proofs.Identity.Dismissing

/-!
# What a burst tells

Each signal of a burst tells of some entities that their rows were updated or deleted.  What is
collected is a matter of all that was told, in whatever order and however often: an entity that
is told of again stirs no one who was not stirred before.

* `World.tells`: what a signal tells.
* `World.heard`: whom an entity knows once something was told.
* `World.Hears`: what was collected once something was told.
* `World.collectAll_hears`: a burst.
* `World.collectRow_gathers`: a signal about one row.
-/

namespace CatalogReplica.Catalog

open Coherence (GateId)

/-! ## Ties -/

namespace Ties

theorem suit_told {ties : Ties} {kind : EntityClass} (suits : ties.Suit kind) (change : Change) :
    (ties.told change).Suit kind := by
  cases ties <;> cases kind <;> cases change <;> simp_all [Suit, told]

theorem types_told (ties : Ties) (change : Change) : (ties.told change).types = [] := by
  cases ties <;> cases change <;> rfl

theorem routines_told (ties : Ties) (change : Change) : (ties.told change).routines = [] := by
  cases ties <;> cases change <;> rfl

theorem attributes_told (ties : Ties) (change : Change) :
    (ties.told change).attributes = if change = .deleted then [] else ties.attributes := by
  cases ties <;> cases change <;> rfl

theorem told_told (ties : Ties) (change : Change) : (ties.told change).told change = ties.told change := by
  cases ties <;> cases change <;> rfl

theorem told_comm (ties : Ties) (one other : Change) : (ties.told one).told other = (ties.told other).told one := by
  cases ties <;> cases one <;> cases other <;> rfl

end Ties

namespace World

variable {world base : World} {kind : EntityClass} {object : Oid} {id : ThingId} {entity : Entity}
  {news news' : List (Change × ThingId)} {state : Cascade × World}

/-! ## What is told -/

/-- The live entities that a row stands for. -/
def named (world : World) (kind : EntityClass) (object : Oid) : List ThingId :=
  if object.isValid then (world.rowKeys kind object).filterMap (world.liveAt kind.owner) else world.liveOf kind.owner

/-- What a change of a row tells.  Any change of an attribute row is an update of its relation. -/
def rowNews (world : World) (kind : EntityClass) (object : Oid) (change : Change) : List (Change × ThingId) :=
  (world.named kind object).map fun id => (if kind = .attr then .updated else change, id)

/-- What a signal tells of the entities of the catalog. -/
def tells (world : World) : Signal → List (Change × ThingId)
  | .row classOid object change =>
      match EntityClass.ofOid? classOid with
      | some kind => world.rowNews kind object change
      | none => []
  | .scope _ _ => []
  | .all => EntityClass.all.flatMap fun kind => world.rowNews kind Oid.invalid .updated

/-- Whom an entity knows once something was told. -/
def heard (news : List (Change × ThingId)) (id : ThingId) (ties : Ties) : Ties :=
  news.foldl (fun ties one => if one.2 = id then ties.told one.1 else ties) ties

/-- The gates of those whom the news concern. -/
def Stirred (base : World) (news : List (Change × ThingId)) (gate : GateId) : Prop :=
  ∃ one ∈ news, ∃ entity, base.entity? one.2 = some entity ∧ base.Stirs entity gate

/-- The keys that go with what was deleted. -/
def Taken (base : World) (news : List (Change × ThingId)) (key : EntityKey) : Prop :=
  ∃ one ∈ news, one.1 = .deleted ∧ ∃ entity, base.entity? one.2 = some entity ∧ ∃ shelf, Takes entity shelf key

/-! ## Whom entities know -/

theorem suit_heard (news : List (Change × ThingId)) (id : ThingId) {ties : Ties} (suits : ties.Suit kind) :
    (heard news id ties).Suit kind := by
  unfold heard
  induction news generalizing ties with
  | nil => exact suits
  | cons one news ih =>
    refine ih ?_
    dsimp only
    split
    · exact Ties.suit_told suits one.1
    · exact suits

theorem heard_concat (news : List (Change × ThingId)) (change : Change) (id other : ThingId) (ties : Ties) :
    heard (news ++ [(change, id)]) other ties
      = if other = id then (heard news other ties).told change else heard news other ties := by
  unfold heard
  rw [List.foldl_append, List.foldl_cons, List.foldl_nil]
  simp only [eq_comm]

/-- Of whom nothing was told knows whom it knew; others know no one who depends on them. -/
theorem mem_types_heard {oid : Oid} {ties : Ties} :
    oid ∈ (heard news id ties).types ↔ oid ∈ ties.types ∧ ∀ change, (change, id) ∉ news := by
  unfold heard
  induction news generalizing ties with
  | nil => simp
  | cons one news ih =>
    rw [List.foldl_cons, ih]
    obtain ⟨change, other⟩ := one
    by_cases same : other = id
    · subst same
      rw [if_pos rfl, Ties.types_told]
      exact iff_of_false (fun known => List.not_mem_nil known.1) fun spared => spared.2 change List.mem_cons_self
    · rw [if_neg same]
      simp [Ne.symm same]

theorem mem_routines_heard {oid : Oid} {ties : Ties} :
    oid ∈ (heard news id ties).routines ↔ oid ∈ ties.routines ∧ ∀ change, (change, id) ∉ news := by
  unfold heard
  induction news generalizing ties with
  | nil => simp
  | cons one news ih =>
    rw [List.foldl_cons, ih]
    obtain ⟨change, other⟩ := one
    by_cases same : other = id
    · subst same
      rw [if_pos rfl, Ties.routines_told]
      exact iff_of_false (fun known => List.not_mem_nil known.1) fun spared => spared.2 change List.mem_cons_self
    · rw [if_neg same]
      simp [Ne.symm same]

theorem mem_attributes_heard {attnum : Int16} {ties : Ties} :
    attnum ∈ (heard news id ties).attributes ↔ attnum ∈ ties.attributes ∧ (.deleted, id) ∉ news := by
  unfold heard
  induction news generalizing ties with
  | nil => simp
  | cons one news ih =>
    rw [List.foldl_cons, ih]
    obtain ⟨change, other⟩ := one
    by_cases same : other = id
    · subst same
      rw [if_pos rfl, Ties.attributes_told]
      cases change <;> simp
    · rw [if_neg same]
      simp [Ne.symm same]

/-- Whom an entity knows depends on what was told alone. -/
theorem heard_of_set (same : ∀ one, one ∈ news ↔ one ∈ news') : heard news = heard news' := by
  funext id ties
  refine Identity.foldl_of_set (fun ties one other => ?_) (fun ties one => ?_) same ties
  · by_cases first : one.2 = id <;> by_cases second : other.2 = id <;> simp [first, second, ties.told_comm one.1]
  · by_cases its : one.2 = id <;> simp [its, Ties.told_told]

/-! ## What was collected -/

/-- What was collected once something was told. -/
abbrev Hears (base : World) (news : List (Change × ThingId)) (state : Cascade × World) : Prop :=
  Gathers base (base.Stirred news) (base.Taken news) (heard news) state

section told

variable {change : Change} {gate : GateId} {shelf : EntityClass} {key : EntityKey}

theorem stirs_of_heard (stirs : base.Stirs { entity with ties := heard news id entity.ties } gate) : base.Stirs entity gate := by
  cases stirs with
  | own => exact .own
  | type isRelation cached isType known => exact .type isRelation cached isType (mem_types_heard.mp known).1
  | routine isLanguage cached isRoutine known => exact .routine isLanguage cached isRoutine (mem_routines_heard.mp known).1

theorem Stirs.untold (stirs : base.Stirs entity gate) (untold : ∀ change, (change, id) ∉ news) :
    base.Stirs { entity with ties := heard news id entity.ties } gate := by
  cases stirs with
  | own => exact .own
  | type isRelation cached isType known => exact .type isRelation cached isType (mem_types_heard.mpr ⟨known, untold⟩)
  | routine isLanguage cached isRoutine known =>
    exact .routine isLanguage cached isRoutine (mem_routines_heard.mpr ⟨known, untold⟩)

theorem takes_of_heard (takes : Takes { entity with ties := heard news id entity.ties } shelf key) : Takes entity shelf key := by
  cases takes with
  | own => exact .own
  | attr isRelation known => exact .attr isRelation (mem_attributes_heard.mp known).1

theorem Takes.untold (takes : Takes entity shelf key) (untold : (.deleted, id) ∉ news) :
    Takes { entity with ties := heard news id entity.ties } shelf key := by
  cases takes with
  | own => exact .own
  | attr isRelation known => exact .attr isRelation (mem_attributes_heard.mpr ⟨known, untold⟩)

/-- What is told of an entity stirs those whom it still knows; the others were stirred before. -/
theorem stirred_concat (found : base.entity? id = some entity) : base.Stirred (news ++ [(change, id)]) gate ↔
    base.Stirred news gate ∨ base.Stirs { entity with ties := heard news id entity.ties } gate := by
  have whole : base.Stirred (news ++ [(change, id)]) gate ↔ base.Stirred news gate ∨ base.Stirs entity gate := by
    simp [Stirred, or_and_right, exists_or, found]
  refine whole.trans ⟨?_, Or.imp_right stirs_of_heard⟩
  rintro (before | stirs)
  · exact .inl before
  · by_cases told : ∃ earlier, (earlier, id) ∈ news
    · obtain ⟨earlier, among⟩ := told
      exact .inl ⟨(earlier, id), among, entity, found, stirs⟩
    · exact .inr (stirs.untold (not_exists.mp told))

theorem taken_concat (found : base.entity? id = some entity) : base.Taken (news ++ [(change, id)]) key ↔
    base.Taken news key ∨ change = .deleted ∧ ∃ shelf, Takes { entity with ties := heard news id entity.ties } shelf key := by
  have whole : base.Taken (news ++ [(change, id)]) key ↔
      base.Taken news key ∨ change = .deleted ∧ ∃ shelf, Takes entity shelf key := by
    simp [Taken, or_and_right, exists_or, found]
  refine whole.trans ⟨?_, Or.imp_right (And.imp_right (Exists.imp fun _ => takes_of_heard))⟩
  rintro (before | ⟨deleted, shelf, takes⟩)
  · exact .inl before
  · by_cases told : (.deleted, id) ∈ news
    · exact .inl ⟨_, told, rfl, entity, found, shelf, takes⟩
    · exact .inr ⟨deleted, shelf, takes.untold told⟩

end told

/-- Nothing is told of what is no entity. -/
theorem invalidate_absent (absent : state.2.entity? id = none) (change : Change) : invalidate change id state = state := by
  unfold invalidate
  rw [absent]

theorem Gathers.absent (hears : Hears base news state) (absent : base.entity? id = none) : state.2.entity? id = none := by
  rw [World.entity?] at absent ⊢
  rw [hears.things]
  cases its : base.thing? id with
  | none => rfl
  | some thing =>
    rw [its] at absent
    cases thing with
    | entity entity => cases absent
    | _ => rfl

/-- Something further is told of an entity, or was told before. -/
theorem Gathers.hear (sound : base.Sound {} []) (hears : Hears base news state) (change : Change) (id : ThingId) :
    Hears base (news ++ [(change, id)]) (invalidate change id state) := by
  cases found : base.entity? id with
  | none =>
    rw [invalidate_absent (hears.absent found)]
    refine (hears.congr (fun gate => ?_) fun key => ?_).retie fun other entity its => ?_
    · simp [Stirred, or_and_right, exists_or, found]
    · simp [Taken, or_and_right, exists_or, found]
    · rw [heard_concat, if_neg]
      rintro rfl
      cases found.symm.trans its
  | some entity =>
    have suits := suit_heard news id (sound.shaped id entity found).tied
    exact ((hears.target sound found suits change).congr (fun _ => stirred_concat found) fun _ => taken_concat found).retie
      fun other _ _ => heard_concat news change id other _

/-! ## Signals -/

/-- The entities are found that a row stands for. -/
theorem Gathers.targets (hears : Hears base news state) (kind : EntityClass) (object : Oid) :
    ∃ tally, World.targets kind object state.2
      = (base.named kind object, { state.2 with ledger := { state.2.ledger with tally } }) := by
  unfold named
  cases valid : object.isValid with
  | true =>
    obtain ⟨tally, run⟩ := targets_run hears.tidy kind valid
    rw [hears.rowKeys, hears.liveAt] at run
    exact ⟨tally, run⟩
  | false =>
    refine ⟨state.2.ledger.tally, ?_⟩
    unfold World.targets liveOf
    rw [hears.caches, hears.alive, valid]
    rfl

theorem Gathers.hearAll (sound : base.Sound {} []) (hears : Hears base news state) (change : Change) (ids : List ThingId) :
    Hears base (news ++ ids.map fun id => (change, id)) (ids.foldl (fun state id => invalidate change id state) state) := by
  induction ids generalizing news state with
  | nil => simpa using hears
  | cons id ids ih => simpa using ih (hears.hear sound change id)

theorem Gathers.hearRow (sound : base.Sound {} []) (hears : Hears base news state) (kind : EntityClass) (object : Oid)
    (change : Change) : Hears base (news ++ base.rowNews kind object change) (collectRow kind object change state) := by
  obtain ⟨tally, run⟩ := hears.targets kind object
  unfold collectRow
  dsimp only
  rw [run]
  exact (hears.tallied tally).hearAll sound _ _

theorem Gathers.hearSignal (sound : base.Sound {} []) (hears : Hears base news state) (signal : Signal) :
    Hears base (news ++ base.tells signal) (collect signal state) := by
  cases signal with
  | row classOid object change =>
    unfold World.tells collect
    dsimp only
    cases EntityClass.ofOid? classOid with
    | some kind => exact hears.hearRow sound kind object change
    | none => rwa [List.append_nil]
  | scope address deleted =>
    rw [World.tells, List.append_nil]
    exact { hears with }
  | all =>
    unfold World.tells collect
    dsimp only
    generalize EntityClass.all = kinds
    induction kinds generalizing news state with
    | nil => simpa using hears
    | cons kind kinds ih => simpa using ih (hears.hearRow sound kind Oid.invalid .updated)

theorem Gathers.hearNothing (sound : base.Sound {} []) (tidy : Tidy [] base) : Hears base [] ({}, base) :=
  ((Gathers.start sound tidy).congr (by simp [Stirred]) (by simp [Taken])).retie fun _ _ _ => rfl

/-- A burst collects what all its signals tell. -/
theorem collectAll_hears (sound : base.Sound {} []) (tidy : Tidy [] base) (signals : List Signal) :
    Hears base (signals.flatMap base.tells) (collectAll signals base) := by
  suffices all : ∀ news state, Hears base news state → Hears base (news ++ signals.flatMap base.tells)
      (signals.foldl (fun state signal => collect signal (state.1, count .dispatchSignal state.2)) state) from
    all [] _ (.hearNothing sound tidy)
  induction signals with
  | nil => exact fun news state hears => by simpa using hears
  | cons signal signals ih =>
    intro news state hears
    rw [List.flatMap_cons, ← List.append_assoc]
    exact ih _ _ ((hears.tallied _).hearSignal sound signal)

/-- A signal about one row. -/
theorem collectRow_gathers (sound : base.Sound {} []) (tidy : Tidy [] base) (valid : object.isValid = true)
    (kind : EntityClass) (change : Change) :
    Gathers base (base.Concerned kind object)
      (fun key => Removes kind change ∧ ∃ shelf, base.Leaves kind object shelf key)
      (heard (base.rowNews kind object change)) (collectRow kind object change ({}, count .dispatchSignal base)) := by
  have hears := ((Gathers.hearNothing sound tidy).tallied (base.ledger.tally.add .dispatchSignal)).hearRow sound kind
    object change
  -- The row's news is one item for each entity that represents it, at the change the class gives.
  have stand {id : ThingId} : id ∈ base.named kind object ↔ ∃ entity, base.Represents kind object id entity := by
    rw [named, valid, if_pos rfl]
    exact sound.mem_found_iff
  have told {one : Change × ThingId} : one ∈ base.rowNews kind object change ↔
      one.1 = (if kind = .attr then .updated else change) ∧ ∃ entity, base.Represents kind object one.2 entity := by
    rw [← stand, rowNews, List.mem_map]
    constructor
    · rintro ⟨id, among, rfl⟩
      exact ⟨rfl, among⟩
    · rintro ⟨isChange, among⟩
      exact ⟨one.2, among, by rw [← isChange]⟩
  have only {id : ThingId} {entity entity' : Entity} (found : base.entity? id = some entity)
      (represents : base.Represents kind object id entity') : entity' = entity :=
    Option.some.inj (represents.cached.1.symm.trans found)
  have removes : (if kind = .attr then Change.updated else change) = .deleted ↔ Removes kind change := by
    unfold Removes
    split <;> simp [*]
  refine hears.congr (fun gate => ?_) fun key => ?_
  · constructor
    · rintro ⟨id, entity, represents, stirs⟩
      exact ⟨(_, id), told.mpr ⟨rfl, entity, represents⟩, entity, represents.cached.1, stirs⟩
    · rintro ⟨one, among, entity, found, stirs⟩
      obtain ⟨-, entity', represents⟩ := told.mp among
      exact ⟨one.2, entity, only found represents ▸ represents, stirs⟩
  · constructor
    · rintro ⟨goes, shelf, id, entity, represents, takes⟩
      exact ⟨(_, id), told.mpr ⟨rfl, entity, represents⟩, removes.mpr goes, entity, represents.cached.1, shelf, takes⟩
    · rintro ⟨one, among, deleted, entity, found, shelf, takes⟩
      obtain ⟨isChange, entity', represents⟩ := told.mp among
      exact ⟨removes.mp (isChange ▸ deleted), shelf, one.2, entity, only found represents ▸ represents, takes⟩

end World

end CatalogReplica.Catalog
