import CatalogReplica.Proofs.Catalog.Typing
import CatalogReplica.Proofs.Native.Recording

/-!
# Lookups and reads keep what things may keep

A lookup gives a thing of the sort that its cache holds.  A read fills its slot with what its computation gave,
and that leads to a thing that was just looked up, of the sort that the slot leads to.  The element of a type
would be looked up by a number that is in no row.

* `World.Sustains`: from one state to a later one in which all things are as their sort says.
* `World.Sorts`: a task does that, and of its value something is known.
* `World.lookup_sorts`, `World.readSlot_sorts`: lookups, and reads of slots.
* `World.read_sorts`: all fields.
-/

namespace CatalogReplica.Catalog.World

open Coherence (Access Computed GateId Memo SlotSpec)
open Identity (Cache CacheView Note)
open Lifetime (Ledger)
open Storage (ColumnType ColumnValue Row)

variable {κ : Type} {view : CacheView World κ ThingId} {α β : Type} {before world mid after : World} {id : ThingId}
  {species : Species} {given : α → World → Prop}

/-! ## From one state to the next -/

/-- Numbers stand for what they stood for, rows are the same, and all things are as their sort says. -/
structure Sustains (before after : World) : Prop extends Later before after where
  stratified : after.Stratified

namespace Sustains

theorem refl (stratified : world.Stratified) : Sustains world world := ⟨.refl world, stratified⟩

theorem trans (first : Sustains before world) (second : Sustains world after) : Sustains before after :=
  ⟨first.toLater.trans second.toLater, second.stratified⟩

theorem fades (sustains : Sustains before world) (fades : Fades world after) : Sustains before after :=
  sustains.trans ⟨fades.later, sustains.stratified.fades fades⟩

/-- Things, caches and rows are as they were. -/
theorem congr (sustains : Sustains before world) (heap : after.heap = world.heap) (next : after.nextThing = world.nextThing)
    (caches : after.caches = world.caches) (store : after.provider.store = world.provider.store) : Sustains before after := by
  have thing? (id : ThingId) : after.thing? id = world.thing? id := by rw [World.thing?, heap, World.thing?]
  have later : Later world after :=
    ⟨Nat.le_of_eq next.symm, fun id thing found _ => ⟨thing, thing? id ▸ found, rfl⟩, store⟩
  have stratified := sustains.stratified
  refine sustains.trans ⟨later, fun id live => ?_, fun id thing found => ?_, fun stocks entry among => later.is ?_,
    stratified.provider.of_store store, later.memory ▸ stratified.room⟩
  · rw [alive, heap] at live
    exact next ▸ stratified.below id live
  · exact (stratified.things id thing (thing? id ▸ found)).later later
  · rw [stocks.shelf.get_congr caches] at among
    exact stratified.entered stocks entry among

end Sustains

/-- The task leads to a later state in which all things are as their sort says, and of what it gives something
    is known. -/
def Sorts (world : World) (body : Task World α) (given : α → World → Prop) : Prop :=
  body.Ends world fun outcome after => Sustains world after ∧ ∀ value, outcome = .ok value → given value after

namespace Sorts

variable {body : Task World α} {given' : β → World → Prop}

theorem bind {next : α → Task World β} (first : world.Sorts body given)
    (rest : ∀ value mid, Sustains world mid → given value mid → mid.Sorts (next value) given') :
    world.Sorts (body >>= next) given' :=
  Task.Ends.bind first (fun value mid ended => (rest value mid ended.1 (ended.2 value rfl)).weaken fun _ _ last =>
    ⟨ended.1.trans last.1, last.2⟩) fun _ _ ended => ⟨ended.1, nofun⟩

theorem weaken {more : α → World → Prop} (sorts : world.Sorts body given)
    (weaker : ∀ value after, Sustains world after → given value after → more value after) : world.Sorts body more :=
  Task.Ends.weaken sorts fun _ after ended => ⟨ended.1, fun value same => weaker value after ended.1 (ended.2 value same)⟩

theorem pure {value : α} (stratified : world.Stratified) (holds : given value world) : world.Sorts (pure value) given :=
  ⟨.refl stratified, by rintro _ ⟨⟩; exact holds⟩

theorem throw (stratified : world.Stratified) (interrupt : Interrupt) : world.Sorts (throw interrupt : Task World α) given :=
  ⟨.refl stratified, nofun⟩

theorem get_bind {next : World → Task World β} (rest : world.Sorts (next world) given') : world.Sorts (get >>= next) given' :=
  Task.Ends.next (Task.get_run world) rest

theorem modify {f : World → World} (sustains : Sustains world (f world)) : world.Sorts (modify f) fun _ _ => True :=
  ⟨sustains, fun _ _ => trivial⟩

theorem ofOutcome (stratified : world.Stratified) (outcome : Except Interrupt α) :
    world.Sorts (Task.ofOutcome outcome) fun value _ => outcome = .ok value :=
  Task.Ends.ofOutcome ⟨.refl stratified, fun _ same => same⟩

theorem ofExcept (stratified : world.Stratified) (outcome : Except Fault α) :
    world.Sorts (Task.ofExcept outcome) fun value _ => outcome = .ok value := by
  cases outcome with
  | ok value => exact .pure stratified rfl
  | error fault => exact .throw stratified _

theorem requireOpen (stratified : world.Stratified) : world.Sorts requireOpen fun _ after => after = world :=
  (requireOpen_ends world).weaken fun _ after same => by
    subst same
    exact ⟨.refl stratified, fun _ _ => rfl⟩

theorem requireEntity (stratified : world.Stratified) (id : ThingId) :
    world.Sorts (requireEntity id) fun entity after => after = world ∧ world.entity? id = some entity :=
  (Edits.requireEntity_ends id world).weaken fun _ after ended => by
    obtain ⟨rfl, found⟩ := ended
    exact ⟨.refl stratified, fun entity same => ⟨rfl, found entity same⟩⟩

/-- A thing is let go, however the task ends. -/
theorem ensuring (sorts : world.Sorts body given) (id : ThingId)
    (later : ∀ value before after, Later before after → given value before → given value after) :
    world.Sorts (Task.ensuring body (release id)) given := by
  refine Task.Ends.ensuring (Task.Ends.weaken sorts fun _ after ended => ?_)
  have released : Fades after (release id after) := (Fades.refl after).release id
  exact ⟨ended.1.fades released, fun value same => later value after _ released.later (ended.2 value same)⟩

end Sorts

/-! ## Lookups -/

/-- A thing of the sort that the cache holds is found or made. -/
theorem lookup_sorts [DecidableEq κ] (stocks : Stocks view species) (stratified : world.Stratified) (thread : Nat) (key : κ)
    {make : Task World Thing} (makes : ∀ mid, Sustains world mid →
      mid.Sorts make fun thing after => thing.species = species ∧ after.Classified thing) :
    world.Sorts (view.lookup thread key (construct make)) fun id after => after.Is id species := by
  unfold Sorts Task.Ends CacheView.lookup
  have stores {world : World} (stratified : world.Stratified) (notes : List (Note κ)) {cache : Cache κ ThingId}
      (table : ∀ entry ∈ cache.table, entry ∈ (view.get world).table ∨ world.Is entry.2 species) :
      Sustains world (view.store notes cache world) :=
    have stored := stratified.store stocks notes table
    ⟨stored.2, stored.1⟩
  cases run : view.ask thread key world with | mk asked after =>
  have sought : Sustains world after := by
    have asks : Sustains world (view.ask thread key world).2 := stores stratified _ fun _ among => .inl (Cache.mem_of_ask among)
    rwa [run] at asks
  cases asked with
  | hit id =>
    have entry := Cache.mem_of_hit (congrArg (·.1) run : ((view.get world).ask (view.alive world) thread key).1 = .hit id)
    rw [stocks.shelf.hold]
    refine ⟨sought.fades ((Fades.refl after).hold id), ?_⟩
    rintro _ ⟨⟩
    exact sought.is (stratified.entered stocks _ entry)
  | reentrant => exact ⟨sought, nofun⟩
  | wait => exact ⟨sought, nofun⟩
  | build =>
    have makes := makes after sought
    unfold Sorts Task.Ends at makes
    dsimp only
    rw [construct, Task.bind_run]
    cases made : make after with
    | error interrupt last =>
      rw [made] at makes
      refine ⟨(sought.trans makes.1).trans ⟨Stratified.later_set stocks _ last, ?_⟩, nofun⟩
      exact makes.1.stratified.set stocks fun _ among => .inl among
    | ok thing last =>
      rw [made] at makes
      obtain ⟨made, given⟩ := makes
      obtain ⟨rfl, classified⟩ := given thing rfl
      have is := made.stratified.is_add thing
      have added : Sustains last (last.add thing).2 := ⟨.add last thing, made.stratified.add classified⟩
      -- what the cache lets go may be gone afterwards
      have settled : Sustains (last.add thing).2 (view.settle key last.nextThing (last.add thing).2) := by
        unfold CacheView.settle
        rw [stocks.shelf.letGo]
        refine (stores added.stratified _ fun entry among => ?_).fades ((Fades.refl _).reap _)
        obtain rfl | ⟨old, -⟩ := (Cache.settle_spec _ _ key last.nextThing).entries entry among
        · exact .inr is
        · exact .inl old
      refine ⟨((sought.trans made).trans added).trans settled, by rintro _ ⟨⟩; exact settled.is is⟩

/-- An entity that is made keeps nothing yet. -/
theorem classified_entity {kind : EntityClass} {key : EntityKey} {ties : Ties} (keyed : key.classOid = kind.oid)
    (tied : ∀ owner ∈ ties.refs, kind = .attr ∧ world.Is owner (.entity .relation)) (gates : List GateId) (slots : Nat) :
    world.Classified (.entity { kind, key, ties, table := .blank slots gates }) where
  keyed := by rintro _ ⟨⟩; exact keyed
  tied owner tie := by
    obtain ⟨_, ⟨⟩, among⟩ := tie
    exact (tied owner among).imp_left (congrArg Species.entity)
  kept index datum keeps := by
    obtain ⟨_, memo, ⟨⟩, found, -⟩ := keeps
    cases (memo?_blank slots gates index).symm.trans found

theorem lookupEntity_sorts (stratified : world.Stratified) (kind : EntityClass) {key : EntityKey} (keyed : key.classOid = kind.oid)
    {prepare : Task World (GateId × Ties)} (prepares : ∀ mid, Sustains world mid → mid.Sorts prepare fun value after =>
      ∀ owner ∈ value.2.refs, kind = .attr ∧ after.Is owner (.entity .relation)) :
    world.Sorts (lookup kind key prepare) fun id after => after.Is id (.entity kind) := by
  refine lookup_sorts (.entities kind) stratified _ key fun mid sustains => (prepares mid sustains).bind fun value last ended tied => ?_
  exact .pure ended.stratified ⟨rfl, classified_entity keyed tied _ _⟩

theorem freshGate_sustains (stratified : world.Stratified) : Sustains world { world with gates := world.gates.newGate.2 } :=
  (Sustains.refl stratified).congr rfl rfl rfl rfl

theorem entity_sorts (stratified : world.Stratified) (kind : EntityClass) (oid : Oid) :
    world.Sorts (entity kind oid) fun id after => after.Is id (.entity kind) := by
  have valid : world.Sorts (requireValid kind oid) fun _ _ => True := by
    unfold requireValid
    split
    · exact .pure stratified trivial
    · exact .throw stratified _
  refine valid.bind fun _ mid sustains _ => lookupEntity_sorts sustains.stratified kind rfl fun last ended => ?_
  refine Task.Ends.next (Task.lift_run _ last) ⟨freshGate_sustains ended.stratified, ?_⟩
  rintro _ ⟨⟩ owner among
  cases kind <;> cases among

theorem typeWith_sorts (stratified : world.Stratified) (oid : Oid) (typmod : Int32) :
    world.Sorts (typeWith oid typmod) fun id after => after.Is id (.entity .type) := by
  have valid : world.Sorts (requireValid .type oid) fun _ _ => True := by
    unfold requireValid
    split
    · exact .pure stratified trivial
    · exact .throw stratified _
  refine valid.bind fun _ mid sustains _ => lookupEntity_sorts sustains.stratified .type rfl fun last ended => ?_
  have indexed : Sustains last (indexTypmod oid typmod last) := by
    simp only [indexTypmod]
    split
    · exact .refl ended.stratified
    · exact (Sustains.refl ended.stratified).congr rfl rfl rfl rfl
  refine .bind (.modify indexed) fun _ one sustains _ => Task.Ends.next (Task.lift_run _ one) ?_
  exact ⟨freshGate_sustains sustains.stratified, by rintro _ ⟨⟩ owner among; cases among⟩

theorem attributeOf_sorts (stratified : world.Stratified) (oid : Oid) (attnum : Int16) :
    world.Sorts (attributeOf oid attnum) fun id after => after.Is id (.entity .attr) := by
  refine (entity_sorts stratified .relation oid).bind fun relation mid sustains is => Sorts.ensuring ?_ relation fun _ _ _ later is =>
    later.is is
  refine lookupEntity_sorts sustains.stratified .attr rfl fun last ended => ?_
  have tracked : Sustains last (onThing relation (Thing.onTies (Ties.trackAttribute attnum)) last) :=
    (Sustains.refl ended.stratified).fades ((Fades.refl last).onTies relation fun ties => by cases ties <;> rfl)
  refine .bind (.modify tracked) fun _ one more _ => .get_bind ?_
  split
  · refine .pure more.stratified fun owner among => ⟨rfl, ?_⟩
    rw [List.mem_singleton.mp among]
    exact more.is (ended.is is)
  · exact .throw more.stratified _

theorem encoding_sorts (stratified : world.Stratified) (number : Int32) :
    world.Sorts (encoding number) fun id after => after.Is id .encoding := by
  refine lookup_sorts .encodings stratified _ number fun mid sustains => .pure sustains.stratified ⟨rfl, nofun, nofun, ?_⟩
  rintro index _ ⟨_, memo, ⟨⟩, found, -⟩
  cases (memo?_blank 1 [] index).symm.trans found

/-- A native descriptor is taken over, and that touches no thing. -/
theorem adopt_sustains (stratified : world.Stratified) (address : Address) :
    world.Sorts (adopt address) fun thing after => thing.species = .descriptor ∧ after.Classified thing := by
  let same (after : World) : Prop := after.heap = world.heap ∧ after.nextThing = world.nextThing ∧
    after.caches = world.caches ∧ after.provider.store = world.provider.store
  have keeps : (adopt address).Keeps same := adopt_keeps (fun _ _ same => same) (fun _ same =>
    ⟨same.1, same.2.1, same.2.2.1, (store_notice _ _).trans same.2.2.2⟩) address
  refine ((keeps world ⟨rfl, rfl, rfl, rfl⟩).both (adopt_takes address world)).weaken ?_
  rintro _ after ⟨⟨heap, next, caches, store⟩, -, taken⟩
  refine ⟨(Sustains.refl stratified).congr heap next caches store, fun thing given => ?_⟩
  obtain ⟨descriptor, rfl, -⟩ := taken thing given
  exact ⟨rfl, .descriptor after descriptor⟩

theorem nativeDescriptor_sorts (stratified : world.Stratified) (address : Address) :
    world.Sorts (nativeDescriptor address) fun id after => after.Is id .descriptor := by
  refine .get_bind ((lookup_sorts .descriptors stratified _ address fun mid sustains =>
    adopt_sustains sustains.stratified address).bind fun id mid sustains is => ?_)
  have given {after : World} (sustains : Sustains mid after) : after.Sorts (pure id) fun id after => after.Is id .descriptor :=
    .pure sustains.stratified (sustains.is is)
  split
  · exact .bind (.modify ((Sustains.refl sustains.stratified).congr rfl rfl rfl rfl)) fun _ last more _ => given more
  · exact given (.refl sustains.stratified)

/-! ## Slots -/

/-- A slot of a thing gives what a thing of the sort may keep there, if its computation does. -/
theorem readSlot_sorts (stratified : world.Stratified) (is : world.Is id species) (spec : SlotSpec) (access : Access)
    {compute : Task World (Computed Datum)}
    (computes : world.Sorts compute fun computed after => after.Admits species spec.index computed.value) :
    world.Sorts (readSlot id spec access compute) fun datum after => after.Admits species spec.index datum := by
  have counted {world : World} (counter : Counter) : Fades world (count counter world) := (Fades.refl world).count counter
  refine Edits.readSlot_ends (fun datum peeked => ?_) (fun _ => ⟨.refl stratified, nofun⟩) (fun _ => computes)
    (fun datum cell after _ ended => ?_) (fun datum after ended => ?_) fun _ _ ended => ⟨ended.1, nofun⟩
  · -- a memo is served
    obtain ⟨thing, table, memo, there, has, found, -, rfl⟩ := peek_iff.mp peeked
    have admits := (stratified.things id thing there).kept spec.index memo.value ⟨table, memo, has, found, rfl⟩
    have served := (Sustains.refl stratified).fades ((counted .slotHit).holdAll memo.value.refs)
    refine ⟨served, ?_⟩
    rintro _ ⟨⟩
    exact is.2 thing there ▸ admits.later served.toLater
  · have admits := ended.2 _ rfl
    have before := ended.1.fades (counted .slotCompute)
    have counts := (counted .slotCompute : Fades after _).later
    let memo : Memo Datum := ⟨datum, cell⟩
    have admitted : (count .slotCompute after).Admits species spec.index memo.value := admits.later counts
    have kept := before.stratified.keep (before.is is) admitted
    exact ⟨before.trans ⟨kept.2, kept.1⟩, by rintro _ ⟨⟩; exact (admits.later counts).later kept.2⟩
  · have counts := (counted .slotTransient : Fades after _)
    exact ⟨ended.1.fades counts, by rintro _ ⟨⟩; exact (ended.2 _ rfl).later counts.later⟩

/-- What a slot leads to is of a sort that the slot leads to. -/
def Given (species : Species) (index : Nat) (target : Option ThingId) (world : World) : Prop :=
  ∀ one, target = some one → ∃ sort, species.Leads index sort ∧ world.Is one sort

theorem Given.later {index : Nat} {target : Option ThingId} (given : Given species index target world) (later : Later world after) :
    Given species index target after := by
  intro one same
  obtain ⟨sort, leads, is⟩ := given one same
  exact ⟨sort, leads, later.is is⟩

theorem Given.admits {index : Nat} {target : Option ThingId} (given : Given species index target world) :
    world.Admits species index (.link target) :=
  ⟨fun one among => given one (Option.mem_toList.mp among), nofun⟩

theorem Given.some {index : Nat} {sort : Species} (leads : species.Leads index sort) (is : world.Is id sort) :
    Given species index (some id) world := by
  rintro _ ⟨⟩
  exact ⟨sort, leads, is⟩

theorem linkSlot_sorts (stratified : world.Stratified) (is : world.Is id species) (spec : SlotSpec) (access : Access)
    {compute : Task World (Computed Datum)}
    (computes : world.Sorts compute fun computed after => after.Admits species spec.index computed.value) :
    world.Sorts (linkSlot id spec access compute) (Given species spec.index) := by
  refine (readSlot_sorts stratified is spec access computes).bind fun datum mid sustains admits => ?_
  cases datum with
  | link target => exact .pure sustains.stratified fun one same => admits.leads one (same ▸ Option.mem_toList.mpr rfl)
  | address | column | encoding => exact .throw sustains.stratified _

/-! ## Rows and columns -/

/-- The row that is found for a type has no element. -/
theorem search_sorts (stratified : world.Stratified) (id : ThingId) : world.Sorts (search id) fun computed after =>
    ∀ entity, world.entity? id = some entity → after.Admits (.entity entity.kind) entity.kind.tuple.index computed.value := by
  refine (Sorts.requireEntity stratified id).bind ?_
  rintro entity mid - ⟨rfl, found⟩
  have searches : mid.Sorts (onProvider (Provider.search entity.rowKey)) fun found _ =>
      ∀ address, found = some address → mid.provider.row? entity.rowKey = some address := by
    refine onProvider_ends (.next (Task.modify_run _ _) (.next (Task.get_run _) ?_))
    have asked : Sustains mid { mid with provider := { mid.provider with searches := mid.provider.searches + 1 } } :=
      (Sustains.refl stratified).congr rfl rfl rfl rfl
    unfold Task.ofExcept
    -- An answer is the store's own: a fault ends the search, and nothing in between changes a row.
    cases served : Provider.serve { mid.provider with searches := mid.provider.searches + 1 } .search
        (Provider.row? { mid.provider with searches := mid.provider.searches + 1 } entity.rowKey) with
    | error fault => exact ⟨asked, nofun⟩
    | ok answer =>
      refine ⟨asked, ?_⟩
      rintro _ ⟨⟩ address rfl
      unfold Provider.serve at served
      split at served
      · cases served
      · exact Except.ok.inj served
  refine searches.bind fun answer last sustains finds => ?_
  cases answer with
  | none => exact .throw sustains.stratified _
  | some address =>
    refine .pure sustains.stratified fun other same => ⟨nofun, fun _ isType its => ?_⟩
    cases found.symm.trans same
    cases its
    have kind : entity.kind = .type := Species.entity.inj isType
    have keyed := (stratified.things id _ (entity?_eq_some.mp found)).keyed entity rfl
    rw [sustains.memory]
    refine stratified.provider.rows _ address (finds address rfl) ?_
    rw [Entity.rowKey, if_pos kind, ← kind]
    exact keyed

theorem tuple_sorts (stratified : world.Stratified) (id : ThingId) (access : Access) : world.Sorts (tuple id access) fun address after =>
    world.Is id (.entity .type) → FlatAt after.provider.memory address := by
  refine (Sorts.requireEntity stratified id).bind ?_
  rintro entity mid - ⟨rfl, found⟩
  have is := stratified.is (entity?_eq_some.mp found)
  refine (readSlot_sorts stratified is entity.kind.tuple access ((search_sorts stratified id).weaken
    fun _ _ _ admits => admits entity found)).bind fun datum last sustains admits => ?_
  cases datum with
  | address address =>
    exact .pure sustains.stratified fun isType => admits.flat address (isType.2 _ (entity?_eq_some.mp found)) rfl
  | column | link | encoding => exact .throw sustains.stratified _

/-- Whatever a column of a type gives, it has no element. -/
theorem rowValue_sorts (stratified : world.Stratified) (id : ThingId) (access : Access) (source : String) (type : ColumnType) :
    world.Sorts (rowValue id access source type) fun value _ =>
      world.Is id (.entity .type) → source = Link.typeElement.info.source → type = .oid → value = .oid .invalid := by
  refine (tuple_sorts stratified id access).bind fun address mid sustains flat => ?_
  refine (Sorts.requireOpen sustains.stratified).bind ?_
  rintro _ _ - rfl
  refine (Sorts.requireEntity sustains.stratified id).bind ?_
  rintro entity mid - ⟨rfl, found⟩
  refine .get_bind ((Sorts.ofExcept sustains.stratified _).bind fun layout last more served => .get_bind ?_)
  refine (Sorts.ofOutcome more.stratified _).weaken ?_
  rintro value _ - got isType rfl rfl
  have kind : entity.kind = .type := Species.entity.inj ((sustains.is isType).2 _ (entity?_eq_some.mp found))
  have usual : layout = EntityClass.type.layout := by
    unfold Provider.layout? Provider.serve at served
    rw [sustains.stratified.provider.layouts, kind] at served
    split at served <;> cases served
    rfl
  have blank := flat isType last.provider.memory (more.memory ▸ .refl _) more.stratified.room
  rw [usual] at got
  exact Except.ok.inj (got.symm.trans blank)

theorem rowOid_sorts (stratified : world.Stratified) (id : ThingId) (access : Access) (source : String) :
    world.Sorts (rowOid id access source) fun oid _ =>
      world.Is id (.entity .type) → source = Link.typeElement.info.source → oid = .invalid := by
  refine (rowValue_sorts stratified id access source .oid).bind fun value mid sustains blank => ?_
  cases value with
  | oid oid => exact .pure sustains.stratified fun isType its => ColumnValue.oid.inj (blank isType its rfl)
  | bool | char | i16 | i32 | name | text | oidList => exact .throw sustains.stratified _

/-! ## Columns and links -/

section columns

variable (stratified : world.Stratified) (is : world.Is id species) (field : Column) (access : Access)

include stratified is

theorem column_sorts : world.Sorts (column id field access) fun _ _ => True := by
  have computes : world.Sorts (do return Computed.cached (.column (← rowValue id access field.info.source field.info.type)))
      fun computed after => after.Admits species field.spec.index computed.value :=
    (rowValue_sorts stratified id access _ _).bind fun value mid sustains _ => .pure sustains.stratified (.plain rfl nofun)
  refine (readSlot_sorts stratified is field.spec access computes).bind fun datum mid sustains _ => ?_
  cases datum with
  | column value => exact .pure sustains.stratified trivial
  | address | link | encoding => exact .throw sustains.stratified _

theorem oidColumn_sorts : world.Sorts (oidColumn id field access) fun _ _ => True := by
  refine (column_sorts stratified is field access).bind fun value mid sustains _ => ?_
  cases value with
  | oid oid => exact .pure sustains.stratified trivial
  | bool | char | i16 | i32 | name | text | oidList => exact .throw sustains.stratified _

theorem typmodColumn_sorts : world.Sorts (typmodColumn id field access) fun _ _ => True := by
  refine (column_sorts stratified is field access).bind fun value mid sustains _ => ?_
  cases value with
  | i32 typmod => exact .pure sustains.stratified trivial
  | bool | char | i16 | oid | name | text | oidList => exact .throw sustains.stratified _

theorem countColumn_sorts : world.Sorts (countColumn id field access) fun _ _ => True := by
  refine (column_sorts stratified is field access).bind fun value mid sustains _ => ?_
  cases value with
  | i16 count => exact .pure sustains.stratified trivial
  | bool | char | i32 | oid | name | text | oidList => exact .throw sustains.stratified _

theorem nameColumn_sorts : world.Sorts (nameColumn id field access) fun _ _ => True := by
  refine (column_sorts stratified is field access).bind fun value mid sustains _ => ?_
  cases value with
  | name name => exact .pure sustains.stratified trivial
  | bool | char | i16 | i32 | oid | text | oidList => exact .throw sustains.stratified _

end columns

theorem track_sustains (stratified : world.Stratified) (field : Link) (oid : Oid) (target : ThingId) :
    Sustains world (track field oid target world) := by
  have refl := Sustains.refl stratified
  unfold track
  split
  · exact refl.fades ((Fades.refl world).onTies target fun ties => by cases ties <;> rfl)
  · exact refl.fades ((Fades.refl world).onTies target fun ties => by cases ties <;> rfl)
  · exact refl

/-- A link leads to an entity of its class, and the element of a type to none. -/
theorem resolve_sorts (stratified : world.Stratified) (field : Link) (is : world.Is id (.entity field.info.kind)) (access : Access) :
    world.Sorts (resolve id field access) fun computed after =>
      after.Admits (.entity field.info.kind) field.spec.index computed.value := by
  refine (rowOid_sorts stratified id access field.info.source).bind fun oid mid sustains blank => ?_
  dsimp only
  split
  · exact .pure sustains.stratified (.plain rfl nofun)
  · next there =>
    refine (Sorts.requireOpen sustains.stratified).bind ?_
    rintro _ _ - rfl
    refine (entity_sorts sustains.stratified field.info.target oid).bind fun target last ended targets => ?_
    refine (Sorts.requireEntity ended.stratified id).bind ?_
    rintro entity last - ⟨rfl, -⟩
    refine .bind (.modify (track_sustains ended.stratified field entity.key.object target)) fun _ after tracked _ => ?_
    refine .pure tracked.stratified (Given.admits (.some (.link field ?_) (tracked.is targets)))
    rintro rfl
    rw [blank is rfl] at there
    exact there rfl

theorem link_sorts (stratified : world.Stratified) (field : Link) (is : world.Is id (.entity field.info.kind)) (access : Access) :
    world.Sorts (link id field access) (Given (.entity field.info.kind) field.spec.index) :=
  linkSlot_sorts stratified is field.spec access (resolve_sorts stratified field is access)

theorem attributeType_sorts (stratified : world.Stratified) (is : world.Is id (.entity .attr)) (access : Access) :
    world.Sorts (attributeType id access) (Given (.entity .attr) Catalog.attributeType.index) := by
  refine linkSlot_sorts stratified is Catalog.attributeType access ?_
  refine (oidColumn_sorts stratified is _ access).bind fun oid one first _ => ?_
  refine (typmodColumn_sorts first.stratified (first.is is) _ access).bind fun typmod two second _ => ?_
  refine (Sorts.requireOpen second.stratified).bind ?_
  rintro _ _ - rfl
  refine (typeWith_sorts second.stratified oid typmod).bind fun type last ended its => ?_
  exact .pure ended.stratified (Given.admits (.some .attributeType its))

/-- The row type of a relation is looked up, and not kept. -/
theorem rowType_sorts (stratified : world.Stratified) (is : world.Is id species) (access : Access) :
    world.Sorts (rowType id access) fun _ _ => True := by
  refine (oidColumn_sorts stratified is _ access).bind fun oid mid sustains _ => ?_
  split
  · refine (Sorts.requireOpen sustains.stratified).bind ?_
    rintro _ _ - rfl
    exact (entity_sorts sustains.stratified .type oid).bind fun _ last ended _ => .pure ended.stratified trivial
  · exact .pure sustains.stratified trivial

/-! ## Descriptors -/

theorem relationColumns_sorts (stratified : world.Stratified) (oid : Oid) (access : Access) (attnums : List Int16) :
    world.Sorts (relationColumns oid access attnums) fun _ _ => True := by
  induction attnums generalizing world with
  | nil => exact .pure stratified trivial
  | cons attnum rest ih =>
    refine (attributeOf_sorts stratified oid attnum).bind fun id mid sustains is => ?_
    have described : mid.Sorts (do
        let name ← nameColumn id .attributeName access
        let typeOid ← oidColumn id .attributeTypeOid access
        let typmod ← typmodColumn id .attributeTypmod access
        return { attnum, name := some name, typeOid, typmod : DescriptorColumn }) fun _ _ => True := by
      refine (nameColumn_sorts sustains.stratified is _ access).bind fun _ one first _ => ?_
      refine (oidColumn_sorts first.stratified (first.is is) _ access).bind fun _ two second _ => ?_
      refine (typmodColumn_sorts second.stratified ((first.trans second).is is) _ access).bind fun _ last third _ => ?_
      exact .pure third.stratified trivial
    refine (described.ensuring id fun _ _ _ _ _ => trivial).bind fun _ last ended _ => ?_
    exact (ih ended.stratified).bind fun _ after done _ => .pure done.stratified trivial

theorem relationDescriptor_sorts (stratified : world.Stratified) (is : world.Is id (.entity .relation)) (access : Access) :
    world.Sorts (relationDescriptor id access) (Given (.entity .relation) Catalog.relationDescriptor.index) := by
  refine linkSlot_sorts stratified is Catalog.relationDescriptor access ?_
  refine (countColumn_sorts stratified is _ access).bind fun natts one first _ => ?_
  refine (oidColumn_sorts first.stratified (first.is is) _ access).bind fun rowType two second _ => ?_
  refine (Sorts.requireOpen second.stratified).bind ?_
  rintro _ _ - rfl
  refine (Sorts.requireEntity second.stratified id).bind ?_
  rintro entity two - ⟨rfl, -⟩
  refine (relationColumns_sorts second.stratified _ access _).bind fun columns three third _ => ?_
  let thing : Thing := .descriptor {
    typeOid := rowType, typmod := noTypmod, relation := some entity.key.object, columns, guard := none }
  have added : Sustains three (three.add thing).2 := ⟨.add three thing, third.stratified.add (.descriptor three _)⟩
  have made : three.Sorts (construct (return thing)) fun id after => after.Is id .descriptor := by
    refine Task.Ends.next (Task.pure_run thing three) ⟨added, ?_⟩
    rintro _ ⟨⟩
    exact third.stratified.is_add thing
  exact made.bind fun id last ended its => .pure ended.stratified (Given.admits (.some .relationDescriptor its))

theorem recordDescriptor_sorts (stratified : world.Stratified) (typmod : Int32) :
    world.Sorts (recordDescriptor typmod) fun computed after =>
      after.Admits (.entity .type) Catalog.typeDescriptor.index computed.value := by
  refine (Sorts.requireOpen stratified).bind ?_
  rintro _ mid - rfl
  have looks : mid.Sorts (onProvider (Provider.lookupRecord typmod)) fun _ _ => True := by
    have same (provider : Provider) (store : provider.store = mid.provider.store) : Sustains mid { mid with provider } :=
      (Sustains.refl stratified).congr rfl rfl rfl store
    have served : (Task.ofExcept (mid.provider.serve .record ()) : Task Provider Unit).Ends mid.provider
        fun _ provider => provider = mid.provider := by
      unfold Task.ofExcept
      split <;> exact rfl
    refine onProvider_ends (.next (Task.get_run _) (served.bind ?_ ?_))
    · rintro _ _ rfl
      split
      · exact ⟨same _ rfl, fun _ _ => trivial⟩
      · split
        · exact ⟨same _ rfl, fun _ _ => trivial⟩
        · exact ⟨same _ rfl, fun _ _ => trivial⟩
    · rintro _ _ rfl
      exact ⟨same _ rfl, nofun⟩
  refine looks.bind fun found last sustains _ => ?_
  cases found with
  | none => exact .pure sustains.stratified (.plain rfl nofun)
  | some address =>
    exact (nativeDescriptor_sorts sustains.stratified address).bind fun id after ended its =>
      .pure ended.stratified (Given.admits (.some .typeDescriptor its))

theorem typeDescriptor_sorts (stratified : world.Stratified) (is : world.Is id (.entity .type)) (access : Access) :
    world.Sorts (typeDescriptor id access) (Given (.entity .type) Catalog.typeDescriptor.index) := by
  refine linkSlot_sorts stratified is Catalog.typeDescriptor access ?_
  refine (Sorts.requireEntity stratified id).bind ?_
  rintro type world - ⟨rfl, -⟩
  split
  · exact recordDescriptor_sorts stratified type.key.sub
  · refine (link_sorts stratified .typeRelation is access).bind fun relation mid sustains given => ?_
    cases relation with
    | none => exact .pure sustains.stratified (.plain rfl nofun)
    | some relation =>
      obtain ⟨sort, leads, its⟩ := given relation rfl
      obtain rfl := leads.of_typeRelation
      have described := relationDescriptor_sorts sustains.stratified its access
      refine (described.ensuring relation fun _ _ _ later given => given.later later).bind fun descriptor last ended given => ?_
      refine .pure ended.stratified (Given.admits fun one same => ?_)
      obtain ⟨sort, leads, its⟩ := given one same
      obtain rfl := leads.of_relationDescriptor
      exact ⟨_, .typeDescriptor, its⟩

/-! ## Encodings and all fields -/

theorem encodingInfo_sorts (stratified : world.Stratified) (is : world.Is id species) (access : Access) :
    world.Sorts (encodingInfo id access) fun _ _ => True := by
  refine (readSlot_sorts stratified is Catalog.encodingInfo access ?_).bind fun datum mid sustains _ => ?_
  · refine (Sorts.requireOpen stratified).bind ?_
    rintro _ world - rfl
    refine .get_bind ?_
    split
    · refine .get_bind ((Sorts.ofExcept stratified _).bind fun info mid sustains _ => ?_)
      cases info with
      | some info => exact .pure sustains.stratified (.plain rfl nofun)
      | none => exact .throw sustains.stratified _
    · exact .throw stratified _
  · cases datum with
    | encoding info => exact .pure sustains.stratified trivial
    | address | column | link => exact .throw sustains.stratified _

/-- A field that a thing offers is one of entities of its class, or of encodings. -/
theorem offered_cases {thing : Thing} {name : String} {accessor : Accessor}
    (offered : Accessor.ofName? thing name = some accessor) :
    (∃ kind, thing.species = .entity kind ∧ accessor.Of kind) ∨ accessor.OfEncoding := by
  cases thing with
  | entity entity => exact .inl ⟨entity.kind, rfl, Accessor.of_ofName? offered⟩
  | encoding number table => exact .inr (Accessor.ofEncoding_ofName? offered)
  | descriptor descriptor => cases offered

/-- Whatever a thing offers can be read. -/
theorem read_sorts (stratified : world.Stratified) {thing : Thing} (found : world.thing? id = some thing) {name : String}
    {accessor : Accessor} (offered : Accessor.ofName? thing name = some accessor) (access : Access) :
    world.Sorts (accessor.read id access) fun _ _ => True := by
  have is := stratified.is found
  have gives {β : Type} {body : Task World β} {given : β → World → Prop} (sorts : world.Sorts body given) (f : β → Reading) :
      world.Sorts (do return f (← body)) fun _ _ => True :=
    sorts.bind fun _ _ sustains _ => .pure sustains.stratified trivial
  have entity := Sorts.requireEntity stratified id
  -- An accessor that is not an encoding's was offered by an entity of the kind its name asks for.
  have entityOf (other : ¬ accessor.OfEncoding) : ∃ kind, world.Is id (.entity kind) ∧ accessor.Of kind := by
    obtain ⟨kind, sort, isOf⟩ := (offered_cases offered).resolve_right other
    exact ⟨kind, sort ▸ is, isOf⟩
  cases accessor with
  | oid => exact gives entity _
  | attnum => exact gives entity _
  | typmod => exact gives entity _
  | interned => exact gives entity _
  | rowKey => exact gives entity _
  | routines => exact gives entity _
  | owner =>
    refine entity.bind ?_
    rintro entity world - ⟨rfl, -⟩
    split
    · next relation _ =>
      exact .bind (.modify ((Sustains.refl stratified).fades ((Fades.refl world).hold relation))) fun _ _ sustains _ =>
        .pure sustains.stratified trivial
    · exact .throw stratified _
  | column field => exact gives (column_sorts stratified is field access) _
  | composite => exact gives (column_sorts stratified is _ access) _
  | link field =>
    obtain ⟨_, its, rfl⟩ := entityOf not_false
    exact gives (link_sorts stratified field its access) _
  | attributeType =>
    obtain ⟨_, its, rfl⟩ := entityOf not_false
    exact gives (attributeType_sorts stratified its access) _
  | rowType => exact gives (rowType_sorts stratified is access) _
  | relationDescriptor =>
    obtain ⟨_, its, rfl⟩ := entityOf not_false
    exact gives (relationDescriptor_sorts stratified its access) _
  | typeDescriptor =>
    obtain ⟨_, its, rfl⟩ := entityOf not_false
    exact gives (typeDescriptor_sorts stratified its access) _
  | encodingId =>
    refine .get_bind ?_
    split
    · exact .pure stratified trivial
    · exact .throw stratified _
  | encodingName => exact gives (encodingInfo_sorts stratified is access) _
  | encodingMaxCharLen => exact gives (encodingInfo_sorts stratified is access) _
  | encodingInfo => exact gives (encodingInfo_sorts stratified is access) _

end CatalogReplica.Catalog.World
