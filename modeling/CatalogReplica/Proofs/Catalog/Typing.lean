import Mathlib.Logic.Relation
import CatalogReplica.Proofs.Catalog.Fading
import CatalogReplica.Proofs.Storage.RoundTrip

/-!
# What things refer to by their sort

Which slot leads to which sort of thing is fixed, and it leads downwards: from attributes and routines to
types, from types to relations, and from these to what refers to nothing.  A row type does not lead back: a
relation keeps its number only.  The element of a type would be a type again, but the usual rows of types have
none, so that nothing is ever kept there.

* `Species`, `Species.stratum`, `Species.Leads`: sorts of things, and what their slots lead to.
* `Provider.Flat`: no type that a search finds has an element.
* `World.Stratified`: all things are as their sort says.
* `World.Stratified.fades`, `World.Stratified.set`, ...: the changes that keep it so.
* `World.Stratified.acyclic`: then nothing refers to itself, not even through others.
-/

namespace CatalogReplica.Catalog

open Coherence (Memo SlotTable)
open Identity (Cache CacheView Note)
open Storage (Memory Row)

/-! ## Sorts of things -/

/-- The sort of a thing. -/
inductive Species where
  | entity (kind : EntityClass)
  | encoding
  | descriptor
  deriving DecidableEq

namespace Species

/-- How far above the things that refer to nothing the things of a sort are. -/
def stratum : Species → Nat
  | .entity .attr | .entity .routine => 3
  | .entity .type => 2
  | .entity .relation => 1
  | .entity .schema | .entity .language | .encoding | .descriptor => 0

/-- The slot of things of the first sort leads to things of the second one. -/
inductive Leads : Species → Nat → Species → Prop
  | link (field : Link) (other : field ≠ .typeElement) :
      Leads (.entity field.info.kind) field.spec.index (.entity field.info.target)
  | attributeType : Leads (.entity .attr) Catalog.attributeType.index (.entity .type)
  | relationDescriptor : Leads (.entity .relation) Catalog.relationDescriptor.index .descriptor
  | typeDescriptor : Leads (.entity .type) Catalog.typeDescriptor.index .descriptor

theorem Leads.descends {source target : Species} {index : Nat} (leads : Leads source index target) :
    target.stratum < source.stratum := by
  cases leads with
  | link field other => cases field <;> first | decide | exact absurd rfl other
  | attributeType | relationDescriptor | typeDescriptor => decide

/-- The relation of a type is a relation. -/
theorem Leads.of_typeRelation {target : Species} (leads : Leads (.entity .type) Link.typeRelation.spec.index target) :
    target = .entity .relation := by
  generalize source : Species.entity .type = type at leads
  generalize slot : Link.typeRelation.spec.index = index at leads
  cases leads with
  | link field other => cases field <;> first | rfl | exact absurd slot (by decide)
  | attributeType | relationDescriptor => cases source
  | typeDescriptor => cases slot

/-- The columns of a relation are a descriptor. -/
theorem Leads.of_relationDescriptor {target : Species}
    (leads : Leads (.entity .relation) Catalog.relationDescriptor.index target) : target = .descriptor := by
  generalize source : Species.entity .relation = relation at leads
  generalize slot : Catalog.relationDescriptor.index = index at leads
  cases leads with
  | link field other => cases field <;> first | exact absurd source (by decide) | exact absurd slot (by decide)
  | attributeType => cases source
  | relationDescriptor | typeDescriptor => rfl

end Species

namespace Thing

/-- The sort of the thing. -/
def species : Thing → Species
  | .entity e => .entity e.kind
  | .encoding .. => .encoding
  | .descriptor _ => .descriptor

theorem Same.species {before after : Thing} (same : before.Same after) : after.species = before.species := by
  cases before <;> cases after <;> first | exact same.elim | exact congrArg Species.entity same.kind | rfl

theorem species_onTable (f : SlotTable Datum → SlotTable Datum) (thing : Thing) : (thing.onTable f).species = thing.species := by
  cases thing <;> rfl

end Thing

/-! ## Rows of types -/

/-- What is read at the address as the row of a type has no element, whatever is allocated later. -/
def FlatAt (memory : Memory) (address : Address) : Prop :=
  ∀ larger, memory.Grows larger → larger.next ≤ UInt64.size →
    Row.get ⟨larger, EntityClass.type.layout, address⟩ .oid Link.typeElement.info.source = .ok (.oid .invalid)

theorem FlatAt.grows {memory larger : Memory} {address : Address} (flat : FlatAt memory address)
    (grows : memory.Grows larger) : FlatAt larger address :=
  fun last more => flat last (grows.trans more)

/-- Types that searches find have no element, and rows have the usual layouts. -/
structure Provider.Flat (provider : Provider) : Prop where
  rows : ∀ key address, provider.row? key = some address → key.classOid = EntityClass.type.oid →
    FlatAt provider.memory address
  layouts : provider.layouts = []
  sound : provider.memory.Sound
  low : 0 < provider.memory.next

theorem Provider.Flat.of_store {provider later : Provider} (flat : provider.Flat) (same : later.store = provider.store) :
    later.Flat := by
  have memory : later.memory = provider.memory := congrArg (·.memory) same
  have row (key : EntityKey) : later.row? key = provider.row? key := congrArg (·.row? key) same
  refine ⟨fun key address found => ?_, ?_, memory ▸ flat.sound, memory ▸ flat.low⟩
  · rw [memory]
    exact flat.rows key address (row key ▸ found)
  · exact (congrArg (·.layouts) same).trans flat.layouts

namespace World

variable {κ : Type} {view : CacheView World κ ThingId} {cache : Cache κ ThingId} {before world after last : World}
  {id : ThingId} {species : Species} {index : Nat} {datum : Datum} {thing : Thing}

/-! ## What numbers stand for -/

/-- The number stands for a thing of the sort, or for one that is gone. -/
def Is (world : World) (id : ThingId) (species : Species) : Prop :=
  id < world.nextThing ∧ ∀ thing, world.thing? id = some thing → thing.species = species

/-- Numbers stand for what they stood for, and rows are the same. -/
structure Later (before after : World) : Prop where
  next : before.nextThing ≤ after.nextThing
  things : ∀ id thing', after.thing? id = some thing' → id < before.nextThing →
    ∃ thing, before.thing? id = some thing ∧ thing'.species = thing.species
  store : after.provider.store = before.provider.store

namespace Later

theorem refl (world : World) : Later world world := ⟨Nat.le_refl _, fun _ thing found _ => ⟨thing, found, rfl⟩, rfl⟩

theorem trans (first : Later before world) (second : Later world after) : Later before after where
  next := Nat.le_trans first.next second.next
  things id thing'' found known := by
    obtain ⟨thing', was, same⟩ := second.things id thing'' found (Nat.lt_of_lt_of_le known first.next)
    obtain ⟨thing, first', same'⟩ := first.things id thing' was known
    exact ⟨thing, first', same.trans same'⟩
  store := second.store.trans first.store

theorem memory (later : Later world after) : after.provider.memory = world.provider.memory :=
  congrArg (·.memory) later.store

theorem is (later : Later world after) (is : world.Is id species) : after.Is id species := by
  refine ⟨Nat.lt_of_lt_of_le is.1 later.next, fun thing' found => ?_⟩
  obtain ⟨thing, was, same⟩ := later.things id thing' found is.1
  exact same.trans (is.2 thing was)

theorem onThing (id : ThingId) {f : Thing → Thing} (same : ∀ thing : Thing, (f thing).species = thing.species)
    (world : World) : Later world (World.onThing id f world) := by
  refine ⟨Nat.le_refl _, fun other thing' found _ => ?_, rfl⟩
  rw [thing?_onThing] at found
  split at found
  · obtain ⟨thing, was, rfl⟩ := Option.map_eq_some_iff.mp found
    exact ⟨thing, was, same thing⟩
  · exact ⟨thing', found, rfl⟩

theorem add (world : World) (thing : Thing) : Later world (world.add thing).2 := by
  refine ⟨Nat.le_succ _, fun id thing' found known => ?_, rfl⟩
  obtain was | ⟨rfl, -⟩ := thing?_add_cases found
  · exact ⟨thing', was, rfl⟩
  · exact absurd known (Nat.lt_irrefl _)

end Later

theorem Fades.later (fades : Fades world after) : Later world after where
  next := Nat.le_of_eq fades.next.symm
  things id thing' found _ := by
    obtain ⟨thing, was, less⟩ := fades.things id thing' found
    exact ⟨thing, was, less.same.species⟩
  store := fades.store

/-! ## What things keep -/

/-- A thing of the sort may keep the value in the slot. -/
structure Admits (world : World) (species : Species) (index : Nat) (datum : Datum) : Prop where
  leads : ∀ target ∈ datum.refs, ∃ sort, species.Leads index sort ∧ world.Is target sort
  flat : ∀ address, species = .entity .type → datum = .address address → FlatAt world.provider.memory address

theorem Admits.later (admits : world.Admits species index datum) (later : Later world after) :
    after.Admits species index datum where
  leads target among := by
    obtain ⟨sort, leads, is⟩ := admits.leads target among
    exact ⟨sort, leads, later.is is⟩
  flat address is same := later.memory ▸ admits.flat address is same

/-- A value that is no link and no address may be kept anywhere. -/
theorem Admits.plain (refs : datum.refs = []) (other : ∀ address, datum ≠ .address address) :
    world.Admits species index datum :=
  ⟨fun target among => by simp [refs] at among, fun address _ same => absurd same (other address)⟩

/-- The thing keeps what things of its sort may keep. -/
structure Classified (world : World) (thing : Thing) : Prop where
  keyed : ∀ entity, thing.entity? = some entity → entity.key.classOid = entity.kind.oid
  tied : ∀ owner, thing.Tied owner → thing.species = .entity .attr ∧ world.Is owner (.entity .relation)
  kept : ∀ index datum, thing.Keeps index datum → world.Admits thing.species index datum

namespace Classified

/-- A descriptor keeps nothing. -/
theorem descriptor (world : World) (descriptor : Descriptor) : world.Classified (.descriptor descriptor) where
  keyed _ its := by cases its
  tied _ tied := by
    obtain ⟨_, its, -⟩ := tied
    cases its
  kept _ _ keeps := by
    obtain ⟨_, _, has, -⟩ := keeps
    cases has

theorem later (classified : world.Classified thing) (later : Later world after) : after.Classified thing where
  keyed := classified.keyed
  tied owner tied := (classified.tied owner tied).imp_right later.is
  kept index datum keeps := (classified.kept index datum keeps).later later

theorem fades {thing' : Thing} (classified : world.Classified thing) (fades : thing.Fades thing') :
    world.Classified thing' where
  keyed entity' its := by
    cases thing' with
    | entity later =>
      cases its
      cases thing with
      | entity entity =>
        obtain ⟨kind, key, -⟩ := fades.same
        rw [kind, key]
        exact classified.keyed entity rfl
      | encoding number table => exact fades.same.elim
      | descriptor descriptor => exact fades.same.elim
    | encoding number table => cases its
    | descriptor descriptor => cases its
  tied owner tied := fades.same.species ▸ classified.tied owner (fades.tied owner tied)
  kept index datum keeps := fades.same.species ▸ classified.kept index datum (fades.keeps index datum keeps)

/-- A slot is filled with what it may keep. -/
theorem keep {memo : Memo Datum} (classified : world.Classified thing) (admits : world.Admits thing.species index memo.value) :
    world.Classified (thing.onTable (·.keep index memo)) where
  keyed entity its := by
    cases thing with
    | entity was => cases its; exact classified.keyed was rfl
    | encoding number table => cases its
    | descriptor descriptor => cases its
  tied owner tied := by
    rw [Thing.species_onTable]
    refine classified.tied owner ?_
    obtain ⟨entity, its, among⟩ := tied
    cases thing with
    | entity entity => cases its; exact ⟨_, rfl, among⟩
    | encoding number table => cases its
    | descriptor descriptor => cases its
  kept other datum keeps := by
    rw [Thing.species_onTable]
    obtain ⟨rfl, rfl⟩ | before := Thing.keeps_keep keeps
    · exact admits
    · exact classified.kept other datum before

end Classified

/-! ## All things -/

/-- The cache holds things of the sort. -/
inductive Stocks : ∀ {κ : Type}, CacheView World κ ThingId → Species → Prop
  | entities (kind : EntityClass) : Stocks (entityView kind) (.entity kind)
  | descriptors : Stocks descriptorView .descriptor
  | encodings : Stocks encodingView .encoding

theorem Stocks.shelf (stocks : Stocks view species) : Shelf view := by
  cases stocks with
  | entities kind => exact .entities kind
  | descriptors => exact .descriptors
  | encodings => exact .encodings

/-- A cache is replaced by one whose further entries are of the sort, and the others stay. -/
theorem Stocks.mem_set {κ' : Type} {view' : CacheView World κ' ThingId} {species' : Species} (stocks : Stocks view species)
    (stocks' : Stocks view' species') (new : ThingId → Prop) (table : ∀ entry ∈ cache.table, entry ∈ (view.get world).table ∨ new entry.2) :
    ∀ entry ∈ (view'.get (view.set cache world)).table, entry ∈ (view'.get world).table ∨ species' = species ∧ new entry.2 := by
  have stays : ∀ entry ∈ (view'.get world).table, entry ∈ (view'.get world).table ∨ species' = species ∧ new entry.2 :=
    fun _ among => .inl among
  have enters : ∀ entry ∈ cache.table, entry ∈ (view.get world).table ∨ species = species ∧ new entry.2 :=
    fun entry among => (table entry among).imp_right fun new => ⟨rfl, new⟩
  cases stocks with
  | entities kind =>
    cases stocks' with
    | entities kind' => cases kind <;> cases kind' <;> first | exact enters | exact stays
    | descriptors => cases kind <;> exact stays
    | encodings => cases kind <;> exact stays
  | descriptors =>
    cases stocks' with
    | entities kind' => cases kind' <;> exact stays
    | descriptors => exact enters
    | encodings => exact stays
  | encodings =>
    cases stocks' with
    | entities kind' => cases kind' <;> exact stays
    | descriptors => exact stays
    | encodings => exact enters

/-- All things keep what things of their sort may keep, each cache holds things of one sort, no type that is
    found has an element, and memory can be addressed. -/
structure Stratified (world : World) : Prop where
  below : ∀ id, world.alive id = true → id < world.nextThing
  things : ∀ id thing, world.thing? id = some thing → world.Classified thing
  entered : ∀ {κ : Type} {view : CacheView World κ ThingId} {species : Species}, Stocks view species →
    ∀ entry ∈ (view.get world).table, world.Is entry.2 species
  provider : world.provider.Flat
  room : world.provider.memory.next ≤ UInt64.size

namespace Stratified

theorem is (stratified : world.Stratified) (found : world.thing? id = some thing) : world.Is id thing.species :=
  ⟨stratified.below id (alive_iff.mpr ⟨thing, found⟩), fun other found' => by rw [Option.some.inj (found.symm.trans found')]⟩

theorem fades (stratified : world.Stratified) (fades : Fades world after) : after.Stratified where
  below id live := by
    obtain ⟨thing', found⟩ := alive_iff.mp live
    obtain ⟨thing, was, -⟩ := fades.things id thing' found
    rw [fades.next]
    exact stratified.below id (alive_iff.mpr ⟨thing, was⟩)
  things id thing' found := by
    obtain ⟨thing, was, less⟩ := fades.things id thing' found
    exact ((stratified.things id thing was).fades less).later fades.later
  entered stocks entry among := fades.later.is (stratified.entered stocks entry (fades.entries stocks.shelf among))
  provider := stratified.provider.of_store fades.store
  room := fades.later.memory ▸ stratified.room

theorem later_set (stocks : Stocks view species) (cache : Cache κ ThingId) (world : World) :
    Later world (view.set cache world) := by
  cases stocks <;> exact ⟨Nat.le_refl _, fun _ thing found _ => ⟨thing, found, rfl⟩, rfl⟩

/-- A cache is replaced by one whose further entries are of its sort. -/
theorem set (stratified : world.Stratified) (stocks : Stocks view species)
    (table : ∀ entry ∈ cache.table, entry ∈ (view.get world).table ∨ world.Is entry.2 species) :
    (view.set cache world).Stratified := by
  have later := later_set stocks cache world
  have heap : (view.set cache world).heap = world.heap ∧ (view.set cache world).nextThing = world.nextThing := by
    cases stocks <;> exact ⟨rfl, rfl⟩
  obtain ⟨heap, next⟩ := heap
  refine ⟨fun id live => ?_, fun id thing found => ?_, fun stocks' entry among => later.is ?_,
    stratified.provider.of_store later.store, later.memory ▸ stratified.room⟩
  · rw [alive, heap] at live
    exact next ▸ stratified.below id live
  · rw [thing?, heap] at found
    exact (stratified.things id thing found).later later
  · obtain there | new := stocks.mem_set stocks' (world.Is · species) table entry among
    · exact stratified.entered stocks' entry there
    · rw [new.1]
      exact new.2

theorem store (stratified : world.Stratified) (stocks : Stocks view species) (notes : List (Note κ))
    (table : ∀ entry ∈ cache.table, entry ∈ (view.get world).table ∨ world.Is entry.2 species) :
    (view.store notes cache world).Stratified ∧ Later world (view.store notes cache world) := by
  have noted : Fades (view.set cache world) (view.store notes cache world) := by
    rw [CacheView.store, stocks.shelf.note]
    exact (Fades.refl _).congr rfl rfl rfl rfl rfl
  exact ⟨(stratified.set stocks table).fades noted, (later_set stocks cache world).trans noted.later⟩

/-- What is new is of the sort that it is of. -/
theorem is_add (stratified : world.Stratified) (thing : Thing) : (world.add thing).2.Is world.nextThing thing.species := by
  refine ⟨Nat.lt_succ_self _, fun other found => ?_⟩
  obtain was | ⟨-, rfl⟩ := thing?_add_cases found
  · exact absurd (stratified.below _ (alive_iff.mpr ⟨other, was⟩)) (Nat.lt_irrefl _)
  · rfl

/-- A thing is added. -/
theorem add (stratified : world.Stratified) (classified : world.Classified thing) : (world.add thing).2.Stratified := by
  have later := Later.add world thing
  refine ⟨fun id live => ?_, fun id thing' found => Classified.later ?_ later, fun stocks entry among => later.is ?_,
    stratified.provider, stratified.room⟩
  · obtain ⟨thing', found⟩ := alive_iff.mp live
    obtain was | ⟨rfl, -⟩ := thing?_add_cases found
    · exact Nat.lt_succ_of_lt (stratified.below id (alive_iff.mpr ⟨thing', was⟩))
    · exact Nat.lt_succ_self _
  · obtain was | ⟨-, rfl⟩ := thing?_add_cases found
    · exact stratified.things id thing' was
    · exact classified
  · rw [stocks.shelf.get_congr (show (world.add thing).2.caches = world.caches from rfl)] at among
    exact stratified.entered stocks entry among

/-- A slot is filled with what it may keep. -/
theorem keep (stratified : world.Stratified) {memo : Memo Datum} (is : world.Is id species)
    (admits : world.Admits species index memo.value) :
    (onTable id (·.keep index memo) world).Stratified ∧ Later world (onTable id (·.keep index memo) world) := by
  have later : Later world (onThing id (Thing.onTable (·.keep index memo)) world) :=
    .onThing id (Thing.species_onTable _) world
  suffices kept : (onThing id (Thing.onTable (·.keep index memo)) world).Stratified by
    have reaped := (Fades.refl (onThing id (Thing.onTable (·.keep index memo)) world)).reap
      (((world.thing? id).map (·.refs)).getD [])
    exact ⟨kept.fades reaped, later.trans reaped.later⟩
  refine ⟨fun other live => ?_, fun other thing' found => Classified.later ?_ later, fun stocks entry among => later.is ?_,
    stratified.provider, stratified.room⟩
  · rw [alive_onThing] at live
    exact stratified.below other live
  · rw [thing?_onThing] at found
    split at found
    · next same =>
      obtain ⟨thing, was, rfl⟩ := Option.map_eq_some_iff.mp found
      refine (stratified.things other thing was).keep ?_
      rw [is.2 thing (same ▸ was)]
      exact admits
    · exact stratified.things other thing' found
  · have caches : (onThing id (Thing.onTable (·.keep index memo)) world).caches = world.caches := rfl
    exact stratified.entered stocks entry (stocks.shelf.mem_congr caches among)

end Stratified

/-! ## No circles -/

/-- The first thing keeps the second one alive. -/
def Refers (world : World) (source target : ThingId) : Prop := ∃ thing, world.thing? source = some thing ∧ target ∈ thing.refs

namespace Stratified

/-- A thing refers to things of lower sorts only. -/
theorem descends (stratified : world.Stratified) {target : ThingId} (found : world.thing? id = some thing)
    (refers : target ∈ thing.refs) : ∃ sort, world.Is target sort ∧ sort.stratum < thing.species.stratum := by
  have classified := stratified.things id thing found
  obtain ⟨index, datum, keeps, among⟩ | tied := Thing.mem_refs.mp refers
  · obtain ⟨sort, leads, is⟩ := (classified.kept index datum keeps).leads target among
    exact ⟨sort, is, leads.descends⟩
  · obtain ⟨its, is⟩ := classified.tied target tied
    rw [its]
    exact ⟨_, is, by decide⟩

/-- Whatever a thing refers to, directly or through others, is below it. -/
theorem below_of_refers (stratified : world.Stratified) {source target : ThingId}
    (refers : Relation.TransGen world.Refers source target) {thing' : Thing} (found : world.thing? target = some thing') :
    ∃ thing, world.thing? source = some thing ∧ thing'.species.stratum < thing.species.stratum := by
  have step {source target : ThingId} {thing' : Thing} (refers : world.Refers source target)
      (found : world.thing? target = some thing') :
      ∃ thing, world.thing? source = some thing ∧ thing'.species.stratum < thing.species.stratum := by
    obtain ⟨thing, there, among⟩ := refers
    obtain ⟨sort, is, lower⟩ := stratified.descends there among
    exact ⟨thing, there, is.2 thing' found ▸ lower⟩
  induction refers generalizing thing' with
  | single refers => exact step refers found
  | tail _ refers ih =>
    obtain ⟨between, there, lower⟩ := step refers found
    obtain ⟨thing, first, higher⟩ := ih there
    exact ⟨thing, first, Nat.lt_trans lower higher⟩

/-- Nothing refers to itself, not even through others. -/
theorem acyclic (stratified : world.Stratified) (id : ThingId) : ¬ Relation.TransGen world.Refers id id := by
  intro circle
  obtain ⟨next, ⟨thing, found, -⟩, -⟩ := Relation.TransGen.head'_iff.mp circle
  obtain ⟨other, again, lower⟩ := stratified.below_of_refers circle found
  rw [Option.some.inj (found.symm.trans again)] at lower
  exact Nat.lt_irrefl _ lower

end Stratified

end World

end CatalogReplica.Catalog
