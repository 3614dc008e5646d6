import CatalogReplica.Proofs.Catalog.Resting
import CatalogReplica.Proofs.Native.Continuing

/-!
# What native descriptors show

A native descriptor is made from the record descriptor at an address, and nothing is written
there again.  So what it shows is what is at its address, as long as it is cached; and no two
addresses have the same one.

* `recordAt`: what a record descriptor in memory says.
* `Descriptor.TakenFrom`: a descriptor that was made from it.
* `World.Recorded`: what holds of native descriptors, and of the types that keep them.
* `World.Remembers`: a type keeps its columns while it lives and is not tripped.
* `World.Recorded.typeDescriptor_ends`: reads of such columns.
* `Operation.after_retains`: both last through every run.
-/

namespace CatalogReplica.Catalog

open Coherence (Access CellId Computed Memo SlotSpec)
open Identity (Cache CacheView)
open Lifetime (Ledger)
open Storage (Fetched Memory Row)

/-! ## Record descriptors in memory -/

/-- What the record descriptor at an address says: the number and the type modifier of its row
    type, and the types of its columns. -/
def recordAt (memory : Memory) (address : Address) : Fetched (Oid × Int32 × List Oid) := do
  let row : Row := { memory, layout := descriptorLayout, address }
  let _ ← row.i32 "natts"
  let types ← row.oidList "atttypes"
  let typeOid ← row.oid "tdtypeid"
  let typmod ← row.i32 "tdtypmod"
  return (typeOid, typmod, types)

theorem recordAt_lasts {memory larger : Memory} (sound : memory.Sound) (grows : memory.Grows larger) (address : Address) :
    Fetched.Lasts (recordAt memory address) (recordAt larger address) :=
  .bind (Row.i32_lasts sound grows _) fun _ => .bind (Row.oidList_lasts sound grows _) fun _ =>
    .bind (Row.oid_lasts sound grows _) fun _ => .bind (Row.i32_lasts sound grows _) fun _ => .refl _

theorem World.readNative_run (address : Address) (world : World) :
    readNative address world = Task.ofOutcome (recordAt world.provider.memory address) world := by
  unfold readNative recordAt
  rw [Task.bind_ok (Task.get_run world)]
  dsimp only
  generalize (⟨world.provider.memory, descriptorLayout, address⟩ : Row) = row
  cases row.i32 "natts" with
  | error interrupt => rfl
  | ok natts =>
    cases row.oidList "atttypes" with
    | error interrupt => rfl
    | ok types =>
      cases row.oid "tdtypeid" with
      | error interrupt => rfl
      | ok typeOid => cases row.i32 "tdtypmod" <;> rfl

/-- The descriptor was made from the record descriptor at an address, and has a guard. -/
structure Descriptor.TakenFrom (memory : Memory) (address : Address) (descriptor : Descriptor) : Prop where
  relation : descriptor.relation = none
  guarded : descriptor.guard.isSome = true
  reads : ∃ types, recordAt memory address = .ok (descriptor.typeOid, descriptor.typmod, types) ∧
    descriptor.columns = World.nativeColumns types

theorem Descriptor.TakenFrom.grows {memory larger : Memory} {address : Address} {descriptor : Descriptor}
    (taken : descriptor.TakenFrom memory address) (sound : memory.Sound) (grows : memory.Grows larger) :
    descriptor.TakenFrom larger address :=
  { taken with reads := taken.reads.imp fun _ ⟨reads, columns⟩ => ⟨recordAt_lasts sound grows address _ reads, columns⟩ }

theorem Thing.Same.entity {thing : Thing} {later : Entity} (same : thing.Same (.entity later)) :
    ∃ entity, thing = .entity entity ∧ entity.Same later := by
  cases thing with
  | entity entity => exact ⟨entity, rfl, same⟩
  | encoding | descriptor => exact same.elim

theorem Thing.Same.descriptor {thing thing' : Thing} {contents : Descriptor} (same : thing.Same thing')
    (was : thing = .descriptor contents) : thing' = .descriptor contents := by
  subst was
  cases thing' with
  | descriptor later => exact congrArg Thing.descriptor same
  | entity | encoding => exact same.elim

theorem Entity.Same.isInternedRecord {entity later : Entity} (same : entity.Same later) :
    later.isInternedRecord = entity.isInternedRecord := by
  unfold Catalog.Entity.isInternedRecord
  rw [same.kind, same.key]

namespace World

variable {base world after : World} {id : ThingId} {memo : Memo Datum}

/-! ## What holds between operations -/

/-- Cached native descriptors show what is at their addresses, and no two addresses have the same
    one.  A record type that keeps columns was interned. -/
structure Recorded (world : World) : Prop where
  memory : world.provider.memory.Sound
  low : 0 < world.provider.memory.next
  extra : world.provider.extraRecords = []
  below : ∀ id, world.alive id = true → id < world.nextThing
  native : ∀ entry ∈ world.caches.descriptors.table, entry.2 < world.nextThing
  single : ∀ entry ∈ world.caches.descriptors.table, ∀ other ∈ world.caches.descriptors.table,
    entry.2 = other.2 → entry = other
  shown : ∀ address id, (address, id) ∈ world.caches.descriptors.table → world.alive id = true →
    ∃ descriptor, world.descriptor? id = some descriptor ∧ descriptor.TakenFrom world.provider.memory address
  described : ∀ id type memo, world.entity? id = some type → type.isInternedRecord = true →
    (Thing.entity type).Describes memo → world.provider.records.get? type.key.sub ≠ none

/-- The thing keeps the columns, as long as it lives and they are valid. -/
structure Remembers (id : ThingId) (memo : Memo Datum) (world : World) : Prop where
  known : id < world.nextThing
  keeps : world.alive id = true → memo.isValid world.gates = true →
    ∃ thing, world.thing? id = some thing ∧ thing.Describes memo

theorem Persists.descriptor? {contents : Descriptor} (persists : Persists world after) (known : id < world.nextThing)
    (was : world.descriptor? id = some contents) (live : after.alive id = true) : after.descriptor? id = some contents := by
  obtain ⟨thing', found⟩ := alive_iff.mp live
  obtain ⟨thing, there, same, -⟩ | ⟨new, -⟩ := persists.things id thing' found
  · have its := descriptor?_eq_some.mp was
    rw [there, Option.some.injEq] at its
    exact descriptor?_eq_some.mpr (found.trans (congrArg some (same.descriptor its)))
  · exact absurd known (Nat.not_lt.mpr new)

theorem Persists.alive_known (persists : Persists world after) (below : ∀ id, world.alive id = true → id < world.nextThing)
    (live : after.alive id = true) : id < after.nextThing := by
  obtain ⟨thing', found⟩ := alive_iff.mp live
  obtain ⟨thing, was, -⟩ | ⟨-, known, -⟩ := persists.things id thing' found
  · exact Nat.lt_of_lt_of_le (below id (alive_iff.mpr ⟨thing, was⟩)) persists.next
  · exact known

/-- What is kept of record types was interned, as long as things keep what they kept. -/
theorem Recorded.described_of (recorded : Recorded world) (persists : Persists world after) {type : Entity}
    (found : after.entity? id = some type) (interned : type.isInternedRecord = true)
    (describes : (Thing.entity type).Describes memo) : after.provider.records.get? type.key.sub ≠ none := by
  have records : after.provider.records = world.provider.records := congrArg (·.2.1) persists.contents
  obtain ⟨thing, was, same, kept⟩ | ⟨-, -, idle⟩ := persists.things id _ (entity?_eq_some.mp found)
  · obtain ⟨entity, rfl, same⟩ := same.entity
    rw [records, same.key]
    exact recorded.described id entity memo (entity?_eq_some.mpr was) (same.isInternedRecord ▸ interned)
      ((kept memo).mp describes)
  · exact absurd describes (idle memo)

theorem Recorded.continues (recorded : Recorded world) (continues : Continues world after) : Recorded after := by
  have memory : after.provider.memory = world.provider.memory := congrArg (·.1) continues.contents
  have extra : after.provider.extraRecords = world.provider.extraRecords := congrArg (·.2.2) continues.contents
  refine { memory := memory ▸ recorded.memory, low := memory ▸ recorded.low, extra := extra.trans recorded.extra
           below := fun id live => continues.alive_known recorded.below live
           native := fun entry among => Nat.lt_of_lt_of_le (recorded.native entry (continues.entries among)) continues.next
           single := fun entry among other among' => recorded.single entry (continues.entries among) other (continues.entries among')
           shown := fun address id among live => ?_
           described := fun id type memo found => recorded.described_of continues.toPersists found }
  have known := recorded.native _ (continues.entries among)
  obtain ⟨contents, was, taken⟩ := recorded.shown address id (continues.entries among) (continues.was_alive known live)
  exact ⟨contents, continues.descriptor? known was live, memory ▸ taken⟩

theorem Remembers.persists (remembers : Remembers id memo world) (persists : Persists world after) :
    Remembers id memo after where
  known := Nat.lt_of_lt_of_le remembers.known persists.next
  keeps live valid := by
    obtain ⟨thing', found⟩ := alive_iff.mp live
    obtain ⟨thing, was, -, kept⟩ | ⟨new, -⟩ := persists.things id thing' found
    · obtain ⟨_, its, describes⟩ := remembers.keeps (alive_iff.mpr ⟨thing, was⟩) (persists.gates.valid_before valid)
      cases was.symm.trans its
      exact ⟨thing', found, (kept memo).mpr describes⟩
    · exact absurd remembers.known (Nat.not_lt.mpr new)

/-- Rows are written, and record types interned. -/
theorem Recorded.provide (recorded : Recorded world) {provider : Provider} (grows : world.provider.memory.Grows provider.memory)
    (sound : provider.memory.Sound) (extra : provider.extraRecords = world.provider.extraRecords)
    (records : ∀ typmod, world.provider.records.get? typmod ≠ none → provider.records.get? typmod ≠ none) :
    Recorded { world with provider } :=
  { recorded with
    memory := sound
    low := Nat.lt_of_lt_of_le recorded.low grows.1
    extra := extra.trans recorded.extra
    shown := fun address id among live =>
      (recorded.shown address id among live).imp fun _ ⟨found, taken⟩ => ⟨found, taken.grows recorded.memory grows⟩
    described := fun id type memo found interned describes =>
      records _ (recorded.described id type memo found interned describes) }

/-! ## Reads of the columns of types -/

/-- A native descriptor is made and enters its cache. -/
theorem Recorded.enter (recorded : Recorded world) {address : Address} {descriptor : Descriptor}
    (taken : descriptor.TakenFrom world.provider.memory address) :
    Recorded (descriptorView.settle address world.nextThing (world.add (.descriptor descriptor)).2) ∧
      Persists world (descriptorView.settle address world.nextThing (world.add (.descriptor descriptor)).2) := by
  have own : (world.add (.descriptor descriptor)).2.thing? world.nextThing = some (.descriptor descriptor) := by
    rw [thing?_add, if_pos rfl]
    cases was : world.thing? world.nextThing with
    | none => rfl
    | some other => exact absurd (recorded.below _ (alive_iff.mpr ⟨other, was⟩)) (Nat.lt_irrefl _)
  have settled := (world.caches.descriptors.settle_spec (world.add (.descriptor descriptor)).2.alive address world.nextThing).entries
  unfold CacheView.settle
  change Recorded (match world.caches.descriptors.settle (world.add (.descriptor descriptor)).2.alive address world.nextThing with
      | (out, notes, cache) => World.reap out.toList (descriptorView.store notes cache (world.add (.descriptor descriptor)).2)) ∧
    Persists world (match world.caches.descriptors.settle (world.add (.descriptor descriptor)).2.alive address world.nextThing with
      | (out, notes, cache) => World.reap out.toList (descriptorView.store notes cache (world.add (.descriptor descriptor)).2))
  -- The shelf settled may let another descriptor go, which is reaped only once the new entry stands.
  generalize world.caches.descriptors.settle (world.add (.descriptor descriptor)).2.alive address world.nextThing = result at settled
  obtain ⟨out, notes, cache⟩ := result
  dsimp only at settled ⊢
  let stored : World := descriptorView.store notes cache (world.add (.descriptor descriptor)).2
  have persists : Persists world stored := by
    refine ⟨Nat.le_succ _, fun one thing' found => ?_, rfl, .refl _⟩
    obtain was | ⟨rfl, rfl⟩ := thing?_add_cases found
    · exact .inl ⟨thing', was, .refl thing', fun _ => .rfl⟩
    · exact .inr ⟨Nat.le_refl _, Nat.lt_succ_self _, by rintro memo ⟨_, ⟨⟩, -⟩⟩
  have records : Recorded stored := by
    refine { recorded with
      below := fun one live => persists.alive_known recorded.below live
      native := fun entry among => ?_, single := fun entry among other among' same => ?_, shown := fun here one among live => ?_
      described := fun id type memo found => recorded.described_of persists found }
    · obtain rfl | ⟨before, -⟩ := settled entry among
      · exact Nat.lt_succ_self _
      · exact Nat.lt_succ_of_lt (recorded.native entry before)
    · -- The new descriptor is in no other entry, so only older entries could have the same one.
      have older {entry : Address × ThingId} (before : entry ∈ world.caches.descriptors.table)
          (same : entry.2 = world.nextThing) : False := Nat.lt_irrefl _ (same ▸ recorded.native entry before)
      obtain rfl | ⟨before, -⟩ := settled entry among
      · obtain rfl | ⟨before', -⟩ := settled other among'
        · rfl
        · exact (older before' same.symm).elim
      · obtain rfl | ⟨before', -⟩ := settled other among'
        · exact (older before same).elim
        · exact recorded.single entry before other before' same
    · obtain new | ⟨before, -⟩ := settled _ among
      · cases new
        exact ⟨descriptor, descriptor?_eq_some.mpr own, taken⟩
      · have known := recorded.native _ before
        obtain ⟨contents, was, taken⟩ := recorded.shown here one before (persists.was_alive known live)
        exact ⟨contents, persists.descriptor? known was live, taken⟩
  have reaped : Continues stored (World.reap out.toList stored) := (Continues.refl stored).reap _
  exact ⟨records.continues reaped, persists.trans reaped.toPersists⟩

/-- What a read has done until it keeps what it found. -/
def Upholds (base after : World) : Prop := Recorded after ∧ Persists base after

theorem Upholds.continues (upholds : Upholds base world) (continues : Continues world after) : Upholds base after :=
  ⟨upholds.1.continues continues, upholds.2.trans continues.toPersists⟩

theorem Recorded.upholds (recorded : Recorded world) : Upholds world world := ⟨recorded, (Continues.refl world).toPersists⟩

/-- A native descriptor is made from what is at its address. -/
theorem adopt_takes (address : Address) (world : World) : (adopt address).Ends world fun outcome after =>
    Continues world after ∧ ∀ thing, outcome = .ok thing →
      ∃ descriptor, thing = .descriptor descriptor ∧ descriptor.TakenFrom after.provider.memory address := by
  let same (after : World) : Prop := after.provider.contents = world.provider.contents
  have ledgers {β : Type} (body : Task Ledger β) : (onLedger body).Keeps same := contents_onLedger body
  have current : currentLifespan.Keeps same := currentLifespan_keeps (fun _ _ same => same) fun _ _ same =>
    (contents_setLedger _ _).trans same
  -- Whatever breaks off on the way has left the provider's contents alone.
  have takes : (adopt address).Ends world fun outcome after => same after ∧ ∀ thing, outcome = .ok thing →
      ∃ descriptor, thing = .descriptor descriptor ∧ descriptor.TakenFrom world.provider.memory address := by
    refine (current world rfl).bind (fun lifespan mid kept => ?_) fun _ _ kept => ⟨kept, nofun⟩
    refine .next (Task.get_run mid) ((ledgers _ mid kept).bind (fun guard built kept => ?_) fun _ _ kept => ⟨kept, nofun⟩)
    have reads : (do
        discard (onLedger (Ledger.pin mutatorThread guard))
        Task.ensuring (readNative address) (Task.exec (onLedger (Ledger.unpin mutatorThread guard)))
        : Task World (Oid × Int32 × List Oid)).Ends built fun outcome after => same after ∧
          ∀ contents, outcome = .ok contents → recordAt world.provider.memory address = .ok contents := by
      refine (Task.Ends.discard (ledgers _ built kept)).bind (fun _ pinned kept => ?_) fun _ _ kept => ⟨kept, nofun⟩
      refine .ensuring (.of_run (readNative_run address pinned) (.ofOutcome ⟨(ledgers _ pinned kept).exec, fun contents its => ?_⟩))
      rwa [show pinned.provider.memory = world.provider.memory from congrArg (·.1) kept] at its
    refine reads.attempt.bind ?_ fun _ _ ⟨_, broken, _⟩ => by cases broken
    rintro contents read ⟨_, same, kept, reads⟩
    cases same
    cases contents with
    | ok contents =>
      obtain ⟨typeOid, typmod, types⟩ := contents
      refine ⟨kept, ?_⟩
      rintro _ ⟨⟩
      exact ⟨_, rfl, rfl, rfl, types, reads _ rfl, rfl⟩
    | error interrupt => exact (ledgers _ read kept).bind (fun _ _ kept => ⟨kept, nofun⟩) fun _ _ kept => ⟨kept, nofun⟩
  refine (takes.both (beside_adopt address world ⟨rfl, rfl, rfl, rfl⟩)).weaken fun outcome after ended => ?_
  obtain ⟨⟨kept, given⟩, beside⟩ := ended
  rw [show after.provider.memory = world.provider.memory from congrArg (·.1) kept]
  exact ⟨.of_beside beside kept, given⟩

theorem nativeDescriptor_upholds (upholds : Upholds base world) (address : Address) :
    (nativeDescriptor address).Ends world fun _ after => Upholds base after := by
  have looks : (descriptorView.lookup mutatorThread address (construct (adopt address))).Ends world
      fun _ after => Upholds base after := by
    unfold Task.Ends CacheView.lookup
    have sought : Continues world (descriptorView.ask mutatorThread address world).2 :=
      ((Alters.refl [] world).store .descriptors _ fun _ among => .inl (Cache.mem_of_ask among)).continues rfl
    cases run : descriptorView.ask mutatorThread address world with | mk asked mid =>
    rw [run] at sought
    have asks := upholds.continues sought
    -- Only a build constructs, and what it adopts is entered with the contents read at its address.
    cases asked with
    | hit id => exact asks.continues (((Alters.refl [] mid).holdAll [id]).continues rfl)
    | reentrant | wait => exact asks
    | build =>
      dsimp only
      have made := adopt_takes address mid
      unfold Task.Ends at made
      unfold construct
      rw [Task.bind_run]
      cases ran : adopt address mid with
      | ok thing last =>
        rw [ran] at made
        obtain ⟨descriptor, rfl, taken⟩ := made.2 thing rfl
        have adopted := asks.continues made.1
        have entered := adopted.1.enter taken
        exact ⟨entered.1, adopted.2.trans entered.2⟩
      | error interrupt last =>
        rw [ran] at made
        have abandons : Alters [] last (descriptorView.abandon address last) :=
          (Alters.refl [] last).set .descriptors fun _ among => .inl among
        exact (asks.continues made.1).continues (abandons.continues rfl)
  refine .next (Task.get_run world) (looks.bind (fun id after upholds => ?_) fun _ _ upholds => upholds)
  split
  · exact .next (Task.modify_run _ after) (upholds.continues (.of_beside ⟨rfl, rfl, rfl, rfl⟩ rfl))
  · exact upholds

/-- Columns that may be kept are those of a record type that was interned. -/
theorem recordDescriptor_upholds (upholds : Upholds base world) (typmod : Int32) :
    (recordDescriptor typmod).Ends world fun outcome after => Upholds base after ∧
      ∀ datum, outcome = .ok (.cached datum) → base.provider.records.get? typmod ≠ none := by
  refine (requireOpen_ends world).bind ?_ ?_
  · rintro _ world rfl
    have looks : (onProvider (Provider.lookupRecord typmod)).Ends world fun outcome after =>
        Upholds base after ∧ ∀ address, outcome = .ok (some address) → base.provider.records.get? typmod ≠ none := by
      have records : world.provider.records = base.provider.records := congrArg (·.2.1) upholds.2.contents
      refine onProvider_ends ((Provider.contents_lookupRecord typmod world.provider).both ?_ |>.weaken
        fun outcome provider ended => ⟨upholds.continues (.of_beside ⟨rfl, rfl, rfl, rfl⟩ ended.1), ended.2⟩)
      rw [← records]
      refine .next (Task.get_run world.provider) ?_
      cases world.provider.serve .record () with
      | error fault => rintro _ ⟨⟩
      | ok _ =>
        refine .next rfl ?_
        rw [upholds.1.extra]
        cases world.provider.records.get? typmod with
        | none => rintro _ ⟨⟩
        | some address => exact fun _ _ => Option.some_ne_none address
    refine looks.bind (fun found after ended => ?_) fun _ _ ended => ⟨ended.1, by rintro _ ⟨⟩⟩
    cases found with
    | none => exact ⟨ended.1, by rintro _ ⟨⟩⟩
    | some address =>
      exact (nativeDescriptor_upholds ended.1 address).bind (fun _ _ upholds => ⟨upholds, fun _ _ => ended.2 address rfl⟩)
        fun _ _ upholds => ⟨upholds, by rintro _ ⟨⟩⟩
  · rintro _ _ rfl
    exact ⟨upholds, by rintro _ ⟨⟩⟩

/-- What things are like when one of them keeps other columns. -/
theorem things_keep {one : ThingId} {thing' : Thing}
    (found : (onThing id (Thing.onTable (·.keep Catalog.typeDescriptor.index memo)) world).thing? one = some thing') :
    ∃ thing, world.thing? one = some thing ∧ thing.Same thing' ∧ (one ≠ id → thing' = thing) ∧
      ∀ kept, thing'.Describes kept → one = id ∨ thing.Describes kept := by
  rw [thing?_onThing] at found
  split at found
  · next here =>
    obtain ⟨thing, was, rfl⟩ := Option.map_eq_some_iff.mp found
    have same : thing.Same (thing.onTable (·.keep Catalog.typeDescriptor.index memo)) := by
      cases thing <;> first | exact ⟨rfl, rfl, rfl⟩ | exact rfl
    exact ⟨thing, was, same, fun other => absurd here other, fun _ _ => .inl here⟩
  · exact ⟨thing', found, .refl thing', fun _ => rfl, fun _ describes => .inr describes⟩

/-- Columns are kept where a type may keep some. -/
theorem Recorded.keep (recorded : Recorded world) (may : ∀ type, world.entity? id = some type → type.isInternedRecord = true →
    world.provider.records.get? type.key.sub ≠ none) :
    Recorded (onTable id (·.keep Catalog.typeDescriptor.index memo) world) := by
  suffices kept : Recorded (onThing id (Thing.onTable (·.keep Catalog.typeDescriptor.index memo)) world) from
    kept.continues ((Continues.refl _).reap _)
  refine { recorded with below := fun one live => ?_, shown := fun address one among live => ?_
                         described := fun one type kept found interned describes => ?_ }
  · rw [alive_onThing] at live
    exact recorded.below one live
  · rw [alive_onThing] at live
    obtain ⟨contents, was, taken⟩ := recorded.shown address one among live
    refine ⟨contents, descriptor?_eq_some.mpr ?_, taken⟩
    rw [thing?_onThing, descriptor?_eq_some.mp was]
    split <;> rfl
  · obtain ⟨thing, was, same, -, before⟩ := things_keep (entity?_eq_some.mp found)
    obtain ⟨entity, rfl, same⟩ := same.entity
    have interned : entity.isInternedRecord = true := same.isInternedRecord ▸ interned
    rw [same.key]
    obtain rfl | before := before kept describes
    · exact may entity (entity?_eq_some.mpr was) interned
    · exact recorded.described one entity kept (entity?_eq_some.mpr was) interned before

/-- A type forgets no valid columns when it keeps those it had none before. -/
theorem Remembers.keep {kept : Memo Datum} {other : ThingId} (remembers : Remembers other kept base)
    (persists : Persists base world) (empty : ((view id).place Catalog.typeDescriptor).peek base = none) :
    Remembers other kept (onTable id (·.keep Catalog.typeDescriptor.index memo) world) := by
  suffices remembered : Remembers other kept (onThing id (Thing.onTable (·.keep Catalog.typeDescriptor.index memo)) world) from
    remembered.persists ((Continues.refl _).reap _).toPersists
  refine ⟨Nat.lt_of_lt_of_le remembers.known persists.next, fun live valid => ?_⟩
  rw [alive_onThing] at live
  by_cases here : other = id
  · subst here
    obtain ⟨thing, was, table, has, found⟩ := remembers.keeps (persists.was_alive remembers.known live)
      (persists.gates.valid_before valid)
    cases empty.symm.trans (peek_iff.mpr ⟨thing, table, kept, was, has, found, persists.gates.valid_before valid, rfl⟩)
  · obtain ⟨thing, was, describes⟩ := (remembers.persists persists).keeps live valid
    refine ⟨thing, ?_, describes⟩
    rw [thing?_onThing, if_neg here]
    exact was

/-- What goes on from one state to the next: native descriptors show what they should, memory
    stays readable, and types keep their columns. -/
structure Retains (before after : World) : Prop where
  recorded : Recorded after
  memory : before.provider.memory.Grows after.provider.memory
  remembers : ∀ id memo, Remembers id memo before → Remembers id memo after

theorem Retains.trans {mid : World} (first : Retains before mid) (second : Retains mid after) : Retains before after where
  recorded := second.recorded
  memory := first.memory.trans second.memory
  remembers id memo remembers := second.remembers id memo (first.remembers id memo remembers)

/-- Nothing is written meanwhile. -/
theorem Retains.of_contents (recorded : Recorded after) (contents : after.provider.contents = before.provider.contents)
    (remembers : ∀ id memo, Remembers id memo before → Remembers id memo after) : Retains before after :=
  ⟨recorded, (congrArg (·.1) contents : after.provider.memory = before.provider.memory) ▸ .refl _, remembers⟩

theorem Upholds.retains (upholds : Upholds base world) : Retains base world :=
  .of_contents upholds.1 upholds.2.contents fun _ _ remembers => remembers.persists upholds.2

/-- What a slot keeps is served. -/
theorem readSlot_kept {spec : SlotSpec} {access : Access} {compute : Task World (Computed Datum)} {datum : Datum}
    (peeked : ((view id).place spec).peek world = some datum) : readSlot id spec access compute world
      = .ok datum (datum.refs.foldl (fun world id => World.hold id world) (count .slotHit world)) := by
  have its := peeked
  rw [Coherence.TableView.peek_place] at its
  obtain ⟨memo, found, valid⟩ := Option.bind_eq_some_iff.mp its
  unfold Memo.get? at valid
  split at valid
  · next isValid =>
    cases valid
    refine (Task.bind_ok (Task.get_run world)).trans ((Task.bind_ok (Coherence.TableView.read_memo found isValid)).trans ?_)
    rw [peeked]
    rfl
  · cases valid

/-- Until columns are kept nothing changes that matters, and a record type whose columns may be kept
    was interned. -/
theorem Recorded.typeColumns_ends (recorded : Recorded world) (id : ThingId) (access : Access) :
    (typeColumns id access).Ends world fun outcome after =>
      Upholds world after ∧ ∀ datum, outcome = .ok (.cached datum) → ∃ type, world.entity? id = some type ∧
        (type.isInternedRecord = true → world.provider.records.get? type.key.sub ≠ none) := by
  refine (Edits.requireEntity_ends id world).bind ?_ fun interrupt after ended => ?_
  · rintro type world ⟨rfl, found⟩
    split
    · refine (recordDescriptor_upholds recorded.upholds type.key.sub).weaken fun outcome after ended => ⟨ended.1, ?_⟩
      exact fun datum same => ⟨type, found type rfl, fun _ => ended.2 datum same⟩
    · next plain =>
      refine (Edits.compositeColumns id access [] world .refl).weaken fun outcome after edits =>
        ⟨?_, fun _ _ => ⟨type, found type rfl, fun interned => absurd interned plain⟩⟩
      cases outcome <;> exact recorded.upholds.continues (Edits.continues edits)
  · obtain ⟨rfl, -⟩ := ended
    exact ⟨recorded.upholds, by rintro _ ⟨⟩⟩

/-- The columns of a type are read. -/
theorem Recorded.typeDescriptor_ends (recorded : Recorded world) (id : ThingId) (access : Access) :
    (typeDescriptor id access).Ends world fun _ after =>
      Retains world after ∧ after.provider.contents = world.provider.contents := by
  have counted {last : World} (counter : Counter) : Continues last (count counter last) := .of_beside ⟨rfl, rfl, rfl, rfl⟩ rfl
  have ends {last : World} (upholds : Upholds world last) :
      Retains world last ∧ last.provider.contents = world.provider.contents := ⟨upholds.retains, upholds.2.contents⟩
  rw [typeDescriptor_eq]
  suffices slot : (readSlot id Catalog.typeDescriptor access (typeColumns id access)).Ends world fun _ after =>
      Retains world after ∧ after.provider.contents = world.provider.contents by
    refine slot.bind (fun datum after ended => ?_) fun _ _ ended => ended
    cases datum <;> exact ended
  cases peeked : ((view id).place Catalog.typeDescriptor).peek world with
  | some datum =>
    refine .of_run (readSlot_kept peeked) ?_
    have held : Continues (count .slotHit world) _ := ((Alters.refl [] _).holdAll datum.refs).continues (by rw [foldl_hold])
    exact ends (recorded.upholds.continues ((counted _).trans held))
  | none =>
    refine Edits.readSlot_ends (fun datum its => ?_) (fun _ => ends recorded.upholds) (fun _ => recorded.typeColumns_ends id access)
      (fun datum cell after _ ended => ?_) (fun datum after ended => ends (ended.1.continues (counted _)))
      fun _ _ ended => ends ended.1
    · cases peeked.symm.trans its
    · obtain ⟨upholds, may⟩ := ended
      obtain ⟨type, its, may⟩ := may datum rfl
      have upholds := upholds.continues (counted .slotCompute)
      have records : (count .slotCompute after).provider.records = world.provider.records :=
        congrArg (·.2.1) upholds.2.contents
      have contents : (onTable id (·.keep Catalog.typeDescriptor.index ⟨datum, cell⟩) (count .slotCompute after)).provider.contents
          = world.provider.contents := (contents_reap _ _).trans upholds.2.contents
      refine ⟨.of_contents (upholds.1.keep fun later found interned => ?_) contents
        fun other kept remembers => remembers.keep upholds.2 peeked, contents⟩
      -- The slot's own type was there before, so the value kept is the one just computed for it.
      obtain ⟨thing, was, same, -⟩ | ⟨new, -⟩ := upholds.2.things id _ (entity?_eq_some.mp found)
      · cases was.symm.trans (entity?_eq_some.mp its)
        rw [records, same.key]
        exact may (same.isInternedRecord ▸ interned)
      · exact absurd (recorded.below id (alive_iff.mpr ⟨_, entity?_eq_some.mp its⟩)) (Nat.not_lt.mpr new)

theorem start_recorded (config : Config) : Recorded (World.start config) where
  memory := Storage.Memory.sound_blank
  low := Nat.lt_of_lt_of_le (by decide : 0 < ({} : Memory).next) (Nat.le_refl _)
  extra := rfl
  below id live := by
    obtain ⟨thing, found⟩ := alive_iff.mp live
    cases found
  native _ among := (List.not_mem_nil among).elim
  single _ among := (List.not_mem_nil among).elim
  shown _ _ among := (List.not_mem_nil among).elim
  described _ _ _ found := by cases found

end World

namespace Operation

open World (Continues Recorded Remembers Retains)

variable {world : World} {operation : Operation} {operations : List Operation} {typmod : Int32}

/-- What a provider is like after more was written. -/
structure Provided (operation : Operation) (before after : Provider) : Prop where
  memory : before.memory.Grows after.memory
  sound : before.memory.Sound → after.memory.Sound
  extra : after.extraRecords = before.extraRecords
  interned : ∀ typmod, before.records.get? typmod ≠ none → after.records.get? typmod ≠ none
  others : ∀ typmod, (∀ types, operation ≠ .intern typmod types) → after.records.get? typmod = before.records.get? typmod

/-- Rows are written, or others are served. -/
theorem apply_provides (provides : operation.Provides) (world : World) :
    ∃ provider, operation.apply world = { world with provider } ∧ Provided operation world.provider provider := by
  -- Only a put and an intern write rows; both write above what was there.
  have beside {provider : Provider} (memory : provider.memory = world.provider.memory)
      (records : provider.records = world.provider.records) (extra : provider.extraRecords = world.provider.extraRecords) :
      Provided operation world.provider provider :=
    ⟨memory ▸ .refl _, fun sound => memory ▸ sound, extra, fun _ before => records ▸ before, fun _ _ => records ▸ rfl⟩
  have runs {α : Type} {body : Task Provider α}
      (ends : body.Ends world.provider fun _ after => Provided operation world.provider after) :
      (World.onProvider body).Ends world fun _ after => ∃ provider, after = { world with provider } ∧
        Provided operation world.provider provider :=
    World.onProvider_ends (ends.weaken fun _ provider provided => ⟨provider, rfl, provided⟩)
  cases operation with
  | put plan =>
    refine (Task.Ends.discard (runs ?_)).exec
    refine (Provider.onMemory_adds (Storage.writeRow_adds _ _) world.provider).bind ?_ ?_
    · rintro address _ ⟨memory, rfl, grows, sound⟩
      exact .next (Task.modify_run _ _) ⟨grows, sound, rfl, fun _ before => before, fun _ _ => rfl⟩
    · rintro interrupt _ ⟨memory, rfl, grows, sound⟩
      exact ⟨grows, sound, rfl, fun _ before => before, fun _ _ => rfl⟩
  | remove key => exact (Task.Ends.discard (runs (.of_run (Task.lift_run _ _) (beside rfl rfl rfl)))).exec
  | putEncoding info => exact (runs (.of_run (Task.modify_run _ _) (beside rfl rfl rfl))).exec
  | setScope address kind => exact (runs (.of_run (Task.modify_run _ _) (beside rfl rfl rfl))).exec
  | intern typmod types =>
    refine (Task.Ends.discard (runs ?_)).exec
    refine (Provider.onMemory_adds (Storage.writeRow_adds _ _) world.provider).bind ?_ ?_
    · rintro address _ ⟨memory, rfl, grows, sound⟩
      refine .next (Task.modify_run _ _) ⟨grows, sound, rfl, fun other before => ?_, fun other differs => ?_⟩
      · change (world.provider.records.set typmod address).get? other ≠ none
        rw [Assoc.get?_set]
        split
        · exact Option.some_ne_none _
        · exact before
      · change (world.provider.records.set typmod address).get? other = _
        rw [Assoc.get?_set, if_neg fun same => differs types (by rw [same])]
    · rintro interrupt _ ⟨memory, rfl, grows, sound⟩
      exact ⟨grows, sound, rfl, fun _ before => before, fun _ _ => rfl⟩
  | _ => exact provides.elim

/-- What an operation does that neither writes rows nor lets others be served. -/
theorem apply_ends (recorded : Recorded world) (provides : ¬ operation.Provides) :
    Retains world (operation.apply world) ∧ (operation.apply world).provider.contents = world.provider.contents := by
  by_cases reads : operation.ReadsColumns world
  · cases operation with
    | read id field access =>
      have read : (Operation.read id field access).task.Ends world fun _ after =>
          Retains world after ∧ after.provider.contents = world.provider.contents := by
        refine read_ends ⟨recorded.upholds.retains, rfl⟩ fun accessor named => ?_
        cases reads.symm.trans named
        exact (recorded.typeDescriptor_ends id access).bind (fun _ _ ended => ended) fun _ _ ended => ended
      exact read.exec
    | _ => exact reads.elim
  · have continues := apply_continues provides reads
    exact ⟨(recorded.upholds.continues continues).retains, continues.contents⟩

theorem apply_retains (recorded : Recorded world) (operation : Operation) : Retains world (operation.apply world) := by
  by_cases provides : operation.Provides
  · obtain ⟨provider, same, provided⟩ := apply_provides provides world
    rw [same]
    exact ⟨recorded.provide provided.memory (provided.sound recorded.memory) provided.extra provided.interned, provided.memory,
      fun _ _ remembers => ⟨remembers.known, remembers.keeps⟩⟩
  · exact (apply_ends recorded provides).1

/-- Nothing but interning changes what is interned. -/
theorem apply_records (recorded : Recorded world) (operation : Operation) (differs : ∀ types, operation ≠ .intern typmod types) :
    (operation.apply world).provider.records.get? typmod = world.provider.records.get? typmod := by
  by_cases provides : operation.Provides
  · obtain ⟨provider, same, provided⟩ := apply_provides provides world
    rw [same]
    exact provided.others typmod differs
  · have records : (operation.apply world).provider.records = world.provider.records :=
      congrArg (·.2.1) (apply_ends recorded provides).2
    rw [records]

/-- Whatever runs, the columns that types keep and the memory stay as they were. -/
theorem after_retains (recorded : Recorded world) (operations : List Operation) : Retains world (after operations world) := by
  induction operations generalizing world with
  | nil => exact recorded.upholds.retains
  | cons operation operations ih =>
    have first := apply_retains recorded operation
    exact first.trans (ih first.recorded)

theorem after_records (recorded : Recorded world) (operations : List Operation)
    (differs : ∀ types, Operation.intern typmod types ∉ operations) :
    (after operations world).provider.records.get? typmod = world.provider.records.get? typmod := by
  induction operations generalizing world with
  | nil => rfl
  | cons operation operations ih =>
    refine (ih (apply_retains recorded operation).recorded fun types among => differs types (List.mem_cons_of_mem _ among)).trans
      (apply_records recorded operation ?_)
    rintro types rfl
    exact differs types List.mem_cons_self

end Operation

end CatalogReplica.Catalog
