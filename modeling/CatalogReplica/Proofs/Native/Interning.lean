import CatalogReplica.Proofs.Catalog.Bursts
import CatalogReplica.Proofs.Native.Recording
import CatalogReplica.Proofs.Storage.RoundTrip

/-!
# Interned record types decode to what was interned

The columns of a record type are written when it is interned, taken over with a guard when they are
looked for, decoded, entered in the cache of native descriptors, and kept by the type.  Before it is
interned there is nothing to find, and nothing is kept.

* `Provider.intern_reads`: what is interned is read back from memory.
* `World.recordDescriptor_missing`, `World.recordDescriptor_finds`: the columns are found just if
  the record type was interned.
* `World.typeDescriptor_missing`, `World.typeDescriptor_finds`: so are those of a type, which keeps them.
* `Operation.records_decode`: the result.
-/

namespace CatalogReplica.Catalog

open Coherence (Access Computed Memo SlotSpec)
open Identity (Cache CacheView)
open Lifetime (GuardId Ledger)
open Storage (ColumnType ColumnValue Fetched Memory Row)

/-! ## What is interned -/

theorem read_of_map {α β : Type} {fetched : Fetched α} {f : α → β} (injective : f.Injective) {value : α}
    (read : fetched.map f = .ok (f value)) : fetched = .ok value := by
  cases fetched with
  | error interrupt => cases read
  | ok other => exact congrArg Except.ok (injective (Except.ok.inj read))

namespace Provider

variable {provider : Provider}

/-- What is interned is found, and reads back as long as memory can be addressed. -/
theorem intern_reads (sound : provider.memory.Sound) (low : 0 < provider.memory.next) (typmod : Int32) {types : List Oid}
    (short : types.length < 2 ^ 31) : (intern typmod types).Ends provider fun _ after =>
      ∃ address, after.records.get? typmod = some address ∧ ∀ larger, after.memory.Grows larger →
        larger.next ≤ UInt64.size → recordAt larger address = .ok (recordType, typmod, types) := by
  let columns : List (String × ColumnValue) := [("natts", .i32 (Int32.ofNat types.length)), ("tdtypeid", .oid recordType),
    ("tdtypmod", .i32 typmod), ("atttypes", .oidList types)]
  let fields : List (String × ColumnType) :=
    [("natts", .i32), ("tdtypeid", .oid), ("tdtypmod", .i32), ("atttypes", .oidList)]
  obtain ⟨address, memory, wrote, reads⟩ := Storage.writeRow_reads Oid.invalid
    (show (fields.map (·.1)).Nodup by decide) sound low (show (columns.map (·.1)).Nodup by simp [columns])
    (by simp [columns, fields, ColumnValue.type]) (by simpa [columns, ColumnValue.Storable] using short)
  have written : writeDescriptor columns provider = .ok address { provider with memory } := by
    unfold writeDescriptor onMemory Task.within
    rw [show Storage.writeRow descriptorLayout columns provider.memory = .ok address memory from wrote]
  refine .next written (.next (Task.modify_run _ _) ⟨address, ?_, fun larger grows room => ?_⟩)
  · change (provider.records.set typmod address).get? typmod = _
    rw [Assoc.get?_set, if_pos rfl]
  · have reads : ∀ column ∈ columns, column.2.ReadBy (Row.get ⟨larger, descriptorLayout, address⟩ column.2.type column.1) :=
      reads larger grows room
    have natts := read_of_map (fun _ _ => ColumnValue.i32.inj) (reads ("natts", .i32 (Int32.ofNat types.length)) (by simp [columns]))
    have oids := read_of_map (fun _ _ => ColumnValue.oidList.inj) (reads ("atttypes", .oidList types) (by simp [columns]))
    have typeOid := read_of_map (fun _ _ => ColumnValue.oid.inj) (reads ("tdtypeid", .oid recordType) (by simp [columns]))
    have modifier := read_of_map (fun _ _ => ColumnValue.i32.inj) (reads ("tdtypmod", .i32 typmod) (by simp [columns]))
    simp only [recordAt, natts, oids, typeOid, modifier]
    rfl

end Provider

namespace World

variable {base before world after : World} {unsignalled : List EntityKey} {taken : List Address} {claimed : List Address}
  {got : List ThingId} {address : Address} {id : ThingId} {type : Entity} {typmod : Int32}

/-! ## Taking descriptors over -/

/-- A guard that was not released can be pinned. -/
theorem pin_run {guard : GuardId} {pins : List Lifetime.ThreadId} (loose : Loose guard pins world)
    (usable : ¬ world.ledger.Released guard) :
    ∃ handle pinned, onLedger (Ledger.pin mutatorThread guard) world = .ok handle pinned := by
  obtain ⟨held, found, -⟩ := loose.there
  have free : held.isReleased = false :=
    Bool.eq_false_iff.mpr fun released => usable (Ledger.released_iff.mpr ⟨held, found, released⟩)
  have handle : world.ledger.handle guard = .ok held.handle := by
    unfold Ledger.handle
    rw [found]
    dsimp only
    rw [free]
    rfl
  have ran : Ledger.pin mutatorThread guard world.ledger = .ok held.handle
      (world.ledger.onGuard guard fun held => { held with holders := held.holders ++ [mutatorThread] }) := by
    unfold Ledger.pin
    rw [Task.bind_ok (Task.get_run _), handle]
    rfl
  exact ⟨_, _, onLedger_run ran⟩

/-- A record descriptor that can be read is taken over. -/
theorem adopt_succeeds (keeping : Keeping base taken [address] claimed (some []) world) (followed : Followed before got world)
    (inSession : before.session.isSome = true) {contents : Oid × Int32 × List Oid}
    (reads : recordAt world.provider.memory address = .ok contents) :
    (adopt address).Ends world fun outcome _ => ∃ thing, outcome = .ok thing := by
  let same (after : World) : Prop := after.provider.contents = world.provider.contents
  have current : currentLifespan.Keeps same := currentLifespan_keeps (fun _ _ same => same) fun _ _ same =>
    (contents_setLedger _ _).trans same
  refine (((currentLifespan_ends keeping).both (currentLifespan_tracked followed inSession)).both (current world rfl)).bind
    ?_ fun _ _ ⟨⟨⟨_, _, broken, _⟩, _⟩, _⟩ => by cases broken
  rintro lifespan mid ⟨⟨⟨keeping, _, ⟨⟩, among⟩, followed, listed⟩, kept⟩
  refine .next (Task.get_run mid) ?_
  obtain ⟨guard, built, ran, -⟩ := build_keeping keeping among
  obtain ⟨⟨-, -, given⟩, kept⟩ := (Task.Ends.of_ok ran).mp
    ((build_tracked followed (listed lifespan rfl)).both (contents_onLedger _ mid kept))
  obtain ⟨loose, usable⟩ := given guard rfl
  obtain ⟨handle, pinned, pins⟩ := pin_run loose usable
  have kept : same pinned := (Task.Ends.of_ok pins).mp (contents_onLedger _ built kept)
  have decodes : readNative address pinned = .ok contents pinned := by
    rw [readNative_run, show pinned.provider.memory = world.provider.memory from congrArg (·.1) kept, reads]
    rfl
  have attempt : Task.attempt (do
      discard (onLedger (Ledger.pin mutatorThread guard))
      Task.ensuring (readNative address) (Task.exec (onLedger (Ledger.unpin mutatorThread guard)))) built
      = .ok (.ok contents) (Task.exec (onLedger (Ledger.unpin mutatorThread guard)) pinned) := by
    unfold Task.attempt
    rw [Task.bind_run, Task.discard_run, pins]
    dsimp only
    unfold Task.ensuring
    rw [decodes]
  exact .next ran (.next attempt ⟨_, rfl⟩)

/-! ## Looking for descriptors -/

/-- The descriptor at an address that can be read is found, and its cache has it. -/
theorem nativeDescriptor_finds (keeping : Keeping base taken [address] [] (some []) world) (followed : Followed before got world)
    (inSession : before.session.isSome = true) {contents : Oid × Int32 × List Oid}
    (reads : recordAt world.provider.memory address = .ok contents) :
    (nativeDescriptor address).Ends world fun outcome after =>
      ∃ one, outcome = .ok one ∧ (address, one) ∈ after.caches.descriptors.table := by
  refine .next (Task.get_run world) ?_
  suffices looks : (descriptorView.lookup mutatorThread address (construct (adopt address))).Ends world fun outcome after =>
      ∃ one, outcome = .ok one ∧ (address, one) ∈ after.caches.descriptors.table by
    refine looks.bind ?_ (by rintro _ _ ⟨_, ⟨⟩, _⟩)
    rintro one after ⟨_, ⟨⟩, among⟩
    split
    · exact .next (Task.modify_run _ _) ⟨one, rfl, among⟩
    · exact ⟨one, rfl, among⟩
  -- A descriptor known and alive is the answer; otherwise it is adopted and settled under the address.
  cases known : (world.caches.descriptors.find? address).any world.alive with
  | true =>
    obtain ⟨one, found, live⟩ := (Option.any_eq_true _ _).mp known
    refine .of_run (CacheView.lookup_of_found mutatorThread (construct (adopt address)) found live) ?_
    exact ⟨one, rfl, Cache.mem_of_find? found⟩
  | false =>
    -- Nothing else is being built, so the address is free to be claimed.
    have idle : world.caches.descriptors.claims = [] := List.map_eq_nil_iff.mp keeping.claimed
    have constructs (notes : List (Identity.Note Address)) (cache : Cache Address ThingId)
        (_ : cache.claims = ⟨address, mutatorThread⟩ :: (descriptorView.get world).claims) :
        (construct (adopt address)).Ends (descriptorView.store notes cache world) fun outcome last =>
          ∃ one, outcome = .ok one ∧ last.alive one = true := by
      have claiming := keeping.recache notes cache
      have tracks : Followed before got (descriptorView.store notes cache world) :=
        followed.congr (fun _ => rfl) rfl rfl ⟨rfl, rfl, rfl, rfl, rfl⟩ rfl rfl rfl rfl
      refine (adopt_succeeds claiming tracks inSession reads).bind ?_ (by rintro _ _ ⟨_, ⟨⟩⟩)
      rintro thing last -
      exact ⟨last.nextThing, rfl, alive_add last thing⟩
    refine CacheView.lookup_of_unknown_ends known ?_ constructs ?_ (by rintro _ _ ⟨_, ⟨⟩, _⟩)
    · rw [show descriptorView.get world = world.caches.descriptors from rfl, Cache.claim?, idle]
      rfl
    · rintro one last ⟨_, ⟨⟩, live⟩
      refine ⟨one, rfl, ?_⟩
      have settled := (last.caches.descriptors.settle_spec last.alive address one).own live
      unfold CacheView.settle
      change _ ∈ (World.reap _ _).caches.descriptors.table
      rw [caches_reap]
      exact settled

/-- There is nothing to find before a record type is interned. -/
theorem recordDescriptor_missing (stands : world.Stands unsignalled) (keeping : Keeping base taken [] claimed (some []) world)
    (missing : world.provider.records.get? typmod = none) :
    recordDescriptor typmod world = .ok (.transient (.link none)) world := by
  have looked : onProvider (Provider.lookupRecord typmod) world = .ok none world := by
    unfold onProvider Task.within
    rw [Provider.lookupRecord_run keeping.counted keeping.serves, missing]
  exact (Task.bind_ok stands.requireOpen_run).trans (Task.bind_ok looked)

/-- The columns of a record type that was interned are found, and their cache has them. -/
theorem recordDescriptor_finds (stands : world.Stands unsignalled) (keeping : Keeping base taken [] [] (some []) world)
    (followed : Followed before got world) (inSession : before.session.isSome = true)
    (interned : world.provider.records.get? typmod = some address) {contents : Oid × Int32 × List Oid}
    (reads : recordAt world.provider.memory address = .ok contents) :
    (recordDescriptor typmod).Ends world fun outcome after =>
      ∃ one, outcome = .ok (.cached (.link (some one))) ∧ (address, one) ∈ after.caches.descriptors.table := by
  let mid : World := { world with provider := world.provider.addReference address }
  have looked : onProvider (Provider.lookupRecord typmod) world = .ok (some address) mid := by
    unfold onProvider Task.within
    rw [Provider.lookupRecord_run keeping.counted keeping.serves, interned]
  have tracks : Followed before got mid := followed.congr (fun _ => rfl) rfl rfl ⟨rfl, rfl, rfl, rfl, rfl⟩ rfl rfl rfl rfl
  refine .next stands.requireOpen_run (.next looked ?_)
  refine (nativeDescriptor_finds (keeping.take address) tracks inSession reads).bind ?_ fun _ _ ⟨_, broken, _⟩ => by cases broken
  rintro one after ⟨_, ⟨⟩, among⟩
  exact ⟨one, rfl, among⟩

/-! ## Reading the columns of record types -/

theorem kind_of_interned (interned : type.isInternedRecord = true) : type.kind = .type := by
  simp only [Entity.isInternedRecord, Bool.and_eq_true, beq_iff_eq] at interned
  exact interned.1.1

theorem typeColumns_interned (found : world.entity? id = some type) (interned : type.isInternedRecord = true)
    (access : Access) : typeColumns id access world = recordDescriptor type.key.sub world := by
  refine (Task.bind_ok (requireEntity_run found)).trans ?_
  rw [if_pos interned]

/-- Before a record type is interned its columns are missing, and nothing is kept. -/
theorem typeDescriptor_missing (stands : world.Stands unsignalled) (keeping : Keeping base taken [] claimed (some []) world)
    (found : world.entity? id = some type) (interned : type.isInternedRecord = true)
    (empty : ((view id).place Catalog.typeDescriptor).peek world = none)
    (missing : world.provider.records.get? type.key.sub = none) :
    typeDescriptor id .mutator world = .ok none (count .slotTransient world) := by
  have computes : (typeColumns id .mutator).Ends world fun outcome after =>
      outcome = .ok (.transient (.link none)) ∧ after = world :=
    .of_run (typeColumns_interned found interned .mutator)
      ((Task.Ends.of_ok (recordDescriptor_missing stands keeping missing)).mpr ⟨rfl, rfl⟩)
  have reads : readSlot id Catalog.typeDescriptor .mutator (typeColumns id .mutator) world
      = .ok (.link none) (count .slotTransient world) := by
    refine (readSlot_empty .typeDescriptor stands found (kind_of_interned interned).symm empty (fun fault refused => ?_)
      (fun _ => computes) ?_ ?_ ?_).run
    · rw [SlotSpec.refusal_mutator] at refused
      cases refused
    · rintro _ _ _ - ⟨⟨⟩, -⟩
    · rintro _ _ ⟨⟨⟩, rfl⟩
      exact ⟨rfl, rfl⟩
    · rintro _ _ ⟨⟨⟩, -⟩
  rw [typeDescriptor_eq]
  exact Task.bind_ok reads

/-- Once a record type was interned its columns are found, and kept. -/
theorem typeDescriptor_finds (stands : world.Stands unsignalled) (keeping : Keeping base taken [] [] (some []) world)
    (followed : Followed before got world) (inSession : before.session.isSome = true)
    (found : world.entity? id = some type) (held : id ∈ world.held) (interned : type.isInternedRecord = true)
    (empty : ((view id).place Catalog.typeDescriptor).peek world = none)
    (there : world.provider.records.get? type.key.sub = some address) {contents : Oid × Int32 × List Oid}
    (reads : recordAt world.provider.memory address = .ok contents) :
    (typeDescriptor id .mutator).Ends world fun outcome after => ∃ one, outcome = .ok (some one) ∧
      Leads unsignalled [one] world after ∧ (address, one) ∈ after.caches.descriptors.table ∧
      ∃ later, after.entity? id = some later ∧ later.Trusts {} after.gates Catalog.typeDescriptor.index (.link (some one)) := by
  have kind := kind_of_interned interned
  -- An interned type's columns are the record's, and the record is there to be read.
  have computes : (typeColumns id .mutator).Ends world fun outcome after =>
      ∃ one, outcome = .ok (.cached (.link (some one))) ∧ (address, one) ∈ after.caches.descriptors.table ∧
        Computes unsignalled id type .typeDescriptor .mutator world (.ok (.cached (.link (some one)))) after := by
    have computed : (recordDescriptor type.key.sub).Ends world (Computes unsignalled id type .typeDescriptor .mutator world) :=
      recordDescriptor_computes stands ((isInternedRecord_iff kind).mp interned)
    refine .of_run (typeColumns_interned found interned .mutator)
      (((recordDescriptor_finds stands keeping followed inSession there reads).both computed).weaken ?_)
    rintro _ after ⟨⟨one, rfl, among⟩, computed⟩
    exact ⟨one, rfl, among, computed⟩
  suffices slot : (readSlot id Catalog.typeDescriptor .mutator (typeColumns id .mutator)).Ends world fun outcome after =>
      ∃ one, outcome = .ok (.link (some one)) ∧ Leads unsignalled [one] world after ∧
        (address, one) ∈ after.caches.descriptors.table ∧ ∃ later, after.entity? id = some later ∧
          later.Trusts {} after.gates Catalog.typeDescriptor.index (.link (some one)) by
    rw [typeDescriptor_eq]
    refine slot.bind ?_ ?_
    · rintro _ after ⟨one, ⟨⟩, ended⟩
      exact ⟨one, rfl, ended⟩
    · rintro _ _ ⟨_, ⟨⟩, -⟩
  refine readSlot_empty .typeDescriptor stands found kind.symm empty (fun fault refused => ?_) (fun _ => computes)
    ?_ ?_ ?_
  · rw [SlotSpec.refusal_mutator] at refused
    cases refused
  · rintro _ cell after current ⟨one, ⟨⟩, among, computed⟩
    have spent : ∀ memo, type.table.memo? EntityField.typeDescriptor.index = some memo → memo.isValid world.gates = false :=
      (peek_eq_none found).mp empty
    have isField : EntityField.typeDescriptor.kind = type.kind := kind.symm
    obtain ⟨leads, later, its, trusts, -⟩ := keep_trusts stands found held isField spent current computed
    refine ⟨one, rfl, leads, ?_, later, its, trusts⟩
    change _ ∈ (World.reap _ _).caches.descriptors.table
    rw [caches_reap]
    exact among
  · rintro _ _ ⟨_, ⟨⟩, -⟩
  · rintro _ _ ⟨_, ⟨⟩, -⟩

/-- What a type keeps of its columns is served as long as the type lives and is not tripped. -/
theorem typeDescriptor_again {one : ThingId} (stands : world.Stands unsignalled) (found : world.entity? id = some type)
    (trusts : type.Trusts {} world.gates Catalog.typeDescriptor.index (.link (some one))) (retains : Retains world after)
    (live : after.alive id = true)
    (untripped : ∀ cell, world.gates.currentCell? type.gate = some cell → after.gates.isTripped cell = false)
    (access : Access) : ∃ again, typeDescriptor id access after = .ok (some one) again := by
  obtain ⟨memo, kept, value, valid, -⟩ := trusts
  obtain ⟨cell, -, its, governed⟩ := (stands.sound.shaped id type found).governed _ memo kept
  rw [Memo.isValid_cell its, Bool.not_eq_true'] at valid
  have still : memo.isValid after.gates = true := by
    rw [Memo.isValid_cell its, untripped cell ((governed valid).2 List.not_mem_nil)]
    rfl
  have remembers : Remembers id memo world :=
    ⟨stands.sound.below id (alive_of_entity found), fun _ _ => ⟨_, entity?_eq_some.mp found, _, rfl, kept⟩⟩
  obtain ⟨thing, there, table, has, memoized⟩ := (retains.remembers id memo remembers).keeps live still
  have peeked : ((view id).place Catalog.typeDescriptor).peek after = some (.link (some one)) :=
    peek_iff.mpr ⟨thing, table, memo, there, has, memoized, still, value⟩
  rw [typeDescriptor_eq]
  exact ⟨_, Task.bind_ok (readSlot_kept peeked)⟩

end World

/-! ## What columns of record types are like -/

/-- The columns of a record type that was interned with these types. -/
structure Descriptor.OfRecord (typmod : Int32) (types : List Oid) (descriptor : Descriptor) : Prop where
  typeOid : descriptor.typeOid = recordType
  typmod : descriptor.typmod = typmod
  relation : descriptor.relation = none
  native : descriptor.guard.isSome = true
  length : descriptor.columns.length = types.length
  columns : ∀ (index : Nat) typeOid, types[index]? = some typeOid → ∃ column, descriptor.columns[index]? = some column ∧
    column.attnum.toInt = (index : Int) + 1 ∧ column.name = none ∧ column.typeOid = typeOid ∧ column.typmod = noTypmod

theorem Descriptor.TakenFrom.ofRecord {memory : Memory} {address : Address} {descriptor : Descriptor} {typmod : Int32}
    {types : List Oid} (taken : descriptor.TakenFrom memory address)
    (reads : recordAt memory address = .ok (recordType, typmod, types)) (few : types.length ≤ 32767) :
    descriptor.OfRecord typmod types := by
  obtain ⟨others, reads', columns⟩ := taken.reads
  rw [reads, Except.ok.injEq, Prod.mk.injEq, Prod.mk.injEq] at reads'
  obtain ⟨typeOid, modifier, rfl⟩ := reads'
  refine ⟨typeOid.symm, modifier.symm, taken.relation, taken.guarded, ?_, fun index typeOid its => ?_⟩
  · rw [columns, World.nativeColumns, List.length_map, List.length_zipIdx]
  · have inside : index < types.length := (List.getElem?_eq_some_iff.mp its).1
    refine ⟨{ attnum := Int16.ofNat (index + 1), name := none, typeOid, typmod := noTypmod }, ?_, ?_, rfl, rfl, rfl⟩
    · rw [columns, World.nativeColumns]
      simp [its]
    · exact Int16.toInt_ofNat_of_lt (show index + 1 < 32768 by omega)

namespace Operation

open World (Recorded)

variable {config : Config} {operations since : List Operation} {world : World} {typmod : Int32} {types : List Oid}

/-- What was interned last is found, and reads back. -/
theorem after_interned (recorded : Recorded world) (short : types.length < 2 ^ 31)
    (only : ∀ others, Operation.intern typmod others ∉ since)
    (room : (after (.intern typmod types :: since) world).provider.memory.next ≤ UInt64.size) :
    ∃ address, (after (.intern typmod types :: since) world).provider.records.get? typmod = some address ∧
      recordAt (after (.intern typmod types :: since) world).provider.memory address = .ok (recordType, typmod, types) := by
  have interns : (Operation.intern typmod types).task.Ends world fun _ after =>
      ∃ address, after.provider.records.get? typmod = some address ∧ ∀ larger, after.provider.memory.Grows larger →
        larger.next ≤ UInt64.size → recordAt larger address = .ok (recordType, typmod, types) :=
    Task.Ends.discard (World.onProvider_ends (Provider.intern_reads recorded.memory recorded.low typmod short))
  obtain ⟨address, there, reads⟩ := interns.exec
  have later := (apply_retains recorded (.intern typmod types)).recorded
  exact ⟨address, (after_records later since only).trans there, reads _ (after_retains later since).memory room⟩

/-- Whatever was carried out before: until a record type is interned under its type modifier, a read of
    its columns gives none and keeps nothing.  Afterwards a read gives the columns that were interned
    last, unless valid ones are kept, and from then on reads give the same ones until the type is gone or
    tripped. -/
theorem records_decode (config : Config) (operations : List Operation)
    (allowed : AllowedAll operations (World.start config)) (proper : ∀ operation ∈ operations, operation.Proper)
    (inSession : (after operations (World.start config)).session.isSome = true) (id : ThingId) (type : Entity)
    (found : (after operations (World.start config)).entity? id = some type)
    (held : id ∈ (after operations (World.start config)).held) (interned : type.isInternedRecord = true) :
    let world := after operations (World.start config)
    ((∀ types, Operation.intern type.key.sub types ∉ operations) →
      World.typeDescriptor id .mutator world = .ok none (World.count .slotTransient world)) ∧
    ∀ earlier types since, operations = earlier ++ .intern type.key.sub types :: since →
      (∀ others, Operation.intern type.key.sub others ∉ since) → types.length ≤ 32767 →
      world.provider.memory.next ≤ UInt64.size → ((World.view id).place typeDescriptor).peek world = none →
      ∃ one descriptor last, World.typeDescriptor id .mutator world = .ok (some one) last ∧
        last.descriptor? one = some descriptor ∧ descriptor.OfRecord type.key.sub types ∧ last.isReleased one = false ∧
        ∀ more, (after more last).alive id = true →
          (∀ cell, last.gates.currentCell? type.gate = some cell → (after more last).gates.isTripped cell = false) →
          ∀ access, ∃ again, World.typeDescriptor id access (after more last) = .ok (some one) again := by
  intro world
  have opened : world.isOpen = true := by
    rw [World.isOpen, inSession, Bool.or_true]
  have rests := after_rests allowed proper (World.rests_start config) opened
  have midway := after_midway allowed rests inSession
  have started := World.start_recorded config
  have recorded : Recorded world := (after_retains started operations).recorded
  refine ⟨fun never => ?_, fun earlier types since split only few room empty => ?_⟩
  · have missing : world.provider.records.get? type.key.sub = none := after_records started operations never
    refine World.typeDescriptor_missing rests.stands midway.keeping found interned ?_ missing
    -- A type that keeps columns was interned.
    refine Option.eq_none_iff_forall_ne_some.mpr fun datum peeked => ?_
    obtain ⟨thing, table, memo, there, has, kept, -⟩ := World.peek_iff.mp peeked
    cases (World.entity?_eq_some.mp found).symm.trans there
    exact recorded.described id type memo found interned ⟨table, has, kept⟩ missing
  · obtain ⟨address, there, reads⟩ : ∃ address, world.provider.records.get? type.key.sub = some address ∧
        recordAt world.provider.memory address = .ok (recordType, type.key.sub, types) := by
      have since : world = after (.intern type.key.sub types :: since) (after earlier (World.start config)) := by
        rw [← after_append, ← split]
      rw [since] at room ⊢
      exact after_interned (after_retains started earlier).recorded (by omega) only room
    -- The read finds columns and keeps them, shows what is at their address, and serves what is not released.
    have finds := World.typeDescriptor_finds rests.stands midway.keeping midway.watched.followed inSession found held interned
      empty there reads
    have serves : (World.typeDescriptor id .mutator).Ends world _ :=
      World.typeDescriptor_serves (Reached.start.run allowed).gained .mutator fun _ => inSession
    have ends := (finds.both (recorded.typeDescriptor_ends id .mutator)).both serves
    unfold Task.Ends at ends
    cases run : World.typeDescriptor id .mutator world with
    | error interrupt last =>
      rw [run] at ends
      obtain ⟨⟨⟨_, broken, _⟩, _⟩, _⟩ := ends
      cases broken
    | ok outcome last =>
      rw [run] at ends
      obtain ⟨⟨⟨one, ⟨⟩, leads, among, later, its, trusts⟩, retains, contents⟩, -, clean, -⟩ := ends
      have memory : last.provider.memory = world.provider.memory := congrArg (·.1) contents
      have lives : last.alive one = true := leads.stands.sound.holding one (leads.gives List.mem_cons_self)
      obtain ⟨descriptor, shown, taken⟩ := retains.recorded.shown address one among lives
      rw [memory] at taken
      obtain ⟨later', its', becomes⟩ := leads.becomes rests.stands found held
      cases its.symm.trans its'
      refine ⟨one, descriptor, last, rfl, shown, taken.ofRecord reads few,
        (clean.entries _ among).resolve_left List.not_mem_nil, fun more live untripped access => ?_⟩
      rw [← becomes.gate] at untripped
      exact World.typeDescriptor_again leads.stands its trusts (after_retains retains.recorded more) live untripped access

/-- The columns that a read gave, and the world that it left. -/
def columns? : EStateM.Result Interrupt World (Option ThingId) → Option (ThingId × World)
  | .ok (some one) last => some (one, last)
  | _ => none

theorem columns?_ok (one : ThingId) (last : World) : columns? (.ok (some one) last) = some (one, last) :=
  rfl

/-- The columns of a record type are read before it is interned. -/
def recordMissing : List Operation := [.openSession, .lookup (.type recordType 7), .read 0 "descriptor" .mutator]

/-- The record type is interned. -/
def recordInterned : List Operation := recordMissing ++ [.intern 7 [⟨23⟩, ⟨25⟩]]

/-- The columns of a record type are missing, are those that were interned then, and stay the same
    when others are interned. -/
theorem records_decode_again : AllowedAll recordInterned (World.start {}) ∧
    World.typeDescriptor 0 .mutator (after recordMissing (World.start {}))
      = .ok none (World.count .slotTransient (after recordMissing (World.start {}))) ∧
    ∃ one descriptor last again,
      World.typeDescriptor 0 .mutator (after recordInterned (World.start {})) = .ok (some one) last ∧
      last.descriptor? one = some descriptor ∧ descriptor.OfRecord 7 [⟨23⟩, ⟨25⟩] ∧ last.isReleased one = false ∧
      World.typeDescriptor 0 .reader (after [.intern 7 [⟨16⟩]] last) = .ok (some one) again := by
  have allowed : AllowedAll recordInterned (World.start {}) := by decide +kernel
  have early : AllowedAll recordMissing (World.start {}) := (allowedAll_append.mp allowed).1
  have proper : ∀ operation ∈ recordInterned, operation.Proper := by simp [recordInterned, recordMissing, Proper]
  have first : (after recordMissing (World.start {})).session.isSome = true ∧ 0 ∈ (after recordMissing (World.start {})).held ∧
      ((after recordMissing (World.start {})).entity? 0).any (fun type =>
        decide (type.isInternedRecord = true ∧ type.key.sub = 7)) = true := by decide +kernel
  have second : (after recordInterned (World.start {})).session.isSome = true ∧ 0 ∈ (after recordInterned (World.start {})).held ∧
      ((after recordInterned (World.start {})).entity? 0).any (fun type =>
        decide (type.isInternedRecord = true ∧ type.key.sub = 7 ∧ type.gate = 0)) = true := by decide +kernel
  have room : (after recordInterned (World.start {})).provider.memory.next ≤ UInt64.size := by decide +kernel
  have empty : ((World.view 0).place typeDescriptor).peek (after recordInterned (World.start {})) = none := by decide +kernel
  have later : (columns? (World.typeDescriptor 0 .mutator (after recordInterned (World.start {})))).all (fun ended =>
      (after [.intern 7 [⟨16⟩]] ended.2).alive 0 &&
        (ended.2.gates.currentCell? 0).all fun cell => !(after [.intern 7 [⟨16⟩]] ended.2).gates.isTripped cell) = true := by
    decide +kernel
  obtain ⟨inSession, held, isType⟩ := first
  obtain ⟨type, found, its⟩ := (Option.any_eq_true _ _).mp isType
  obtain ⟨interned, isSeven⟩ := of_decide_eq_true its
  have none := (records_decode {} recordMissing early (fun operation among => proper operation (List.mem_append_left _ among))
    inSession 0 type found held interned).1 (by simp [recordMissing])
  obtain ⟨inSession, held, isType⟩ := second
  obtain ⟨type, found, its⟩ := (Option.any_eq_true _ _).mp isType
  obtain ⟨interned, isSeven, gate⟩ := of_decide_eq_true its
  obtain ⟨one, descriptor, last, run, shown, decodes, usable, again⟩ := (records_decode {} recordInterned allowed proper
    inSession 0 type found held interned).2 recordMissing [⟨23⟩, ⟨25⟩] [] (by rw [isSeven]; rfl) (by simp) (by decide) room empty
  rw [run, columns?_ok, Option.all_some, Bool.and_eq_true, Option.all_eq_true] at later
  obtain ⟨live, untripped⟩ := later
  obtain ⟨after, reads⟩ := again [.intern 7 [⟨16⟩]] live (fun cell current =>
    (Bool.not_eq_true' _).mp (untripped cell (gate ▸ current))) .reader
  exact ⟨allowed, none, one, descriptor, last, after, run, shown, isSeven ▸ decodes, usable, reads⟩

/-- The session has the lifespan of the current scope. -/
def recordScoped : List Operation := recordInterned ++ [.currentLifespan]

/-- The columns of a record type that was interned are not given, or not usable, after a caller ended or
    reset the lifespan of the current scope on its own, and while the provider fails. -/
theorem record_refused : AllowedAll recordScoped (World.start {}) ∧
    let world := after recordScoped (World.start {})
    let ended := Task.exec (World.onLedger (Ledger.teardown World.mutatorThread 1 true)) world
    let reset := Task.exec (World.onLedger (Ledger.teardown World.mutatorThread 1 false))
      (after [.read 0 "descriptor" .mutator, .trip 0] world)
    let failing : World := { world with
      provider := { world.provider with failures := world.provider.failures.set .record { kind := .native, message := "" } } }
    ∀ state ∈ [ended, reset, failing], state.session.isSome = true ∧ 0 ∈ state.held ∧
      (state.entity? 0).any (fun type => decide (type.isInternedRecord = true ∧ type.key.sub = 7)) = true ∧
      ((World.view 0).place typeDescriptor).peek state = none ∧
      ¬ ∃ one last, World.typeDescriptor 0 .mutator state = .ok (some one) last ∧ last.isReleased one = false := by
  refine ⟨by decide +kernel, ?_⟩
  intro world ended reset failing
  have runs : ∀ state ∈ [ended, reset, failing], state.session.isSome = true ∧ 0 ∈ state.held ∧
      (state.entity? 0).any (fun type => decide (type.isInternedRecord = true ∧ type.key.sub = 7)) = true ∧
      ((World.view 0).place typeDescriptor).peek state = none ∧
      (columns? (World.typeDescriptor 0 .mutator state)).all (fun ended => ended.2.isReleased ended.1) = true := by
    decide +kernel
  intro state among
  obtain ⟨inSession, held, isType, empty, unusable⟩ := runs state among
  refine ⟨inSession, held, isType, empty, ?_⟩
  rintro ⟨one, last, run, usable⟩
  rw [run, columns?_ok] at unusable
  cases usable.symm.trans unusable

end Operation

end CatalogReplica.Catalog
