import CatalogReplica.Proofs.Native.ScopeEnds

/-!
# What readers see

A reader is served what is kept and computes what anybody may compute, just as the mutator.
Where nothing valid is kept in a slot that only the mutator computes, the reader is refused,
and so is whatever goes through the slot for the reader.  The rows and the record descriptors
of the provider are behind such slots.

* `World.Defers`: what a reader does beside what the mutator does.
* `World.read_defers`: reading any field.
* `World.lending_carried`, `World.Carried.readerRead`: references on native descriptors stay.
* `Operation.readers_defer`: the result.
-/

namespace CatalogReplica.Catalog

open Coherence (Access Computed GateId SlotSpec)
open Identity (Cache CacheView Note)
open Lifetime (Guard GuardId Ledger)

namespace Provider

/-- The provider up to references on native descriptors. -/
def stock (provider : Provider) : Provider := { provider with references := [], released := [] }

theorem stock_notice (happenings : List Lifetime.Happening) (provider : Provider) :
    (happenings.foldl notice provider).stock = provider.stock := by
  induction happenings generalizing provider with
  | nil => rfl
  | cons happening happenings ih =>
    refine (ih _).trans ?_
    unfold notice
    split <;> rfl

theorem eq_of_stock {provider other : Provider} (stock : provider.stock = other.stock)
    (native : provider.native = other.native) : provider = other := by
  have references : provider.references = other.references := (congrArg Provider.references native :)
  have released : provider.released = other.released := (congrArg Provider.released native :)
  cases provider
  cases other
  simp_all [Provider.stock]

end Provider

namespace World

variable {α β : Type} {stock : Provider} {world : World} {id : ThingId}

/-! ## Tasks that do not ask the provider -/

/-- The provider has the stock. -/
def Has (stock : Provider) (world : World) : Prop := world.provider.stock = stock

/-- The task leaves the provider alone, up to references on native descriptors. -/
abbrev Spares (stock : Provider) (body : Task World α) : Prop := Minds (fun _ => Has stock) body

theorem has_dropGuard (thing : Thing) (has : Has stock world) : Has stock (dropGuard thing world) := by
  unfold dropGuard
  split
  · next guard _ =>
    have noticed (ledger : Ledger) : Has stock (setLedger ledger world) := (Provider.stock_notice _ _).trans has
    have dropped : (Ledger.dropOwner guard).Ends world.ledger fun _ ledger => Has stock (setLedger ledger world) := by
      unfold Task.Ends
      split <;> exact noticed _
    exact (onLedger_ends_as dropped).exec
  · exact has

theorem has_reapWithin (steps : Nat) (ids : List ThingId) (has : Has stock world) :
    Has stock (reapWithin steps ids world) := by
  induction steps generalizing ids world with
  | zero => exact has
  | succ steps ih =>
    cases ids with
    | nil => exact has
    | cons id ids =>
      unfold reapWithin
      split
      · exact ih ids has
      · split
        · exact ih ids has
        · exact ih _ (has_dropGuard _ has)

theorem has_reap (ids : List ThingId) (has : Has stock world) : Has stock (reap ids world) := has_reapWithin _ ids has

theorem has_holdAll (ids : List ThingId) (has : Has stock world) :
    Has stock (ids.foldl (fun world id => hold id world) world) := by
  induction ids generalizing world with
  | nil => exact has
  | cons id ids ih => exact ih has

/-- A cache of things whose entries have nothing to do with the provider. -/
theorem Spares.lookup {κ : Type} [DecidableEq κ] {view : CacheView World κ ThingId}
    (hold : ∀ id, view.hold id = World.hold id) (letGo : ∀ ids, view.letGo ids = reap ids)
    (note : ∀ notes world, (view.note notes world).provider = world.provider)
    (set : ∀ cache world, (view.set cache world).provider = world.provider)
    (thread : Nat) (key : κ) {construct : Task World ThingId} (constructs : Spares stock construct) :
    Spares stock (view.lookup thread key construct) := by
  have store (notes : List (Note κ)) (cache : Cache κ ThingId) {world : World} (has : Has stock world) :
      Has stock (view.store notes cache world) := by
    rw [Has, CacheView.store, note, set]
    exact has
  intro got world before
  refine CacheView.lookup_ends (fun value _ _ => ?_) (fun interrupt notes after _ _ => store notes after before)
    (fun notes after _ _ _ _ => constructs got _ (store notes after before)) (fun value last kept => ?_)
    (fun interrupt last kept => ?_)
  · rw [hold]
    exact store [.hit] _ before
  · unfold CacheView.settle
    simp only [letGo]
    exact has_reap _ (store _ _ kept)
  · rw [CacheView.abandon]
    exact (congrArg Provider.stock (set _ last)).trans kept

theorem Spares.construct {make : Task World Thing} (makes : Spares stock make) : Spares stock (construct make) :=
  makes.bind fun _ _ _ before => before

theorem Spares.lookupEntity (kind : EntityClass) (key : EntityKey) {prepare : Task World (GateId × Ties)}
    (prepares : Spares stock prepare) : Spares stock (World.lookup kind key prepare) := by
  have tended := (ordinary_entityView kind).toTended
  exact Spares.lookup tended.hold tended.letGo (fun _ _ => rfl) (fun _ _ => rfl) mutatorThread key
    (.construct (prepares.bind fun _ => .pure _))

theorem Spares.freshGate : Spares stock freshGate := fun _ _ before => before

theorem Spares.entity (kind : EntityClass) (oid : Oid) : Spares stock (entity kind oid) :=
  (Gives.requireValid kind oid).bind fun _ => Spares.lookupEntity kind _ (Spares.freshGate.bind fun _ => .pure _)

theorem Spares.typeWith (oid : Oid) (typmod : Int32) : Spares stock (typeWith oid typmod) := by
  refine (Gives.requireValid .type oid).bind fun _ => Spares.lookupEntity .type _ ?_
  refine Gives.bind (.modify fun got world before => ?_) fun _ => Spares.freshGate.bind fun _ => .pure _
  simp only [indexTypmod]
  split <;> exact before

/-! ## Readers beside the mutator -/

/-- What a reader runs does what the mutator runs, or is refused where only the mutator
    computes.  It leaves the provider alone, up to references on native descriptors. -/
structure Defers (stock : Provider) (reader mutator : Task World α) : Prop where
  agrees : ∀ world, reader world = mutator world ∨
    ∃ slot after, reader world = .error (.fault (.wrongContext slot)) after
  spares : Spares stock reader

namespace Defers

theorem same {body : Task World α} (spares : Spares stock body) : Defers stock body body := ⟨fun _ => .inl rfl, spares⟩

theorem refused (slot : String) (mutator : Task World α) : Defers stock (Task.fail (.wrongContext slot)) mutator :=
  ⟨fun world => .inr ⟨slot, world, rfl⟩, .throw _⟩

/-- A refusal ends the whole sequence. -/
theorem bind {reader mutator : Task World α} {next next' : α → Task World β} (first : Defers stock reader mutator)
    (rest : ∀ value, Defers stock (next value) (next' value)) : Defers stock (reader >>= next) (mutator >>= next') := by
  refine ⟨fun world => ?_, first.spares.bind fun value => (rest value).spares⟩
  rw [Task.bind_run, Task.bind_run]
  obtain same | ⟨slot, after, refused⟩ := first.agrees world
  · rw [same]
    cases mutator world with
    | ok value after => exact (rest value).agrees after
    | error interrupt after => exact .inl rfl
  · rw [refused]
    exact .inr ⟨slot, after, rfl⟩

theorem then_same {reader mutator : Task World α} {next : α → Task World β} (first : Defers stock reader mutator)
    (rest : ∀ value, Spares stock (next value)) : Defers stock (reader >>= next) (mutator >>= next) :=
  first.bind fun value => .same (rest value)

theorem get_bind {next next' : World → Task World β} (rest : ∀ state, Defers stock (next state) (next' state)) :
    Defers stock (get >>= next) (get >>= next') :=
  (same (.get_bind fun _ => .pure _) : Defers stock (get >>= pure) (get >>= pure)).bind rest

/-! ## Slots -/

/-- A slot is read: what is kept is served to both, a reader is refused where only the mutator
    computes, and elsewhere the computation is what matters. -/
theorem readSlot {spec : SlotSpec} {compute compute' : Task World (Computed Datum)}
    (computes : spec.affinity = .any → Defers stock compute compute') :
    Defers stock (readSlot id spec .reader compute) (readSlot id spec .mutator compute') := by
  refine get_bind fun state => Defers.then_same (Defers.bind (same ?_) fun _ => get_bind fun peeked => ?_) fun datum => ?_
  · refine .get_bind fun state => ?_
    split
    · split
      · exact .pure ()
      · exact .throw _
    · exact .throw _
  · -- A value kept is read alike by both; without one a reader goes on only where any thread may compute.
    cases ((view id).place spec).peek peeked with
    | some value => exact same (.bind (.modify fun _ _ before => before) fun _ => .pure _)
    | none =>
      rw [SlotSpec.refusal_mutator]
      cases allowed : spec.affinity with
      | mutator =>
        rw [show spec.refusal .reader = some (.wrongContext spec.name) by simp [SlotSpec.refusal, allowed]]
        exact refused _ _
      | any =>
        rw [show spec.refusal .reader = none by simp [SlotSpec.refusal, allowed]]
        refine Defers.bind (same ?_) fun cell => (computes allowed).then_same fun computed => ?_
        · show Spares stock ((view id).cell spec)
          unfold Coherence.TableView.cell
          split
          · exact .pure _
          · refine .get_bind fun state => ?_
            split
            · exact .pure _
            · exact .throw _
        · cases computed with
          | cached value => exact .bind (.modify fun _ _ before => has_reap _ before) fun _ => .pure _
          | transient value => exact .bind (.modify fun _ _ before => before) fun _ => .pure _
  · split
    · exact .bind (.modify fun _ _ before => has_holdAll _ before) fun _ => .pure _
    · exact .pure _

theorem linkSlot {spec : SlotSpec} {compute compute' : Task World (Computed Datum)}
    (computes : spec.affinity = .any → Defers stock compute compute') :
    Defers stock (linkSlot id spec .reader compute) (linkSlot id spec .mutator compute') := by
  refine (readSlot computes).then_same fun datum => ?_
  cases datum with
  | link target => exact .pure _
  | _ => exact .throw _

/-! ## Fields -/

theorem tuple (id : ThingId) : Defers stock (tuple id .reader) (tuple id .mutator) := by
  refine Defers.bind (same (.requireEntity id)) fun entity => (readSlot fun any => ?_).then_same fun datum => ?_
  · cases any
  · cases datum with
    | address address => exact .pure _
    | _ => exact .throw _

theorem rowValue (id : ThingId) (source : String) (type : Storage.ColumnType) :
    Defers stock (rowValue id .reader source type) (rowValue id .mutator source type) :=
  (tuple id).then_same fun _ => Gives.requireOpen.bind fun _ => (Gives.requireEntity id).bind fun _ =>
    .get_bind fun _ => (Gives.ofExcept _).bind fun _ => .get_bind fun _ => .ofOutcome _

theorem rowOid (id : ThingId) (source : String) : Defers stock (rowOid id .reader source) (rowOid id .mutator source) := by
  refine (rowValue id source _).then_same fun value => ?_
  cases value with
  | oid oid => exact .pure _
  | _ => exact .throw _

theorem column (id : ThingId) (field : Column) : Defers stock (column id field .reader) (column id field .mutator) := by
  refine (readSlot fun _ => (rowValue id _ _).then_same fun value => .pure _).then_same fun datum => ?_
  cases datum with
  | column value => exact .pure _
  | _ => exact .throw _

theorem oidColumn (id : ThingId) (field : Column) :
    Defers stock (oidColumn id field .reader) (oidColumn id field .mutator) := by
  refine (column id field).then_same fun value => ?_
  cases value with
  | oid oid => exact .pure _
  | _ => exact .throw _

theorem typmodColumn (id : ThingId) (field : Column) :
    Defers stock (typmodColumn id field .reader) (typmodColumn id field .mutator) := by
  refine (column id field).then_same fun value => ?_
  cases value with
  | i32 typmod => exact .pure _
  | _ => exact .throw _

theorem resolve (id : ThingId) (field : Link) :
    Defers stock (resolve id field .reader) (resolve id field .mutator) := by
  refine (rowOid id _).then_same fun oid => ?_
  dsimp only
  split
  · exact .pure _
  · refine Gives.requireOpen.bind fun _ => (Spares.entity _ oid).bind fun target => (Gives.requireEntity id).bind fun _ => ?_
    refine .bind (.modify fun _ world before => ?_) fun _ => .pure _
    unfold track
    split <;> exact before

theorem link (id : ThingId) (field : Link) : Defers stock (link id field .reader) (link id field .mutator) :=
  linkSlot fun _ => resolve id field

theorem attributeType (id : ThingId) : Defers stock (attributeType id .reader) (attributeType id .mutator) :=
  linkSlot fun _ => (oidColumn id _).bind fun oid => (typmodColumn id _).then_same fun typmod =>
    Gives.requireOpen.bind fun _ => (Spares.typeWith oid typmod).bind fun _ => .pure _

theorem rowType (id : ThingId) : Defers stock (rowType id .reader) (rowType id .mutator) := by
  refine (oidColumn id _).then_same fun oid => ?_
  split
  · exact Gives.requireOpen.bind fun _ => (Spares.entity .type oid).bind fun _ => .pure _
  · exact .pure _

theorem relationDescriptor (id : ThingId) :
    Defers stock (relationDescriptor id .reader) (relationDescriptor id .mutator) := linkSlot nofun

theorem typeDescriptor (id : ThingId) : Defers stock (typeDescriptor id .reader) (typeDescriptor id .mutator) :=
  linkSlot nofun

theorem encodingInfo (id : ThingId) : Defers stock (encodingInfo id .reader) (encodingInfo id .mutator) := by
  refine (readSlot fun _ => same (Gives.requireOpen.bind fun _ => .get_bind fun state => ?_)).then_same fun datum => ?_
  · split
    · refine .get_bind fun state => (Gives.ofExcept _).bind fun info => ?_
      cases info with
      | some info => exact .pure _
      | none => exact .throw _
    · exact .throw _
  · cases datum with
    | encoding info => exact .pure _
    | _ => exact .throw _

end Defers

/-- Every field is read by a reader as the mutator reads it, or the reader is refused. -/
theorem read_defers (id : ThingId) (accessor : Accessor) :
    Defers stock (accessor.read id .reader) (accessor.read id .mutator) := by
  cases accessor with
  | oid | attnum | typmod | interned | rowKey | routines =>
    exact .same ((Gives.requireEntity id).bind fun _ => .pure _)
  | owner =>
    refine .same ((Gives.requireEntity id).bind fun entity => ?_)
    split
    · exact .bind (.modify fun _ _ before => before) fun _ => .pure _
    · exact .throw _
  | column field => exact (Defers.column id field).then_same fun _ => .pure _
  | composite => exact (Defers.column id .typeKind).then_same fun _ => .pure _
  | link field => exact (Defers.link id field).then_same fun _ => .pure _
  | attributeType => exact (Defers.attributeType id).then_same fun _ => .pure _
  | rowType => exact (Defers.rowType id).then_same fun _ => .pure _
  | relationDescriptor => exact (Defers.relationDescriptor id).then_same fun _ => .pure _
  | typeDescriptor => exact (Defers.typeDescriptor id).then_same fun _ => .pure _
  | encodingId =>
    refine .same (.get_bind fun state => ?_)
    split
    · exact .pure _
    · exact .throw _
  | encodingName | encodingMaxCharLen | encodingInfo => exact (Defers.encodingInfo id).then_same fun _ => .pure _

/-! ## References stay -/

/-- Guards are where their scopes find them, and nothing was given back or taken. -/
def Lending (base : World) (got : List ThingId) (world : World) : Prop :=
  Followed base got world ∧ world.provider.native = base.provider.native

/-- What goes leaves its release to the queue. -/
theorem provider_dropGuard {base : World} {got : List ThingId} {thing : Thing} (followed : Followed base got world)
    (found : world.thing? id = some thing) (unreferenced : world.referenced id = false) :
    (dropGuard thing { world with heap := world.heap.erase id }).provider = world.provider := by
  unfold dropGuard
  split
  · next guard its =>
    have own : world.guardOf id = some guard := by
      rw [guardOf, found]
      exact its
    obtain ⟨-, held, there, owned, queued⟩ := followed.owners id guard own
    have unpinned := followed.unpinned own there unreferenced
    have silent := Ledger.dropOwner_log followed.sound there owned unpinned queued
    have dropped : (onLedger (Ledger.dropOwner guard)).Ends { world with heap := world.heap.erase id }
        fun _ after => after.provider = world.provider := by
      refine onLedger_ends_as (silent.weaken fun _ ledger same => ?_)
      rw [setLedger, same, List.drop_length]
      rfl
    exact dropped.exec
  · rfl

theorem lending_carried (base : World) : Carried (Lending base) := by
  have carried := tracked_carried (fun _ => True) base
  exact {
    perm := fun same lending => ⟨carried.perm same lending.1, lending.2⟩
    less := fun lending => ⟨carried.less lending.1, lending.2⟩
    aside := fun aside lending => ⟨carried.aside aside lending.1, (congrArg World.provider aside.native :).trans lending.2⟩
    hold := fun id lending => ⟨carried.hold id lending.1, lending.2⟩
    unhold := fun lending => ⟨carried.unhold lending.1, lending.2⟩
    add := fun unguarded lending => ⟨carried.add unguarded lending.1, lending.2⟩
    gone := fun found unreferenced lending => ⟨carried.gone found unreferenced lending.1,
      (congrArg Provider.native (provider_dropGuard lending.1 found unreferenced)).trans lending.2⟩ }

/-- A reader takes no native descriptor over. -/
theorem Carried.readerRead {holds : List ThingId → World → Prop} (carried : Carried holds) (id : ThingId)
    (accessor : Accessor) : Gives holds (accessor.read id .reader) Reading.refs := by
  by_cases describes : accessor = .typeDescriptor
  · subst describes
    refine fun got world before => (carried.typeDescriptor_ends .reader (fun _ => before) (fun _ _ _ => before)
      (fun _ => before) fun entity found interned computed => ?_).bind (fun value after held => held) fun _ _ held => held
    simp [computes, SlotSpec.refusal, Catalog.typeDescriptor] at computed
  · exact carried.read .reader describes

end World

/-- What a reader does when it reads a field.  The provider is neither searched nor asked for
    record descriptors, and gets none back.  What the reader gets is what the mutator gets from
    the same state, and both leave the same state.  If the reader fails where the mutator does
    not, it was refused. -/
structure World.ReaderDefers (world : World) (id : ThingId) (accessor : Accessor) : Prop where
  provider : ((accessor.read id .reader).exec world).provider = world.provider
  agrees : ∀ reading after, accessor.read id .reader world = .ok reading after →
    accessor.read id .mutator world = .ok reading after
  refused : ∀ interrupt after, accessor.read id .reader world = .error interrupt after →
    accessor.read id .mutator world = .error interrupt after ∨ ∃ slot, interrupt = .fault (.wrongContext slot)

namespace Operation

/-- After any run, whatever the provider does meanwhile, readers of whatever field of whatever
    thing defer to the mutator. -/
theorem readers_defer {config : Config} {world : World} (reached : Reached config world) (id : ThingId)
    (accessor : Accessor) : world.ReaderDefers id accessor := by
  have defers : World.Defers world.provider.stock _ _ := World.read_defers id accessor
  have kept := (World.lending_carried world).readerRead id accessor [] world ⟨reached.settled.followed, rfl⟩
  refine ⟨?_, fun reading after ran => ?_, fun interrupt after ran => ?_⟩
  · have both := (defers.spares [] world rfl).both kept
    have same : (accessor.read id .reader).Ends world fun _ after => after.provider = world.provider :=
      both.weaken fun outcome _ kept => by cases outcome <;> exact Provider.eq_of_stock kept.1 kept.2.2
    exact same.exec
  · obtain same | ⟨slot, last, refused⟩ := defers.agrees world
    · exact same.symm.trans ran
    · cases refused.symm.trans ran
  · obtain same | ⟨slot, last, refused⟩ := defers.agrees world
    · exact .inl (same.symm.trans ran)
    · cases refused.symm.trans ran
      exact .inr ⟨slot, rfl⟩

/-- The name of a relation is read by the session. -/
def readName : List Operation := [
  .openSession, .put (.relation ⟨100⟩ "lines" ⟨11⟩ ⟨0⟩ 2), .lookup (.entity .relation ⟨100⟩), .read 0 "name" .mutator]

/-- A reader computes the number of its attributes then, and is refused its columns. -/
theorem readers_defer_readName :
    AllowedAll readName (World.start {}) ∧
    (after readName (World.start {})).ReaderDefers 0 (.column .relationNatts) ∧
    (after readName (World.start {})).ReaderDefers 0 .relationDescriptor := by
  have allowed : AllowedAll readName (World.start {}) := by decide +kernel
  have reached : Reached {} (after readName (World.start {})) := Reached.start.run allowed
  exact ⟨allowed, readers_defer reached 0 (.column .relationNatts), readers_defer reached 0 .relationDescriptor⟩

end Operation

end CatalogReplica.Catalog
