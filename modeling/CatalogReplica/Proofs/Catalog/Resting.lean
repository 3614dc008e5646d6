import CatalogReplica.Proofs.Catalog.Accessing
import CatalogReplica.Proofs.Catalog.Delivering
import CatalogReplica.Proofs.Native.Reads
import CatalogReplica.Proofs.Native.Signals

/-!
# Operations at rest

Between operations a catalog is sound, and fresh but for rows that were written since the
last burst about them.  Every operation leads from rest to rest.  A catalog whose provider
fails, or gives rows of other shapes, is sound all the same; nothing is promised of its rows.

A catalog that is gone stays gone; nothing is said of it.

* `World.Settles`, `World.Rests`, `World.Orderly`: what holds between operations.
* `Operation.remember`: the rows that remain unsignalled.
* `Operation.apply_closed`, `Operation.apply_settles`, `Operation.apply_rests`: one operation.
* `Operation.Attained.orderly`: every run, whatever the provider does meanwhile.
-/

namespace CatalogReplica.Catalog

open Coherence (Gates)
open Identity (Cache CacheView)
open Lifetime (Ledger)
open Storage (Memory)

/-! ## Rows that are written -/

namespace Provider

variable {provider : Provider} {unsignalled : List EntityKey}

theorem onMemory_adds {α : Type} {body : Task Memory α} (adds : Storage.Adds body) (provider : Provider) :
    (onMemory body).Ends provider fun _ after => ∃ memory, after = { provider with memory } ∧
      provider.memory.Grows memory ∧ (provider.memory.Sound → memory.Sound) := by
  have ends := adds provider.memory
  unfold Task.Ends onMemory Task.within at *
  cases ran : body provider.memory <;> rw [ran] at ends <;> exact ⟨_, rfl, ends⟩

/-- What a key that is written stands for is not asked of others. -/
theorem differs_of_clean {key other : EntityKey} (clean : Clean (key :: unsignalled) other.classOid other.object) :
    other ≠ key := by
  rintro rfl
  exact clean other List.mem_cons_self ⟨rfl, rfl⟩

theorem put_grows (plan : RowPlan) (plain : provider.Plain) :
    (put plan).Ends provider fun _ after => after.Plain ∧ provider.Grows (plan.key :: unsignalled) after := by
  refine (onMemory_adds (Storage.writeRow_adds _ _) provider).bind ?_ ?_
  · rintro address _ ⟨memory, rfl, grows, sound⟩
    refine .next (Task.modify_run _ _) ⟨⟨plain.failures, plain.layouts, sound plain.memory⟩, grows, fun key clean => ?_⟩
    unfold row?
    dsimp only
    rw [Assoc.get?_set, if_neg (differs_of_clean clean)]
  · rintro interrupt _ ⟨memory, rfl, grows, sound⟩
    exact ⟨⟨plain.failures, plain.layouts, sound plain.memory⟩, grows, fun _ _ => rfl⟩

theorem intern_grows (typmod : Int32) (types : List Oid) (plain : provider.Plain) :
    (intern typmod types).Ends provider fun _ after => after.Plain ∧ provider.Grows unsignalled after := by
  refine (onMemory_adds (Storage.writeRow_adds _ _) provider).bind ?_ ?_
  · rintro address _ ⟨memory, rfl, grows, sound⟩
    exact .next (Task.modify_run _ _)
      ⟨⟨plain.failures, plain.layouts, sound plain.memory⟩, grows, fun _ _ => rfl⟩
  · rintro interrupt _ ⟨memory, rfl, grows, sound⟩
    exact ⟨⟨plain.failures, plain.layouts, sound plain.memory⟩, grows, fun _ _ => rfl⟩

theorem remove_grows (key : EntityKey) (plain : provider.Plain) :
    (remove key provider).2.Plain ∧ provider.Grows (key :: unsignalled) (remove key provider).2 := by
  refine ⟨⟨plain.failures, plain.layouts, plain.memory⟩, .refl _, fun other clean => ?_⟩
  unfold remove row?
  dsimp only
  rw [Assoc.get?_erase, Assoc.get?_erase, if_neg (differs_of_clean clean), if_neg (differs_of_clean clean)]

end Provider

namespace World

variable {world after : World} {unsignalled signalled : List EntityKey} {id : ThingId} {got : List ThingId} {serving : Prop}

/-! ## Nothing promised -/

theorem fresh_of_not_vouched (unvouched : ¬ Vouched unsignalled) {trips : Coherence.Batch} : world.Fresh trips unsignalled := by
  intro id entity field datum cached kind trusts
  have unclean {classOid object : Oid} (clean : Clean unsignalled classOid object) {α : Prop} : α :=
    absurd clean.vouched unvouched
  cases field with
  | tuple kind => exact fun clean => unclean clean
  | column field => exact fun clean => unclean clean
  | link field => cases field <;> first | exact fun clean => unclean clean | trivial
  | attributeType => trivial
  | relationDescriptor => exact fun clean => unclean clean
  | typeDescriptor => exact fun _ clean => unclean clean

/-- Keys are finitely many. -/
theorem exists_not_vouched : ∃ unsignalled, ¬ Vouched unsignalled := by
  let oids := (List.range UInt32.size).map fun n => (⟨UInt32.ofNat n⟩ : Oid)
  have every (oid : Oid) : oid ∈ oids :=
    List.mem_map.mpr ⟨oid.val.toNat, List.mem_range.mpr oid.val.toNat_lt, by simp⟩
  refine ⟨oids.flatMap fun classOid => oids.map fun object => { classOid, object, sub := 0 }, ?_⟩
  rintro ⟨classOid, object, clean⟩
  refine clean { classOid, object, sub := 0 } ?_ ⟨rfl, rfl⟩
  exact List.mem_flatMap.mpr ⟨classOid, every classOid, List.mem_map.mpr ⟨object, every object, rfl⟩⟩

theorem Stands.weaken (stands : world.Stands unsignalled) (more : ∀ key ∈ unsignalled, key ∈ signalled) :
    world.Stands signalled where
  sound := stands.sound
  fresh := stands.fresh.carry stands.sound stands.sound.closed (.refl world) more (.of_store rfl)
    fun _ later _ _ cached trusts => ⟨later, cached, .refl later, trusts⟩
  plain := fun ⟨_, _, clean⟩ => stands.plain (clean_of_more more clean).vouched
  available := stands.available

/-! ## Rest -/

/-- Sound and fresh at rest, and no key is under construction.  `serving` says that the provider serves
    everything. -/
structure Settles (serving : Prop) (unsignalled : List EntityKey) (world : World) : Prop where
  stands : world.Stands unsignalled
  quiet : world.Quiet
  plain : serving → world.provider.Plain

/-- What holds between operations while the provider serves everything. -/
abbrev Rests (unsignalled : List EntityKey) (world : World) : Prop := world.Settles True unsignalled

/-- What holds between operations whatever the provider does. -/
structure Orderly (world : World) : Prop where
  sound : world.Sound {} []
  quiet : world.Quiet
  available : world.isOpen = true

theorem Settles.orderly (settles : world.Settles serving unsignalled) : world.Orderly :=
  ⟨settles.stands.sound, settles.quiet, settles.stands.available⟩

theorem Orderly.settles (orderly : world.Orderly) (unvouched : ¬ Vouched unsignalled) : world.Settles False unsignalled :=
  ⟨⟨orderly.sound, fresh_of_not_vouched unvouched, fun vouched => absurd vouched unvouched, orderly.available⟩,
    orderly.quiet, fun served => served.elim⟩

theorem Leads.settles (leads : Leads unsignalled got world after) (settles : world.Settles serving unsignalled) :
    after.Settles serving unsignalled :=
  ⟨leads.stands, leads.quiet settles.quiet, fun served => (settles.plain served).of_store leads.onward.store⟩

theorem Settles.clearing (settles : world.Settles serving unsignalled) : Clearing unsignalled [] world world :=
  .start settles.stands.sound settles.stands.fresh

theorem Clearing.settles (clearing : Clearing signalled [] world after) (settles : world.Settles serving unsignalled)
    (plain : Vouched signalled → world.provider.Plain) : after.Settles serving signalled where
  stands := ⟨clearing.sound, clearing.fresh, fun vouched => (plain vouched).of_store clearing.store,
    clearing.available.trans settles.stands.available⟩
  quiet kind := (clearing.claims kind).trans (settles.quiet kind)
  plain served := (settles.plain served).of_store clearing.store

theorem Clearing.still (clearing : Clearing unsignalled [] world after) (settles : world.Settles serving unsignalled) :
    after.Settles serving unsignalled := clearing.settles settles settles.stands.plain

theorem blank_of (config : Config) (kind : EntityClass) :
    ((Caches.blank config).of kind).table = [] ∧ ((Caches.blank config).of kind).claims = [] := by
  cases kind <;> exact ⟨rfl, rfl⟩

/-- A new catalog is at rest. -/
theorem rests_start (config : Config) : (World.start config).Rests [] := by
  have table (kind : EntityClass) : ((World.start config).caches.of kind).table = [] := (blank_of config kind).1
  have uncached {id : ThingId} {entity : Entity} (cached : (World.start config).Cached id entity) : False := by
    cases cached.1
  -- A world that starts has no thing and no entry, so each clause speaks of nothing.
  have sound : (World.start config).Sound {} [] := {
    below := fun _ live => nomatch live
    unique := fun kind => by
      rw [Cache.Unique, table]
      exact List.nodup_nil
    handedOut := fun kind entry among => by
      rw [table] at among
      cases among
    entered := fun kind key id among => by
      rw [table] at among
      cases among
    closed := fun _ _ found => nomatch found
    holding := fun _ among => nomatch among
    gates := Gates.sound_blank
    shaped := fun _ _ found => nomatch found
    tied := fun _ _ _ found => nomatch found
    attributes := fun _ _ cached => (uncached cached).elim
    typmods := fun _ _ cached => (uncached cached).elim
    links := fun _ _ _ _ cached => (uncached cached).elim
    columns := fun _ _ _ found => nomatch found
    targets := fun _ _ _ _ _ _ found => nomatch found
    unmarked := fun _ _ cached => (uncached cached).elim
    indexed := fun _ => List.pairwise_singleton _ noTypmod }
  exact ⟨⟨sound, fun _ _ _ _ cached => (uncached cached).elim, fun _ => ⟨rfl, rfl, Memory.sound_blank⟩, rfl⟩,
    fun kind => (blank_of config kind).2, fun _ => ⟨rfl, rfl, Memory.sound_blank⟩⟩

/-- Rows are written. -/
theorem Settles.provide (settles : world.Settles serving unsignalled) {later : Provider}
    (grows : world.provider.Plain → later.Plain ∧ world.provider.Grows signalled later)
    (more : ∀ key ∈ unsignalled, key ∈ signalled) : ({ world with provider := later } : World).Settles serving signalled := by
  have stands := settles.stands.weaken more
  refine ⟨⟨{ stands.sound with }, ?_, fun vouched => (grows (stands.plain vouched)).1, stands.available⟩, settles.quiet,
    fun served => (grows (settles.plain served)).1⟩
  by_cases vouched : Vouched signalled
  · have plain := stands.plain vouched
    exact stands.fresh.carry stands.sound stands.sound.closed (.refl world) (fun _ among => among)
      ((grows plain).2.lasts plain.memory) fun _ later _ _ cached trusts => ⟨later, cached, .refl later, trusts⟩
  · exact fresh_of_not_vouched vouched

/-- Sessions and callers come and go, as long as one is left. -/
theorem Settles.reopen (settles : world.Settles serving unsignalled) {session : Option Session} {catalogHeld : Bool}
    (opened : ({ world with session, catalogHeld } : World).isOpen = true) :
    ({ world with session, catalogHeld } : World).Settles serving unsignalled :=
  ⟨⟨{ settles.stands.sound with }, fun id entity field datum cached kind trusts =>
    settles.stands.fresh id entity field datum cached kind trusts, settles.stands.plain, opened⟩, settles.quiet, settles.plain⟩

/-- A gate is tripped. -/
theorem Settles.trip (settles : world.Settles serving unsignalled) (gate : Coherence.GateId) :
    ({ world with gates := world.gates.trip gate } : World).Settles serving unsignalled := by
  have trips := Collects.trip settles.clearing.underway gate
  exact (trips.underway.tripped trips.wanes).still settles

/-! ## Clean-up -/

namespace Clearing

variable {before : World} {kind : EntityClass} {evictions : List EntityKey}

/-- A cache of entities lost dead entries, or what it retained. -/
theorem trim (clearing : Clearing unsignalled evictions before world) {cache : Cache EntityKey ThingId}
    (trimmed : Cache.Trimmed world.alive (world.caches.of kind) cache)
    (claims : cache.claims = (world.caches.of kind).claims) :
    Clearing unsignalled evictions before { world with caches := world.caches.put kind cache } := by
  have trims : world.Trims (world.caches.put kind cache) := by
    intro other
    rw [Caches.of_put]
    split
    · next same => exact same ▸ trimmed
    · exact .refl _
  refine ⟨clearing.sound.trim trims, clearing.fresh.trim trims, clearing.entities, clearing.gates, fun other => ?_,
    clearing.store, clearing.available⟩
  dsimp only
  rw [Caches.of_put]
  split
  · next same => rw [claims, ← same, clearing.claims]
  · exact clearing.claims other

theorem purge (clearing : Clearing unsignalled [] before world) : Clearing unsignalled [] before (purge world).2 := by
  have entities := foldl_total_keeps EntityClass.all 0 (fun kind world (clearing : Clearing unsignalled [] before world) =>
    show Clearing unsignalled [] before ((entityView kind).purge world).2 by
      have trimmed := clearing.trim (Cache.trimmed_purge (world.caches.of kind) world.alive) rfl
      exact trimmed.of_core rfl) clearing
  unfold World.purge
  generalize EntityClass.all.foldl _ _ = state at entities ⊢
  exact entities.of_core rfl

theorem relieve (clearing : Clearing unsignalled [] before world) :
    Clearing unsignalled [] before (relieve world).2 := by
  have entities := foldl_total_keeps EntityClass.all 0 (fun kind world (clearing : Clearing unsignalled [] before world) =>
    show Clearing unsignalled [] before ((entityView kind).relieve world).2 by
      have emptied := @trim _ _ _ _ _ clearing { world.caches.of kind with soft := [] } (.of_eq rfl) rfl
      exact emptied.reaped (reap_reaped _ _)) clearing
  unfold World.relieve
  generalize EntityClass.all.foldl _ _ = state at entities ⊢
  have descriptors (world : World) : Reaped world (descriptorView.relieve world).2 := by
    have emptied : Reaped world (descriptorView.set (descriptorView.get world).relieve.2 world) := .of_core rfl
    exact emptied.trans (reap_reaped _ _)
  have encodings (world : World) : Reaped world (encodingView.relieve world).2 := by
    have emptied : Reaped world (encodingView.set (encodingView.get world).relieve.2 world) := .of_core rfl
    exact emptied.trans (reap_reaped _ _)
  exact entities.reaped ((descriptors _).trans (encodings _))

end Clearing

/-! ## A catalog that is gone -/

/-- A catalog that nobody holds is gone. -/
theorem closeIfUnheld_closed (closed : world.isOpen = false) : (closeIfUnheld world).isOpen = false := by
  unfold closeIfUnheld
  rw [closed]
  have blank : ({ world with caches := .blank world.config } : World).isOpen = false := closed
  have reaped := (reap_reaped world.heap.ids { world with caches := .blank world.config }).isOpen.trans blank
  have core := ((onLedger_ends (Ledger.letQueueGo world.queue)
    (reap world.heap.ids { world with caches := .blank world.config })).weaken fun _ _ => And.left).exec
  exact (Reaped.of_core core).isOpen.trans reaped

/-- Someone leaves, and the catalog is there still. -/
theorem Settles.leave (settles : world.Settles serving unsignalled) {session : Option Session} {catalogHeld : Bool}
    (same : after.core = ({ world with session, catalogHeld } : World).core)
    (opened : (closeIfUnheld after).isOpen = true) : (closeIfUnheld after).Settles serving unsignalled := by
  cases left : after.isOpen with
  | false =>
    rw [closeIfUnheld_closed left] at opened
    cases opened
  | true =>
    have stays : closeIfUnheld after = after := by
      unfold closeIfUnheld
      rw [left]
      rfl
    have reopened := settles.reopen ((Reaped.of_core same).isOpen.symm.trans left)
    rw [stays]
    exact (reopened.clearing.of_core same).still reopened

theorem openSession_settles (settles : world.Settles serving unsignalled) :
    openSession.Ends world fun _ after => after.Settles serving unsignalled := by
  have numbered : ({ world with nextMutator := world.nextMutator + 1 } : World).Settles serving unsignalled := by
    have clearing : Clearing unsignalled [] world { world with nextMutator := world.nextMutator + 1 } :=
      settles.clearing.of_core rfl
    exact clearing.still settles
  have reopened : ({ world with session := some (.blank world.nextMutator), catalogHeld := world.catalogHeld } :
      World).Settles serving unsignalled := settles.reopen (by simp [World.isOpen])
  refine Operation.openSession_ends numbered fun queue bound _ _ => ?_
  have queued : Clearing unsignalled []
      ({ world with session := some (.blank world.nextMutator), catalogHeld := world.catalogHeld } : World)
      ({ world with
        nextMutator := world.nextMutator + 1
        ledger := world.ledger.onQueue world.queue fun _ => bound
        session := some (.blank world.nextMutator) } : World) :=
    reopened.clearing.of_core rfl
  exact queued.still reopened

theorem closed_carried : Carried fun _ world => world.isOpen = false where
  perm _ closed := closed
  less closed := closed
  aside aside closed := by
    have same := congrArg World.isOpen aside.native
    exact same.trans closed
  hold _ closed := closed
  unhold closed := closed
  add _ closed := closed
  gone {got world id thing} _ _ closed := by
    have erased : Reaped { world with heap := world.heap.erase id }
        (dropGuard thing { world with heap := world.heap.erase id }) := .of_core (core_dropGuard thing _)
    exact erased.isOpen.trans closed

end World

namespace Operation

open World (onLedger onProvider mutatorThread Stands Settles Rests Clearing clean_of_more closed_carried)

variable {world : World} {unsignalled signalled : List EntityKey} {operation : Operation} {serving : Prop}

/-- A catalog that is gone stays gone. -/
theorem apply_closed (allowed : operation.Allowed world) (closed : world.isOpen = false) :
    (operation.apply world).isOpen = false := by
  have none : world.session = none := by
    have parts := closed
    rw [World.isOpen, Bool.or_eq_false_iff] at parts
    simpa using parts.2
  have opened {α : Prop} (open' : world.isOpen = true) : α := by
    rw [closed] at open'
    cases open'
  have inSession {α : Prop} (session : world.session.isSome = true) : α := by
    rw [none] at session
    cases session
  have provided {α : Type} (body : Task Provider α) : (onProvider body).Ends world fun _ after => after.isOpen = false :=
    World.onProvider_ends (by unfold Task.Ends; cases body world.provider <;> exact closed)
  have ledgers {α : Type} (body : Task Ledger α) {world : World} (closed : world.isOpen = false) :
      (onLedger body).Ends world fun _ after => after.isOpen = false :=
    World.onLedger_ends_as (by unfold Task.Ends; cases body world.ledger <;> exact closed)
  have released (id : ThingId) {world : World} (closed : world.isOpen = false) : (World.release id world).isOpen = false :=
    @World.Carried.release _ [] world id closed_carried closed
  -- What needs an open catalog or a session is not allowed here; the rest leave both as they are.
  cases operation with
  | put plan => exact (Task.Ends.discard (provided _)).exec
  | remove key => exact (Task.Ends.discard (provided _)).exec
  | putEncoding info => exact (provided _).exec
  | intern typmod types => exact (Task.Ends.discard (provided _)).exec
  | setScope address kind => exact (provided _).exec
  | openSession | lookup _ | purge | relieve => exact opened allowed
  | dispatch _ | drain | lifespan _ | currentLifespan => exact inSession allowed
  | closeSession =>
    have same : Operation.closeSession.apply world = world := by
      change World.closeSession world = world
      rw [World.closeSession, none]
    rw [same, closed]
  | dropCatalog =>
    change (World.closeIfUnheld { world with catalogHeld := false }).isOpen = false
    refine World.closeIfUnheld_closed ?_
    rw [World.isOpen, none]
    rfl
  | read id field access =>
    have reads : (Operation.read id field access).task.Ends world fun _ after => after.isOpen = false := by
      refine read_ends closed fun accessor _ => ?_
      by_cases record : accessor = .typeDescriptor
      · -- there is no session, and readers are refused where native descriptors are taken over
        subst record
        refine (@World.Carried.typeDescriptor_ends _ [] _ _ closed_carried access (fun _ => closed)
          (fun _ _ _ => closed) (fun _ => closed) fun entity _ _ computed => ?_).bind (fun _ _ after => after)
            fun _ _ after => after
        cases access with
        | mutator => exact inSession (allowed.2 rfl)
        | reader => simp [World.computes, Coherence.SlotSpec.refusal, Catalog.typeDescriptor] at computed
      · exact (closed_carried.read access record [] world closed).weaken fun outcome _ after => by
          cases outcome <;> exact after
    exact reads.exec
  | drop id => exact released id closed
  | trip id => exact inSession allowed.2
  | pin id =>
    have pins : (Operation.pin id).task.Ends world fun _ after => after.isOpen = false :=
      pin_ends closed (fun _ _ => ledgers _ closed) (fun _ _ after => after) fun _ _ after => after
    exact pins.exec
  | unpin id =>
    have unpins : (Operation.unpin id).task.Ends world fun _ after => after.isOpen = false :=
      unpin_ends closed (fun _ _ => ledgers _ closed) (fun _ closed => released id closed) fun _ _ after => after
    exact unpins.exec

/-! ## From rest to rest -/

/-- Attributes are looked up by their relation and their number. -/
def Proper : Operation → Prop
  | .lookup (.entity kind _) => kind ≠ .attr
  | _ => True

/-- The rows that are unsignalled after the operation: those that it writes or removes, and
    those that no signal was about. -/
def remember (unsignalled : List EntityKey) : Operation → List EntityKey
  | .put plan => plan.key :: unsignalled
  | .remove key => key :: unsignalled
  | .dispatch signals => unsignalled.filter fun key => decide (¬ ∃ signal ∈ signals, signal.Covers key)
  | _ => unsignalled

/-- What leads on and keeps claims leads to rest. -/
theorem settles_of_finds {kind : EntityClass} {key : EntityKey} {body : Task World ThingId} (settles : world.Settles serving unsignalled)
    (finds : body.Ends world (World.Finds unsignalled kind key world)) :
    body.Ends world fun _ after => after.Settles serving unsignalled :=
  finds.weaken fun _ _ ⟨_, _, _, leads, _⟩ => leads.settles settles

theorem lookup_settles (settles : world.Settles serving unsignalled) {target : Script.Target}
    (proper : (Operation.lookup target).Proper) : target.lookup.Ends world fun _ after => after.Settles serving unsignalled := by
  have refused {kind : EntityClass} {oid : Oid} {rest : Task World ThingId} (invalid : oid.isValid = false) :
      (World.requireValid kind oid >>= fun _ => rest).Ends world fun _ after => after.Settles serving unsignalled := by
    obtain ⟨interrupt, run⟩ := World.requireValid_fails invalid kind world
    exact .stop run settles
  cases target with
  | entity kind oid =>
    cases valid : oid.isValid with
    | true => exact settles_of_finds settles (World.entity_ends settles.stands settles.quiet valid proper)
    | false => exact refused valid
  | attr relation attnum =>
    cases valid : relation.isValid with
    | true => exact settles_of_finds settles (World.attributeOf_ends settles.stands settles.quiet valid attnum)
    | false =>
      have fails : (World.entity .relation relation).Ends world fun outcome after =>
          after.Settles serving unsignalled ∧ ∃ interrupt, outcome = .error interrupt := by
        obtain ⟨interrupt, run⟩ := World.requireValid_fails valid .relation world
        exact .stop run ⟨settles, interrupt, rfl⟩
      exact fails.bind (by rintro _ _ ⟨-, _, ⟨⟩⟩) fun _ _ ended => ended.1
  | type oid typmod =>
    cases valid : oid.isValid with
    | true => exact settles_of_finds settles (World.typeWith_ends settles.stands settles.quiet valid typmod)
    | false => exact refused valid
  | encoding id => exact (World.encoding_ends settles.stands id).weaken fun _ _ leads => leads.settles settles

/-- A burst of signals leads from rest to rest.  More may be taken for unsignalled than is. -/
theorem dispatch_settles (settles : world.Settles serving unsignalled) (signals : List Signal)
    (more : ∀ key ∈ (Operation.dispatch signals).remember unsignalled, key ∈ signalled)
    (plain : Vouched signalled → world.provider.Plain) :
    ((Operation.dispatch signals).apply world).Settles serving signalled := by
  refine (Task.Ends.discard ((World.dispatch_clearing settles.stands signals fun key among => ?_).weaken
    fun _ _ clearing => clearing.settles settles plain)).exec
  by_cases covered : ∃ signal ∈ signals, signal.Covers key
  · exact .inr covered
  · exact .inl (more key (List.mem_filter.mpr ⟨among, by simpa using covered⟩))

/-- Every other operation that is allowed leads from rest to rest. -/
theorem apply_still (allowed : operation.Allowed world) (proper : operation.Proper) (other : ∀ signals, operation ≠ .dispatch signals)
    (settles : world.Settles serving unsignalled) (opened : (operation.apply world).isOpen = true) :
    (operation.apply world).Settles serving (operation.remember unsignalled) := by
  have clearing := settles.clearing
  -- A step grows the provider (`provided`), stays apart from the heap (`apart`), or leaves the core as it was (`same`).
  have provided {α : Type} {signalled : List EntityKey} {body : Task Provider α} (more : ∀ key ∈ unsignalled, key ∈ signalled)
      (grows : world.provider.Plain → body.Ends world.provider fun _ after => after.Plain ∧ world.provider.Grows signalled after) :
      (onProvider body).Ends world fun _ after => after.Settles serving signalled :=
    World.onProvider_ends ((Task.Ends.given grows).weaken fun _ _ grows => settles.provide grows more)
  have apart {α : Type} {body : Task World α} (apart : World.Apart body) :
      body.Ends world fun _ after => after.Settles serving unsignalled :=
    (apart.clearing world clearing).weaken fun _ _ clearing => clearing.still settles
  have same (world' : World) (same : world'.core = world.core) : world'.Settles serving unsignalled :=
    (clearing.of_core same).still settles
  cases operation with
  | put plan =>
    exact (Task.Ends.discard (provided (fun _ => List.mem_cons_of_mem _)
      (Provider.put_grows plan))).exec
  | remove key =>
    exact (Task.Ends.discard (provided (fun _ => List.mem_cons_of_mem _)
      fun plain => .lift (Provider.remove_grows key plain))).exec
  | putEncoding info => exact same _ rfl
  | intern typmod types =>
    exact (Task.Ends.discard (provided (fun _ among => among)
      (Provider.intern_grows typmod types))).exec
  | setScope address kind => exact same _ rfl
  | openSession => exact (World.openSession_settles settles).exec
  | closeSession =>
    have closes : Operation.closeSession.task.Ends world fun _ after =>
        after.isOpen = true → after.Settles serving unsignalled :=
      closeSession_ends (fun _ _ => settles) fun session _ => settles.leave rfl
    exact closes.exec opened
  | dropCatalog => exact settles.leave rfl opened
  | lookup target => exact (Task.Ends.discard (lookup_settles settles proper)).exec
  | read id field access =>
    refine (read_ends settles fun accessor offered => ?_).exec
    obtain ⟨thing, found, offered⟩ := Option.bind_eq_some_iff.mp offered
    exact (World.read_leads settles.stands settles.quiet found allowed.1 offered).weaken fun _ _ leads => leads.settles settles
  | drop id => exact (clearing.release id).still settles
  | trip id =>
    exact (trip_ends settles fun gate _ => settles.trip gate).exec
  | pin id =>
    refine (pin_ends settles (fun _ _ => World.Apart.onLedger _ world) (fun _ after core => ?_) fun _ _ => same _).exec
    have live : after.alive id = true := by
      rw [World.alive, show after.heap = world.heap from congrArg (·.heap) core]
      exact settles.stands.sound.holding id allowed
    exact ((clearing.of_core core).hold live).still settles
  | unpin id =>
    exact (unpin_ends settles (fun _ _ => World.Apart.onLedger _ world)
      (fun _ core => ((clearing.of_core core).release id).still settles) fun _ _ => same _).exec
  | dispatch signals => exact absurd rfl (other signals)
  | drain => exact (Task.Ends.discard (apart (.bind .get fun _ => .onLedger _))).exec
  | purge => exact (Task.Ends.discard (.lift (clearing.purge.still settles))).exec
  | relieve => exact (Task.Ends.discard (.lift (clearing.relieve.still settles))).exec
  | lifespan address => exact (Task.Ends.discard (.lift (same _ (World.core_get?_lifespans address world)))).exec
  | currentLifespan => exact (Task.Ends.discard (apart World.apart_currentLifespan)).exec

/-- Every operation that is allowed leads from rest to rest.  More may be taken for unsignalled than is. -/
theorem apply_settles (allowed : operation.Allowed world) (proper : operation.Proper) (settles : world.Settles serving unsignalled)
    (opened : (operation.apply world).isOpen = true) (more : ∀ key ∈ operation.remember unsignalled, key ∈ signalled)
    (plain : Vouched signalled → world.provider.Plain) : (operation.apply world).Settles serving signalled := by
  by_cases burst : ∃ signals, operation = .dispatch signals
  · obtain ⟨signals, rfl⟩ := burst
    exact dispatch_settles settles signals more plain
  · have still := apply_still allowed proper (fun signals same => burst ⟨signals, same⟩) settles opened
    exact ⟨still.stands.weaken more, still.quiet, still.plain⟩

theorem apply_rests (allowed : operation.Allowed world) (proper : operation.Proper) (rests : world.Rests unsignalled)
    (opened : (operation.apply world).isOpen = true) : (operation.apply world).Rests (operation.remember unsignalled) :=
  apply_settles allowed proper rests opened (fun _ among => among) fun _ => rests.plain trivial

/-! ## Providers that change -/

theorem apply_orderly (allowed : operation.Allowed world) (proper : operation.Proper) (orderly : world.Orderly)
    (opened : (operation.apply world).isOpen = true) : (operation.apply world).Orderly := by
  obtain ⟨unsignalled, unvouched⟩ := World.exists_not_vouched
  have vague : ¬ Vouched (operation.remember unsignalled ++ unsignalled) := by
    rintro ⟨classOid, object, clean⟩
    exact unvouched (clean_of_more (fun _ => List.mem_append_right _) clean).vouched
  exact (apply_settles allowed proper (orderly.settles unvouched) opened (fun _ => List.mem_append_left _)
    fun vouched => absurd vouched vague).orderly

/-- The states that runs lead to in which attributes are looked up by their relation and their number,
    while the provider changes in whatever way between operations. -/
inductive Attained (config : Config) : World → Prop where
  | start : Attained config (World.start config)
  | step {world : World} (operation : Operation) (before : Attained config world) (allowed : operation.Allowed world)
      (proper : operation.Proper) : Attained config (operation.apply world)
  | served {world : World} (provider : Provider) (before : Attained config world) : Attained config { world with provider }

theorem Attained.run {config : Config} {operations : List Operation} (attained : Attained config world)
    (allowed : AllowedAll operations world) (proper : ∀ operation ∈ operations, operation.Proper) :
    Attained config (after operations world) := by
  induction operations generalizing world with
  | nil => exact attained
  | cons operation operations ih =>
    rw [List.forall_mem_cons] at proper
    exact ih (attained.step operation allowed.1 proper.1) allowed.2 proper.2

theorem Attained.reached {config : Config} (attained : Attained config world) : Reached config world := by
  induction attained with
  | start => exact .start
  | step operation _ allowed _ ih => exact ih.step operation allowed
  | served provider _ ih => exact ih.served provider

/-- Every run leads to order, until the catalog is gone. -/
theorem Attained.orderly {config : Config} (attained : Attained config world) (opened : world.isOpen = true) : world.Orderly := by
  induction attained with
  | start => exact (World.rests_start config).orderly
  | @step world operation before allowed proper ih =>
    cases was : world.isOpen with
    | true => exact apply_orderly allowed proper (ih was) opened
    | false =>
      rw [apply_closed allowed was] at opened
      cases opened
  | served provider _ ih =>
    have orderly := ih opened
    exact ⟨{ orderly.sound with }, orderly.quiet, opened⟩

end Operation

end CatalogReplica.Catalog
