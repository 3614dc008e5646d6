import CatalogReplica.Proofs.Catalog.Lookups
import CatalogReplica.Proofs.Native.Reads
import CatalogReplica.Proofs.Native.Signals

/-!
# The changes that operations consist of

Lookups, reads of fields, and the delivery of signals change a catalog in a few ways only,
and what a property has to be checked against is these.  The exceptions are where native
descriptors come and go: their construction, the slot that types keep them in, teardowns,
drains, and the end of the catalog.

* `World.Shelf`: the identity caches of a catalog.
* `World.Edit`: one change, with the things that the operation under way holds.
* `World.Edits.read`, ...: lookups, reads and clean-up are made of edits.
* `World.Batched.collectAll`, ...: signals detach gates and trip their cells besides.
* `World.Edits.keeps`, `World.Batched.keeps`: what every change keeps, they keep.
-/

namespace CatalogReplica.Catalog

open Coherence (Access Batch Computed Gates GateId SlotSpec SlotTable)
open Identity (Asked Cache CacheView Note)

/-- The gate is there, or a thing has it. -/
def World.HasGate (world : World) (gate : GateId) : Prop :=
  gate < world.gates.current.size ∨ ∃ id thing, world.thing? id = some thing ∧ thing.gate? = some gate

/-- The thing is new: it has no native memory and no memos, and refers to nothing but what is
    held. -/
structure Thing.Fresh (got : List ThingId) (world : World) (thing : Thing) : Prop where
  unguarded : thing.guard? = none
  blank : ∀ table, thing.table? = some table → ∀ index, table.memo? index = none
  refs : ∀ id ∈ thing.refs, id ∈ got
  gated : ∀ gate, thing.gate? = some gate → world.HasGate gate

theorem SlotTable.kept_blank (slots : Nat) (gates : List GateId) :
    (SlotTable.blank slots gates : SlotTable Datum).kept = [] := by
  simp [SlotTable.kept, SlotTable.blank]

section fresh

variable {got : List ThingId} {world : World}

theorem Thing.Fresh.entity {ties : Ties} (among : ∀ id ∈ ties.refs, id ∈ got) {gate : GateId} (has : world.HasGate gate)
    (kind : EntityClass) (key : EntityKey) (slots : Nat) :
    (Thing.entity { kind, key, ties, table := .blank slots [gate] }).Fresh got world := by
  refine ⟨rfl, by rintro _ ⟨⟩; exact memo?_blank slots [gate], fun id isRef => among id ?_, ?_⟩
  · rwa [Thing.refs, SlotTable.kept_blank] at isRef
  · rintro _ ⟨⟩
    exact has

theorem Thing.Fresh.encoding (id : Int32) (slots : Nat) : (Thing.encoding id (.blank slots [])).Fresh got world := by
  refine ⟨rfl, by rintro _ ⟨⟩; exact memo?_blank slots [], fun id isRef => ?_, nofun⟩
  rw [Thing.refs, SlotTable.kept_blank] at isRef
  cases isRef

theorem Thing.Fresh.descriptor {descriptor : Descriptor} (none : descriptor.guard = none) :
    (Thing.descriptor descriptor).Fresh got world := ⟨none, nofun, nofun, nofun⟩

end fresh

namespace World

/-- An identity cache of the catalog. -/
inductive Shelf : ∀ {κ : Type}, CacheView World κ ThingId → Prop
  | entities (kind : EntityClass) : Shelf (entityView kind)
  | descriptors : Shelf descriptorView
  | encodings : Shelf encodingView

/-- One change, with the things that the operation under way holds before and after. -/
inductive Edit : List ThingId → World → List ThingId → World → Prop
  | perm {got got' : List ThingId} {world : World} (same : got.Perm got') : Edit got world got' world
  | less {id : ThingId} {got : List ThingId} {world : World} : Edit (id :: got) world got world
  /-- Something is counted. -/
  | counted {got : List ThingId} {world : World} (tally : Tally) :
      Edit got world got { world with ledger := { world.ledger with tally } }
  /-- The provider is asked for rows. -/
  | asked {got : List ThingId} {world : World} (provider : Provider) (native : provider.native = world.provider.native)
      (store : provider.store = world.provider.store) : Edit got world got { world with provider }
  /-- A gate is made. -/
  | gated {got : List ThingId} {world : World} : Edit got world got { world with gates := world.gates.newGate.2 }
  | typmods {got : List ThingId} {world : World} (typmods : Assoc Oid (List Int32)) :
      Edit got world got { world with typmods }
  /-- A thing learns or forgets who depends on it. -/
  | tied {got : List ThingId} {world : World} (id : ThingId) (f : Ties → Ties) (refs : ∀ ties, (f ties).refs = ties.refs) :
      Edit got world got (onThing id (Thing.onTies f) world)
  /-- An entity is marked as evicted. -/
  | marked {got : List ThingId} {world : World} (id : ThingId) :
      Edit got world got (onTable id (fun table => { table with evicted := true }) world)
  /-- A slot keeps a value. -/
  | kept {got : List ThingId} {world : World} {datum : Datum} (id : ThingId) (index : Nat) (cell : Option Coherence.CellId)
      (other : index ≠ Catalog.typeDescriptor.index) :
      Edit (datum.refs ++ got) world (datum.refs ++ got) (onTable id (·.keep index ⟨datum, cell⟩) world)
  /-- A memo is served. -/
  | served {got : List ThingId} {world : World} {datum : Datum} (id : ThingId) (spec : SlotSpec)
      (peeked : ((view id).place spec).peek world = some datum) (other : spec.index ≠ Catalog.typeDescriptor.index) :
      Edit got world (datum.refs ++ got) (datum.refs.foldl (fun world id => hold id world) world)
  /-- The relation of an attribute is given. -/
  | owned {got : List ThingId} {world : World} {id relation : ThingId} {entity : Entity}
      (found : world.entity? id = some entity) (among : relation ∈ entity.ties.refs) :
      Edit got world (relation :: got) (hold relation world)
  | released {got : List ThingId} {world : World} (id : ThingId) : Edit (id :: got) world got (release id world)
  /-- The columns of a relation are made. -/
  | added {got : List ThingId} {world : World} {thing : Thing} (fresh : thing.Fresh got world) :
      Edit got world (world.nextThing :: got) (world.add thing).2
  /-- A key is looked up. -/
  | sought {κ : Type} [DecidableEq κ] {view : CacheView World κ ThingId} (shelf : Shelf view) (ordinary : Ordinary view)
      {got : List ThingId} {world : World} (thread : Nat) (key : κ) : Edit got world got (view.ask thread key world).2
  /-- A key is looked up and found. -/
  | found {κ : Type} [DecidableEq κ] {view : CacheView World κ ThingId} (shelf : Shelf view) (ordinary : Ordinary view)
      {got : List ThingId} {world after : World} {thread : Nat} {key : κ} {id : ThingId}
      (hit : view.ask thread key world = (.hit id, after)) : Edit got world (id :: got) (hold id after)
  /-- A thing is made for a key that was looked up. -/
  | made {κ : Type} [DecidableEq κ] {view : CacheView World κ ThingId} (shelf : Shelf view) (ordinary : Ordinary view)
      {got : List ThingId} {world : World} {key : κ} {thing : Thing} (fresh : thing.Fresh got world)
      (absent : ∀ entry ∈ (view.get world).table, entry.1 ≠ key) :
      Edit got world (world.nextThing :: got) (view.settle key world.nextThing (world.add thing).2)
  | abandoned {κ : Type} [DecidableEq κ] {view : CacheView World κ ThingId} (shelf : Shelf view) (ordinary : Ordinary view)
      {got : List ThingId} {world : World} (key : κ) : Edit got world got (view.abandon key world)
  | got? {κ : Type} [DecidableEq κ] {view : CacheView World κ ThingId} (shelf : Shelf view) (ordinary : Ordinary view)
      {got : List ThingId} {world : World} (key : κ) :
      Edit got world ((view.get? key world).1.toList ++ got) (view.get? key world).2
  | evicted {κ : Type} [DecidableEq κ] {view : CacheView World κ ThingId} (shelf : Shelf view) (ordinary : Ordinary view)
      {got : List ThingId} {world : World} (key : κ) :
      Edit got world ((view.evict key world).1.toList ++ got) (view.evict key world).2
  /-- A native descriptor leaves its cache. -/
  | dismissed {got : List ThingId} {world : World} (address : Address) :
      Edit got world got ((descriptorView.evict address world).1.toList.foldl (fun world id => release id world)
        (descriptorView.evict address world).2)
  | purged {κ : Type} [DecidableEq κ] {view : CacheView World κ ThingId} (shelf : Shelf view)
      {got : List ThingId} {world : World} : Edit got world got (view.purge world).2
  | relieved {κ : Type} [DecidableEq κ] {view : CacheView World κ ThingId} (shelf : Shelf view)
      {got : List ThingId} {world : World} : Edit got world got (view.relieve world).2

/-- What edits lead to. -/
inductive Edits (start : List ThingId) (base : World) : List ThingId → World → Prop
  | refl : Edits start base start base
  | step {got got' : List ThingId} {world after : World} (before : Edits start base got world)
      (edit : Edit got world got' after) : Edits start base got' after

/-- What every edit keeps, edits keep. -/
theorem Edits.keeps {holds : List ThingId → World → Prop}
    (each : ∀ {got got' world after}, holds got world → Edit got world got' after → holds got' after)
    {start got : List ThingId} {base world : World} (before : holds start base) (edits : Edits start base got world) :
    holds got world := by
  induction edits with
  | refl => exact before
  | step _ edit ih => exact each ih edit

/-- What edits lead to, and gates that are detached to be tripped together: the batch holds
    those whose cells are still to be tripped. -/
inductive Batched (start : List ThingId) (base : World) : Batch → List ThingId → World → Prop
  | refl : Batched start base {} start base
  | step {trips : Batch} {got got' : List ThingId} {world after : World} (before : Batched start base trips got world)
      (edit : Edit got world got' after) : Batched start base trips got' after
  | detached {trips : Batch} {got : List ThingId} {world : World} (before : Batched start base trips got world)
      (gate : GateId) :
      Batched start base (trips.add gate world.gates).1 got { world with gates := (trips.add gate world.gates).2 }
  | tripped {trips : Batch} {got : List ThingId} {world : World} (before : Batched start base trips got world) :
      Batched start base {} got { world with gates := (trips.commit world.gates).2 }

/-- What every edit keeps, and detaching and tripping gates, signals keep. -/
theorem Batched.keeps {holds : Batch → List ThingId → World → Prop}
    (each : ∀ {trips got got' world after}, holds trips got world → Edit got world got' after → holds trips got' after)
    (detached : ∀ {trips got world} gate, holds trips got world →
      holds (trips.add gate world.gates).1 got { world with gates := (trips.add gate world.gates).2 })
    (tripped : ∀ {trips got world}, holds trips got world →
      holds {} got { world with gates := (trips.commit world.gates).2 })
    {start got : List ThingId} {base world : World} {trips : Batch} (before : holds {} start base)
    (batched : Batched start base trips got world) : holds trips got world := by
  induction batched with
  | refl => exact before
  | step _ edit ih => exact each ih edit
  | detached _ gate ih => exact detached gate ih
  | tripped _ ih => exact tripped ih

theorem Batched.edits {start got got' : List ThingId} {base world after : World} {trips : Batch}
    (before : Batched start base trips got world) (edits : Edits got world got' after) :
    Batched start base trips got' after := by
  induction edits with
  | refl => exact before
  | step _ edit ih => exact ih.step edit

namespace Shelf

variable {κ : Type} [DecidableEq κ] {view : CacheView World κ ThingId}

omit [DecidableEq κ] in
theorem alive (shelf : Shelf view) : view.alive = World.alive := by cases shelf <;> rfl

omit [DecidableEq κ] in
theorem hold (shelf : Shelf view) : view.hold = World.hold := by cases shelf <;> rfl

omit [DecidableEq κ] in
theorem letGo (shelf : Shelf view) : view.letGo = reap := by cases shelf <;> rfl

omit [DecidableEq κ] in
theorem get_congr (shelf : Shelf view) {world after : World} (same : after.caches = world.caches) :
    view.get after = view.get world := by
  cases shelf with
  | entities kind => exact congrArg (·.of kind) same
  | descriptors => exact congrArg (·.descriptors) same
  | encodings => exact congrArg (·.encodings) same

omit [DecidableEq κ] in
theorem get_store (shelf : Shelf view) (notes : List (Note κ)) (cache : Cache κ ThingId) (world : World) :
    view.get (view.store notes cache world) = cache := by
  cases shelf with
  | entities kind => cases kind <;> rfl
  | descriptors => rfl
  | encodings => rfl

/-- A key that is about to be constructed has no entry. -/
theorem absent (shelf : Shelf view) {thread : Nat} {key : κ} {world after : World}
    (run : view.ask thread key world = (.build, after)) : ∀ entry ∈ (view.get after).table, entry.1 ≠ key := by
  obtain ⟨value, -, -, hit⟩ | ⟨asked, notes, cache, asks, table, -⟩ :=
    (view.get world).ask_cases (view.alive world) thread key
  · rw [CacheView.ask, hit] at run
    cases run
  · rw [CacheView.ask, asks] at run
    obtain ⟨-, rfl⟩ := Prod.mk.inj run
    rw [shelf.get_store, table]
    exact fun entry among => (Cache.mem_erase.mp among).2

end Shelf

namespace Edits

variable {α : Type} {start got : List ThingId} {base world : World} {id : ThingId}

/-! ## Lookups -/

/-- A key is looked up; what is not there is made, and no cache is touched meanwhile. -/
theorem lookup {κ : Type} [DecidableEq κ] {view : CacheView World κ ThingId} (shelf : Shelf view)
    (ordinary : Ordinary view) (thread : Nat) (key : κ) {make : Task World Thing} (before : Edits start base got world)
    (makes : ∀ {world}, Edits start base got world → make.Ends world fun outcome after =>
      Edits start base got after ∧ after.caches = world.caches ∧ ∀ thing, outcome = .ok thing → thing.Fresh got after) :
    (view.lookup thread key (construct make)).Ends world (After (Edits start base) (fun id => [id]) got) := by
  unfold Task.Ends CacheView.lookup
  cases run : view.ask thread key world with | mk asked after =>
  have sought : Edits start base got after := by
    have edit := before.step (.sought shelf ordinary thread key)
    rwa [run] at edit
  cases asked with
  | hit id =>
    rw [shelf.hold]
    exact before.step (.found shelf ordinary run)
  | reentrant => exact sought
  | wait => exact sought
  | build =>
    dsimp only
    have absent := shelf.absent run
    have ends := makes sought
    unfold Task.Ends at ends
    unfold construct
    rw [Task.bind_run]
    cases made : make after with
    | ok thing last =>
      rw [made] at ends
      obtain ⟨edits, caches, fresh⟩ := ends
      rw [← shelf.get_congr caches] at absent
      exact edits.step (.made shelf ordinary (fresh thing rfl) absent)
    | error interrupt last =>
      rw [made] at ends
      exact ends.1.step (.abandoned shelf ordinary key)

theorem lookupEntity (kind : EntityClass) (key : EntityKey) {prepare : Task World (GateId × Ties)}
    (before : Edits start base got world)
    (prepares : ∀ {world}, Edits start base got world → prepare.Ends world fun outcome after =>
      Edits start base got after ∧ after.caches = world.caches ∧
        ∀ value, outcome = .ok value → (∀ id ∈ value.2.refs, id ∈ got) ∧ after.HasGate value.1) :
    (World.lookup kind key prepare).Ends world (After (Edits start base) (fun id => [id]) got) := by
  refine lookup (.entities kind) (ordinary_entityView kind) mutatorThread key before fun edits => ?_
  refine (prepares edits).bind (fun value after ended => ?_) fun _ _ ended => ⟨ended.1, ended.2.1, nofun⟩
  exact ⟨ended.1, ended.2.1, by rintro _ ⟨⟩; exact .entity (ended.2.2 value rfl).1 (ended.2.2 value rfl).2 ..⟩

theorem hasGate_newGate (world : World) :
    ({ world with gates := world.gates.newGate.2 } : World).HasGate world.gates.newGate.1 := by
  refine .inl ?_
  rw [Gates.current_size_newGate]
  exact Nat.lt_succ_self _

theorem entity (kind : EntityClass) (oid : Oid) : Gives (Edits start base) (entity kind oid) fun id => [id] := by
  refine (Gives.requireValid kind oid).bind fun _ got world before => lookupEntity kind _ before fun {world} edits => ?_
  refine .next (Task.lift_run _ world) ⟨edits.step .gated, rfl, ?_⟩
  rintro _ ⟨⟩
  exact ⟨fun id isRef => (by cases kind <;> cases isRef), hasGate_newGate world⟩

theorem typeWith (oid : Oid) (typmod : Int32) : Gives (Edits start base) (typeWith oid typmod) fun id => [id] := by
  refine (Gives.requireValid .type oid).bind fun _ got world before => lookupEntity .type _ before fun {world} edits => ?_
  obtain ⟨typmods, same⟩ : ∃ typmods, indexTypmod oid typmod world = { world with typmods } := by
    simp only [indexTypmod]
    split <;> exact ⟨_, rfl⟩
  refine .next (Task.modify_run _ world) (.next (Task.lift_run _ _) ?_)
  rw [same]
  refine ⟨(edits.step (.typmods typmods)).step .gated, rfl, ?_⟩
  rintro _ ⟨⟩
  exact ⟨by rintro _ ⟨⟩, hasGate_newGate _⟩

/-- Something that was held is released, however the operation ends. -/
theorem ensuring {body : Task World α} {refs : α → List ThingId}
    (ends : body.Ends world (After (Edits start base) refs (id :: got))) :
    (Task.ensuring body (release id)).Ends world (After (Edits start base) refs got) := by
  refine .ensuring (ends.weaken fun outcome after edits => ?_)
  cases outcome with
  | ok value => exact (edits.step (.perm List.perm_middle)).step (.released id)
  | error interrupt => exact edits.step (.released id)

theorem attributeOf (oid : Oid) (attnum : Int16) : Gives (Edits start base) (attributeOf oid attnum) fun id => [id] := by
  intro got world before
  refine (entity .relation oid).next before fun relation after edits => ?_
  refine ensuring (lookupEntity .attr _ edits fun {world} edits => ?_)
  refine .next (Task.modify_run _ world) (.next (Task.get_run _) ?_)
  have tied := edits.step (.tied relation (Ties.trackAttribute attnum) fun ties => by cases ties <;> rfl)
  split
  · next gate its =>
    refine ⟨tied, rfl, ?_⟩
    rintro _ ⟨⟩
    obtain ⟨thing, found, has⟩ := Option.bind_eq_some_iff.mp its
    exact ⟨fun id isRef => List.mem_singleton.mp isRef ▸ List.mem_cons_self, .inr ⟨relation, thing, found, has⟩⟩
  · exact ⟨tied, rfl, nofun⟩

theorem encoding (id : Int32) : Gives (Edits start base) (encoding id) fun id => [id] := fun got _ before =>
  lookup .encodings ordinary_encodingView mutatorThread id before fun edits =>
    ⟨edits, rfl, by rintro _ ⟨⟩; exact .encoding id 1⟩

theorem target (target : Script.Target) : Gives (Edits start base) target.lookup fun id => [id] := by
  cases target with
  | entity kind oid => exact entity kind oid
  | attr relation attnum => exact attributeOf relation attnum
  | type oid typmod => exact typeWith oid typmod
  | encoding id => exact encoding id

/-! ## Slots -/

/-- A read of a slot is served a memo, fails, or computes and keeps what it computed. -/
theorem readSlot_ends {spec : SlotSpec} {access : Access} {compute : Task World (Computed Datum)}
    {mid : Except Interrupt (Computed Datum) → World → Prop} {post : Except Interrupt Datum → World → Prop}
    (served : ∀ datum, ((view id).place spec).peek world = some datum →
      post (.ok datum) (datum.refs.foldl (fun world id => hold id world) (count .slotHit world)))
    (failed : ∀ interrupt, post (.error interrupt) world) (ran : spec.refusal access = none → compute.Ends world mid)
    (kept : ∀ datum cell after, (view id).cell spec world = .ok cell world → mid (.ok (.cached datum)) after →
      post (.ok datum) (onTable id (·.keep spec.index ⟨datum, cell⟩) (count .slotCompute after)))
    (passed : ∀ datum after, mid (.ok (.transient datum)) after → post (.ok datum) (count .slotTransient after))
    (broken : ∀ interrupt after, mid (.error interrupt) after → post (.error interrupt) after) :
    (readSlot id spec access compute).Ends world post := by
  refine .next (Task.get_run world) ?_
  cases kept' : ((view id).place spec).peek world with
  | some datum =>
    have its := kept'
    rw [Coherence.TableView.peek_place] at its
    obtain ⟨memo, found, valid⟩ := Option.bind_eq_some_iff.mp its
    unfold Coherence.Memo.get? at valid
    split at valid
    · next isValid =>
      cases valid
      exact .next (Coherence.TableView.read_memo found isValid) (served _ kept')
    · cases valid
  | none =>
    suffices ends : ((view id).read spec access compute).Ends world post from ends.bind (fun _ _ after => after) fun _ _ after => after
    refine Coherence.TableView.read_ends (fun _ => failed _) (fun memo found valid => ?_) (fun fault _ => failed _)
      ran kept passed broken
    rw [Coherence.TableView.peek_place, found, Option.bind_some, Coherence.Memo.get?, if_pos valid] at kept'
    cases kept'

theorem readSlot {spec : SlotSpec} {access : Access} {compute : Task World (Computed Datum)}
    (other : spec.index ≠ Catalog.typeDescriptor.index)
    (computes : Gives (Edits start base) compute fun computed => computed.value.refs) :
    Gives (Edits start base) (readSlot id spec access compute) Datum.refs := by
  intro got world before
  refine readSlot_ends (fun datum peeked => ?_) (fun _ => before) (fun _ => computes got world before)
    (fun datum cell after _ edits => (edits.step (.counted _)).step (.kept id spec.index cell other))
    (fun datum after edits => edits.step (.counted _)) fun _ _ edits => edits
  exact (before.step (.counted _)).step (.served id spec peeked other)

theorem linkSlot {spec : SlotSpec} {access : Access} {compute : Task World (Computed Datum)}
    (other : spec.index ≠ Catalog.typeDescriptor.index)
    (computes : Gives (Edits start base) compute fun computed => computed.value.refs) :
    Gives (Edits start base) (linkSlot id spec access compute) Option.toList := by
  intro got world before
  refine (readSlot other computes).next before fun datum after edits => ?_
  cases datum with
  | link target => exact edits
  | _ => exact edits

/-! ## Rows and columns -/

/-- The mutator finds rows; nothing but the search is counted. -/
theorem search (id : ThingId) : Gives (Edits start base) (search id) fun computed => computed.value.refs := by
  refine (Gives.requireEntity id).bind fun entity => ?_
  have searches : Minds (Edits start base) (onProvider (Provider.search entity.rowKey)) := by
    intro got world before
    refine onProvider_ends (.next (Task.modify_run _ _) (.next (Task.get_run _) ?_))
    unfold Task.ofExcept
    split <;> exact before.step (.asked _ rfl rfl)
  refine searches.bind fun found => ?_
  cases found with
  | some address => exact .giving fun _ _ before => before
  | none => exact .throw _

/-- What is read of a column leads to nothing. -/
theorem lessAll (ids : List ThingId) (edits : Edits start base (ids ++ got) world) : Edits start base got world := by
  induction ids with
  | nil => exact edits
  | cons id ids ih => exact ih (edits.step .less)

theorem tuple (id : ThingId) (access : Access) : Minds (Edits start base) (tuple id access) := by
  refine (Gives.requireEntity id).bind fun entity got world before => ?_
  have other : (0 : Nat) ≠ Catalog.typeDescriptor.index := by decide
  refine (readSlot other (search id)).next before fun datum after edits => ?_
  have less := edits.lessAll datum.refs
  cases datum <;> exact less

theorem rowValue (id : ThingId) (access : Access) (source : String) (type : Storage.ColumnType) :
    Minds (Edits start base) (rowValue id access source type) :=
  (tuple id access).bind fun _ => Gives.requireOpen.bind fun _ => (Gives.requireEntity id).bind fun _ =>
    .get_bind fun _ => (Gives.ofExcept _).bind fun _ => .get_bind fun _ => .ofOutcome _

theorem rowOid (id : ThingId) (access : Access) (source : String) : Minds (Edits start base) (rowOid id access source) := by
  refine (rowValue id access source _).bind fun value => ?_
  cases value with
  | oid oid => exact .pure oid
  | _ => exact .throw _

theorem column (id : ThingId) (field : Column) (access : Access) : Minds (Edits start base) (column id field access) := by
  have other : field.spec.index ≠ Catalog.typeDescriptor.index := by cases field <;> decide
  have computes : Gives (Edits start base) (do
      return .cached (.column (← World.rowValue id access field.info.source field.info.type)))
        fun (computed : Computed Datum) => computed.value.refs :=
    (rowValue id access _ _).bind fun value => .giving fun _ _ before => before
  intro got world before
  refine (readSlot other computes).next before fun datum after edits => ?_
  have less := edits.lessAll datum.refs
  cases datum <;> exact less

theorem oidColumn (id : ThingId) (field : Column) (access : Access) :
    Minds (Edits start base) (oidColumn id field access) := by
  refine (column id field access).bind fun value => ?_
  cases value with
  | oid oid => exact .pure oid
  | _ => exact .throw _

theorem typmodColumn (id : ThingId) (field : Column) (access : Access) :
    Minds (Edits start base) (typmodColumn id field access) := by
  refine (column id field access).bind fun value => ?_
  cases value with
  | i32 typmod => exact .pure typmod
  | _ => exact .throw _

theorem countColumn (id : ThingId) (field : Column) (access : Access) :
    Minds (Edits start base) (countColumn id field access) := by
  refine (column id field access).bind fun value => ?_
  cases value with
  | i16 count => exact .pure count
  | _ => exact .throw _

theorem nameColumn (id : ThingId) (field : Column) (access : Access) :
    Minds (Edits start base) (nameColumn id field access) := by
  refine (column id field access).bind fun value => ?_
  cases value with
  | name name => exact .pure name
  | _ => exact .throw _

/-! ## Links -/

theorem track (field : Link) (oid : Oid) (target : ThingId) (before : Edits start base got world) :
    Edits start base got (track field oid target world) := by
  unfold World.track
  split
  · exact before.step (.tied target _ fun ties => by cases ties <;> rfl)
  · exact before.step (.tied target _ fun ties => by cases ties <;> rfl)
  · exact before

theorem resolve (id : ThingId) (field : Link) (access : Access) :
    Gives (Edits start base) (resolve id field access) fun computed => computed.value.refs := by
  refine (rowOid id access _).bind fun oid => ?_
  dsimp only
  split
  · exact .giving fun _ _ before => before
  · refine Gives.requireOpen.bind fun _ got world before => ?_
    refine (entity _ oid).next before fun target after edits => ?_
    refine (Gives.requireEntity id _ after edits).bind (fun entity last edits => ?_) fun _ _ edits => edits.step .less
    exact edits.track field _ target

theorem link (id : ThingId) (field : Link) (access : Access) :
    Gives (Edits start base) (link id field access) Option.toList := by
  have other : field.spec.index ≠ Catalog.typeDescriptor.index := by cases field <;> decide
  exact linkSlot other (resolve id field access)

theorem attributeType (id : ThingId) (access : Access) :
    Gives (Edits start base) (attributeType id access) Option.toList := by
  refine linkSlot (by decide) ((oidColumn id _ access).bind fun oid =>
    (typmodColumn id _ access).bind fun typmod => Gives.requireOpen.bind fun _ got world before => ?_)
  exact (typeWith oid typmod).next before fun type after edits => edits

theorem rowType (id : ThingId) (access : Access) : Gives (Edits start base) (rowType id access) Option.toList := by
  refine (oidColumn id _ access).bind fun oid => ?_
  split
  · refine Gives.requireOpen.bind fun _ got world before => ?_
    exact (entity .type oid).next before fun type after edits => edits
  · exact .giving fun _ _ before => before

/-! ## Descriptors -/

theorem relationColumns (oid : Oid) (access : Access) (attnums : List Int16) :
    Minds (Edits start base) (relationColumns oid access attnums) := by
  induction attnums with
  | nil => exact .pure []
  | cons attnum rest ih =>
    intro got world before
    refine (attributeOf oid attnum).next before fun one after edits => ?_
    have described : Minds (Edits start base) do
        let name ← World.nameColumn one .attributeName access
        let typeOid ← World.oidColumn one .attributeTypeOid access
        let typmod ← World.typmodColumn one .attributeTypmod access
        return { attnum, name := some name, typeOid, typmod : DescriptorColumn } :=
      (nameColumn one _ access).bind fun _ => (oidColumn one _ access).bind fun _ =>
        (typmodColumn one _ access).bind fun _ => .pure _
    refine (ensuring (described (one :: got) after edits)).bind (fun first last edits => ?_) fun _ _ after => after
    exact (ih.bind fun _ => .pure _) got last edits

theorem relationDescriptor (id : ThingId) (access : Access) :
    Gives (Edits start base) (relationDescriptor id access) Option.toList := by
  refine linkSlot (by decide) ((countColumn id _ access).bind fun natts =>
    (oidColumn id _ access).bind fun rowType => Gives.requireOpen.bind fun _ =>
      (Gives.requireEntity id).bind fun entity => ?_)
  refine (relationColumns _ access _).bind fun columns got world before => ?_
  exact .next rfl (before.step (.added (.descriptor rfl)))

theorem compositeColumns (id : ThingId) (access : Access) :
    Gives (Edits start base) (compositeColumns id access) fun computed => computed.value.refs := by
  intro got world before
  refine (link id .typeRelation access).next before fun target after edits => ?_
  cases target with
  | none => exact edits
  | some relation =>
    exact (ensuring (relationDescriptor relation access _ after edits)).bind (fun _ _ edits => edits) fun _ _ edits => edits

theorem encodingInfo (id : ThingId) (access : Access) : Minds (Edits start base) (encodingInfo id access) := by
  intro got world before
  refine (readSlot (by decide) ?_).next before fun datum after edits => ?_
  · refine Gives.requireOpen.bind fun _ => .get_bind fun state => ?_
    split
    · refine .get_bind fun state => (Gives.ofExcept _).bind fun info => ?_
      cases info with
      | some info => exact .giving fun _ _ before => before
      | none => exact .throw _
    · exact .throw _
  · have less := edits.lessAll datum.refs
    cases datum <;> exact less

theorem requireEntity_ends (id : ThingId) (world : World) : (requireEntity id).Ends world fun outcome after =>
    after = world ∧ ∀ entity, outcome = .ok entity → world.entity? id = some entity := by
  refine .next (Task.get_run world) ?_
  split
  · next entity found => exact ⟨rfl, by rintro _ ⟨⟩; exact found⟩
  · exact ⟨rfl, nofun⟩

/-- Every field but the columns of types is read by edits. -/
theorem read (id : ThingId) (access : Access) {accessor : Accessor} (other : accessor ≠ .typeDescriptor) :
    Gives (Edits start base) (accessor.read id access) Reading.refs := by
  cases accessor with
  | oid | attnum | typmod | interned | rowKey | routines =>
    exact (Gives.requireEntity id).bind fun entity => .giving fun _ _ before => before
  | owner =>
    intro got world before
    refine (requireEntity_ends id world).bind ?_ ?_
    · rintro entity _ ⟨rfl, found⟩
      split
      · next relation first => exact before.step (.owned (found entity rfl) (List.mem_of_head? first))
      · exact before
    · rintro _ _ ⟨rfl, -⟩
      exact before
  | column field => exact Carried.reading .value (fun _ => rfl) (column id field access)
  | composite =>
    exact (column id .typeKind access).bind fun kind => .giving fun _ _ before => before
  | link field => exact Carried.reading .thing (fun _ => rfl) (link id field access)
  | attributeType => exact Carried.reading .thing (fun _ => rfl) (attributeType id access)
  | rowType => exact Carried.reading .thing (fun _ => rfl) (rowType id access)
  | relationDescriptor => exact Carried.reading .thing (fun _ => rfl) (relationDescriptor id access)
  | typeDescriptor => exact absurd rfl other
  | encodingId =>
    refine .get_bind fun state => ?_
    split
    · exact .giving fun _ _ before => before
    · exact .throw _
  | encodingName | encodingMaxCharLen | encodingInfo =>
    exact (encodingInfo id access).bind fun info => .giving fun _ _ before => before

/-! ## Finding and evicting -/

theorem releaseAll (ids : List ThingId) (edits : Edits start base (ids ++ got) world) :
    Edits start base got (ids.foldl (fun world id => World.release id world) world) := by
  induction ids generalizing world with
  | nil => exact edits
  | cons id ids ih => exact ih (edits.step (.released id))

theorem find (kind : EntityClass) (key : EntityKey) (before : Edits start base got world) :
    Edits start base got (find kind key world).2 :=
  releaseAll _ (before.step (.got? (.entities kind) (ordinary_entityView kind) key))

theorem findAll (kind : EntityClass) (keys : List EntityKey) (before : Edits start base got world) :
    Edits start base got (findAll kind keys world).2 := by
  induction keys generalizing world with
  | nil => exact before
  | cons key keys ih => exact ih (before.find kind key)

theorem targets (kind : EntityClass) (object : Oid) (before : Edits start base got world) :
    Edits start base got (targets kind object world).2 := by
  unfold World.targets
  dsimp only
  split
  · split <;> exact before.findAll _ _
  · exact before

theorem evict (key : EntityKey) (before : Edits start base got world) : Edits start base got (evict key world).2 := by
  unfold World.evict
  split
  · exact before
  · next kind _ =>
    have indexed : Edits start base got (if kind = .type then unindexTypmod key world else world) := by
      obtain ⟨typmods, same⟩ : ∃ typmods, (if kind = .type then unindexTypmod key world else world) = { world with typmods } := by
        unfold unindexTypmod
        split
        · split
          · exact ⟨_, rfl⟩
          · split
            · exact ⟨_, rfl⟩
            · split <;> exact ⟨_, rfl⟩
        · exact ⟨_, rfl⟩
      rw [same]
      exact before.step (.typmods typmods)
    dsimp only
    generalize (if kind = .type then unindexTypmod key world else world) = world at indexed
    have evicted := indexed.step (.evicted (.entities kind) (ordinary_entityView kind) key)
    generalize (entityView kind).evict key world = left at evicted
    obtain ⟨_ | id, after⟩ := left
    · exact evicted
    · exact (evicted.step (.marked id)).step (.released id)

theorem evictAll (keys : List EntityKey) (before : Edits start base got world) :
    Edits start base got (evictAll keys world).2 := by
  induction keys generalizing world with
  | nil => exact before
  | cons key keys ih => exact ih (before.evict key)

theorem evictDescriptors (addresses : List Address) (before : Edits start base got world) :
    Edits start base got (evictDescriptors addresses world).2 := by
  induction addresses generalizing world with
  | nil => exact before
  | cons address addresses ih => exact ih (before.step (.dismissed address))

/-! ## Clean-up -/

theorem purge (before : Edits start base got world) : Edits start base got (purge world).2 := by
  have entities := foldl_total_keeps EntityClass.all 0
    (fun kind world (before : Edits start base got world) => before.step (.purged (.entities kind))) before
  unfold World.purge
  generalize EntityClass.all.foldl _ _ = state at entities ⊢
  exact (entities.step (.purged .descriptors)).step (.purged .encodings)

theorem relieve (before : Edits start base got world) : Edits start base got (relieve world).2 := by
  have entities := foldl_total_keeps EntityClass.all 0
    (fun kind world (before : Edits start base got world) => before.step (.relieved (.entities kind))) before
  unfold World.relieve
  generalize EntityClass.all.foldl _ _ = state at entities ⊢
  exact (entities.step (.relieved .descriptors)).step (.relieved .encodings)

end Edits

/-! ## Signals -/

namespace Batched

variable {α : Type} {start got : List ThingId} {base world : World}

/-- What each step of a collection leads to, the whole collection leads to. -/
theorem foldl {f : Cascade × World → α → Cascade × World} (list : List α) (cascade : Cascade)
    (each : ∀ {world} cascade one, Batched start base cascade.trips got world →
      Batched start base (f (cascade, world) one).1.trips got (f (cascade, world) one).2)
    (before : Batched start base cascade.trips got world) :
    Batched start base (list.foldl f (cascade, world)).1.trips got (list.foldl f (cascade, world)).2 := by
  induction list generalizing cascade world with
  | nil => exact before
  | cons one list ih => exact ih _ (each cascade one before)

theorem trips_evict (cascade : Cascade) (key : EntityKey) : (cascade.evict key).trips = cascade.trips := by
  unfold Cascade.evict
  split <;> rfl

theorem tripThing (cascade : Cascade) (id : ThingId) (before : Batched start base cascade.trips got world) :
    Batched start base (tripThing id (cascade, world)).1.trips got (tripThing id (cascade, world)).2 := by
  unfold World.tripThing
  dsimp only
  split
  · exact before
  · exact before.detached _

theorem invalidateAlone (change : Change) (cascade : Cascade) (id : ThingId)
    (before : Batched start base cascade.trips got world) :
    Batched start base (invalidateAlone change id (cascade, world)).1.trips got
      (invalidateAlone change id (cascade, world)).2 := by
  have tripped := before.tripThing cascade id
  unfold World.invalidateAlone
  dsimp only
  split
  · rw [trips_evict]
    exact tripped
  · exact tripped

theorem invalidateTypes (oids : List Oid) (cascade : Cascade) (before : Batched start base cascade.trips got world) :
    Batched start base (invalidateTypes oids (cascade, world)).1.trips got (invalidateTypes oids (cascade, world)).2 := by
  induction oids generalizing cascade world with
  | nil => exact before
  | cons oid oids ih =>
    have found := before.edits (Edits.refl.findAll .type (world.typeKeys oid))
    exact ih _ (foldl _ cascade (invalidateAlone .updated) found)

theorem invalidateRoutines (oids : List Oid) (cascade : Cascade) (before : Batched start base cascade.trips got world) :
    Batched start base (invalidateRoutines oids (cascade, world)).1.trips got
      (invalidateRoutines oids (cascade, world)).2 := by
  have found := before.edits (Edits.refl.findAll .routine (oids.map EntityClass.routine.key))
  exact foldl _ cascade (invalidateAlone .updated) found

theorem invalidate (change : Change) (cascade : Cascade) (id : ThingId)
    (before : Batched start base cascade.trips got world) :
    Batched start base (invalidate change id (cascade, world)).1.trips got (invalidate change id (cascade, world)).2 := by
  have tripped := before.tripThing cascade id
  unfold World.invalidate
  split
  · exact before
  · next entity _ =>
    split
    · have types := (tripped.step (.tied id Ties.withoutTypes fun ties => by cases ties <;> rfl)).invalidateTypes
        entity.ties.types
      dsimp only
      split
      · exact types
      · have left := types.step (.tied id Ties.withoutAttributes fun ties => by cases ties <;> rfl)
        rw [← trips_evict _ entity.key] at left
        generalize (Cascade.evict _ entity.key) = cascade at left ⊢
        -- the attributes are condemned together with the relation
        suffices same : (entity.ties.attributes.foldl
            (fun cascade attnum => cascade.evict (attributeKey entity.key.object attnum)) cascade).trips = cascade.trips by
          rw [same]
          exact left
        generalize entity.ties.attributes = attnums
        clear left
        induction attnums generalizing cascade with
        | nil => rfl
        | cons attnum attnums ih => exact (ih _).trans (trips_evict cascade _)
    · have routines := (tripped.step (.tied id Ties.withoutRoutines fun ties => by cases ties <;> rfl)).invalidateRoutines
        entity.ties.routines
      dsimp only
      split
      · exact routines
      · rw [trips_evict]
        exact routines
    · exact before.invalidateAlone change cascade id

theorem collectRow (kind : EntityClass) (object : Oid) (change : Change) (cascade : Cascade)
    (before : Batched start base cascade.trips got world) :
    Batched start base (collectRow kind object change (cascade, world)).1.trips got
      (collectRow kind object change (cascade, world)).2 := by
  have found := before.edits (Edits.refl.targets kind object)
  exact foldl _ cascade (invalidate _) found

theorem collect (cascade : Cascade) (signal : Signal) (before : Batched start base cascade.trips got world) :
    Batched start base (collect signal (cascade, world)).1.trips got (collect signal (cascade, world)).2 := by
  cases signal with
  | row classOid object change =>
    unfold World.collect
    dsimp only
    split
    · exact before.collectRow _ object change cascade
    · exact before
  | scope address deleted => exact before
  | all =>
    unfold World.collect
    dsimp only
    generalize EntityClass.all = kinds
    exact foldl kinds cascade (fun cascade kind before => before.collectRow kind _ .updated cascade) before

/-- The signals of a burst are collected. -/
theorem collectAll (signals : List Signal) (before : Batched start base {} got world) :
    Batched start base (collectAll signals world).1.trips got (collectAll signals world).2 :=
  foldl signals {} (fun cascade signal before => (before.step (.counted _)).collect cascade signal) before

theorem tripBatch {trips : Batch} (before : Batched start base trips got world) :
    Batched start base {} got (tripBatch trips world).2 := before.tripped

theorem tripStale (before : Batched start base {} got world) : Batched start base {} got (tripStale world).2 :=
  (foldl _ {} tripThing before).tripBatch

end Batched

/-! ## What is carried -/

/-- What the few changes keep that native resources have to do with, every edit keeps. -/
theorem Carried.edit {holds : List ThingId → World → Prop} (carried : Carried holds) {got got' : List ThingId}
    {world after : World} (before : holds got world) (edit : Edit got world got' after) : holds got' after := by
  -- The shelves differ in what becomes of a value let go, and all of them are tended.
  have tended {κ : Type} {view : CacheView World κ ThingId} (shelf : Shelf view) : Tended view := by
    cases shelf with
    | entities kind => exact (ordinary_entityView kind).toTended
    | descriptors => exact tended_descriptorView
    | encodings => exact ordinary_encodingView.toTended
  cases edit with
  | perm same => exact carried.perm same before
  | less => exact carried.less before
  | counted tally => exact carried.tally tally before
  | asked provider native _ =>
    have aside : Aside world { world with provider } := ⟨fun _ => rfl, by simp only [World.native, native]⟩
    exact carried.aside aside before
  | gated => exact carried.gates _ before
  | typmods typmods =>
    have aside : Aside world { world with typmods } := ⟨fun _ => rfl, rfl⟩
    exact carried.aside aside before
  | tied id f _ => exact carried.onTies id f before
  | marked id => exact carried.onTable id _ before
  | kept id index cell _ => exact carried.onTable id _ before
  | served _ _ _ _ => exact carried.holdAll _ before
  | owned _ _ => exact carried.hold _ before
  | released id => exact carried.release before
  | added fresh => exact carried.add fresh.unguarded before
  | sought _ ordinary thread key => exact carried.aside (ordinary.claim _ _ _) before
  | found _ ordinary hit =>
    obtain ⟨-, rfl⟩ := Prod.mk.inj hit
    exact carried.hold _ (carried.aside (ordinary.claim _ _ _) before)
  | made _ ordinary fresh _ =>
    unfold CacheView.settle
    simp only [ordinary.letGo]
    exact carried.reap _ (carried.aside (ordinary.claim _ _ _) (carried.add fresh.unguarded before))
  | abandoned _ ordinary key => exact carried.aside (ordinary.abandon _ _) before
  | got? shelf _ key => exact (tended shelf).get? carried key before
  | evicted shelf _ key => exact (tended shelf).evict carried key before
  | dismissed address => exact carried.releaseAll _ (tended_descriptorView.evict carried address before)
  | purged shelf => exact (tended shelf).purge carried before
  | relieved shelf => exact (tended shelf).relieve carried before

/-- And signals keep it. -/
theorem Carried.batched {holds : List ThingId → World → Prop} (carried : Carried holds) {start got : List ThingId}
    {base world : World} {trips : Batch} (before : holds start base) (batched : Batched start base trips got world) :
    holds got world :=
  Batched.keeps (fun before edit => carried.edit before edit) (fun _ before => carried.gates _ before)
    (fun before => carried.gates _ before) before batched

end World

end CatalogReplica.Catalog
