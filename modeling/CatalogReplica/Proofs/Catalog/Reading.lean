import CatalogReplica.Catalog.Accessor
import CatalogReplica.Proofs.Catalog.Apart
import CatalogReplica.Proofs.Coherence.Reads

/-!
# What a read of a slot does

A read of a slot of an entity serves what the entity trusts, or keeps what it computed and
trusts it from then on.  So what is right of a read follows from freshness afterwards; a
computation has to be right only where it is kept, and where it fails.

* `Computes`: what a computation has to ensure.
* `Reads`: what a read ensures.
* `readSlot_ends`: the one follows from the other.
-/

namespace CatalogReplica.Catalog

open Coherence (Access Computed Gates Memo SlotSpec TableView)
open Storage (Fetched)

namespace World

variable {world after : World} {unsignalled : List EntityKey} {id : ThingId} {entity : Entity}
  {field : EntityField} {access : Access} {got : List ThingId}

/-! ## Keeping -/

theorem Onward.keep (onward : Onward world after) (was : world.entity? id = some entity)
    (known : id < world.nextThing)
    (spent : ∀ memo, entity.table.memo? field.index = some memo → memo.isValid world.gates = false)
    {later : Entity} {datum : Datum} {cell : Coherence.CellId} (sound : after.Sound {} [])
    (accepts : after.Accepts id later field datum) :
    Onward world (after.keeping id field datum cell) where
  next := onward.next
  kept other thing' found known' := by
    rw [keeping, thing?_onThing] at found
    split at found
    · next same =>
      subst same
      rw [entity?_eq_some.mp accepts.found] at found
      cases found
      obtain ⟨later', found', becomes⟩ := onward.becomes was known (alive_of_entity accepts.found)
      obtain rfl := Option.some.inj (accepts.found.symm.trans found')
      refine ⟨_, entity?_eq_some.mp was, becomes.toSame.trans (later.same_keep _ _), becomes.refs,
        becomes.dependents, becomes.attributes, fun index memo kept valid => ?_⟩
      refine (memo?_keep (accepts.inside sound) _ index).trans ?_
      split
      · next isIndex =>
        subst isIndex
        have before := Gates.Onward.valid_before onward.gates.onward valid
        rw [spent memo kept] at before
        cases before
      · exact becomes.memos index memo kept valid
    · exact onward.kept other thing' found known'
  entries kind key other known' live :=
    onward.entries kind key other known' ((alive_onThing after id other _).symm.trans live)
  gates := onward.gates
  store := onward.store
  available := onward.available

/-- A slot without a valid memo keeps a value. -/
theorem Leads.keep (leads : Leads unsignalled got world after) (was : world.entity? id = some entity)
    (known : id < world.nextThing)
    (spent : ∀ memo, entity.table.memo? field.index = some memo → memo.isValid world.gates = false)
    {later : Entity} {datum : Datum} {cell : Coherence.CellId} (accepts : after.Accepts id later field datum)
    (current : after.gates.currentCell? later.gate = some cell)
    (right : after.Cached id later → Right unsignalled after later.kind later.key field datum) :
    Leads unsignalled got world (after.keeping id field datum cell) where
  stands := ⟨leads.stands.sound.keep accepts current, leads.stands.fresh.keep leads.stands.sound accepts current right,
    leads.stands.plain, leads.stands.available⟩
  onward := leads.onward.keep was known spent leads.stands.sound accepts
  claims := leads.claims
  held := leads.held

/-- Things are held. -/
theorem Leads.holdAll {ids : List ThingId} (stands : world.Stands unsignalled)
    (live : ∀ id ∈ ids, world.alive id = true) :
    Leads unsignalled ids world (ids.foldl (fun world id => World.hold id world) world) := by
  induction ids generalizing world with
  | nil => exact .refl stands
  | cons id ids inductionHypothesis =>
    have first := Leads.hold stands (live id List.mem_cons_self)
    exact first.trans (inductionHypothesis first.stands fun other among => live other (List.mem_cons_of_mem _ among))

/-! ## Computations and reads -/

/-- What the current rows give for the field is the interrupt, unless one of them was not
    signalled. -/
def Fails (unsignalled : List EntityKey) (world : World) (kind : EntityClass) (key : EntityKey) :
    EntityField → Interrupt → Prop
  | .tuple _, interrupt => Clean unsignalled key.classOid key.object →
      world.provider.rowAt kind (kind.rowKey key) = .error interrupt
  | .column field, interrupt => Clean unsignalled key.classOid key.object →
      world.provider.decode kind (kind.rowKey key) field.info.source field.info.type = .error interrupt
  | .link .typeRelation, interrupt => Clean unsignalled key.classOid key.object →
      world.provider.decode kind (kind.rowKey key) Link.typeRelation.info.source .oid = .error interrupt
  | .link _, _ | .attributeType, _ => True
  | .relationDescriptor, interrupt => Clean unsignalled EntityClass.relation.oid key.object →
      Clean unsignalled EntityClass.attr.oid key.object →
      world.provider.describe key.object = .error interrupt
  | .typeDescriptor, interrupt => ¬ key.Interned → Clean unsignalled key.classOid key.object →
      world.provider.decode kind (kind.rowKey key) Link.typeRelation.info.source .oid = .error interrupt ∨
        ∃ relation, world.provider.decode kind (kind.rowKey key) Link.typeRelation.info.source .oid
            = .ok (.oid relation) ∧ relation.isValid = true ∧
          (Clean unsignalled EntityClass.relation.oid relation →
            Clean unsignalled EntityClass.attr.oid relation →
            world.provider.describe relation = .error interrupt)

/-- Links lead to entities in their identity caches, those that are tracked to entities that
    know of it, and the columns of a type come with its relation. -/
structure Suits (world : World) (id : ThingId) (key : EntityKey) (field : EntityField) (datum : Datum) :
    Prop where
  target : ∀ kind target, field.leadsTo? = some kind → datum = .link (some target) →
    ∃ found, world.Cached target found ∧ found.kind = kind
  known : ∀ link target, field = .link link → link.Tracked → datum = .link (some target) →
    ∃ found, world.Cached target found ∧ found.kind = link.info.target ∧
      key.object ∈ found.ties.dependents
  relation : field = .typeDescriptor → ¬ key.Interned → ∃ later target,
    world.entity? id = some later ∧ later.Trusts {} world.gates Link.typeRelation.info.index target

/-- What a computation of a field has to ensure.  Only interned record types give what is
    not kept. -/
def Computes (unsignalled : List EntityKey) (id : ThingId) (entity : Entity) (field : EntityField)
    (access : Access) (world : World) : Except Interrupt (Computed Datum) → World → Prop
  | .ok (.cached datum), after => Leads unsignalled datum.refs world after ∧
      after.Suits id entity.key field datum ∧
      (world.Cached id entity → Right unsignalled after entity.kind entity.key field datum)
  | .ok (.transient datum), after => Leads unsignalled datum.refs world after ∧
      field = .typeDescriptor ∧ entity.key.Interned
  | .error interrupt, after => Leads unsignalled [] world after ∧ (access = .mutator →
      world.Cached id entity → Fails unsignalled world entity.kind entity.key field interrupt)

/-- What a read of a field ensures: what it gives is trusted afterwards.  A link that was not
    trusted before leads to an entity in its identity cache. -/
def Reads (unsignalled : List EntityKey) (id : ThingId) (entity : Entity) (field : EntityField)
    (access : Access) (world : World) : Except Interrupt Datum → World → Prop
  | .ok datum, after => Leads unsignalled datum.refs world after ∧
      ((field = .typeDescriptor ∧ entity.key.Interned) ∨ ∃ later, after.entity? id = some later ∧
        later.Trusts {} after.gates field.index datum ∧
        (entity.Trusts {} world.gates field.index datum ∨ ∀ kind target, field.leadsTo? = some kind →
          datum = .link (some target) → ∃ found, after.Cached target found))
  | .error interrupt, after => Leads unsignalled [] world after ∧ (access = .mutator →
      world.Cached id entity → Fails unsignalled world entity.kind entity.key field interrupt)

/-- What is read of a cached entity is right afterwards. -/
theorem Reads.right {datum : Datum} (reads : Reads unsignalled id entity field access world (.ok datum) after)
    (plain : field = .typeDescriptor → ¬ entity.key.Interned) (kind : field.kind = entity.kind)
    (stands : world.Stands unsignalled) (cached : world.Cached id entity) (held : id ∈ world.held) :
    Right unsignalled after entity.kind entity.key field datum := by
  obtain ⟨leads, ⟨isType, interned⟩ | ⟨later, found, trusts, -⟩⟩ := reads
  · exact absurd interned (plain isType)
  · obtain ⟨later', cached', becomes⟩ := leads.cached stands cached held
    obtain rfl := Option.some.inj (found.symm.trans cached'.1)
    have right := leads.stands.fresh id later field datum cached' (kind.trans becomes.kind.symm) trusts
    rw [becomes.kind, becomes.key] at right
    exact right

section readSlot

variable {compute : Task World (Computed Datum)}

theorem view_get? (found : world.entity? id = some entity) : (view id).get? world = some entity.table := by
  rw [show (view id).get? world = (world.thing? id).bind (·.table?) from rfl, entity?_eq_some.mp found]
  rfl

/-- A valid memo is served, and what it leads to is held. -/
theorem readSlot_serves (found : world.entity? id = some entity) {memo : Memo Datum}
    (kept : entity.table.memo? field.index = some memo) (valid : memo.isValid world.gates = true) :
    readSlot id field.spec access compute world = .ok memo.value
      (memo.value.refs.foldl (fun world id => World.hold id world) (count .slotHit world)) := by
  have isMemo : (view id).memo? field.spec world = some memo := by
    rw [TableView.memo?, view_get? found]
    exact kept
  have peeked : ((view id).place field.spec).peek world = some memo.value := by
    rw [TableView.peek_place, isMemo, Option.bind_some, Memo.get?]
    exact if_pos valid
  refine (Task.bind_ok (Task.get_run world)).trans ((Task.bind_ok (TableView.read_memo isMemo valid)).trans ?_)
  rw [peeked]
  rfl

theorem readSlot_memo (stands : world.Stands unsignalled) (found : world.entity? id = some entity)
    {memo : Memo Datum} (kept : entity.table.memo? field.index = some memo)
    (valid : memo.isValid world.gates = true) :
    (readSlot id field.spec access compute).Ends world (Reads unsignalled id entity field access world) := by
  refine (Task.Ends.of_ok (readSlot_serves found kept valid)).mpr ?_
  have counted := Leads.of_core stands (show (count .slotHit world).core = world.core from rfl)
  have leads := counted.trans (.holdAll counted.stands fun other among =>
    stands.sound.closed id _ (entity?_eq_some.mp found) other (Thing.mem_refs_of_memo kept among))
  have trusts : entity.Trusts {} world.gates field.index memo.value := ⟨memo, kept, rfl, valid, List.not_mem_nil⟩
  refine ⟨leads, .inr ⟨entity, ?_, ?_, .inl trusts⟩⟩ <;> rw [foldl_hold]
  · exact found
  · exact trusts

theorem has_slot (stands : world.Stands unsignalled) (found : world.entity? id = some entity)
    (kind : field.kind = entity.kind) : (view id).Has field.spec world := by
  have shaped := stands.sound.shaped id entity found
  refine ⟨entity.table, view_get? found, ?_, fun index bound => ⟨entity.gate, ?_⟩⟩
  · rw [shaped.slots, ← kind]
    exact field.index_lt
  · rw [field.binding, Coherence.Binding.gate.injEq] at bound
    rw [shaped.gated, ← bound]
    rfl

theorem cell_run (stands : world.Stands unsignalled) (found : world.entity? id = some entity) :
    (view id).cell field.spec world = .ok (world.gates.currentCell? entity.gate) world := by
  have shaped := stands.sound.shaped id entity found
  unfold TableView.cell
  rw [field.binding]
  refine (Task.bind_ok (Task.get_run world)).trans ?_
  rw [view_get? found, Option.bind_some, shaped.gated]
  rfl

/-- A computed value is kept under the cell that was current before, and trusted.  If it leads to
    an entity, that one is in its identity cache. -/
theorem keep_trusts (stands : world.Stands unsignalled) (found : world.entity? id = some entity)
    (held : id ∈ world.held) (kind : field.kind = entity.kind)
    (spent : ∀ memo, entity.table.memo? field.index = some memo → memo.isValid world.gates = false)
    {cell : Coherence.CellId} (current : world.gates.currentCell? entity.gate = some cell) {datum : Datum}
    (computed : Computes unsignalled id entity field access world (.ok (.cached datum)) after) :
    let last := (view id).update (·.keep field.index ⟨datum, some cell⟩) ((view id).count .slotCompute after)
    Leads unsignalled datum.refs world last ∧ ∃ later, last.entity? id = some later ∧
      later.Trusts {} last.gates field.index datum ∧ ∀ kind target, field.leadsTo? = some kind →
        datum = .link (some target) → ∃ found, last.Cached target found := by
  obtain ⟨leads, suits, right⟩ := computed
  let counted : World := count .slotCompute after
  have toCounted : Leads unsignalled datum.refs world counted := leads.further (.of_core leads.stands rfl)
  obtain ⟨later, its, becomes⟩ := toCounted.becomes stands found held
  have known := stands.sound.below id (alive_of_entity found)
  have accepts : counted.Accepts id later field datum := by
    refine ⟨its, kind.trans becomes.kind.symm, fun other among => ?_, suits.target,
      fun link target isLink tracked isDatum => ?_, fun isType plain => ?_⟩
    · exact toCounted.stands.sound.holding other (toCounted.gives among)
    · rw [becomes.key]
      exact suits.known link target isLink tracked isDatum
    · obtain ⟨later', target, its', trusts⟩ := suits.relation isType (becomes.key ▸ plain)
      obtain rfl := Option.some.inj (its.symm.trans its')
      exact ⟨target, trusts⟩
  -- the cell was taken before the computation; nothing that was read tripped the gate
  have still : counted.gates.currentCell? later.gate = some cell := by
    rw [becomes.gate]
    exact toCounted.onward.gates.current _ _ current
  have kept := toCounted.keep found known spent accepts still fun cached => by
    have before := toCounted.onward.cached_before found known cached
    rw [becomes.kind, becomes.key]
    exact right before
  have reaped : Leads unsignalled [] (counted.keeping id field datum cell)
      ((view id).update (·.keep field.index ⟨datum, some cell⟩) ((view id).count .slotCompute after)) :=
    .reaped kept.stands (reap_reaped _ _)
  have trusts := (accepts.trusts toCounted.stands.sound still).mpr (.inl ⟨rfl, rfl⟩)
  obtain ⟨last, found', becomes'⟩ := reaped.becomes kept.stands accepts.own (kept.holds held)
  refine ⟨kept.further reaped, last, found', kept.stands.trusts reaped.onward accepts.own becomes' trusts,
    fun kind target leadsTo isLink => ?_⟩
  obtain ⟨found, cached, -⟩ := accepts.target kind target leadsTo isLink
  obtain ⟨later', cached', -⟩ := accepts.stillCached cached
  have given : target ∈ datum.refs := by
    rw [isLink]
    exact List.mem_cons_self
  obtain ⟨last', cached'', -⟩ := reaped.cached kept.stands cached' (kept.gives given)
  exact ⟨last', cached''⟩

/-- What was computed is read, and kept. -/
theorem keep_reads (stands : world.Stands unsignalled) (found : world.entity? id = some entity)
    (held : id ∈ world.held) (kind : field.kind = entity.kind)
    (spent : ∀ memo, entity.table.memo? field.index = some memo → memo.isValid world.gates = false)
    {cell : Coherence.CellId} (current : world.gates.currentCell? entity.gate = some cell) {datum : Datum}
    (computed : Computes unsignalled id entity field access world (.ok (.cached datum)) after) :
    Reads unsignalled id entity field access world (.ok datum)
      ((view id).update (·.keep field.index ⟨datum, some cell⟩) ((view id).count .slotCompute after)) := by
  obtain ⟨leads, later, its, trusts, target⟩ := keep_trusts stands found held kind spent current computed
  exact ⟨leads, .inr ⟨later, its, trusts, .inr target⟩⟩

/-- Nothing is served just if no valid memo is kept. -/
theorem peek_eq_none (found : world.entity? id = some entity) : ((view id).place field.spec).peek world = none ↔
    ∀ memo, entity.table.memo? field.index = some memo → memo.isValid world.gates = false := by
  have isMemo : (view id).memo? field.spec world = entity.table.memo? field.index := by
    rw [TableView.memo?, view_get? found]
    rfl
  rw [TableView.peek_place, isMemo]
  cases entity.table.memo? field.index with
  | none => simp
  | some memo =>
    change memo.get? world.gates = none ↔ _
    simp [Memo.get?]

/-- Reading a field of which no valid memo is kept. -/
theorem readSlot_empty {mid : Except Interrupt (Computed Datum) → World → Prop} {post : Except Interrupt Datum → World → Prop}
    (field : EntityField) (stands : world.Stands unsignalled) (found : world.entity? id = some entity)
    (kind : field.kind = entity.kind) (empty : ((view id).place field.spec).peek world = none)
    (refused : ∀ fault, field.spec.refusal access = some fault → post (.error (.fault fault)) world)
    (ran : field.spec.refusal access = none → compute.Ends world mid)
    (kept : ∀ datum cell after, world.gates.currentCell? entity.gate = some cell → mid (.ok (.cached datum)) after →
      post (.ok datum) ((view id).update (·.keep field.index ⟨datum, some cell⟩) ((view id).count .slotCompute after)))
    (passed : ∀ datum after, mid (.ok (.transient datum)) after → post (.ok datum) (count .slotTransient after))
    (broken : ∀ interrupt after, mid (.error interrupt) after → post (.error interrupt) after) :
    (readSlot id field.spec access compute).Ends world post := by
  suffices read : ((view id).read field.spec access compute).Ends world post by
    refine .next (Task.get_run world) (read.bind ?_ fun _ _ after => after)
    rw [empty]
    exact fun datum after reads => .pure reads
  refine TableView.read_ends (fun lacks => absurd (has_slot stands found kind) lacks) (fun memo kept isValid => ?_) refused ran
    ?_ passed broken
  · rw [TableView.peek_place, kept, Option.bind_some, Memo.get?, if_pos isValid] at empty
    cases empty
  · intro datum cell after taken computed
    obtain ⟨fresh, current⟩ := Gates.currentCell?_isSome (stands.sound.shaped id entity found).known
    rw [cell_run stands found, current] at taken
    cases taken
    exact kept datum fresh after current computed

/-- Reading a field, from what its computation ensures. -/
theorem readSlot_ends (field : EntityField) (stands : world.Stands unsignalled) (found : world.entity? id = some entity)
    (held : id ∈ world.held) (kind : field.kind = entity.kind)
    (computes : compute.Ends world (Computes unsignalled id entity field access world)) :
    (readSlot id field.spec access compute).Ends world (Reads unsignalled id entity field access world) := by
  by_cases valid : ∃ memo, entity.table.memo? field.index = some memo ∧ memo.isValid world.gates = true
  · obtain ⟨memo, kept, valid⟩ := valid
    exact readSlot_memo stands found kept valid
  -- there is no valid memo, so nothing is served
  have spent (memo : Memo Datum) (kept : entity.table.memo? field.index = some memo) :
      memo.isValid world.gates = false :=
    Bool.eq_false_iff.mpr fun isValid => valid ⟨memo, kept, isValid⟩
  refine readSlot_empty field stands found kind ((peek_eq_none found).mpr spent) (fun fault refused => ?_) (fun _ => computes)
    (fun datum cell after current computed => keep_reads stands found held kind spent current computed) ?_
    fun interrupt after fails => fails
  · refine ⟨.refl stands, fun isMutator => ?_⟩
    rw [isMutator, SlotSpec.refusal_mutator] at refused
    cases refused
  · rintro datum after ⟨leads, isType, interned⟩
    exact ⟨leads.further (.of_core leads.stands rfl), .inl ⟨isType, interned⟩⟩

end readSlot

end World

end CatalogReplica.Catalog
