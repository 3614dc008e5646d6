import CatalogReplica.Proofs.Native.Carrying

/-!
# Lookups and reads

Every lookup and every read of a field keeps what its few changes keep, and holds what it
gives.  A read of the columns of an interned record type may take a native descriptor over;
what is kept then is up to whoever keeps it.

* `World.Carried.entity`, `World.Carried.typeWith`, ...: lookups.
* `World.computes`: whether a read of a slot runs its computation.
* `World.typeColumns`, `World.compositeColumns`: the columns of types as they are computed.
* `World.Carried.readSlot_ends`: reads of slots.
* `World.Carried.read`: all fields but the columns of types.
-/

namespace CatalogReplica.Catalog

open Coherence (Access Computed GateId SlotSpec)

/-- The things that a reading gives. -/
def Reading.refs : Reading → List ThingId
  | .thing id => id.toList
  | _ => []

namespace World

variable {α : Type} {holds : List ThingId → World → Prop} {refs : α → List ThingId} {got : List ThingId}
  {world : World} {id : ThingId}

/-- Whether a read of a slot runs its computation: nothing valid is kept, the reader is not
    refused, and there are the slot and what governs it. -/
def computes (id : ThingId) (spec : SlotSpec) (access : Access) (world : World) : Bool :=
  (((view id).place spec).peek world).isNone && (spec.refusal access).isNone &&
    match ((view id).require spec >>= fun _ => (view id).cell spec) world with
    | .ok _ _ => true
    | .error _ _ => false

/-- The columns of a type as they are computed. -/
def typeColumns (id : ThingId) (access : Access) : Task World (Computed Datum) := do
  let type ← requireEntity id
  if type.isInternedRecord then recordDescriptor type.key.sub
  else
    match ← link id .typeRelation access with
    | none => return .cached (.link none)
    | some relation =>
        let descriptor ← Task.ensuring (relationDescriptor relation access) (release relation)
        return .cached (.link descriptor)

theorem typeDescriptor_eq (id : ThingId) (access : Access) :
    typeDescriptor id access = linkSlot id Catalog.typeDescriptor access (typeColumns id access) := rfl

/-- The columns of a composite type as they are computed: those of its relation, which is held meanwhile. -/
def compositeColumns (id : ThingId) (access : Access) : Task World (Computed Datum) := do
  match ← link id .typeRelation access with
  | none => return .cached (.link none)
  | some relation =>
      let descriptor ← Task.ensuring (relationDescriptor relation access) (release relation)
      return .cached (.link descriptor)

/-! ## Steps that change nothing -/

theorem Gives.requireOpen : Minds holds requireOpen :=
  .get_bind fun state => by
    split
    · exact .pure ()
    · exact .throw _

theorem Gives.requireValid (kind : EntityClass) (oid : Oid) : Minds holds (requireValid kind oid) := by
  unfold World.requireValid
  split
  · exact .pure ()
  · exact .throw _

theorem Gives.requireEntity (id : ThingId) : Minds holds (requireEntity id) :=
  .get_bind fun state => by
    split
    · exact .pure _
    · exact .throw _

theorem aside_indexTypmod (oid : Oid) (typmod : Int32) (world : World) :
    Aside world (indexTypmod oid typmod world) := by
  simp only [indexTypmod]
  split <;> exact ⟨fun _ => rfl, rfl⟩

section carried

variable (carried : Carried holds)

include carried

namespace Carried

/-! ## Lookups -/

theorem construct {make : Task World Thing}
    (makes : ∀ got world, holds got world → make.Ends world fun outcome after =>
      holds got after ∧ ∀ thing, outcome = .ok thing → thing.guard? = none) :
    Gives holds (construct make) fun id => [id] := by
  intro got world before
  refine (makes got world before).bind (fun thing after made => ?_) fun _ _ made => made.1
  exact carried.add (made.2 thing rfl) made.1

theorem lookup (kind : EntityClass) (key : EntityKey) {prepare : Task World (GateId × Ties)}
    (prepares : Minds holds prepare) : Gives holds (lookup kind key prepare) fun id => [id] := by
  refine (ordinary_entityView kind).lookup carried mutatorThread key (carried.construct fun got world before => ?_)
  refine (prepares got world before).bind (fun value after kept => ?_) fun _ _ kept => ⟨kept, nofun⟩
  exact ⟨kept, by rintro _ ⟨⟩; rfl⟩

theorem freshGate : Minds holds freshGate :=
  Gives.of_aside carried fun _ => ⟨fun _ => rfl, rfl⟩

theorem entity (kind : EntityClass) (oid : Oid) : Gives holds (entity kind oid) fun id => [id] :=
  (Gives.requireValid kind oid).bind fun _ =>
    carried.lookup kind _ (carried.freshGate.bind fun _ => .pure _)

theorem typeWith (oid : Oid) (typmod : Int32) : Gives holds (typeWith oid typmod) fun id => [id] := by
  refine (Gives.requireValid .type oid).bind fun _ => carried.lookup .type _ ?_
  refine Gives.bind (.modify fun got world before => ?_) fun _ => carried.freshGate.bind fun _ => .pure _
  exact carried.aside (aside_indexTypmod oid typmod world) before

theorem attributeOf (oid : Oid) (attnum : Int16) : Gives holds (attributeOf oid attnum) fun id => [id] := by
  intro got world before
  refine (carried.entity .relation oid).next before fun relation after held => ?_
  refine Gives.ensuring carried (carried.lookup .attr _ ?_ _ after held)
  refine Gives.bind (.modify fun got world before => carried.onTies relation _ before) fun _ => .get_bind fun state => ?_
  split
  · exact .pure _
  · exact .throw _

theorem encoding (id : Int32) : Gives holds (encoding id) fun id => [id] :=
  ordinary_encodingView.lookup carried mutatorThread id (carried.construct fun _ _ before => ⟨before, by rintro _ ⟨⟩; rfl⟩)

theorem target (target : Script.Target) : Gives holds target.lookup fun id => [id] := by
  cases target with
  | entity kind oid => exact carried.entity kind oid
  | attr relation attnum => exact carried.attributeOf relation attnum
  | type oid typmod => exact carried.typeWith oid typmod
  | encoding id => exact carried.encoding id

/-! ## Slots -/

omit carried in
theorem not_computes_of_peek {spec : SlotSpec} {access : Access} {datum : Datum}
    (kept : ((view id).place spec).peek world = some datum) : computes id spec access world = false := by
  simp [computes, kept]

omit carried in
theorem not_computes_of_refusal {spec : SlotSpec} {access : Access} {fault : Fault}
    (refused : spec.refusal access = some fault) : computes id spec access world = false := by
  simp [computes, refused]

omit carried in
/-- A read that breaks off before its computation. -/
theorem not_computes_of_crash {spec : SlotSpec} {access : Access} {interrupt : Interrupt} {after : World}
    (crashed : ((view id).require spec >>= fun _ => (view id).cell spec) world = .error interrupt after) :
    computes id spec access world = false := by
  simp [computes, crashed]

/-- A read of a slot keeps what its computation keeps, if the computation runs. -/
theorem readSlot_ends (spec : SlotSpec) (access : Access) {compute : Task World (Computed Datum)}
    (idle : computes id spec access world = false → holds got world)
    (ran : computes id spec access world = true →
      compute.Ends world (After holds (fun computed => computed.value.refs) got)) :
    (readSlot id spec access compute).Ends world (After holds Datum.refs got) := by
  refine .next (Task.get_run world) ?_
  cases kept : ((view id).place spec).peek world with
  | some datum =>
    -- the memo is served, and what it refers to is held
    have before := idle (not_computes_of_peek kept)
    rw [Coherence.TableView.peek_place] at kept
    obtain ⟨memo, found, valid⟩ := Option.bind_eq_some_iff.mp kept
    unfold Coherence.Memo.get? at valid
    split at valid
    · next isValid =>
      cases valid
      refine .next (Coherence.TableView.read_memo found isValid) ?_
      exact carried.holdAll _ (carried.count .slotHit before)
    · cases valid
  | none =>
    suffices ends : ((view id).read spec access compute).Ends world (After holds Datum.refs got) from
      ends.bind (fun datum after held => held) fun _ _ after => after
    unfold Coherence.TableView.read
    cases (view id).require_run spec world with
    | inr failed => exact .stop failed (idle (not_computes_of_crash (Task.bind_error failed)))
    | inl required =>
      refine .next required (Coherence.Place.read_ends (fun value peeked => ?_)
        (fun fault _ refused => idle (not_computes_of_refusal refused)) fun _ allowed => ?_)
      · rw [kept] at peeked
        cases peeked
      · cases (view id).cell_run spec world with
        | inr failed =>
          exact .stop failed (idle (not_computes_of_crash ((Task.bind_ok required).trans failed)))
        | inl taken =>
          obtain ⟨cell, taken⟩ := taken
          have computed : computes id spec access world = true := by
            simp [computes, kept, allowed, Task.bind_ok required, taken]
          refine Coherence.Place.compute_ends taken (ran computed) (fun value after held => ?_)
            (fun value after held => carried.count .slotTransient held) fun _ _ after => after
          exact carried.onTable id _ (carried.count .slotCompute held)

theorem readSlot (spec : SlotSpec) (access : Access) {compute : Task World (Computed Datum)}
    (keeps : Gives holds compute fun computed => computed.value.refs) :
    Gives holds (readSlot id spec access compute) Datum.refs := fun got world before =>
  carried.readSlot_ends spec access (fun _ => before) fun _ => keeps got world before

/-! ## Rows and columns -/

theorem search : Gives holds (search id) fun computed => computed.value.refs := by
  unfold World.search
  refine (Gives.requireEntity id).bind fun entity => ?_
  have searches : Minds holds (onProvider (Provider.search entity.rowKey)) := by
    refine Gives.of_aside carried fun world => onProvider_ends ?_
    refine .next (Task.modify_run _ _) (.next (Task.get_run _) ?_)
    unfold Task.ofExcept
    split <;> exact ⟨fun _ => rfl, rfl⟩
  refine searches.bind fun found => ?_
  cases found with
  | some address => exact .giving fun _ _ before => before
  | none => exact .throw _

theorem tuple (access : Access) : Minds holds (tuple id access) := by
  unfold World.tuple
  refine (Gives.requireEntity id).bind fun entity got world before => ?_
  refine (carried.readSlot _ access carried.search).next before fun datum after held => ?_
  have less := carried.lessAll datum.refs held
  cases datum <;> exact less

theorem rowValue (access : Access) (source : String) (type : Storage.ColumnType) :
    Minds holds (rowValue id access source type) :=
  (carried.tuple access).bind fun _ => Gives.requireOpen.bind fun _ => (Gives.requireEntity id).bind fun _ =>
    .get_bind fun _ => (Gives.ofExcept _).bind fun _ => .get_bind fun _ => .ofOutcome _

theorem rowOid (access : Access) (source : String) : Minds holds (rowOid id access source) := by
  refine (carried.rowValue access source _).bind fun value => ?_
  cases value with
  | oid oid => exact .pure oid
  | _ => exact .throw _

theorem column (field : Column) (access : Access) : Minds holds (column id field access) := by
  intro got world before
  refine (carried.readSlot _ access ((carried.rowValue access _ _).bind fun value => ?_)).next before
    fun datum after held => ?_
  · exact .giving fun _ _ before => before
  · have less := carried.lessAll datum.refs held
    cases datum <;> exact less

theorem oidColumn (field : Column) (access : Access) : Minds holds (oidColumn id field access) := by
  refine (carried.column field access).bind fun value => ?_
  cases value with
  | oid oid => exact .pure oid
  | _ => exact .throw _

theorem typmodColumn (field : Column) (access : Access) : Minds holds (typmodColumn id field access) := by
  refine (carried.column field access).bind fun value => ?_
  cases value with
  | i32 typmod => exact .pure typmod
  | _ => exact .throw _

theorem countColumn (field : Column) (access : Access) : Minds holds (countColumn id field access) := by
  refine (carried.column field access).bind fun value => ?_
  cases value with
  | i16 count => exact .pure count
  | _ => exact .throw _

theorem nameColumn (field : Column) (access : Access) : Minds holds (nameColumn id field access) := by
  refine (carried.column field access).bind fun value => ?_
  cases value with
  | name name => exact .pure name
  | _ => exact .throw _

/-! ## Links -/

/-- A read of a slot that leads to another thing. -/
theorem linkSlot_ends (spec : SlotSpec) (access : Access) {compute : Task World (Computed Datum)}
    (idle : computes id spec access world = false → holds got world)
    (ran : computes id spec access world = true →
      compute.Ends world (After holds (fun computed => computed.value.refs) got)) :
    (linkSlot id spec access compute).Ends world (After holds Option.toList got) := by
  refine (carried.readSlot_ends spec access idle ran).bind (fun datum after held => ?_) fun _ _ after => after
  cases datum with
  | link target => exact held
  | _ => exact carried.lessAll [] held

theorem linkSlot (spec : SlotSpec) (access : Access) {compute : Task World (Computed Datum)}
    (keeps : Gives holds compute fun computed => computed.value.refs) :
    Gives holds (linkSlot id spec access compute) Option.toList := fun got world before =>
  carried.linkSlot_ends spec access (fun _ => before) fun _ => keeps got world before

theorem track (link : Link) (oid : Oid) (target : ThingId) (before : holds got world) :
    holds got (track link oid target world) := by
  unfold World.track
  split
  · exact carried.onTies target _ before
  · exact carried.onTies target _ before
  · exact before

theorem resolve (field : Link) (access : Access) :
    Gives holds (resolve id field access) fun computed => computed.value.refs := by
  refine (carried.rowOid access _).bind fun oid => ?_
  dsimp only
  split
  · exact .giving fun _ _ before => before
  · refine Gives.requireOpen.bind fun _ got world before => ?_
    refine (carried.entity _ oid).next before fun target after held => ?_
    refine (Gives.requireEntity id _ after held).bind (fun entity last held => ?_) fun _ _ held => carried.less held
    exact carried.track field _ target held

theorem link (field : Link) (access : Access) : Gives holds (link id field access) Option.toList :=
  carried.linkSlot _ access (carried.resolve field access)

theorem attributeType (access : Access) : Gives holds (attributeType id access) Option.toList := by
  refine carried.linkSlot _ access ((carried.oidColumn _ access).bind fun oid =>
    (carried.typmodColumn _ access).bind fun typmod => Gives.requireOpen.bind fun _ got world before => ?_)
  exact (carried.typeWith oid typmod).next before fun type after held => held

theorem rowType (access : Access) : Gives holds (rowType id access) Option.toList := by
  refine (carried.oidColumn _ access).bind fun oid => ?_
  split
  · refine Gives.requireOpen.bind fun _ got world before => ?_
    exact (carried.entity .type oid).next before fun type after held => held
  · exact .giving fun _ _ before => before

/-! ## Descriptors -/

theorem relationColumns (oid : Oid) (access : Access) (attnums : List Int16) :
    Minds holds (relationColumns oid access attnums) := by
  induction attnums with
  | nil => exact .pure []
  | cons attnum rest ih =>
    intro got world before
    refine (carried.attributeOf oid attnum).next before fun one after held => ?_
    have described : Minds holds do
        let name ← World.nameColumn one .attributeName access
        let typeOid ← World.oidColumn one .attributeTypeOid access
        let typmod ← World.typmodColumn one .attributeTypmod access
        return { attnum, name := some name, typeOid, typmod : DescriptorColumn } :=
      (carried.nameColumn _ access).bind fun _ => (carried.oidColumn _ access).bind fun _ =>
        (carried.typmodColumn _ access).bind fun _ => .pure _
    refine (Gives.ensuring carried (described (one :: got) after held)).bind (fun first last held => ?_)
      fun _ _ after => after
    exact (ih.bind fun _ => .pure _) got last held

theorem relationDescriptor (access : Access) : Gives holds (relationDescriptor id access) Option.toList := by
  refine carried.linkSlot _ access ((carried.countColumn _ access).bind fun natts =>
    (carried.oidColumn _ access).bind fun rowType => Gives.requireOpen.bind fun _ =>
      (Gives.requireEntity id).bind fun entity => ?_)
  refine (carried.relationColumns _ access _).bind fun columns got world before => ?_
  have makes : Gives holds (World.construct <| return .descriptor {
      typeOid := rowType, typmod := noTypmod, relation := some entity.key.object, columns, guard := none })
        fun id => [id] := by
    refine carried.construct fun got world before => ?_
    exact ⟨before, by rintro _ ⟨⟩; rfl⟩
  exact makes.next before fun descriptor after held => held

theorem compositeColumns (access : Access) :
    Gives holds (compositeColumns id access) fun computed => computed.value.refs := by
  intro got world before
  refine (carried.link .typeRelation access).next before fun relation after held => ?_
  cases relation with
  | none => exact held
  | some relation =>
    exact (Gives.ensuring carried (carried.relationDescriptor access (relation :: got) after held)).bind
      (fun _ _ held => held) fun _ _ after => after

/-- The columns of a type are read.  Only of interned record types, and only when they are
    looked for anew, may a native descriptor be taken over. -/
theorem typeDescriptor_ends (access : Access)
    (idle : computes id Catalog.typeDescriptor access world = false → holds got world)
    (plain : ∀ entity, world.entity? id = some entity → entity.isInternedRecord = false → holds got world)
    (none : world.entity? id = none → holds got world)
    (record : ∀ entity, world.entity? id = some entity → entity.isInternedRecord = true →
      computes id Catalog.typeDescriptor access world = true →
      (recordDescriptor entity.key.sub).Ends world (After holds (fun computed => computed.value.refs) got)) :
    (typeDescriptor id access).Ends world (After holds Option.toList got) := by
  refine carried.linkSlot_ends _ access idle fun computed => ?_
  cases found : world.entity? id with
  | none =>
    have crashes : requireEntity id world = .error (.crash Option.none) world := by
      unfold requireEntity
      rw [Task.bind_ok (Task.get_run world), found]
      rfl
    exact .stop crashes (none found)
  | some entity =>
    have given : requireEntity id world = .ok entity world := by
      unfold requireEntity
      rw [Task.bind_ok (Task.get_run world), found]
      rfl
    refine .next given ?_
    split
    · next interned => exact record entity found interned computed
    · next other =>
      exact carried.compositeColumns access got world (plain entity found (by simpa using other))

theorem encodingInfo (access : Access) : Minds holds (encodingInfo id access) := by
  intro got world before
  refine (carried.readSlot _ access ?_).next before fun datum after held => ?_
  · refine Gives.requireOpen.bind fun _ => .get_bind fun state => ?_
    split
    · refine .get_bind fun state => (Gives.ofExcept _).bind fun info => ?_
      cases info with
      | some info => exact .giving fun _ _ before => before
      | none => exact .throw _
    · exact .throw _
  · have less := carried.lessAll datum.refs held
    cases datum <;> exact less

/-! ## All fields -/

omit carried in
theorem reading {refs : α → List ThingId} {body : Task World α} (f : α → Reading)
    (same : ∀ value, (f value).refs = refs value) (gives : Gives holds body refs) :
    Gives holds (do return f (← body)) Reading.refs := by
  intro got world before
  refine gives.next before fun value after held => ?_
  rw [← same value] at held
  exact held

theorem read (access : Access) {accessor : Accessor} (other : accessor ≠ .typeDescriptor) :
    Gives holds (Accessor.read id access accessor) Reading.refs := by
  cases accessor with
  | oid | attnum | typmod | interned | rowKey | routines =>
    exact (Gives.requireEntity id).bind fun entity => .giving fun _ _ before => before
  | owner =>
    refine (Gives.requireEntity id).bind fun entity => ?_
    split
    · next relation _ => exact fun got world before => carried.hold relation before
    · exact .throw _
  | column field => exact reading .value (fun _ => rfl) (carried.column field access)
  | composite =>
    exact (carried.column .typeKind access).bind fun kind => .giving fun _ _ before => before
  | link field => exact reading .thing (fun _ => rfl) (carried.link field access)
  | attributeType => exact reading .thing (fun _ => rfl) (carried.attributeType access)
  | rowType => exact reading .thing (fun _ => rfl) (carried.rowType access)
  | relationDescriptor => exact reading .thing (fun _ => rfl) (carried.relationDescriptor access)
  | typeDescriptor => exact absurd rfl other
  | encodingId =>
    refine .get_bind fun state => ?_
    split
    · exact .giving fun _ _ before => before
    · exact .throw _
  | encodingName | encodingMaxCharLen | encodingInfo =>
    exact (carried.encodingInfo access).bind fun info => .giving fun _ _ before => before

end Carried

end carried

end World

end CatalogReplica.Catalog
