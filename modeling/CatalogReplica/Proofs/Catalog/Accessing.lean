import CatalogReplica.Proofs.Catalog.Describing

/-!
# What reads of things give

Every field that a thing offers by name can be read at rest.  A read leads to rest again,
and what it gives is held.

* `encodingInfo_ends`: reading the description of an encoding.
* `read_leads`: reading whatever a thing offers.
-/

namespace CatalogReplica.Catalog

open Coherence (Access Computed Memo SlotTable TableView)

namespace World

variable {world after : World} {unsignalled : List EntityKey} {id : ThingId} {entity : Entity}
  {access : Access}

/-! ## Encodings -/

theorem mem_kept_keep {ν : Type} {table : SlotTable ν} {index : Nat} {memo kept : Memo ν}
    (among : kept ∈ (table.keep index memo).kept) : kept = memo ∨ kept ∈ table.kept := by
  obtain ⟨other, found⟩ := SlotTable.mem_kept.mp among
  rw [SlotTable.memo?, SlotTable.keep, Array.getElem?_setIfInBounds] at found
  split at found
  · split at found
    · exact .inl (Option.some.inj found).symm
    · cases found
  · exact .inr (SlotTable.mem_kept.mpr ⟨other, found⟩)

/-- An encoding keeps a description of itself. -/
theorem Leads.describe (stands : world.Stands unsignalled) {number : Int32} {table : SlotTable Datum}
    (found : world.thing? id = some (.encoding number table)) (index : Nat) (info : EncodingInfo)
    (cell : Option Coherence.CellId) :
    Leads unsignalled [] world
      (onThing id (Thing.onTable (·.keep index ⟨.encoding info, cell⟩)) world) := by
  -- A thing of the new heap is the one whose table turned, or stands as it did.
  have cases' {other : ThingId} {thing' : Thing}
      (found' : (onThing id (Thing.onTable (·.keep index ⟨.encoding info, cell⟩)) world).thing? other = some thing') :
      (other = id ∧ thing' = .encoding number (table.keep index ⟨.encoding info, cell⟩)) ∨
        world.thing? other = some thing' := by
    rw [thing?_onThing] at found'
    split at found'
    · next same =>
      subst same
      rw [found] at found'
      exact .inl ⟨rfl, (Option.some.inj found').symm⟩
    · exact .inr found'
  have turns : Turns [] [] world (world.heap.update id (Thing.onTable (·.keep index ⟨.encoding info, cell⟩))) := by
    intro other thing' found'
    obtain ⟨rfl, rfl⟩ | was := cases' found'
    · exact ⟨_, found, rfl⟩
    · exact ⟨thing', was, .refl thing'⟩
  have closed (other : ThingId) (thing' : Thing)
      (found' : (onThing id (Thing.onTable (·.keep index ⟨.encoding info, cell⟩)) world).thing? other = some thing')
      (target : ThingId) (among : target ∈ thing'.refs) :
      (onThing id (Thing.onTable (·.keep index ⟨.encoding info, cell⟩)) world).alive target = true := by
    rw [alive_onThing]
    obtain ⟨rfl, rfl⟩ | was := cases' found'
    · obtain ⟨memo, isKept, among⟩ := List.mem_flatMap.mp among
      -- The encoding's own datum refers to nothing; what was kept before it is closed already.
      obtain rfl | isKept := mem_kept_keep isKept
      · cases among
      · exact stands.sound.closed other _ found target (List.mem_flatMap.mpr ⟨memo, isKept, among⟩)
    · exact stands.sound.closed other thing' was target among
  refine ⟨⟨stands.sound.onHeap (fun _ due => due) turns closed fun other among =>
      (alive_onThing world id other _).trans (stands.sound.holding other among),
    stands.fresh.onHeap stands.sound turns closed, stands.plain, stands.available⟩,
    ⟨Nat.le_refl _, fun other thing' found' _ => ?_, fun _ _ _ _ _ => Iff.rfl, .refl _, rfl, rfl⟩,
    fun _ => rfl, fun _ => Nat.le_of_eq (Nat.zero_add _)⟩
  obtain ⟨rfl, rfl⟩ | was := cases' found'
  · exact ⟨_, found, rfl⟩
  · exact ⟨thing', was, .refl _ thing'⟩

/-- Reading a slot of an encoding, from a computation that only describes it. -/
theorem describeSlot_ends (stands : world.Stands unsignalled) {number : Int32} {table : SlotTable Datum}
    (found : world.thing? id = some (.encoding number table)) {spec : Coherence.SlotSpec}
    {compute : Task World (Computed Datum)}
    (computes : compute.Ends world fun outcome after => after = world ∧ ∀ computed, outcome = .ok computed →
      ∃ info, computed = .cached (.encoding info)) :
    (readSlot id spec access compute).Ends world fun _ after => Leads unsignalled [] world after := by
  have counted (counter : Counter) : Leads unsignalled [] world (count counter world) := .of_core stands rfl
  have read : ((view id).read spec access compute).Ends world fun outcome after =>
      Leads unsignalled [] world after ∧
        ∀ datum, outcome = .ok datum → ∀ other ∈ datum.refs, after.alive other = true := by
    -- Only a hit names things, and those the table has kept alive; an encoding just computed names none.
    refine TableView.read_ends (fun _ => ⟨.refl stands, by rintro _ ⟨⟩⟩) (fun memo kept _ => ?_)
      (fun _ _ => ⟨.refl stands, by rintro _ ⟨⟩⟩) (fun _ => computes) ?_ ?_ ?_
    · refine ⟨counted .slotHit, ?_⟩
      rintro _ ⟨⟩ other among
      rw [TableView.memo?, show (view id).get? world = (world.thing? id).bind (·.table?) from rfl, found] at kept
      exact stands.sound.closed id _ found other
        (List.mem_flatMap.mpr ⟨memo, SlotTable.mem_kept.mpr ⟨_, kept⟩, among⟩)
    · rintro datum cell _ - ⟨rfl, isInfo⟩
      obtain ⟨info, ⟨⟩⟩ := isInfo _ rfl
      have kept := (counted .slotCompute).trans
        (.describe (counted .slotCompute).stands found spec.index info cell)
      refine ⟨kept.further (.reaped kept.stands (reap_reaped _ _)), ?_⟩
      rintro _ ⟨⟩ other ⟨⟩
    · rintro datum _ ⟨rfl, isInfo⟩
      obtain ⟨info, ⟨⟩⟩ := isInfo _ rfl
    · rintro interrupt _ ⟨rfl, -⟩
      exact ⟨.refl stands, by rintro _ ⟨⟩⟩
  refine .next (Task.get_run world) (read.bind ?_ fun _ _ ended => ended.1)
  rintro datum after ⟨leads, live⟩
  dsimp only
  split
  · refine .next (Task.modify_run _ after) (.pure ?_)
    exact (leads.trans (.holdAll leads.stands fun other among => live datum rfl other among)).forget
  · exact .pure leads

/-- The description of an encoding. -/
theorem encodingInfo_ends (stands : world.Stands unsignalled) {number : Int32} {table : SlotTable Datum}
    (found : world.thing? id = some (.encoding number table)) :
    (encodingInfo id access).Ends world fun _ after => Leads unsignalled [] world after := by
  refine (describeSlot_ends stands found ?_).bind (fun datum after leads => ?_) fun _ _ leads => leads
  · refine .next stands.requireOpen_run (.next (Task.get_run world) ?_)
    rw [found]
    refine .next (Task.get_run world) ?_
    cases world.provider.encoding? number with
    | error fault => exact .stop rfl ⟨rfl, fun _ => (nomatch ·)⟩
    | ok answer =>
      refine .next (Task.pure_run _ world) ?_
      cases answer with
      | some info => exact .pure ⟨rfl, fun _ isComputed => ⟨info, (Except.ok.inj isComputed).symm⟩⟩
      | none => exact ⟨rfl, fun _ => (nomatch ·)⟩
  · cases datum <;> exact leads

end World

/-! ## Whatever a thing offers -/

namespace Accessor

/-- The field is one of entities of the class. -/
def Of (kind : EntityClass) : Accessor → Prop
  | oid | attnum | typmod | interned | rowKey | owner | routines => True
  | column field => field.info.kind = kind
  | link field => field.info.kind = kind
  | composite | typeDescriptor => kind = .type
  | attributeType => kind = .attr
  | rowType | relationDescriptor => kind = .relation
  | encodingId | encodingName | encodingMaxCharLen | encodingInfo => False

/-- The field is one of encodings. -/
def OfEncoding : Accessor → Prop
  | encodingId | encodingName | encodingMaxCharLen | encodingInfo => True
  | _ => False

theorem of_special (kind : EntityClass) : ∀ entry ∈ special kind, entry.2.Of kind := by
  cases kind <;> simp [special, Of]

theorem of_ofEntity {kind : EntityClass} {entry : String × Accessor} (among : entry ∈ ofEntity kind) :
    entry.2.Of kind := by
  unfold ofEntity at among
  rcases List.mem_cons.mp among with rfl | among
  · trivial
  rcases List.mem_append.mp among with among | isColumn
  · rcases List.mem_append.mp among with isSpecial | isLink
    · exact of_special kind entry isSpecial
    · obtain ⟨field, isField, rfl⟩ := List.mem_map.mp isLink
      exact beq_iff_eq.mp (List.mem_filter.mp isField).2
  · obtain ⟨field, isField, rfl⟩ := List.mem_map.mp isColumn
    exact beq_iff_eq.mp (List.mem_filter.mp isField).2

theorem mem_of_lookup {fields : List (String × Accessor)} {name : String} {accessor : Accessor}
    (found : fields.lookup name = some accessor) : (name, accessor) ∈ fields := by
  obtain ⟨before, rest, split, -⟩ := List.lookup_eq_some_iff.mp found
  rw [split]
  exact List.mem_append_right before List.mem_cons_self

theorem of_ofName? {entity : Entity} {name : String} {accessor : Accessor}
    (offered : ofName? (.entity entity) name = some accessor) : accessor.Of entity.kind :=
  of_ofEntity (mem_of_lookup offered)

theorem ofEncoding_ofName? {number : Int32} {table : SlotTable Datum} {name : String} {accessor : Accessor}
    (offered : ofName? (.encoding number table) name = some accessor) : accessor.OfEncoding := by
  have among := mem_of_lookup offered
  simp only [ofEncoding, List.mem_cons, Prod.mk.injEq, List.not_mem_nil, or_false] at among
  rcases among with ⟨-, rfl⟩ | ⟨-, rfl⟩ | ⟨-, rfl⟩ | ⟨-, rfl⟩ <;> trivial

end Accessor

namespace World

variable {world : World} {unsignalled : List EntityKey} {id : ThingId} {entity : Entity} {access : Access}
  {accessor : Accessor}

theorem Reads.leads {field : EntityField} {outcome : Except Interrupt Datum} {after : World}
    (reads : Reads unsignalled id entity field access world outcome after) : Leads unsignalled [] world after := by
  cases outcome with
  | ok datum => exact reads.1.forget
  | error interrupt => exact reads.1

/-- Reading what an entity offers. -/
theorem readEntity_leads (stands : world.Stands unsignalled) (quiet : world.Quiet)
    (found : world.entity? id = some entity) (held : id ∈ world.held) (offered : accessor.Of entity.kind) :
    (accessor.read id access).Ends world fun _ after => Leads unsignalled [] world after := by
  -- An accessor reads a field of the entity itself or goes through a slot, and a slot's rule is its own.
  have known {reading : Entity → Reading} : (do return reading (← requireEntity id)).Ends world
      fun _ after => Leads unsignalled [] world after := .next (requireEntity_run found) (.pure (.refl stands))
  have given {α : Type} {body : Task World α} {reading : α → Reading}
      (ends : body.Ends world fun _ after => Leads unsignalled [] world after) :
      (do return reading (← body)).Ends world fun _ after => Leads unsignalled [] world after :=
    ends.bind (fun _ _ leads => .pure leads) fun _ _ leads => leads
  cases accessor with
  | oid => exact known
  | attnum => exact known
  | typmod => exact known
  | interned => exact known
  | rowKey => exact known
  | routines => exact known
  | owner =>
    refine .next (requireEntity_run found) ?_
    cases owner : entity.ties.refs.head? with
    | none => exact .refl stands
    | some relation =>
      have live := stands.sound.closed id _ (entity?_eq_some.mp found) relation
        (List.mem_append_right _ (List.mem_of_mem_head? owner))
      exact .next (Task.modify_run _ world) (.pure (Leads.hold stands live).forget)
  | column field => exact given ((column_ends stands found held field offered).weaken fun _ _ tells => tells.1)
  | composite =>
    exact given ((column_ends stands found held .typeKind offered.symm).weaken fun _ _ tells => tells.1)
  | link field => exact given ((link_ends stands quiet found held field offered).weaken fun _ _ => Reads.leads)
  | attributeType =>
    exact given ((attributeType_ends stands quiet found held offered).weaken fun _ _ => Reads.leads)
  | rowType => exact given ((rowType_ends stands quiet found held offered).weaken fun _ _ leads => leads.forget)
  | relationDescriptor =>
    exact given ((relationDescriptor_ends stands quiet found held offered).weaken fun _ _ => Reads.leads)
  | typeDescriptor =>
    exact given ((typeDescriptor_ends stands quiet found held offered).weaken fun _ _ => Reads.leads)
  | encodingId => exact offered.elim
  | encodingName => exact offered.elim
  | encodingMaxCharLen => exact offered.elim
  | encodingInfo => exact offered.elim

/-- Reading what an encoding offers. -/
theorem readEncoding_leads (stands : world.Stands unsignalled) {number : Int32} {table : SlotTable Datum}
    (found : world.thing? id = some (.encoding number table)) (offered : accessor.OfEncoding) :
    (accessor.read id access).Ends world fun _ after => Leads unsignalled [] world after := by
  have described {reading : EncodingInfo → Reading} : (do return reading (← encodingInfo id access)).Ends world
      fun _ after => Leads unsignalled [] world after :=
    (encodingInfo_ends stands found).bind (fun _ _ leads => .pure leads) fun _ _ leads => leads
  cases accessor with
  | encodingId =>
    refine .next (Task.get_run world) ?_
    rw [found]
    exact .refl stands
  | encodingName => exact described
  | encodingMaxCharLen => exact described
  | encodingInfo => exact described
  | _ => exact offered.elim

/-- Reading what a thing offers by name. -/
theorem read_leads (stands : world.Stands unsignalled) (quiet : world.Quiet) {thing : Thing}
    (found : world.thing? id = some thing) (held : id ∈ world.held) {name : String}
    (offered : Accessor.ofName? thing name = some accessor) :
    (accessor.read id access).Ends world fun _ after => Leads unsignalled [] world after := by
  cases thing with
  | entity entity =>
    exact readEntity_leads stands quiet (entity?_eq_some.mpr found) held (Accessor.of_ofName? offered)
  | encoding number table => exact readEncoding_leads stands found (Accessor.ofEncoding_ofName? offered)
  | descriptor descriptor => cases offered

end World

end CatalogReplica.Catalog
