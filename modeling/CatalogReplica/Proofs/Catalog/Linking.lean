import CatalogReplica.Proofs.Catalog.Columns

/-!
# What reads of links give

A link leads to an entity that is cached while the link is trusted, and that knows who
resolved it.

* `linkSlot_ends`: reading a field that leads to another thing.
* `link_ends`, `attributeType_ends`, `rowType_ends`: the fields that lead to entities.
-/

namespace CatalogReplica.Catalog

open Coherence (Access Computed)
open Storage (ColumnValue Row)

namespace Provider

variable {provider : Provider} {kind : EntityClass} {key : EntityKey} {source : String}

/-- A column that holds an object number, decoded as such. -/
theorem decode_oid : provider.decode kind key source .oid
    = (provider.rowAt kind key >>= (·.oid source)).map .oid := by
  unfold decode
  cases provider.rowAt kind key with
  | error interrupt => rfl
  | ok row => rfl

end Provider

/-- The field leads to another thing. -/
def EntityField.Leads : EntityField → Prop
  | .tuple _ | .column _ => False
  | _ => True

namespace World

variable {world after : World} {unsignalled : List EntityKey} {id : ThingId} {entity : Entity}
  {access : Access}

/-! ## Fields that lead to things -/

/-- What is no link is not right for a field that leads to a thing. -/
theorem fails_of_mismatch {field : EntityField} {datum : Datum} {kind : EntityClass} {key : EntityKey}
    {interrupt : Interrupt} (leads : field.Leads) (mismatch : ∀ target, datum ≠ .link target)
    (right : (field = .typeDescriptor → ¬ key.Interned) → Right unsignalled after kind key field datum) :
    Fails unsignalled world kind key field interrupt := by
  cases field with
  | tuple _ => exact leads.elim
  | column _ => exact leads.elim
  | link link =>
    cases link with
    | typeRelation =>
      intro clean
      obtain ⟨_, target, isLink, -⟩ := right (nomatch ·) clean
      exact absurd isLink (mismatch target)
    | _ => trivial
  | attributeType => trivial
  | relationDescriptor =>
    intro own attributes
    obtain ⟨target, _, isLink, -⟩ := right (nomatch ·) own attributes
    exact absurd isLink (mismatch target)
  | typeDescriptor =>
    intro plain clean
    obtain ⟨_, target, isLink, -⟩ := right (fun _ => plain) plain clean
    exact absurd isLink (mismatch target)

/-- Reading a field that leads to a thing, from what its computation ensures. -/
theorem linkSlot_ends (field : EntityField) (stands : world.Stands unsignalled)
    (found : world.entity? id = some entity) (held : id ∈ world.held) (kind : field.kind = entity.kind)
    (leads : field.Leads) {compute : Task World (Computed Datum)}
    (computes : compute.Ends world (Computes unsignalled id entity field access world)) :
    (linkSlot id field.spec access compute).Ends world
      fun outcome after => Reads unsignalled id entity field access world (outcome.map .link) after := by
  refine (readSlot_ends field stands found held kind computes).bind ?_ fun _ _ fails => fails
  intro datum after reads
  cases datum with
  | link target => exact .pure reads
  | _ =>
    exact ⟨reads.1.forget, fun _ cached => fails_of_mismatch leads (by simp) fun plain =>
      reads.right plain kind stands cached held⟩

/-! ## Links -/

/-- The target of a tracked link knows who resolved it. -/
theorem track_leads (stands : world.Stands unsignalled) {target : ThingId} {found : Entity}
    (cached : world.Cached target found) (field : Link) (kind : found.kind = field.info.target) (own : Oid) :
    Leads unsignalled [] world (track field own target world) ∧
      ∃ later, (track field own target world).Cached target later ∧ later.kind = found.kind ∧
        later.key = found.key ∧ (field.Tracked → own ∈ later.ties.dependents) := by
  have tied := (stands.sound.shaped target found cached.1).tied
  cases field with
  | typeRelation =>
    refine ⟨.tie stands (Ties.learns_trackType own) target, _, cached.tie _, rfl, rfl, fun _ => ?_⟩
    obtain ⟨types, attributes, ties⟩ := kind ▸ tied
    rw [ties]
    exact List.mem_append_left _ (Dependents.mem_insert.mpr (.inl rfl))
  | routineLanguage =>
    refine ⟨.tie stands (Ties.learns_trackRoutine own) target, _, cached.tie _, rfl, rfl, fun _ => ?_⟩
    obtain ⟨routines, ties⟩ := kind ▸ tied
    rw [ties]
    exact List.mem_append_right _ (Dependents.mem_insert.mpr (.inl rfl))
  | _ => exact ⟨.refl stands, found, cached, rfl, rfl, by rintro (⟨⟨⟩⟩ | ⟨⟨⟩⟩)⟩

theorem right_link {field : Link} {kind : EntityClass} {key : EntityKey} {datum : Datum}
    (right : field = .typeRelation → Clean unsignalled key.classOid key.object →
      ∃ relation target, datum = .link target ∧ world.LeadsTo relation target ∧
        world.provider.decode kind (kind.rowKey key) Link.typeRelation.info.source .oid = .ok (.oid relation)) :
    Right unsignalled world kind key (.link field) datum := by
  cases field with
  | typeRelation => exact right rfl
  | _ => trivial

theorem fails_link {field : Link} {kind : EntityClass} {key : EntityKey} {interrupt : Interrupt}
    (fails : field = .typeRelation → Clean unsignalled key.classOid key.object →
      world.provider.decode kind (kind.rowKey key) Link.typeRelation.info.source .oid = .error interrupt) :
    Fails unsignalled world kind key (.link field) interrupt := by
  cases field with
  | typeRelation => exact fails rfl
  | _ => trivial

theorem resolve_ends (stands : world.Stands unsignalled) (quiet : world.Quiet)
    (found : world.entity? id = some entity) (held : id ∈ world.held) (field : Link) :
    (resolve id field access).Ends world (Computes unsignalled id entity (.link field) access world) := by
  refine (rowOid_ends stands found held _).bind ?_ ?_
  · rintro oid mid ⟨leads, agrees⟩
    have decoded {after : World} (same : after.provider.store = world.provider.store)
        (isType : field = .typeRelation) (cached : world.Cached id entity)
        (clean : Clean unsignalled entity.key.classOid entity.key.object) :
        after.provider.decode entity.kind (entity.kind.rowKey entity.key) Link.typeRelation.info.source .oid
          = .ok (.oid oid) := by
      subst isType
      have read := agrees ⟨cached, clean⟩
      rw [show after.provider.decode _ _ _ _ = world.provider.decode _ _ _ _ from
        congrArg (·.decode entity.kind (entity.kind.rowKey entity.key) Link.typeRelation.info.source .oid) same,
        Provider.decode_oid, read]
      rfl
    dsimp only
    split
    -- an optional link without a number leads nowhere
    · next nowhere =>
      rw [Bool.and_eq_true, Bool.not_eq_true'] at nowhere
      refine .pure ⟨leads, ⟨fun _ _ _ => (nomatch ·), fun _ _ _ _ => (nomatch ·), (nomatch ·)⟩, fun cached => ?_⟩
      exact right_link fun isType clean =>
        ⟨oid, none, rfl, nowhere.2, decoded leads.onward.store isType cached clean⟩
    · next somewhere =>
      refine .next leads.stands.requireOpen_run ?_
      cases valid : oid.isValid with
      | false =>
        obtain ⟨interrupt, failed⟩ := requireValid_fails valid field.info.target mid
        refine .stop (Task.bind_error failed) ⟨leads, fun _ _ => fails_link fun isType => ?_⟩
        subst isType
        rw [valid] at somewhere
        exact absurd rfl somewhere
      | true =>
        have plain : field.info.target ≠ .attr := by cases field <;> decide
        refine (entity_ends leads.stands (leads.quiet quiet) valid plain).bind ?_ (by rintro _ _ ⟨_, _, ⟨⟩, -⟩)
        rintro target last ⟨_, other, ⟨⟩, toTarget, its, isTarget, isKey⟩
        -- the target may have been built anew on the way; the one that resolves it is still there
        have both := leads.trans toTarget
        obtain ⟨later, own, becomes⟩ := both.becomes stands found held
        obtain ⟨tracked, other', its', kind', key', knows⟩ :=
          track_leads toTarget.stands its field isTarget later.key.object
        have all := both.further tracked
        refine .next (requireEntity_run own) (.next (Task.modify_run _ last) (.pure ⟨all, ⟨?_, ?_, (nomatch ·)⟩, ?_⟩))
        · rintro isKind target' ⟨⟩ ⟨⟩
          exact ⟨other', its', kind'.trans isTarget⟩
        · rintro link target' ⟨⟩ isTracked ⟨⟩
          exact ⟨other', its', kind'.trans isTarget, becomes.key ▸ knows isTracked⟩
        · intro cached
          refine right_link fun isType clean => ⟨oid, some target, rfl, ⟨valid, other', its'.1, ?_, ?_⟩,
            decoded all.onward.store isType cached clean⟩
          · rw [kind', isTarget, isType]
            rfl
          · rw [key', isKey]
            rfl
  · rintro interrupt mid ⟨leads, agrees⟩
    refine ⟨leads, fun isMutator cached => fails_link fun isType clean => ?_⟩
    subst isType
    rw [Provider.decode_oid, show (_ >>= _) = _ from agrees isMutator ⟨cached, clean⟩]
    rfl

/-- A link field. -/
theorem link_ends (stands : world.Stands unsignalled) (quiet : world.Quiet)
    (found : world.entity? id = some entity) (held : id ∈ world.held) (field : Link)
    (kind : field.info.kind = entity.kind) :
    (link id field access).Ends world
      fun outcome after => Reads unsignalled id entity (.link field) access world (outcome.map .link) after :=
  linkSlot_ends (.link field) stands found held kind trivial (resolve_ends stands quiet found held field)

/-- The type of an attribute. -/
theorem attributeType_ends (stands : world.Stands unsignalled) (quiet : world.Quiet)
    (found : world.entity? id = some entity) (held : id ∈ world.held) (kind : entity.kind = .attr) :
    (attributeType id access).Ends world
      fun outcome after => Reads unsignalled id entity .attributeType access world (outcome.map .link) after := by
  refine linkSlot_ends .attributeType stands found held kind.symm trivial ?_
  refine (oidColumn_ends stands found held .attributeTypeOid kind.symm rfl).bind ?_
    fun _ _ ended => ⟨ended.1, fun _ _ => trivial⟩
  rintro oid one ⟨first, -⟩
  obtain ⟨later, found', becomes⟩ := first.becomes stands found held
  refine (typmodColumn_ends first.stands found' (first.holds held) .attributeTypmod
    (becomes.kind.trans kind).symm rfl).bind ?_ fun _ _ ended => ⟨first.trans ended.1, fun _ _ => trivial⟩
  rintro typmod two ⟨second, -⟩
  have both := first.trans second
  refine .next both.stands.requireOpen_run ?_
  cases valid : oid.isValid with
  | false =>
    obtain ⟨interrupt, failed⟩ := requireValid_fails valid .type two
    exact .stop (Task.bind_error failed) ⟨both, fun _ _ => trivial⟩
  | true =>
    refine (typeWith_ends both.stands (both.quiet quiet) valid typmod).bind ?_ (by rintro _ _ ⟨_, _, ⟨⟩, -⟩)
    rintro target last ⟨_, other, ⟨⟩, toTarget, its, isType, -⟩
    refine .pure ⟨both.trans toTarget, ⟨?_, fun _ _ => (nomatch ·), (nomatch ·)⟩, fun _ => trivial⟩
    rintro isKind target' ⟨⟩ ⟨⟩
    exact ⟨other, its, isType⟩

/-- The row type of a relation is held. -/
theorem rowType_ends (stands : world.Stands unsignalled) (quiet : world.Quiet)
    (found : world.entity? id = some entity) (held : id ∈ world.held) (kind : entity.kind = .relation) :
    (rowType id access).Ends world fun outcome after =>
      Leads unsignalled (outcome.toOption.bind fun target => target).toList world after := by
  refine (oidColumn_ends stands found held .relationRowType kind.symm rfl).bind ?_ fun _ _ ended => ended.1
  rintro oid mid ⟨leads, -⟩
  split
  · next valid =>
    refine .next leads.stands.requireOpen_run ?_
    refine (entity_ends leads.stands (leads.quiet quiet) valid (by decide)).bind ?_
      (by rintro _ _ ⟨_, _, ⟨⟩, -⟩)
    rintro target last ⟨_, other, ⟨⟩, toTarget, -⟩
    exact .pure (leads.trans toTarget)
  · exact .pure leads

end World

end CatalogReplica.Catalog
