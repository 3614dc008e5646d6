import CatalogReplica.Proofs.Catalog.Resting

/-!
# What is read after any run

Callers write rows and deliver bursts, look things up, read them, drop them, purge and
relieve, in any order.  What a session reads of a cached entity is what the current rows
give, once every write of these rows was followed by a signal about it.

* `Operation.Signalled`: every write of a row was followed by a signal.
* `Operation.after_rests`: what a run leaves is at rest.
* `Accessor.Current`: what the current rows give for a field.
* `World.reads_current`, `Operation.session_reads_current`: that is what is read.
-/

namespace CatalogReplica

/-- The row is one of the object. -/
def EntityKey.IsOf (row : EntityKey) (kind : Catalog.EntityClass) (object : Oid) : Prop :=
  row.classOid = kind.oid ∧ row.object = object

namespace Catalog

open Storage (ColumnValue Fetched)

namespace Operation

variable {unsignalled : List EntityKey} {operation : Operation} {operations : List Operation} {key : EntityKey}

/-! ## Rows that were signalled -/

/-- The row that the operation writes or deletes. -/
def writes? : Operation → Option EntityKey
  | .put plan => some plan.key
  | .remove key => some key
  | _ => none

/-- The operation delivers a signal about the row. -/
def Signals (key : EntityKey) : Operation → Prop
  | .dispatch signals => ∃ signal ∈ signals, signal.Covers key
  | _ => False

/-- Every write of the row is followed by a signal about it. -/
def Signalled (key : EntityKey) : List Operation → Prop
  | [] => True
  | operation :: operations =>
      (operation.writes? = some key → ∃ later ∈ operations, later.Signals key) ∧ Signalled key operations

theorem mem_remember : key ∈ operation.remember unsignalled ↔
    operation.writes? = some key ∨ (key ∈ unsignalled ∧ ¬ operation.Signals key) := by
  cases operation <;> simp [remember, writes?, Signals, eq_comm]

theorem mem_foldl_remember : key ∈ operations.foldl remember unsignalled ↔
    ¬ Signalled key operations ∨ (key ∈ unsignalled ∧ ¬ ∃ later ∈ operations, later.Signals key) := by
  induction operations generalizing unsignalled with
  | nil => simp [Signalled]
  | cons operation operations inductionHypothesis =>
    rw [List.foldl_cons, inductionHypothesis, mem_remember, Signalled]
    simp only [List.mem_cons, exists_eq_or_imp]
    grind

/-- The rows that a run leaves unsignalled are those with a write that no signal followed. -/
theorem signalled_iff : Signalled key operations ↔ key ∉ operations.foldl remember [] := by
  simp [mem_foldl_remember]

/-! ## Runs -/

/-- What a run leaves is at rest, as long as the catalog is there. -/
theorem after_rests {world : World} (allowed : AllowedAll operations world)
    (proper : ∀ operation ∈ operations, operation.Proper) (rests : world.Rests unsignalled)
    (opened : (after operations world).isOpen = true) :
    (after operations world).Rests (operations.foldl remember unsignalled) := by
  induction operations generalizing world unsignalled with
  | nil => exact rests
  | cons operation operations inductionHypothesis =>
    refine inductionHypothesis allowed.2 (fun other among => proper other (List.mem_cons_of_mem _ among)) ?_ opened
    refine apply_rests allowed.1 (proper operation List.mem_cons_self) rests (Bool.not_eq_false _ ▸ fun closed => ?_)
    -- a catalog that was gone in between would be gone now
    have gone := after_keeps (fun _ _ => apply_closed) allowed.2 closed
    rw [show (after operations (operation.apply world)).isOpen = true from opened] at gone
    cases gone

end Operation

/-! ## What the current rows give -/

namespace Provider

variable {provider : Provider} {key : EntityKey}

/-- The columns of a type: those of its relation, if it is the row type of one. -/
def describeType (provider : Provider) (key : EntityKey) : Fetched (Option Descriptor) := do
  let row ← provider.rowAt .type (EntityClass.type.rowKey key)
  let relation ← row.oid Link.typeRelation.info.source
  if relation.isValid then return some (← provider.describe relation) else return none

theorem describeType_eq : provider.describeType key = (do
    match ← provider.decode .type (EntityClass.type.rowKey key) Link.typeRelation.info.source .oid with
    | .oid relation => if relation.isValid then some <$> provider.describe relation else return none
    | _ => return none) := by
  unfold describeType decode
  cases provider.rowAt .type (EntityClass.type.rowKey key) with
  | error interrupt => rfl
  | ok row =>
    change (row.oid _ >>= _) = ((row.oid _).map ColumnValue.oid >>= _)
    cases row.oid Link.typeRelation.info.source with
    | error interrupt => rfl
    | ok relation => rfl

end Provider

/-- The outcome leads to a descriptor with the contents, if there are any, or is the same
    interrupt. -/
def World.Pictures (after : World) (contents : Fetched (Option Descriptor)) (outcome : Except Interrupt Reading) :
    Prop :=
  match contents with
  | .ok none => outcome = .ok (.thing none)
  | .ok (some contents) => ∃ target, outcome = .ok (.thing target) ∧ after.Shows target contents
  | .error interrupt => outcome = .error interrupt

namespace Accessor

/-- The rows that a field is read from: the entity's own, and where it leads to the columns
    of a relation, those of the relation and its attributes. -/
def DependsOn (provider : Provider) (entity : Entity) (row : EntityKey) : Accessor → Prop
  | relationDescriptor => row.IsOf .relation entity.key.object ∨ row.IsOf .attr entity.key.object
  | typeDescriptor => row.IsOf entity.kind entity.key.object ∨ ∃ relation,
      provider.decode entity.kind entity.rowKey Link.typeRelation.info.source .oid = .ok (.oid relation) ∧
        (row.IsOf .relation relation ∨ row.IsOf .attr relation)
  | _ => row.IsOf entity.kind entity.key.object

/-- The outcome of a read is what the current rows give, for a field that is decoded from
    them.  The columns of an interned record type are not. -/
def Current (provider : Provider) (entity : Entity) (accessor : Accessor) (outcome : Except Interrupt Reading)
    (after : World) : Prop :=
  match accessor with
  | column field =>
      outcome = (provider.decode entity.kind entity.rowKey field.info.source field.info.type).map .value
  | composite => outcome = (provider.decode entity.kind entity.rowKey Column.typeKind.info.source .char).map fun value =>
      .value (.bool (value == .char compositeKind))
  | relationDescriptor => after.Pictures (some <$> provider.describe entity.key.object) outcome
  | typeDescriptor => ¬ entity.key.Interned → after.Pictures (provider.describeType entity.key) outcome
  | _ => True

end Accessor

/-! ## What is read -/

namespace World

variable {world : World} {unsignalled : List EntityKey} {id : ThingId} {entity : Entity} {accessor : Accessor}

/-- What is read of the columns of a relation. -/
theorem Reads.pictures_relation {outcome : Except Interrupt (Option ThingId)} {after : World}
    (reads : Reads unsignalled id entity .relationDescriptor .mutator world (outcome.map .link) after)
    (stands : world.Stands unsignalled) (cached : world.Cached id entity) (held : id ∈ world.held)
    (kind : entity.kind = .relation)
    (clean : ∀ row ∈ unsignalled, ¬ Accessor.relationDescriptor.DependsOn world.provider entity row) :
    after.Pictures (some <$> world.provider.describe entity.key.object) (outcome.map .thing) := by
  have own : Clean unsignalled EntityClass.relation.oid entity.key.object :=
    fun row among about => clean row among (.inl about)
  have attributes : Clean unsignalled EntityClass.attr.oid entity.key.object :=
    fun row among about => clean row among (.inr about)
  cases outcome with
  | ok target =>
    obtain ⟨_, contents, ⟨⟩, shown, described⟩ := reads.right (nomatch ·) kind.symm stands cached held own attributes
    rw [Provider.describe_of_store reads.1.onward.store, described]
    exact ⟨target, rfl, shown⟩
  | error interrupt =>
    rw [reads.2 rfl cached own attributes]
    exact rfl

/-- What is read of the columns of a type: none, or those of its relation. -/
theorem Reads.pictures_type {outcome : Except Interrupt (Option ThingId)} {after : World}
    (reads : Reads unsignalled id entity .typeDescriptor .mutator world (outcome.map .link) after)
    (stands : world.Stands unsignalled) (cached : world.Cached id entity) (held : id ∈ world.held)
    (kind : entity.kind = .type) (plain : ¬ entity.key.Interned)
    (clean : ∀ row ∈ unsignalled, ¬ Accessor.typeDescriptor.DependsOn world.provider entity row) :
    after.Pictures (world.provider.describeType entity.key) (outcome.map .thing) := by
  have named := (stands.sound.shaped id entity cached.1).named
  have own : Clean unsignalled entity.key.classOid entity.key.object :=
    fun row among about => clean row among (.inl ⟨about.1.trans named.1, about.2⟩)
  -- A relation named by an untouched type row is as untouched as the row itself.
  have ofRelation {relation : Oid} (decoded : world.provider.decode entity.kind entity.rowKey
      Link.typeRelation.info.source .oid = .ok (.oid relation)) :
      Clean unsignalled EntityClass.relation.oid relation ∧ Clean unsignalled EntityClass.attr.oid relation :=
    ⟨fun row among about => clean row among (.inr ⟨relation, decoded, .inl about⟩),
      fun row among about => clean row among (.inr ⟨relation, decoded, .inr about⟩)⟩
  have isRow : world.provider.decode .type (EntityClass.type.rowKey entity.key) Link.typeRelation.info.source .oid
      = world.provider.decode entity.kind entity.rowKey Link.typeRelation.info.source .oid := by
    rw [← kind]
    rfl
  have described {relation : Oid} (decoded : world.provider.decode entity.kind entity.rowKey
      Link.typeRelation.info.source .oid = .ok (.oid relation)) : world.provider.describeType entity.key
        = if relation.isValid then some <$> world.provider.describe relation else .ok none := by
    rw [Provider.describeType_eq, isRow, decoded]
    rfl
  -- A link with no valid relation gives none on both sides; a failure is the row's own or the relation's.
  cases outcome with
  | ok target =>
    obtain ⟨relation, _, ⟨⟩, decoded, lone, shown⟩ :=
      reads.right (fun _ => plain) kind.symm stands cached held plain own
    have decoded : world.provider.decode entity.kind entity.rowKey Link.typeRelation.info.source .oid
        = .ok (.oid relation) :=
      (congrArg (·.decode entity.kind entity.rowKey Link.typeRelation.info.source .oid)
        reads.1.onward.store).symm.trans decoded
    rw [described decoded]
    cases valid : relation.isValid with
    | false =>
      rw [lone valid]
      exact rfl
    | true =>
      obtain ⟨contents, shown, same⟩ := shown valid (ofRelation decoded).1 (ofRelation decoded).2
      rw [Provider.describe_of_store reads.1.onward.store, same]
      exact ⟨target, rfl, shown⟩
  | error interrupt =>
    obtain failed | ⟨relation, decoded, valid, failed⟩ := reads.2 rfl cached plain own
    · rw [Provider.describeType_eq, isRow, show world.provider.decode entity.kind entity.rowKey _ _ = _ from failed]
      exact rfl
    · rw [described decoded, valid, failed (ofRelation decoded).1 (ofRelation decoded).2]
      exact rfl

/-- What a session reads at rest of a cached entity, when nothing it depends on is
    unsignalled. -/
theorem reads_current (rests : world.Rests unsignalled) (cached : world.Cached id entity) (held : id ∈ world.held)
    (offered : accessor.Of entity.kind)
    (clean : ∀ row ∈ unsignalled, ¬ accessor.DependsOn world.provider entity row) :
    (accessor.read id .mutator).Ends world (accessor.Current world.provider entity) := by
  have stands := rests.stands
  have named := (stands.sound.shaped id entity cached.1).named
  have leads : (accessor.read id .mutator).Ends world fun _ after => Leads unsignalled [] world after :=
    readEntity_leads stands rests.quiet cached.1 held offered
  -- A column agrees with the row by its slot's rule; a descriptor pictures what the provider describes.
  have decoded {α : Type} {body : Task World α} {reading : α → Reading} {expected : Fetched α}
      (ends : body.Ends world (Tells unsignalled .mutator (Promised unsignalled world id entity) expected world))
      (own : Clean unsignalled entity.kind.oid entity.key.object) :
      (do return reading (← body)).Ends world fun outcome _ => outcome = expected.map reading := by
    have promised : Promised unsignalled world id entity := ⟨cached, named.1 ▸ own⟩
    refine ends.bind ?_ ?_
    · rintro value after ⟨-, agrees⟩
      exact .pure (congrArg (·.map reading) (agrees promised)).symm
    · rintro interrupt after ⟨-, agrees⟩
      exact (congrArg (·.map reading) (agrees rfl promised)).symm
  have leading {body : Task World (Option ThingId)} {contents : Fetched (Option Descriptor)}
      (ends : body.Ends world fun outcome after => after.Pictures contents (outcome.map .thing)) :
      (do return Reading.thing (← body)).Ends world fun outcome after => after.Pictures contents outcome :=
    ends.bind (fun _ _ pictures => .pure pictures) fun _ _ pictures => pictures
  cases accessor with
  | column field => exact decoded (column_ends stands cached.1 held field offered) clean
  | composite => exact decoded (column_ends stands cached.1 held .typeKind offered.symm) clean
  | relationDescriptor =>
    refine leading ((relationDescriptor_ends stands rests.quiet cached.1 held offered).weaken fun outcome after reads => ?_)
    exact reads.pictures_relation stands cached held offered clean
  | typeDescriptor =>
    by_cases interned : entity.key.Interned
    · exact leads.weaken fun _ _ _ plain => absurd interned plain
    have pictures : (typeDescriptor id .mutator).Ends world fun outcome after =>
        after.Pictures (world.provider.describeType entity.key) (outcome.map .thing) := by
      refine (typeDescriptor_ends stands rests.quiet cached.1 held offered).weaken fun outcome after reads => ?_
      exact reads.pictures_type stands cached held offered interned clean
    exact (leading pictures).weaken fun _ _ pictures _ => pictures
  | _ => exact leads.weaken fun _ _ _ => trivial

end World

namespace Operation

/-- After any run, a session reads of a cached entity what the current rows give, once every
    write of the rows that this depends on was followed by a signal about it. -/
theorem session_reads_current (config : Config) (operations : List Operation)
    (allowed : AllowedAll operations (World.start config)) (proper : ∀ operation ∈ operations, operation.Proper)
    (session : (after operations (World.start config)).session.isSome = true)
    (id : ThingId) (entity : Entity) (cached : (after operations (World.start config)).Cached id entity)
    (held : id ∈ (after operations (World.start config)).held)
    (field : String) (accessor : Accessor) (offered : Accessor.ofName? (.entity entity) field = some accessor)
    (signalled : ∀ row, accessor.DependsOn (after operations (World.start config)).provider entity row →
      Signalled row operations) :
    (accessor.read id .mutator).Ends (after operations (World.start config))
      (accessor.Current (after operations (World.start config)).provider entity) := by
  have opened : (after operations (World.start config)).isOpen = true := by
    rw [World.isOpen, session, Bool.or_true]
  have rests := after_rests allowed proper (World.rests_start config) opened
  exact World.reads_current rests cached held (Accessor.of_ofName? offered) fun row among depends =>
    signalled_iff.mp (signalled row depends) among

/-- The columns of a type are read through its relation, and then one of them is renamed. -/
def readThenRenamed : List Operation := [
  .put (.relation ⟨16384⟩ "items" ⟨2200⟩ ⟨16386⟩ 1), .put (.attr ⟨16384⟩ 1 "id" ⟨23⟩ (-1)),
  .put (.composite ⟨16386⟩ "items" ⟨16384⟩), .openSession, .lookup (.type ⟨16386⟩ 4),
  .read 0 "descriptor" .mutator, .dispatch [.all], .put (.attr ⟨16384⟩ 1 "number" ⟨23⟩ (-1)),
  .dispatch [.row EntityClass.attr.oid ⟨16384⟩ .updated]]

theorem found_renamed : ((after readThenRenamed (World.start {})).entity? 0).isSome = true := by decide +kernel

theorem session_reads_current_renamed : AllowedAll readThenRenamed (World.start {}) ∧
    ∃ entity, (after readThenRenamed (World.start {})).Cached 0 entity ∧
      (Accessor.typeDescriptor.read 0 .mutator).Ends (after readThenRenamed (World.start {}))
        (Accessor.typeDescriptor.Current (after readThenRenamed (World.start {})).provider entity) := by
  have allowed : AllowedAll readThenRenamed (World.start {}) := by decide +kernel
  have proper : ∀ operation ∈ readThenRenamed, operation.Proper := by simp [readThenRenamed, Proper]
  have session : (after readThenRenamed (World.start {})).session.isSome = true := by decide +kernel
  have held : 0 ∈ (after readThenRenamed (World.start {})).held := by decide +kernel
  have signalled : readThenRenamed.foldl remember [] = [] := by decide +kernel
  obtain ⟨entity, cached, offered⟩ : ∃ entity, (after readThenRenamed (World.start {})).Cached 0 entity ∧
      Accessor.ofName? (.entity entity) "descriptor" = some .typeDescriptor :=
    ⟨Option.get _ found_renamed, ⟨(Option.some_get found_renamed).symm, by decide +kernel⟩, by decide +kernel⟩
  -- the run is not to be carried out again
  generalize readThenRenamed = operations at *
  refine ⟨allowed, entity, cached, session_reads_current {} operations allowed proper session 0 entity cached held
    "descriptor" .typeDescriptor offered fun row _ => signalled_iff.mpr ?_⟩
  rw [signalled]
  exact List.not_mem_nil

end Operation

end Catalog

end CatalogReplica
