import CatalogReplica.Proofs.Catalog.Reading

/-!
# What reads of columns give

The value of a column is what decoding the current row gives, and where the row is missing
or cannot be decoded, a read by the mutator fails in the same way.

* `Agrees`: the outcome of a read beside what the rows give.
* `column_ends`: reading a column field.
-/

namespace CatalogReplica.Catalog.World

open Coherence (Access Computed SlotSpec)
open Storage (ColumnType ColumnValue Fetched Row)

variable {world after : World} {unsignalled : List EntityKey} {id : ThingId} {entity : Entity}
  {access : Access} {α β : Type}

/-! ## Agreement -/

/-- The outcome is the expected one, if anything is promised.  Readers that are not the
    mutator may be refused. -/
def Agrees (access : Access) (promised : Prop) (expected : Fetched α) : Except Interrupt α → Prop
  | .ok value => promised → expected = .ok value
  | .error interrupt => access = .mutator → promised → expected = .error interrupt

theorem Agrees.demand {promised promised' : Prop} {expected expected' : Fetched α}
    {outcome : Except Interrupt α} (agrees : Agrees access promised' expected' outcome)
    (promise : promised → promised') (same : promised → expected = expected') :
    Agrees access promised expected outcome := by
  cases outcome with
  | ok value => exact fun given => (same given).trans (agrees (promise given))
  | error interrupt => exact fun isMutator given => (same given).trans (agrees isMutator (promise given))

/-- What a read without further effect ensures. -/
def Tells (unsignalled : List EntityKey) (access : Access) (promised : Prop) (expected : Fetched α)
    (world : World) (outcome : Except Interrupt α) (after : World) : Prop :=
  Leads unsignalled [] world after ∧ Agrees access promised expected outcome

/-- Something is promised of cached entities whose row is signalled. -/
def Promised (unsignalled : List EntityKey) (world : World) (id : ThingId) (entity : Entity) : Prop :=
  world.Cached id entity ∧ Clean unsignalled entity.key.classOid entity.key.object

theorem Agrees.of_eq {promised : Prop} {expected : Fetched α} {outcome : Except Interrupt α}
    (same : promised → expected = outcome) : Agrees access promised expected outcome := by
  cases outcome with
  | ok value => exact same
  | error interrupt => exact fun _ => same

theorem Agrees.of_not {promised : Prop} (unpromised : ¬ promised) (expected : Fetched α) (outcome : Except Interrupt α) :
    Agrees access promised expected outcome := .of_eq fun promise => absurd promise unpromised

/-- One read after another. -/
theorem Tells.bind {promised : Prop} {body : Task World α} {next : α → Task World β} {expected : Fetched α}
    {rest : α → Fetched β} {start : World}
    (first : body.Ends start (Tells unsignalled access promised expected world))
    (second : ∀ value mid, Leads unsignalled [] world mid → (promised → expected = .ok value) →
      (next value).Ends mid (Tells unsignalled access promised (rest value) world)) :
    (body >>= next).Ends start (Tells unsignalled access promised (expected >>= rest) world) := by
  have goes {value : α} (got : expected = .ok value) : (expected >>= rest) = rest value := by
    rw [got]
    rfl
  refine Task.Ends.bind first ?_ ?_
  · rintro value mid ⟨leads, agrees⟩
    refine (second value mid leads agrees).weaken fun outcome after tells => ⟨tells.1, ?_⟩
    cases outcome with
    | ok last => exact fun given => (goes (agrees given)).trans (tells.2 given)
    | error interrupt => exact fun isMutator given => (goes (agrees given)).trans (tells.2 isMutator given)
  · rintro interrupt mid ⟨leads, agrees⟩
    refine ⟨leads, fun isMutator given => ?_⟩
    rw [agrees isMutator given]
    rfl

/-- What was read in a later state, with less promised. -/
theorem Tells.earlier {mid : World} {promised promised' : Prop} {expected expected' : Fetched α}
    {outcome : Except Interrupt α} (leads : Leads unsignalled [] world mid)
    (tells : Tells unsignalled access promised' expected' mid outcome after)
    (promise : promised → promised') (same : promised → expected = expected') :
    Tells unsignalled access promised expected world outcome after :=
  ⟨leads.further tells.1, tells.2.demand promise same⟩

theorem requireEntity_run (found : world.entity? id = some entity) :
    requireEntity id world = .ok entity world := by
  unfold requireEntity
  rw [Task.bind_ok (Task.get_run world), found]
  rfl

theorem onProvider_run {body : Task Provider α} {value : α} {provider : Provider}
    (ran : body world.provider = .ok value provider) :
    onProvider body world = .ok value { world with provider } := by
  unfold onProvider Task.within
  rw [ran]

theorem onProvider_fails {body : Task Provider α} {interrupt : Interrupt} {provider : Provider}
    (ran : body world.provider = .error interrupt provider) :
    onProvider body world = .error interrupt { world with provider } := by
  unfold onProvider Task.within
  rw [ran]

/-! ## The row -/

theorem search_ends (stands : world.Stands unsignalled) (found : world.entity? id = some entity) :
    (search id).Ends world (Computes unsignalled id entity (.tuple entity.kind) access world) := by
  let provider : Provider := { world.provider with searches := world.provider.searches + 1 }
  have leads : Leads unsignalled [] world { world with provider } := .of_core stands rfl
  have searched : Provider.search entity.rowKey world.provider
      = Task.ofExcept (provider.serve .search (world.provider.row? entity.rowKey)) provider := by
    unfold Provider.search
    rw [Task.bind_ok (Task.modify_run _ _), Task.bind_ok (Task.get_run _)]
    rfl
  refine .next (requireEntity_run found) ?_
  obtain served | ⟨⟨fault, served⟩, defective⟩ := provider.serve_cases .search (world.provider.row? entity.rowKey) <;>
    rw [served] at searched
  · refine .next (onProvider_run searched) ?_
    cases row : world.provider.row? entity.rowKey with
    | some address =>
      exact .pure ⟨leads, ⟨fun _ _ => (nomatch ·), fun _ _ => (nomatch ·), (nomatch ·)⟩, fun _ _ => ⟨address, rfl, row⟩⟩
    | none =>
      refine ⟨leads, fun _ _ _ => ?_⟩
      unfold Provider.rowAt
      rw [show entity.kind.rowKey entity.key = entity.rowKey from rfl, row]
  · -- nothing is promised of a provider that fails
    exact .stop (onProvider_fails searched) ⟨leads, fun _ _ clean => (defective ((stands.plain clean.vouched).of_store rfl)).elim⟩

/-- The address of the row. -/
theorem tuple_ends (stands : world.Stands unsignalled) (found : world.entity? id = some entity)
    (held : id ∈ world.held) :
    (tuple id access).Ends world (Tells unsignalled access (Promised unsignalled world id entity)
      ((·.address) <$> world.provider.rowAt entity.kind (entity.kind.rowKey entity.key)) world) := by
  refine .next (requireEntity_run found)
    ((readSlot_ends (.tuple entity.kind) stands found held rfl (search_ends stands found)).bind ?_ ?_)
  · intro datum after reads
    have right (promised : Promised unsignalled world id entity) :=
      reads.right (nomatch ·) rfl stands promised.1 held promised.2
    cases datum with
    | address address =>
      refine .pure ⟨reads.1, fun promised => ?_⟩
      obtain ⟨_, ⟨⟩, row⟩ := right promised
      rw [show after.provider.row? _ = world.provider.row? _ from
        congrArg (·.row? (entity.kind.rowKey entity.key)) reads.1.onward.store] at row
      unfold Provider.rowAt
      rw [row]
      rfl
    | _ =>
      refine ⟨reads.1.forget, fun _ promised => ?_⟩
      obtain ⟨_, ⟨⟩, -⟩ := right promised
  · intro interrupt after fails
    refine ⟨fails.1, fun isMutator promised => ?_⟩
    rw [show world.provider.rowAt _ _ = _ from fails.2 isMutator promised.1 promised.2]
    rfl

theorem rowAt_eq {provider : Provider} {kind : EntityClass} {key : EntityKey} {row : Row}
    (found : provider.rowAt kind key = .ok row) : row = ⟨provider.memory, kind.layout, row.address⟩ := by
  unfold Provider.rowAt at found
  split at found
  · cases found
    rfl
  · cases found

theorem layout?_run {provider : Provider} (plain : provider.Plain) (kind : EntityClass) :
    provider.layout? kind = .ok kind.layout := by
  rw [Provider.layout?, plain.serve_run, plain.layouts]
  rfl

/-- A column of the row. -/
theorem rowValue_ends (stands : world.Stands unsignalled) (found : world.entity? id = some entity)
    (held : id ∈ world.held) (source : String) (type : ColumnType) :
    (rowValue id access source type).Ends world (Tells unsignalled access (Promised unsignalled world id entity)
      (world.provider.decode entity.kind (entity.kind.rowKey entity.key) source type) world) := by
  refine (tuple_ends stands found held).bind ?_ ?_
  · rintro address after ⟨leads, agrees⟩
    obtain ⟨later, its, becomes⟩ := leads.becomes stands found held
    refine .next leads.stands.requireOpen_run (.next (requireEntity_run its) (.next (Task.get_run after) ?_))
    by_cases vouched : Vouched unsignalled
    case neg =>
      -- whatever the layout is, nothing is promised of what it gives
      have agrees {outcome : Except Interrupt ColumnValue} : Tells unsignalled access (Promised unsignalled world id entity)
          (world.provider.decode entity.kind (entity.kind.rowKey entity.key) source type) world outcome after :=
        ⟨leads, .of_not (fun promised => vouched promised.2.vouched) _ _⟩
      cases after.provider.layout? later.kind with
      | error fault => exact .stop rfl agrees
      | ok layout => exact .next (Task.pure_run _ after) (.next (Task.get_run after) (.ofOutcome agrees))
    rw [layout?_run (leads.stands.plain vouched), becomes.kind]
    refine .next (Task.pure_run _ after) (.next (Task.get_run after) ?_)
    have memory : after.provider.memory = world.provider.memory := congrArg (·.memory) leads.onward.store
    have decoded (promised : Promised unsignalled world id entity) :
        world.provider.decode entity.kind (entity.kind.rowKey entity.key) source type
          = (⟨after.provider.memory, entity.kind.layout, address⟩ : Row).get type source := by
      have located := agrees promised
      unfold Provider.decode
      cases row : world.provider.rowAt entity.kind (entity.kind.rowKey entity.key) with
      | ok row' =>
        rw [row] at located
        cases located
        rw [memory, ← rowAt_eq row]
        rfl
      | error interrupt =>
        rw [row] at located
        cases located
    exact .ofOutcome ⟨leads, .of_eq decoded⟩
  · rintro interrupt after ⟨leads, agrees⟩
    refine ⟨leads, fun isMutator promised => ?_⟩
    have failed := agrees isMutator promised
    unfold Provider.decode
    cases row : world.provider.rowAt entity.kind (entity.kind.rowKey entity.key) with
    | ok row' =>
      rw [row] at failed
      cases failed
    | error interrupt' =>
      rw [row] at failed
      cases failed
      rfl

/-! ## Column fields -/

/-- A column field. -/
theorem column_ends (stands : world.Stands unsignalled) (found : world.entity? id = some entity)
    (held : id ∈ world.held) (field : Column) (kind : field.info.kind = entity.kind) :
    (column id field access).Ends world (Tells unsignalled access (Promised unsignalled world id entity)
      (world.provider.decode entity.kind (entity.kind.rowKey entity.key) field.info.source field.info.type) world) := by
  have store {after : World} (leads : Leads unsignalled [] world after) :
      after.provider.decode entity.kind (entity.kind.rowKey entity.key) field.info.source field.info.type
        = world.provider.decode entity.kind (entity.kind.rowKey entity.key) field.info.source field.info.type :=
    congrArg (·.decode entity.kind (entity.kind.rowKey entity.key) field.info.source field.info.type)
      leads.onward.store
  have computes : (do return Computed.cached (.column (← rowValue id access field.info.source field.info.type))
      : Task World (Computed Datum)).Ends world (Computes unsignalled id entity (.column field) access world) := by
    refine (rowValue_ends stands found held _ _).bind ?_ ?_
    · rintro value after ⟨leads, agrees⟩
      exact .pure ⟨leads, ⟨fun _ _ => (nomatch ·), fun _ _ => (nomatch ·), (nomatch ·)⟩,
        fun cached clean => ⟨value, rfl, (store leads).trans (agrees ⟨cached, clean⟩)⟩⟩
    · rintro interrupt after ⟨leads, agrees⟩
      exact ⟨leads, fun isMutator cached clean => agrees isMutator ⟨cached, clean⟩⟩
  refine (readSlot_ends (.column field) stands found held kind computes).bind ?_ ?_
  · intro datum after reads
    have right (promised : Promised unsignalled world id entity) :=
      reads.right (nomatch ·) kind stands promised.1 held promised.2
    cases datum with
    | column value =>
      refine .pure ⟨reads.1, fun promised => ?_⟩
      obtain ⟨_, ⟨⟩, decoded⟩ := right promised
      exact (store reads.1).symm.trans decoded
    | _ =>
      refine ⟨reads.1.forget, fun _ promised => ?_⟩
      obtain ⟨_, ⟨⟩, -⟩ := right promised
  · exact fun interrupt after fails => ⟨fails.1, fun isMutator promised => fails.2 isMutator promised.1 promised.2⟩

/-! ## Columns of one type -/

section typed

variable {body : Task World ColumnValue} {next : ColumnValue → Task World α} {wrap : α → ColumnValue}
  {row : Fetched Row} {get : Row → Fetched ColumnValue} {source : Row → Fetched α} {promised : Prop}

/-- What follows a column when only values of one type are expected. -/
theorem typed_ends
    (ends : body.Ends world (Tells unsignalled access promised (row >>= get) world))
    (typed : ∀ row, get row = (source row).map wrap) (apart : ∀ one two, wrap one = wrap two → one = two)
    (picks : ∀ value, next (wrap value) = pure value)
    (others : ∀ value, (∀ picked, value ≠ wrap picked) → ∃ interrupt, next value = throw interrupt) :
    (body >>= next).Ends world (Tells unsignalled access promised (row >>= source) world) := by
  -- Both directions go through the one row: what the column gave is the wrapped source, or its failure.
  have gives {value : ColumnValue} (got : (row >>= get) = .ok value) :
      ∃ picked, value = wrap picked ∧ (row >>= source) = .ok picked := by
    cases row with
    | error interrupt => cases got
    | ok row =>
      change get row = .ok value at got
      rw [typed] at got
      change ∃ picked, value = wrap picked ∧ source row = .ok picked
      cases read : source row with
      | error interrupt => rw [read] at got; cases got
      | ok picked => rw [read] at got; cases got; exact ⟨picked, rfl, rfl⟩
  have fails {interrupt : Interrupt} (got : (row >>= get) = .error interrupt) :
      (row >>= source) = .error interrupt := by
    cases row with
    | error interrupt' => cases got; rfl
    | ok row =>
      change get row = .error interrupt at got
      rw [typed] at got
      change source row = .error interrupt
      cases read : source row with
      | error interrupt' => rw [read] at got; cases got; rfl
      | ok picked => rw [read] at got; cases got
  refine ends.bind ?_ fun interrupt after ended => ⟨ended.1, fun isMutator given => fails (ended.2 isMutator given)⟩
  rintro value after ⟨leads, agrees⟩
  -- A value of another shape throws, and then the column cannot have agreed with the row.
  by_cases picked : ∃ picked, value = wrap picked
  · obtain ⟨picked, rfl⟩ := picked
    rw [picks]
    refine .pure ⟨leads, fun given => ?_⟩
    obtain ⟨other, same, read⟩ := gives (agrees given)
    rw [read, apart _ _ same]
  · obtain ⟨interrupt, thrown⟩ := others value fun other same => picked ⟨other, same⟩
    rw [thrown]
    refine ⟨leads, fun _ given => ?_⟩
    obtain ⟨other, same, -⟩ := gives (agrees given)
    exact absurd ⟨other, same⟩ picked

end typed

section fields

variable (stands : world.Stands unsignalled) (found : world.entity? id = some entity) (held : id ∈ world.held)

include stands found held

/-- A column of the row that holds an object number. -/
theorem rowOid_ends (source : String) :
    (rowOid id access source).Ends world (Tells unsignalled access (Promised unsignalled world id entity)
      (world.provider.rowAt entity.kind (entity.kind.rowKey entity.key) >>= (·.oid source)) world) := by
  refine typed_ends (rowValue_ends stands found held source .oid) (fun _ => rfl) (fun _ _ => ColumnValue.oid.inj)
    (fun _ => rfl) fun value differs => ?_
  cases value with
  | oid oid => exact absurd rfl (differs oid)
  | _ => exact ⟨_, rfl⟩

variable (field : Column) (kind : field.info.kind = entity.kind)

include kind

theorem oidColumn_ends (isOid : field.info.type = .oid) :
    (oidColumn id field access).Ends world (Tells unsignalled access (Promised unsignalled world id entity)
      (world.provider.rowAt entity.kind (entity.kind.rowKey entity.key) >>= (·.oid field.info.source)) world) := by
  refine typed_ends (column_ends stands found held field kind) (fun row => by rw [isOid]; rfl)
    (fun _ _ => ColumnValue.oid.inj) (fun _ => rfl) fun value differs => ?_
  cases value with
  | oid oid => exact absurd rfl (differs oid)
  | _ => exact ⟨_, rfl⟩

theorem typmodColumn_ends (isTypmod : field.info.type = .i32) :
    (typmodColumn id field access).Ends world (Tells unsignalled access (Promised unsignalled world id entity)
      (world.provider.rowAt entity.kind (entity.kind.rowKey entity.key) >>= (·.i32 field.info.source)) world) := by
  refine typed_ends (column_ends stands found held field kind) (fun row => by rw [isTypmod]; rfl)
    (fun _ _ => ColumnValue.i32.inj) (fun _ => rfl) fun value differs => ?_
  cases value with
  | i32 typmod => exact absurd rfl (differs typmod)
  | _ => exact ⟨_, rfl⟩

theorem countColumn_ends (isCount : field.info.type = .i16) :
    (countColumn id field access).Ends world (Tells unsignalled access (Promised unsignalled world id entity)
      (world.provider.rowAt entity.kind (entity.kind.rowKey entity.key) >>= (·.i16 field.info.source)) world) := by
  refine typed_ends (column_ends stands found held field kind) (fun row => by rw [isCount]; rfl)
    (fun _ _ => ColumnValue.i16.inj) (fun _ => rfl) fun value differs => ?_
  cases value with
  | i16 count => exact absurd rfl (differs count)
  | _ => exact ⟨_, rfl⟩

theorem nameColumn_ends (isName : field.info.type = .name) :
    (nameColumn id field access).Ends world (Tells unsignalled access (Promised unsignalled world id entity)
      (world.provider.rowAt entity.kind (entity.kind.rowKey entity.key) >>= (·.name field.info.source)) world) := by
  refine typed_ends (column_ends stands found held field kind) (fun row => by rw [isName]; rfl)
    (fun _ _ => ColumnValue.name.inj) (fun _ => rfl) fun value differs => ?_
  cases value with
  | name name => exact absurd rfl (differs name)
  | _ => exact ⟨_, rfl⟩

end fields

end CatalogReplica.Catalog.World
