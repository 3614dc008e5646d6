import CatalogReplica.Catalog.Provider
import CatalogReplica.Catalog.Thing
import CatalogReplica.Proofs.Storage.Growth

/-!
# What rows say

What the provider's current rows give, without any cache in between.

* `Provider.decode`: a column of the row of a key.
* `Provider.describe`: the columns of a relation.
* `Provider.Lasts`: both stay as they are, as while other rows are written.
-/

namespace CatalogReplica.Catalog

open Storage (Row ColumnType ColumnValue Fetched Memory)

/-- None of the keys is one of the object's. -/
def Clean (unsignalled : List EntityKey) (classOid object : Oid) : Prop :=
  ∀ key ∈ unsignalled, ¬ (key.classOid = classOid ∧ key.object = object)

/-- There is an object that none of the keys is one of. -/
def Vouched (unsignalled : List EntityKey) : Prop := ∃ classOid object, Clean unsignalled classOid object

theorem Clean.vouched {unsignalled : List EntityKey} {classOid object : Oid} (clean : Clean unsignalled classOid object) :
    Vouched unsignalled := ⟨classOid, object, clean⟩

namespace Provider

variable {provider later : Provider} {unsignalled : List EntityKey}

/-! ## Decoding -/

/-- The current row of a key. -/
def rowAt (provider : Provider) (kind : EntityClass) (key : EntityKey) : Fetched Row :=
  match provider.row? key with
  | some address => .ok { memory := provider.memory, layout := kind.layout, address }
  | none => .error (.fault (.notFound key.form.inline))

/-- A column of the current row of a key. -/
def decode (provider : Provider) (kind : EntityClass) (key : EntityKey) (source : String)
    (type : ColumnType) : Fetched ColumnValue := do
  (← provider.rowAt kind key).get type source

/-- A column of a relation. -/
def describeColumn (provider : Provider) (relation : Oid) (attnum : Int16) :
    Fetched DescriptorColumn := do
  let row ← provider.rowAt .attr (attributeKey relation attnum)
  let name ← row.name "attname"
  let typeOid ← row.oid "atttypid"
  let typmod ← row.i32 "atttypmod"
  return { attnum, name := some name, typeOid, typmod }

/-- The columns with the given numbers. -/
def describeColumns (provider : Provider) (relation : Oid) : List Int16 → Fetched (List DescriptorColumn)
  | [] => return []
  | attnum :: attnums => do
      let first ← provider.describeColumn relation attnum
      return first :: (← provider.describeColumns relation attnums)

/-- The columns of a relation: as many as its row says. -/
def describe (provider : Provider) (relation : Oid) : Fetched Descriptor := do
  let row ← provider.rowAt .relation (EntityClass.relation.key relation)
  let natts ← row.i16 "relnatts"
  let typeOid ← row.oid "reltype"
  let attnums := (List.range' 1 natts.toInt.toNat).map Int16.ofNat
  let columns ← provider.describeColumns relation attnums
  return { typeOid, typmod := noTypmod, relation := some relation, columns, guard := none }

/-! ## What decoding depends on -/

/-- What rows are found with and decoded from. -/
def store (provider : Provider) : Provider where
  memory := provider.memory
  layouts := provider.layouts
  rows := provider.rows
  extraRows := provider.extraRows
  failures := provider.failures

theorem describeColumns_store (provider : Provider) (relation : Oid) (attnums : List Int16) :
    provider.store.describeColumns relation attnums = provider.describeColumns relation attnums := by
  induction attnums with
  | nil => rfl
  | cons attnum attnums inductionHypothesis =>
    simp only [describeColumns, inductionHypothesis]
    rfl

theorem describeColumns_of_store (same : later.store = provider.store) {relation : Oid} {attnums : List Int16} :
    provider.describeColumns relation attnums = later.describeColumns relation attnums := by
  rw [← describeColumns_store, ← describeColumns_store later, same]

theorem describe_store (provider : Provider) (relation : Oid) :
    provider.store.describe relation = provider.describe relation := by
  simp only [describe, describeColumns_store]
  rfl

theorem describe_of_store (same : later.store = provider.store) {relation : Oid} :
    provider.describe relation = later.describe relation := by
  rw [← describe_store, ← describe_store later, same]

/-- No service is made to fail, and rows have the usual layouts. -/
structure Plain (provider : Provider) : Prop where
  failures : provider.failures = []
  layouts : provider.layouts = []
  memory : provider.memory.Sound

theorem Plain.of_store (plain : provider.Plain) (same : later.store = provider.store) : later.Plain where
  failures := (congrArg (·.failures) same).trans plain.failures
  layouts := (congrArg (·.layouts) same).trans plain.layouts
  memory := (congrArg (·.memory) same : later.memory = provider.memory) ▸ plain.memory

theorem Plain.serve_run {α : Type} (plain : provider.Plain) (service : Service) (answer : α) :
    provider.serve service answer = .ok answer := by
  unfold serve
  rw [plain.failures]
  rfl

/-- A service gives its answer, unless it is made to fail. -/
theorem serve_cases {α : Type} (provider : Provider) (service : Service) (answer : α) :
    provider.serve service answer = .ok answer
      ∨ (∃ fault, provider.serve service answer = .error fault) ∧ ¬ provider.Plain := by
  cases served : provider.serve service answer with
  | error fault =>
    refine .inr ⟨⟨fault, rfl⟩, fun plain => ?_⟩
    cases (plain.serve_run service answer).symm.trans served
  | ok given =>
    unfold serve at served
    split at served
    · cases served
    · exact .inl served.symm

/-! ## While other rows are written -/

/-- Memory has grown, and the rows of objects with no unsignalled row are where they
    were. -/
structure Grows (unsignalled : List EntityKey) (provider later : Provider) : Prop where
  memory : provider.memory.Grows later.memory
  rows : ∀ key, Clean unsignalled key.classOid key.object → later.row? key = provider.row? key

/-- What follows from the row of a key, if it lasts, does so when others are written. -/
theorem rowAt_lasts {α : Type} {next next' : Row → Fetched α} (grows : provider.Grows unsignalled later)
    {kind : EntityClass} {key : EntityKey} (clean : Clean unsignalled key.classOid key.object)
    (rest : ∀ address, Fetched.Lasts (next ⟨provider.memory, kind.layout, address⟩)
      (next' ⟨later.memory, kind.layout, address⟩)) :
    Fetched.Lasts (provider.rowAt kind key >>= next) (later.rowAt kind key >>= next') := by
  unfold rowAt
  rw [grows.rows key clean]
  cases provider.row? key with
  | none => exact .refl _
  | some address => exact rest address

theorem decode_lasts (grows : provider.Grows unsignalled later) (sound : provider.memory.Sound)
    {kind : EntityClass} {key : EntityKey} (clean : Clean unsignalled key.classOid key.object)
    (source : String) (type : ColumnType) :
    Fetched.Lasts (provider.decode kind key source type) (later.decode kind key source type) :=
  rowAt_lasts grows clean fun _ => Storage.Row.get_lasts sound grows.memory type source

theorem describeColumn_lasts (grows : provider.Grows unsignalled later)
    (sound : provider.memory.Sound) {relation : Oid}
    (clean : Clean unsignalled EntityClass.attr.oid relation) (attnum : Int16) :
    Fetched.Lasts (provider.describeColumn relation attnum) (later.describeColumn relation attnum) :=
  rowAt_lasts grows clean fun _ =>
    .bind (Storage.Row.name_lasts sound grows.memory _) fun _ =>
      .bind (Storage.Row.oid_lasts sound grows.memory _) fun _ =>
        .bind (Storage.Row.i32_lasts sound grows.memory _) fun _ => .refl _

theorem describeColumns_lasts (grows : provider.Grows unsignalled later)
    (sound : provider.memory.Sound) {relation : Oid}
    (clean : Clean unsignalled EntityClass.attr.oid relation) (attnums : List Int16) :
    Fetched.Lasts (provider.describeColumns relation attnums)
      (later.describeColumns relation attnums) := by
  induction attnums with
  | nil => exact .refl _
  | cons attnum attnums inductionHypothesis =>
    exact .bind (describeColumn_lasts grows sound clean attnum) fun _ =>
      .bind inductionHypothesis fun _ => .refl _

theorem describe_lasts (grows : provider.Grows unsignalled later) (sound : provider.memory.Sound)
    {relation : Oid} (own : Clean unsignalled EntityClass.relation.oid relation)
    (attributes : Clean unsignalled EntityClass.attr.oid relation) :
    Fetched.Lasts (provider.describe relation) (later.describe relation) := by
  have clean : Clean unsignalled (EntityClass.relation.key relation).classOid
      (EntityClass.relation.key relation).object := own
  exact rowAt_lasts grows clean fun _ =>
    .bind (Storage.Row.i16_lasts sound grows.memory _) fun _ =>
      .bind (Storage.Row.oid_lasts sound grows.memory _) fun _ =>
        .bind (describeColumns_lasts grows sound attributes _) fun _ => .refl _

/-- What was read of rows that are signalled is read later. -/
structure Lasts (unsignalled : List EntityKey) (provider later : Provider) : Prop where
  rows : ∀ key, Clean unsignalled key.classOid key.object → later.row? key = provider.row? key
  decode : ∀ kind key source type, Clean unsignalled key.classOid key.object →
    Fetched.Lasts (provider.decode kind key source type) (later.decode kind key source type)
  describe : ∀ relation, Clean unsignalled EntityClass.relation.oid relation →
    Clean unsignalled EntityClass.attr.oid relation →
    Fetched.Lasts (provider.describe relation) (later.describe relation)

theorem Grows.lasts (grows : provider.Grows unsignalled later) (sound : provider.memory.Sound) :
    provider.Lasts unsignalled later where
  rows := grows.rows
  decode _ _ source type clean := decode_lasts grows sound clean source type
  describe _ own attributes := describe_lasts grows sound own attributes

theorem Lasts.of_store (same : later.store = provider.store) :
    provider.Lasts unsignalled later where
  rows key _ := congrArg (·.row? key) same
  decode kind key source type _ value got :=
    (congrArg (·.decode kind key source type) same).trans got
  describe relation _ _ value got := by
    rw [← describe_store, same, describe_store]
    exact got

end Provider

end CatalogReplica.Catalog
