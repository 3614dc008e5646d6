import CatalogReplica.Catalog.Script

/-!
# Which faults there are

Reading rows, guarding native descriptors and giving them back can fail in many ways, but never
with the fault of a constructor that asks for its own key.

* `FailsOnly`, `Task.Behaves`: what an outcome or a task fails with.
* `Interrupt.Regular`: no fault of a constructor that asks for its own key.
* `Storage.Row.get_regular`: a column is read.
* `Lifetime.Ledger.dropOwner_plain`, `build_plain`, `pin_plain`: guards.
-/

namespace CatalogReplica

variable {σ α β : Type} {allowed : Interrupt → Prop} {holds : σ → Prop}

/-! ## Outcomes and tasks -/

/-- If there is no value, the interrupt is allowed. -/
def FailsOnly (allowed : Interrupt → Prop) (outcome : Except Interrupt α) : Prop :=
  ∀ interrupt, outcome = .error interrupt → allowed interrupt

namespace FailsOnly

theorem ok (value : α) : FailsOnly allowed (.ok value : Except Interrupt α) := nofun

theorem error {interrupt : Interrupt} (fine : allowed interrupt) : FailsOnly allowed (.error interrupt : Except Interrupt α) := by
  rintro _ ⟨⟩
  exact fine

theorem map {outcome : Except Interrupt α} (fails : FailsOnly allowed outcome) (f : α → β) :
    FailsOnly allowed (outcome.map f) := by
  cases outcome with
  | ok value => exact ok _
  | error interrupt => exact error (fails interrupt rfl)

theorem bind {outcome : Except Interrupt α} {next : α → Except Interrupt β} (first : FailsOnly allowed outcome)
    (second : ∀ value, FailsOnly allowed (next value)) : FailsOnly allowed (outcome >>= next) := by
  cases outcome with
  | ok value => exact second value
  | error interrupt => exact error (first interrupt rfl)

end FailsOnly

namespace Task

/-- The task keeps what holds of the state, and fails only with what is allowed. -/
def Behaves (body : Task σ α) (holds : σ → Prop) (allowed : Interrupt → Prop) : Prop :=
  ∀ state, holds state → body.Ends state fun outcome after => holds after ∧ FailsOnly allowed outcome

namespace Behaves

theorem pure (value : α) : (pure value : Task σ α).Behaves holds allowed := fun _ before => ⟨before, .ok value⟩

theorem throw {interrupt : Interrupt} (fine : allowed interrupt) : (throw interrupt : Task σ α).Behaves holds allowed :=
  fun _ before => ⟨before, .error fine⟩

theorem get : (get : Task σ σ).Behaves holds allowed := fun state before => ⟨before, .ok state⟩

theorem modify {f : σ → σ} (step : ∀ state, holds state → holds (f state)) :
    (modify f : Task σ PUnit).Behaves holds allowed := fun state before => ⟨step state before, .ok _⟩

theorem lift {change : σ → α × σ} (step : ∀ state, holds state → holds (change state).2) :
    (lift change).Behaves holds allowed := fun state before => ⟨step state before, .ok _⟩

theorem bind {body : Task σ α} {next : α → Task σ β} (first : body.Behaves holds allowed)
    (second : ∀ value, (next value).Behaves holds allowed) : (body >>= next).Behaves holds allowed :=
  fun state before => (first state before).bind (fun value after ended => second value after ended.1)
    fun interrupt _ ended => ⟨ended.1, .error (ended.2 interrupt rfl)⟩

theorem ofOutcome {outcome : Except Interrupt α} (fails : FailsOnly allowed outcome) :
    (ofOutcome outcome : Task σ α).Behaves holds allowed := fun _ before => .ofOutcome ⟨before, fails⟩

theorem ensuring {body : Task σ α} {finish : σ → σ} (behaves : body.Behaves holds allowed)
    (finishes : ∀ state, holds state → holds (finish state)) : (ensuring body finish).Behaves holds allowed :=
  fun state before => .ensuring ((behaves state before).weaken fun _ after ended => ⟨finishes after ended.1, ended.2⟩)

/-- What an attempt gives is a value, or what the body may fail with. -/
theorem attempt {body : Task σ α} {next : Except Interrupt α → Task σ β} (first : body.Behaves holds allowed)
    (second : ∀ outcome, FailsOnly allowed outcome → (next outcome).Behaves holds allowed) :
    (Task.attempt body >>= next).Behaves holds allowed := by
  refine fun state before => (first state before).attempt.bind ?_ fun _ _ ⟨_, broken, _⟩ => by cases broken
  rintro outcome after ⟨_, ⟨⟩, held, fails⟩
  exact second outcome fails after held

theorem discard {body : Task σ α} (behaves : body.Behaves holds allowed) :
    (discard body : Task σ PUnit).Behaves holds allowed := by
  intro state before
  have ends := behaves state before
  unfold Ends at ends ⊢
  rw [discard_run]
  cases ran : body state with
  | ok value after =>
    rw [ran] at ends
    exact ⟨ends.1, .ok _⟩
  | error interrupt after =>
    rw [ran] at ends
    exact ⟨ends.1, .error (ends.2 interrupt rfl)⟩

theorem weaken {weaker : Interrupt → Prop} {body : Task σ α} (behaves : body.Behaves holds allowed)
    (fine : ∀ interrupt, allowed interrupt → weaker interrupt) : body.Behaves holds weaker :=
  fun state before => (behaves state before).weaken fun _ _ ended =>
    ⟨ended.1, fun interrupt failed => fine interrupt (ended.2 interrupt failed)⟩

theorem forM {each : β → Task σ PUnit} {list : List β} (behaves : ∀ one, (each one).Behaves holds allowed) :
    (list.forM each).Behaves holds allowed := by
  induction list with
  | nil => exact .pure PUnit.unit
  | cons first rest ih => exact (behaves first).bind fun _ => ih

end Behaves

end Task

/-! ## Faults of constructors that ask for their own key -/

/-- It is no fault of a constructor that asks for its own key. -/
def Interrupt.Regular (interrupt : Interrupt) : Prop := ∀ fault, interrupt = .fault fault → fault.kind ≠ .reentrant

namespace Interrupt.Regular

theorem crash (note : Option String) : (Interrupt.crash note).Regular := nofun

theorem fault {fault : Fault} (kind : fault.kind ≠ .reentrant) : (Interrupt.fault fault).Regular := by
  rintro _ ⟨⟩
  exact kind

end Interrupt.Regular

open Interrupt (Regular)

/-! ## Memory and rows -/

namespace Storage

namespace Memory

variable (memory : Memory) (address : Address)

theorem region_native {fault : Fault} (failed : memory.region address = .error fault) : fault.kind = .native := by
  unfold region at failed
  split at failed
  · cases failed
  · cases failed
    rfl

theorem mapFixed_regular (len : Nat) : FailsOnly Regular (memory.mapFixed address len) := by
  unfold mapFixed
  split
  · next fault failed => exact .error (.fault (by simp [memory.region_native address failed]))
  · dsimp only
    split
    · exact .error (.fault (by simp [Fault.outOfRange]))
    · split
      · exact .error (.crash none)
      · exact .ok _

theorem mapText_regular : FailsOnly Regular (memory.mapText address) := by
  unfold mapText
  split
  · next fault failed => exact .error (.fault (by simp [memory.region_native address failed]))
  · dsimp only
    split
    · split
      · exact .ok _
      · exact .error (.fault (by simp))
    · exact .error (.fault (by simp [Fault.withContext]))

theorem readNat_regular (width : Nat) (offset : UInt64) : FailsOnly Regular (memory.readNat width address offset) :=
  (memory.mapFixed_regular _ width).map _

theorem readOids_regular (count index : Nat) : FailsOnly Regular (memory.readOids address count index) := by
  induction count generalizing index with
  | zero => exact .ok []
  | succ count ih =>
    have first : FailsOnly Regular (memory.readU32 address (UInt64.ofNat (4 + index * 4))) :=
      (memory.readNat_regular address 4 _).map _
    unfold readOids
    split
    · next interrupt failed => exact .error (first interrupt failed)
    · split
      · next interrupt failed => exact .error (ih (index + 1) interrupt failed)
      · exact .ok _

end Memory

namespace Row

variable (row : Row) (source : String)

theorem spot_regular (type : ColumnType) : FailsOnly Regular (row.spot source type) := by
  unfold spot Layout.field
  cases row.layout.field? source with
  | none => exact .error (.fault (by simp [Fault.withContext]))
  | some spot =>
    dsimp only
    split
    · exact .ok _
    · exact .error (.fault (by simp))

theorem i32_regular : FailsOnly Regular (row.i32 source) :=
  (row.spot_regular source .i32).bind fun _ => (row.memory.readNat_regular _ 4 _).map _

theorem oid_regular : FailsOnly Regular (row.oid source) :=
  (row.spot_regular source .oid).bind fun _ => ((row.memory.readNat_regular _ 4 _).map _).bind fun _ => .ok _

theorem oidList_regular : FailsOnly Regular (row.oidList source) := by
  refine (row.spot_regular source .oidList).bind fun _ => ((row.memory.readNat_regular _ 8 _).map _).bind fun pointer => ?_
  split
  · exact .ok []
  · refine FailsOnly.bind ((row.memory.readNat_regular _ 4 _).map _) fun count => ?_
    split
    · exact .error (.fault (by simp))
    · exact row.memory.readOids_regular _ _ _

/-- A column is read, or there is a fault of another kind. -/
theorem get_regular (type : ColumnType) : FailsOnly Regular (row.get type source) := by
  have spot := row.spot_regular source type
  cases type with
  | bool => exact (spot.bind fun _ => ((row.memory.readNat_regular _ 1 _).map _).map _).map _
  | char => exact (spot.bind fun _ => (row.memory.readNat_regular _ 1 _).map _).map _
  | i16 => exact (spot.bind fun _ => (row.memory.readNat_regular _ 2 _).map _).map _
  | i32 => exact (row.i32_regular source).map _
  | oid => exact (row.oid_regular source).map _
  | name =>
    refine FailsOnly.map (spot.bind fun _ => (row.memory.mapFixed_regular _ _).bind fun bytes => ?_) _
    split
    · exact .ok _
    · exact .error (.fault (by simp))
  | text =>
    refine FailsOnly.map (spot.bind fun _ => ((row.memory.readNat_regular _ 8 _).map _).bind fun pointer => ?_) _
    split
    · exact .ok none
    · exact (row.memory.mapText_regular _).bind fun _ => .ok _
  | oidList => exact (row.oidList_regular source).map _

end Row

end Storage

/-! ## Guards -/

namespace Lifetime.Ledger

/-- The operation has no fault of a constructor that asks for its own key. -/
abbrev Plain (body : Task Ledger α) : Prop := body.Behaves (fun _ => True) Regular

variable {drop : GuardId → Task Ledger Unit}

theorem runBy_plain (drops : ∀ id, Plain (drop id)) (id : GuardId) (cause : ReleaseCause) : Plain (runBy drop id cause) := by
  have fires : Plain (fireBy drop id cause) := by
    refine Task.Behaves.bind (.modify fun _ _ => trivial) fun _ => Task.Behaves.get.bind fun _ =>
      Task.Behaves.bind (.lift fun _ _ => trivial) fun action => ?_
    cases action with
    | none => exact .pure _
    | some action =>
      refine Task.Behaves.bind (.modify fun _ _ => trivial) fun _ => Task.Behaves.bind (.forM drops) fun _ => ?_
      split
      · exact .throw (.crash none)
      · exact .pure _
  exact fires.bind fun _ => .modify fun _ _ => trivial

theorem reapBy_plain (drops : ∀ id, Plain (drop id)) (rounds : Nat) : Plain (reapBy drop rounds) := by
  induction rounds with
  | zero => exact .pure _
  | succ rounds ih =>
    unfold reapBy
    refine Task.Behaves.bind (.modify fun _ _ => trivial) fun _ => Task.Behaves.get.bind fun ledger => ?_
    split
    · exact .pure _
    · refine Task.Behaves.bind (.lift fun _ _ => trivial) fun action => ?_
      cases action with
      | none => exact .pure _
      | some action => exact Task.Behaves.bind (.forM drops) fun _ => ih

theorem dropWithin_plain (depth : Nat) (id : GuardId) : Plain (dropWithin depth id) := by
  induction depth generalizing id with
  | zero => exact .pure _
  | succ depth ih =>
    unfold dropWithin
    refine Task.Behaves.get.bind fun ledger => ?_
    split
    · exact .pure _
    · split
      · dsimp only
        split
        · exact Task.Behaves.bind (fun _ _ => ⟨trivial, .ok _⟩) fun _ => reapBy_plain ih _
        · refine Task.Behaves.bind (fun _ _ => ⟨trivial, .ok _⟩) fun _ => ?_
          split
          · exact runBy_plain ih _ _
          · exact .pure _
      · exact .pure _

theorem dropOwner_plain (id : GuardId) : Plain (dropOwner id) := Task.Behaves.get.bind fun _ => dropWithin_plain _ id

theorem register_plain (guard : GuardId) (lifespan : LifespanId) : Plain (register guard lifespan) := by
  unfold register
  refine Task.Behaves.get.bind fun ledger => ?_
  split
  · split
    · exact .throw (.fault (by simp [Fault.released]))
    · split
      · exact .throw (.fault (by simp [Lifespan.endedFault]))
      · exact fun _ _ => ⟨trivial, .ok _⟩
  · exact .throw (.crash none)

/-- A guard is built, or cannot be registered. -/
theorem build_plain (guard : Guard) (lifespan : Option LifespanId) : Plain (build guard lifespan) := by
  refine Task.Behaves.bind (.lift fun _ _ => trivial) fun id => ?_
  cases lifespan with
  | none => exact .pure _
  | some lifespan =>
    refine Task.Behaves.attempt (register_plain id lifespan) fun outcome fails => ?_
    cases outcome with
    | ok done => exact .pure _
    | error interrupt =>
      have withdraws : Plain (withdraw id) := by
        refine Task.Behaves.bind (.modify fun _ _ => trivial) fun _ => Task.Behaves.bind (.lift fun _ _ => trivial) fun action => ?_
        cases action with
        | none => exact .pure _
        | some action => exact .forM dropOwner_plain
      exact withdraws.bind fun _ => (dropOwner_plain id).bind fun _ => .throw (fails interrupt rfl)

/-- A guard is pinned, or was released. -/
theorem pin_plain (thread : ThreadId) (id : GuardId) : Plain (pin thread id) := by
  refine Task.Behaves.get.bind fun ledger => Task.Behaves.bind (.ofOutcome ?_) fun _ =>
    Task.Behaves.bind (.modify fun _ _ => trivial) fun _ => .pure _
  unfold handle
  split
  · exact .error (.crash none)
  · split
    · exact .error (.fault (by simp [Guard.releasedFault, Fault.released]))
    · exact .ok _

end Lifetime.Ledger

end CatalogReplica
