import Mathlib.Data.List.Forall2
import CatalogReplica.Proofs.Coherence.Memoized

/-!
# The life of a cell

A run makes gates and clones of them, opens batches, adds gates through any of their handles, commits
and drops batches, and trips gates directly, in any order.  What becomes of a cell is told by the steps
of the run: it is current on one gate for one stretch of time, one step detaches it, and it is tripped
by that step itself or by the commit of the batch that the step put it in.

* `Handles.step`, `Handles.upTo`: the states of a run, step by step.
* `Yard.isTripped_step`, `Yard.detaches_step`, `Yard.get?_step`: what one operation does.
* `Handles.current_between`: a cell is current on one gate during one stretch.
* `Handles.Batched`: what an open batch holds.
* `Handles.cells_exact`: all of it, over every run.
-/

namespace CatalogReplica.Coherence

/-! ## One operation -/

/-- A commit counts every cell of a batch whose cells are apart and not tripped. -/
theorem Batch.commit_count {opened : Batch} {gates : Gates} (distinct : opened.cells.Nodup)
    (untripped : ∀ cell ∈ opened.cells, gates.isTripped cell = false) : (opened.commit gates).1 = opened.cells.length := by
  unfold commit
  generalize opened.cells = cells at distinct untripped ⊢
  induction cells generalizing gates with
  | nil => rfl
  | cons cell cells inductionHypothesis =>
    obtain ⟨absent, distinct⟩ := List.nodup_cons.mp distinct
    have rest : ∀ other ∈ cells, (gates.tripCell cell).isTripped other = false := by
      intro other among
      have differs : other ≠ cell := fun same => absent (same ▸ among)
      rw [Gates.isTripped_tripCell, untripped other (List.mem_cons_of_mem _ among)]
      simp [differs]
    simp only [tripCells]
    rw [inductionHypothesis distinct rest, untripped cell List.mem_cons_self, List.length_cons, Nat.add_comm]
    rfl

namespace Yard

variable {yard : Yard} {gate : GateId} {cell : CellId} {batch : Nat} {opened : Batch}

/-- A cell is tripped by a trip of the gate that holds it, or by the commit of the batch that does. -/
theorem isTripped_step (sound : yard.Sound) (step : GateStep) (cell : CellId) :
    (yard.step step).gates.isTripped cell = true ↔ yard.gates.isTripped cell = true
      ∨ (∃ gate, step = .act (.trip gate) ∧ yard.gates.currentCell? gate = some cell)
      ∨ ∃ batch opened, step = .act (.commit batch) ∧ yard.batches.get? batch = some opened ∧ cell ∈ opened.cells := by
  cases step with
  | newGate => simp [Yard.step]
  | newCell => simp [Yard.step]
  | act act =>
    rw [Yard.step]
    cases act with
    | openBatch batch => simp [Yard.act]
    | discard batch => simp [Yard.act]
    | add batch gate =>
      cases found : yard.batches.get? batch with
      | none => simp [act_add_unopened found]
      | some opened => simp [act_add found, Batch.isTripped_add]
    | commit batch =>
      cases found : yard.batches.get? batch with
      | none => simp [act_commit_unopened found, found]
      | some opened =>
        have known : cell ∈ opened.cells → cell < yard.gates.tripped.size := fun held =>
          (sound.held cell (.inr ⟨batch, opened, found, held⟩)).1
        rw [act_commit found, Batch.isTripped_commit]
        simp [found, and_iff_left_of_imp known]
    | trip gate =>
      -- a cell that does not exist yet is neither current nor tripped
      have trips : (yard.gates.trip gate).isTripped cell = true
          ↔ yard.gates.isTripped cell = true ∨ yard.gates.currentCell? gate = some cell := by
        constructor
        · intro tripped
          rw [Gates.trip, Batch.isTripped_commit, Batch.isTripped_add] at tripped
          simp only [Bool.or_eq_true, decide_eq_true_eq] at tripped
          exact tripped.imp_right fun held => (Batch.mem_of_add held.1).resolve_left List.not_mem_nil
        · rintro (before | current)
          · exact Gates.onward_trip _ _ cell before
          · rw [Gates.isTripped_trip _ _ _ (sound.gates.current gate cell current).1, decide_eq_true current, Bool.or_true]
      rw [Yard.act, trips]
      simp

/-- A gate loses its cell by a trip, or by being added to a batch that does not have it yet. -/
theorem detaches_step (sound : yard.Sound) (current : yard.gates.currentCell? gate = some cell) (step : GateStep) :
    (yard.step step).gates.currentCell? gate ≠ some cell ↔ step = .act (.trip gate)
      ∨ ∃ batch opened, step = .act (.add batch gate) ∧ yard.batches.get? batch = some opened ∧ gate ∉ opened.gates := by
  constructor
  · intro lost
    -- A step that neither trips the gate nor adds it to a batch leaves its cell in place, so nothing is lost.
    cases step with
    | newGate => exact absurd (yard.gates.grows_newGate.current gate cell current) lost
    | newCell => exact absurd current lost
    | act act =>
      rw [Yard.step] at lost
      cases act with
      | openBatch batch =>
        rw [Yard.act, gates_drop] at lost
        exact absurd current lost
      | discard batch =>
        rw [Yard.act, gates_drop] at lost
        exact absurd current lost
      | commit batch =>
        cases found : yard.batches.get? batch with
        | none =>
          rw [act_commit_unopened found] at lost
          exact absurd current lost
        | some opened =>
          rw [act_commit found, Gates.currentCell?, Batch.current_commit] at lost
          exact absurd current lost
      | add batch other =>
        cases found : yard.batches.get? batch with
        | none =>
          rw [act_add_unopened found] at lost
          exact absurd current lost
        | some opened =>
          rw [act_add found] at lost
          obtain ⟨run, -⟩ | ⟨taken, absent, -, run⟩ := opened.add_cases other yard.gates <;> simp only [run] at lost
          · exact absurd current lost
          · by_cases same : other = gate
            · subst same
              exact .inr ⟨batch, opened, rfl, found, absent⟩
            · rw [Gates.currentCell?, Array.getElem?_setIfInBounds, if_neg same] at lost
              exact absurd current lost
      | trip other =>
        by_cases same : other = gate
        · exact .inl (by rw [same])
        · rw [Yard.act, Gates.trip, Gates.currentCell?, Batch.current_commit] at lost
          obtain ⟨run, -⟩ | ⟨taken, -, -, run⟩ := Batch.add_cases {} other yard.gates <;> rw [run] at lost
          · exact absurd current lost
          · rw [Array.getElem?_setIfInBounds, if_neg same] at lost
            exact absurd current lost
  · rintro (rfl | ⟨batch, opened, rfl, found, new⟩)
    · exact (past_trip (sound.fated current)).2
    · exact (past_add found new (sound.fated current)).2

/-- An open batch was just opened, or was there before, and has grown if a gate was just added. -/
theorem get?_step (step : GateStep) (found : (yard.step step).batches.get? batch = some opened) :
    (step = .act (.openBatch batch) ∧ opened = {})
      ∨ ∃ before, yard.batches.get? batch = some before ∧
        ((∃ gate, step = .act (.add batch gate) ∧ opened = (before.add gate yard.gates).1)
          ∨ (∀ gate, step ≠ .act (.add batch gate)) ∧ opened = before) := by
  -- Only its own opening and its own additions change a batch; the others leave it or end it.
  cases step with
  | newGate => exact .inr ⟨opened, found, .inr ⟨by rintro _ ⟨⟩, rfl⟩⟩
  | newCell => exact .inr ⟨opened, found, .inr ⟨by rintro _ ⟨⟩, rfl⟩⟩
  | act act =>
    rw [Yard.step] at found
    cases act with
    | openBatch other =>
      rw [Yard.act, Assoc.get?_set, get?_drop] at found
      split at found
      · next same => exact .inl ⟨by rw [same], (Option.some.inj found).symm⟩
      · exact .inr ⟨opened, found, .inr ⟨by rintro _ ⟨⟩, rfl⟩⟩
    | discard other =>
      rw [Yard.act, get?_drop] at found
      split at found
      · cases found
      · exact .inr ⟨opened, found, .inr ⟨by rintro _ ⟨⟩, rfl⟩⟩
    | commit other =>
      cases there : yard.batches.get? other with
      | none => exact .inr ⟨opened, act_commit_unopened there ▸ found, .inr ⟨by rintro _ ⟨⟩, rfl⟩⟩
      | some also =>
        rw [act_commit there, Assoc.get?_erase] at found
        split at found
        · cases found
        · exact .inr ⟨opened, found, .inr ⟨by rintro _ ⟨⟩, rfl⟩⟩
    | trip gate => exact .inr ⟨opened, found, .inr ⟨by rintro _ ⟨⟩, rfl⟩⟩
    | add other gate =>
      cases there : yard.batches.get? other with
      | none =>
        rw [act_add_unopened there] at found
        refine .inr ⟨opened, found, .inr ⟨fun gate' same => ?_, rfl⟩⟩
        cases same
        cases there.symm.trans found
      | some also =>
        rw [act_add there, Assoc.get?_set] at found
        split at found
        · next same =>
          subst same
          exact .inr ⟨also, there, .inl ⟨gate, rfl, (Option.some.inj found).symm⟩⟩
        · next differs => exact .inr ⟨opened, found, .inr ⟨fun gate' same => differs (by cases same; rfl), rfl⟩⟩

end Yard

/-! ## Runs over handles -/

/-- Handles of gates, with the gates and batches behind them. -/
structure Handles where
  yard : Yard := {}
  /-- The gate of each handle; clones have the gate of the handle that was cloned. -/
  gates : Array GateId := #[]
  /-- How many batches were opened; each has its own number. -/
  opened : Nat := 0

/-- One operation through handles. -/
inductive HandleStep where
  /-- Makes a gate and its first handle. -/
  | newGate
  /-- Makes a further handle of the gate. -/
  | clone (handle : Nat)
  /-- Takes the current cell of the gate; see `Handles.current?`. -/
  | current (handle : Nat)
  /-- Makes a cell that no gate holds. -/
  | newCell
  /-- Opens a batch. -/
  | openBatch
  /-- Adds the gate of a handle to a batch. -/
  | add (batch handle : Nat)
  /-- Commits a batch. -/
  | commit (batch : Nat)
  /-- Drops a batch without committing it. -/
  | discard (batch : Nat)
  /-- Trips the gate of a handle. -/
  | trip (handle : Nat)
  deriving DecidableEq

namespace Handles

/-- What the operation does to gates; a handle that does not exist does nothing. -/
def act? (state : Handles) : HandleStep → Option GateStep
  | .newGate => some .newGate
  | .clone _ | .current _ => none
  | .newCell => some .newCell
  | .openBatch => some (.act (.openBatch state.opened))
  | .add batch handle => state.gates[handle]?.map fun gate => .act (.add batch gate)
  | .commit batch => some (.act (.commit batch))
  | .discard batch => some (.act (.discard batch))
  | .trip handle => state.gates[handle]?.map fun gate => .act (.trip gate)

/-- The gate that the operation makes a handle of. -/
def gains? (state : Handles) : HandleStep → Option GateId
  | .newGate => some state.yard.gates.newGate.1
  | .clone handle => state.gates[handle]?
  | _ => none

/-- What an operation leaves. -/
def step (state : Handles) (step : HandleStep) : Handles where
  yard := state.yard.after (state.act? step).toList
  gates := state.gates ++ (state.gains? step).toArray
  opened := if step = .openBatch then state.opened + 1 else state.opened

/-- What a run of operations makes of nothing. -/
def run (steps : List HandleStep) : Handles := steps.foldl step {}

/-- The current cell of the gate of a handle. -/
def current? (state : Handles) (handle : Nat) : Option CellId :=
  state.gates[handle]?.bind state.yard.gates.currentCell?

/-- The batch was opened, and was neither committed nor dropped. -/
def IsOpen (state : Handles) (batch : Nat) : Prop := ∃ opened, state.yard.batches.get? batch = some opened

/-- The state after the first `n` steps. -/
def upTo (steps : List HandleStep) (n : Nat) : Handles := run (steps.take n)

/-- Step `n` takes the cell from the gate. -/
def Detaches (steps : List HandleStep) (n : Nat) (gate : GateId) (cell : CellId) : Prop :=
  (upTo steps n).yard.gates.currentCell? gate = some cell ∧ (upTo steps (n + 1)).yard.gates.currentCell? gate ≠ some cell

/-- Step `n` trips the gate directly, through one of its handles. -/
def Trips (steps : List HandleStep) (n : Nat) (gate : GateId) : Prop :=
  ∃ handle, steps[n]? = some (.trip handle) ∧ (upTo steps n).gates[handle]? = some gate

/-- Step `n` adds the gate to the open batch, through one of its handles. -/
def Adds (steps : List HandleStep) (n batch : Nat) (gate : GateId) : Prop :=
  (∃ handle, steps[n]? = some (.add batch handle) ∧ (upTo steps n).gates[handle]? = some gate) ∧ (upTo steps n).IsOpen batch

/-- Step `n` commits the open batch. -/
def Commits (steps : List HandleStep) (n batch : Nat) : Prop :=
  steps[n]? = some (.commit batch) ∧ (upTo steps n).IsOpen batch

variable {steps : List HandleStep} {gate other : GateId} {cell : CellId} {batch handle i j n : Nat} {opened : Batch}

/-! ## The steps of a run -/

/-- What step `n` does to gates. -/
def done? (steps : List HandleStep) (n : Nat) : Option GateStep := steps[n]?.bind (upTo steps n).act?

theorem upTo_succ {step : HandleStep} (there : steps[n]? = some step) : upTo steps (n + 1) = (upTo steps n).step step := by
  rw [upTo, List.take_add_one, there, run, List.foldl_append]
  rfl

theorem upTo_succ_of_none (absent : steps[n]? = none) : upTo steps (n + 1) = upTo steps n := by
  rw [upTo, List.take_add_one, absent, Option.toList_none, List.append_nil, ← upTo]

theorem yard_succ (steps : List HandleStep) (n : Nat) :
    (upTo steps (n + 1)).yard = (upTo steps n).yard.after (done? steps n).toList := by
  rw [done?]
  cases there : steps[n]? with
  | none => rw [upTo_succ_of_none there]; rfl
  | some step => rw [upTo_succ there]; rfl

theorem yard_succ_idle (idle : done? steps n = none) : (upTo steps (n + 1)).yard = (upTo steps n).yard := by
  rw [yard_succ, idle]
  rfl

theorem yard_succ_done {act : GateStep} (done : done? steps n = some act) :
    (upTo steps (n + 1)).yard = (upTo steps n).yard.step act := by
  rw [yard_succ, done]
  rfl

theorem done?_trip : done? steps n = some (.act (.trip gate)) ↔ Trips steps n gate := by
  rw [done?, Trips]
  cases steps[n]? with
  | none => simp
  | some step => cases step <;> simp [act?]

theorem done?_add : done? steps n = some (.act (.add batch gate))
    ↔ ∃ handle, steps[n]? = some (.add batch handle) ∧ (upTo steps n).gates[handle]? = some gate := by
  rw [done?]
  cases steps[n]? with
  | none => simp
  | some step => cases step <;> simp [act?, and_assoc, and_comm]

theorem done?_commit : done? steps n = some (.act (.commit batch)) ↔ steps[n]? = some (.commit batch) := by
  rw [done?]
  cases steps[n]? with
  | none => simp
  | some step => cases step <;> simp [act?]

theorem done?_openBatch (done : done? steps n = some (.act (.openBatch batch))) :
    steps[n]? = some .openBatch ∧ batch = (upTo steps n).opened := by
  rw [done?] at done
  cases there : steps[n]? with
  | none => simp [there] at done
  | some step =>
    rw [there] at done
    cases step <;> simp [act?] at done
    exact ⟨rfl, done.symm⟩

theorem sound_upTo (steps : List HandleStep) (n : Nat) : (upTo steps n).yard.Sound := by
  induction n with
  | zero => exact Yard.Sound.start
  | succ n inductionHypothesis => exact yard_succ steps n ▸ inductionHypothesis.after _

theorem onward_upTo (ordered : i ≤ j) : (upTo steps i).yard.gates.Onward (upTo steps j).yard.gates := by
  induction ordered with
  | refl => exact .refl _
  | @step j _ inductionHypothesis => exact yard_succ steps j ▸ inductionHypothesis.trans (Yard.onward_after _ _)

theorem past_upTo (ordered : i ≤ j) (past : Yard.Past gate cell (upTo steps i).yard) : Yard.Past gate cell (upTo steps j).yard := by
  induction ordered with
  | refl => exact past
  | @step j _ inductionHypothesis => exact yard_succ steps j ▸ inductionHypothesis.after _

/-! ## Handles -/

theorem gates_succ (steps : List HandleStep) (n : Nat) :
    ∃ more, (upTo steps (n + 1)).gates = (upTo steps n).gates ++ more := by
  cases there : steps[n]? with
  | none => exact ⟨#[], by rw [upTo_succ_of_none there, Array.append_empty]⟩
  | some step => exact ⟨_, congrArg gates (upTo_succ there)⟩

/-- A handle stays a handle of its gate. -/
theorem gates_upTo (ordered : i ≤ j) (held : (upTo steps i).gates[handle]? = some gate) :
    (upTo steps j).gates[handle]? = some gate := by
  induction ordered with
  | refl => exact held
  | @step j _ inductionHypothesis =>
    obtain ⟨more, same⟩ := gates_succ steps j
    have within := (Array.getElem?_eq_some_iff.mp inductionHypothesis).1
    rw [same, Array.getElem?_append_left within, inductionHypothesis]

theorem gates_clone (cloned : steps[n]? = some (.clone handle)) (held : (upTo steps n).gates[handle]? = some gate) :
    (upTo steps (n + 1)).gates[(upTo steps n).gates.size]? = some gate := by
  rw [upTo_succ cloned]
  simp only [step, gains?, held]
  rw [Array.getElem?_append_right (Nat.le_refl _), Nat.sub_self]
  rfl

theorem gate_known (held : (upTo steps n).gates[handle]? = some gate) : gate < (upTo steps n).yard.gates.current.size := by
  -- On the number of steps: a handle is old, or it was gained by a new gate or as a clone of a known one.
  induction n generalizing handle gate with
  | zero => simp [upTo, run] at held
  | succ n inductionHypothesis =>
    cases there : steps[n]? with
    | none =>
      rw [upTo_succ_of_none there] at held ⊢
      exact inductionHypothesis held
    | some step =>
      rw [upTo_succ there] at held ⊢
      have grows : (upTo steps n).yard.gates.current.size ≤ ((upTo steps n).step step).yard.gates.current.size := by
        rw [Handles.step]
        cases (upTo steps n).act? step with
        | none => exact Nat.le_refl _
        | some act => exact Engine.current_step_size _ act
      rw [Handles.step, Array.getElem?_append] at held
      split at held
      · exact Nat.lt_of_lt_of_le (inductionHypothesis held) grows
      · have gained : (upTo steps n).gains? step = some gate := by
          cases gains : (upTo steps n).gains? step with
          | none => simp [gains] at held
          | some new =>
            rw [gains, Option.toArray_some, List.getElem?_toArray] at held
            exact congrArg some (List.mem_singleton.mp (List.mem_of_getElem? held)).symm
        cases step with
        | newGate =>
          cases gained
          simp [Handles.step, act?, Yard.after, Yard.step, Gates.newGate, Gates.newCell]
        | clone original => exact Nat.lt_of_lt_of_le (inductionHypothesis gained) grows
        | _ => cases gained

/-! ## Current cells -/

theorem current_untripped (current : (upTo steps n).yard.gates.currentCell? gate = some cell) :
    (upTo steps n).yard.gates.isTripped cell = false := ((sound_upTo steps n).gates.current gate cell current).2.1

theorem known_upTo (ordered : i ≤ j) (known : cell < (upTo steps i).yard.gates.tripped.size) :
    cell < (upTo steps j).yard.gates.tripped.size := by
  induction ordered with
  | refl => exact known
  | @step j _ inductionHypothesis =>
    cases done : done? steps j with
    | none => exact yard_succ_idle done ▸ inductionHypothesis
    | some act => exact yard_succ_done done ▸ Nat.lt_of_lt_of_le inductionHypothesis (Yard.size_step _ act)

/-- A cell is current on one gate, during one stretch of the run. -/
theorem current_between {between : Nat} (ordered : i ≤ between) (ordered' : between ≤ j)
    (first : (upTo steps i).yard.gates.currentCell? gate = some cell)
    (last : (upTo steps j).yard.gates.currentCell? other = some cell) :
    gate = other ∧ (upTo steps between).yard.gates.currentCell? gate = some cell := by
  have known := ((sound_upTo steps i).gates.current gate cell first).1
  have same : gate = other := by
    refine Decidable.byContradiction fun differs => ?_
    -- the other gate does not hold the cell while this one does, and gets only new ones later
    have past : Yard.Past other cell (upTo steps i).yard :=
      ⟨known, fun also => differs ((sound_upTo steps i).gates.apart gate other cell first also)⟩
    exact (past_upTo (Nat.le_trans ordered ordered') past).2 last
  subst same
  exact ⟨rfl, Decidable.byContradiction fun lost => (past_upTo ordered' ⟨known_upTo ordered known, lost⟩).2 last⟩

/-- A step that takes a cell from its gate is a trip of the gate, or adds it to a batch. -/
theorem detaches_iff (current : (upTo steps n).yard.gates.currentCell? gate = some cell) :
    Detaches steps n gate cell ↔ Trips steps n gate
      ∨ ∃ batch, Adds steps n batch gate ∧ ∃ opened, (upTo steps n).yard.batches.get? batch = some opened ∧ gate ∉ opened.gates := by
  rw [Detaches, and_iff_right current]
  cases done : done? steps n with
  | none =>
    rw [yard_succ_idle done]
    refine iff_of_false (fun lost => lost current) ?_
    rintro (trips | ⟨batch, ⟨adds, -⟩, -⟩)
    · cases (done?_trip.mpr trips).symm.trans done
    · cases (done?_add.mpr adds).symm.trans done
  | some act =>
    rw [yard_succ_done done, Yard.detaches_step (sound_upTo steps n) current]
    refine or_congr ?_ (exists_congr fun batch => ?_)
    · rw [← done?_trip, done, Option.some.injEq]
    · rw [Adds, ← done?_add, done, Option.some.injEq]
      exact ⟨fun ⟨opened, same, found, new⟩ => ⟨⟨same, opened, found⟩, opened, found, new⟩,
        fun ⟨⟨same, _⟩, opened, found, new⟩ => ⟨opened, same, found, new⟩⟩

/-! ## What an open batch holds -/

theorem opened_step (state : Handles) (step : HandleStep) : state.opened ≤ (state.step step).opened := by
  unfold Handles.step
  dsimp only
  split <;> omega

theorem opened_upTo (ordered : i ≤ j) : (upTo steps i).opened ≤ (upTo steps j).opened := by
  induction ordered with
  | refl => exact Nat.le_refl _
  | @step j _ inductionHypothesis =>
    cases there : steps[j]? with
    | none => exact upTo_succ_of_none there ▸ inductionHypothesis
    | some step => exact upTo_succ there ▸ Nat.le_trans inductionHypothesis (opened_step _ step)

/-- What was open before step `n`, if step `n` did not open it. -/
theorem get?_succ (found : (upTo steps (n + 1)).yard.batches.get? batch = some opened) :
    (batch = (upTo steps n).opened ∧ opened = {} ∧ (upTo steps (n + 1)).opened = (upTo steps n).opened + 1)
      ∨ ∃ before, (upTo steps n).yard.batches.get? batch = some before ∧
        ((∃ gate, Adds steps n batch gate ∧ opened = (before.add gate (upTo steps n).yard.gates).1)
          ∨ (∀ gate, ¬ Adds steps n batch gate) ∧ opened = before) := by
  cases done : done? steps n with
  | none =>
    rw [yard_succ_idle done] at found
    refine .inr ⟨opened, found, .inr ⟨fun gate adds => ?_, rfl⟩⟩
    cases (done?_add.mpr adds.1).symm.trans done
  | some act =>
    rw [yard_succ_done done] at found
    obtain ⟨rfl, blank⟩ | ⟨before, there, ⟨gate, rfl, grown⟩ | ⟨other, same⟩⟩ := Yard.get?_step act found
    · obtain ⟨there, same⟩ := done?_openBatch done
      exact .inl ⟨same, blank, by rw [upTo_succ there]; rfl⟩
    · exact .inr ⟨before, there, .inl ⟨gate, ⟨done?_add.mp done, before, there⟩, grown⟩⟩
    · refine .inr ⟨before, there, .inr ⟨fun gate adds => other gate ?_, same⟩⟩
      exact Option.some.inj (done.symm.trans (done?_add.mpr adds.1))

theorem lt_opened (found : (upTo steps n).IsOpen batch) : batch < (upTo steps n).opened := by
  induction n with
  | zero =>
    obtain ⟨opened, found⟩ := found
    cases found
  | succ n inductionHypothesis =>
    obtain ⟨opened, found⟩ := found
    obtain ⟨rfl, -, counted⟩ | ⟨before, there, -⟩ := get?_succ found
    · omega
    · exact Nat.lt_of_lt_of_le (inductionHypothesis ⟨before, there⟩) (opened_upTo (Nat.le_succ n))

/-- What a batch has, it keeps while it is open. -/
theorem kept_upTo {later : Batch} (ordered : i ≤ j) (found : (upTo steps i).yard.batches.get? batch = some opened)
    (found' : (upTo steps j).yard.batches.get? batch = some later) :
    (∀ gate ∈ opened.gates, gate ∈ later.gates) ∧ ∀ cell ∈ opened.cells, cell ∈ later.cells := by
  induction ordered generalizing later with
  | refl =>
    cases found.symm.trans found'
    exact ⟨fun _ => id, fun _ => id⟩
  | @step j ordered inductionHypothesis =>
    obtain ⟨same, -⟩ | ⟨before, there, ⟨gate, -, rfl⟩ | ⟨-, rfl⟩⟩ := get?_succ found'
    · -- its number was given out before
      have := Nat.lt_of_lt_of_le (lt_opened ⟨opened, found⟩) (opened_upTo ordered)
      omega
    · obtain ⟨gates, cells⟩ := inductionHypothesis there
      exact ⟨fun other among => Batch.gates_add (gates other among) gate _, fun cell held => Batch.cells_add (cells cell held) gate _⟩
    · exact inductionHypothesis there

/-- What an open batch holds after `n` steps: the gates that were added to it, each once, and for each of them
    the cell that it lost to the batch. -/
structure Batched (steps : List HandleStep) (n batch : Nat) (opened : Batch) : Prop where
  gates : opened.gates.Nodup
  cells : opened.cells.Nodup
  added : ∀ gate, gate ∈ opened.gates ↔ ∃ i < n, Adds steps i batch gate
  taken : List.Forall₂ (fun gate cell => ∃ i < n, Adds steps i batch gate ∧ Detaches steps i gate cell) opened.gates opened.cells

/-- A cell of the batch was lost to it by a gate. -/
theorem Batched.lost (holds : Batched steps n batch opened) (held : cell ∈ opened.cells) :
    ∃ gate, ∃ i < n, Adds steps i batch gate ∧ Detaches steps i gate cell := by
  have taken := holds.taken
  generalize opened.gates = gates, opened.cells = cells at held taken
  induction taken with
  | nil => cases held
  | @cons gate first gates cells its _ inductionHypothesis =>
    obtain rfl | later := List.mem_cons.mp held
    · exact ⟨gate, its⟩
    · exact inductionHypothesis later

theorem adds_unique (adds : Adds steps n batch gate) {batch' : Nat} (adds' : Adds steps n batch' other) :
    batch' = batch ∧ other = gate := by
  have same := (done?_add.mpr adds'.1).symm.trans (done?_add.mpr adds.1)
  simpa using same

theorem batched (found : (upTo steps n).yard.batches.get? batch = some opened) : Batched steps n batch opened := by
  induction n generalizing opened with
  | zero => cases found
  | succ n inductionHypothesis =>
    obtain ⟨rfl, rfl, -⟩ | ⟨before, there, ⟨gate, adds, rfl⟩ | ⟨none, rfl⟩⟩ := get?_succ found
    · refine ⟨.nil, .nil, fun gate => iff_of_false List.not_mem_nil ?_, .nil⟩
      -- nothing was added to a batch before it had its number
      rintro ⟨i, early, adds⟩
      have := Nat.lt_of_lt_of_le (lt_opened adds.2) (opened_upTo (Nat.le_of_lt_succ early))
      omega
    · obtain ⟨gates, cells, added, taken⟩ := inductionHypothesis there
      have taken' := taken.imp fun gate cell ⟨i, early, its⟩ => (⟨i, Nat.lt_succ_of_lt early, its⟩ :
        ∃ i < n + 1, Adds steps i batch gate ∧ Detaches steps i gate cell)
      have addedNow (other : GateId) : (∃ i < n + 1, Adds steps i batch other) ↔ other = gate ∨ ∃ i < n, Adds steps i batch other := by
        constructor
        · rintro ⟨i, early, adds'⟩
          obtain before | rfl := Nat.lt_succ_iff_lt_or_eq.mp early
          · exact .inr ⟨i, before, adds'⟩
          · exact .inl (adds_unique adds adds').2
        · rintro (rfl | ⟨i, early, adds'⟩)
          · exact ⟨n, Nat.lt_succ_self n, adds⟩
          · exact ⟨i, Nat.lt_succ_of_lt early, adds'⟩
      obtain ⟨run, idle⟩ | ⟨cell, absent, current, run⟩ := before.add_cases gate (upTo steps n).yard.gates <;> rw [run]
      · -- the gate of a handle has a cell, so the batch has it already
        have among : gate ∈ before.gates := by
          refine idle.resolve_right fun unknown => ?_
          obtain ⟨handle, -, held⟩ := adds.1
          obtain ⟨cell, current⟩ := Gates.currentCell?_isSome (gate_known held)
          cases unknown.symm.trans current
        refine ⟨gates, cells, fun other => ?_, taken'⟩
        rw [addedNow, ← added]
        exact ⟨.inr, fun either => either.elim (fun same => same ▸ among) id⟩
      · have apart := ((sound_upTo steps n).batched there).current gate cell current
        refine ⟨List.nodup_cons.mpr ⟨absent, gates⟩, List.nodup_cons.mpr ⟨apart.2.2, cells⟩, fun other => ?_, .cons ?_ taken'⟩
        · rw [addedNow, ← added, List.mem_cons]
        · exact ⟨n, Nat.lt_succ_self n, adds, (detaches_iff current).mpr (.inr ⟨batch, adds, before, there, absent⟩)⟩
    · obtain ⟨gates, cells, added, taken⟩ := inductionHypothesis there
      refine ⟨gates, cells, fun gate => (added gate).trans ⟨?_, ?_⟩, taken.imp fun gate cell => ?_⟩
      · exact fun ⟨i, early, adds⟩ => ⟨i, Nat.lt_succ_of_lt early, adds⟩
      · rintro ⟨i, early, adds⟩
        obtain before | rfl := Nat.lt_succ_iff_lt_or_eq.mp early
        · exact ⟨i, before, adds⟩
        · exact absurd adds (none gate)
      · exact fun ⟨i, early, its⟩ => ⟨i, Nat.lt_succ_of_lt early, its⟩

/-- The cell that a gate lost to a batch is there while the batch is open. -/
theorem held_of_adds (adds : Adds steps i batch gate) (detaches : Detaches steps i gate cell) (later : i < j)
    (found : (upTo steps j).yard.batches.get? batch = some opened) : cell ∈ opened.cells := by
  have done := done?_add.mpr adds.1
  obtain trips | ⟨batch', adds', before, there, new⟩ := (detaches_iff detaches.1).mp detaches
  · cases (done?_trip.mpr trips).symm.trans done
  · obtain ⟨rfl, -⟩ := adds_unique adds adds'
    have grown : (upTo steps (i + 1)).yard.batches.get? batch' = some (before.add gate (upTo steps i).yard.gates).1 := by
      rw [yard_succ_done done, Yard.step, Yard.act_add there, Assoc.get?_set, if_pos rfl]
    exact (kept_upTo later grown found).2 cell (Batch.mem_cells_add new detaches.1)

/-! ## Which cells are tripped -/

theorem tripped_succ : (upTo steps (n + 1)).yard.gates.isTripped cell = true ↔ (upTo steps n).yard.gates.isTripped cell = true
    ∨ (∃ gate, Trips steps n gate ∧ (upTo steps n).yard.gates.currentCell? gate = some cell)
    ∨ ∃ batch opened, Commits steps n batch ∧ (upTo steps n).yard.batches.get? batch = some opened ∧ cell ∈ opened.cells := by
  cases done : done? steps n with
  | none =>
    rw [yard_succ_idle done]
    refine ⟨.inl, ?_⟩
    rintro (before | ⟨gate, trips, -⟩ | ⟨batch, opened, commits, -⟩)
    · exact before
    · cases (done?_trip.mpr trips).symm.trans done
    · cases (done?_commit.mpr commits.1).symm.trans done
  | some act =>
    rw [yard_succ_done done, Yard.isTripped_step (sound_upTo steps n)]
    refine or_congr_right (or_congr (exists_congr fun gate => ?_) (exists_congr fun batch => exists_congr fun opened => ?_))
    · rw [← done?_trip, done, Option.some.injEq]
    · rw [Commits, ← done?_commit, done, Option.some.injEq]
      exact ⟨fun ⟨same, found, held⟩ => ⟨⟨same, opened, found⟩, found, held⟩, fun ⟨⟨same, _⟩, found, held⟩ => ⟨same, found, held⟩⟩

/-- A cell is tripped just if the step that detached it was a trip, or put it in a batch that was committed. -/
theorem tripped_iff : (upTo steps n).yard.gates.isTripped cell = true ↔ ∃ i < n, ∃ gate, Detaches steps i gate cell
    ∧ (Trips steps i gate ∨ ∃ batch, Adds steps i batch gate ∧ ∃ j < n, i < j ∧ Commits steps j batch) := by
  constructor
  · induction n with
    | zero => exact fun tripped => nomatch tripped
    | succ n inductionHypothesis =>
      intro tripped
      obtain before | ⟨gate, trips, current⟩ | ⟨batch, opened, commits, found, held⟩ := tripped_succ.mp tripped
      · obtain ⟨i, early, gate, detaches, how⟩ := inductionHypothesis before
        refine ⟨i, Nat.lt_succ_of_lt early, gate, detaches, how.imp_right ?_⟩
        exact fun ⟨batch, adds, j, early, later, commits⟩ => ⟨batch, adds, j, Nat.lt_succ_of_lt early, later, commits⟩
      · exact ⟨n, Nat.lt_succ_self n, gate, (detaches_iff current).mpr (.inl trips), .inl trips⟩
      · obtain ⟨gate, i, early, adds, detaches⟩ := (batched found).lost held
        exact ⟨i, Nat.lt_succ_of_lt early, gate, detaches, .inr ⟨batch, adds, n, Nat.lt_succ_self n, early, commits⟩⟩
  · rintro ⟨i, early, gate, detaches, trips | ⟨batch, adds, j, early', later, commits⟩⟩
    · exact onward_upTo early cell (tripped_succ.mpr (.inr (.inl ⟨gate, trips, detaches.1⟩)))
    · obtain ⟨opened, found⟩ := commits.2
      exact onward_upTo early' cell (tripped_succ.mpr (.inr (.inr ⟨batch, opened, commits, found, held_of_adds adds detaches later found⟩)))

/-! ## Every run -/

theorem current?_eq_some : (upTo steps n).current? handle = some cell
    ↔ ∃ gate, (upTo steps n).gates[handle]? = some gate ∧ (upTo steps n).yard.gates.currentCell? gate = some cell :=
  Option.bind_eq_some_iff

/-- A handle has a current cell, which is not tripped. -/
theorem current?_untripped (held : (upTo steps n).gates[handle]? = some gate) : ∃ cell,
    (upTo steps n).current? handle = some cell ∧ (upTo steps n).yard.gates.isTripped cell = false := by
  obtain ⟨cell, current⟩ := Gates.currentCell?_isSome (gate_known held)
  exact ⟨cell, current?_eq_some.mpr ⟨gate, held, current⟩, current_untripped current⟩

/-- What becomes of the cells of gates, over every run of operations through handles, where batches and trips of
    one gate overlap in any order.

    * A handle has a current cell, which is not tripped; a clone has the current cell of its original ever after,
      and handles of different gates have different cells.
    * A cell that is current at two points of a run is so on one gate, and at every point between.
    * Gates lose their cells to trips, and to batches that they are added to.
    * A cell is tripped just if the trip that detached it was direct, or the batch that did was committed since,
      and it stays tripped.
    * An open batch holds one cell for each gate that was added to it through any of its handles: the cell that
      the gate lost to the batch.  To commit it is to trip as many cells. -/
theorem cells_exact (steps : List HandleStep) :
    (∀ n handle gate, (upTo steps n).gates[handle]? = some gate →
      (∃ cell, (upTo steps n).current? handle = some cell ∧ (upTo steps n).yard.gates.isTripped cell = false)
      ∧ (steps[n]? = some (.clone handle) → ∀ m > n,
          (upTo steps m).current? (upTo steps n).gates.size = (upTo steps m).current? handle)
      ∧ ∀ handle' gate', (upTo steps n).gates[handle']? = some gate' →
          ((upTo steps n).current? handle = (upTo steps n).current? handle' ↔ gate = gate'))
    ∧ (∀ i j k gate gate' cell, i ≤ j → j ≤ k → (upTo steps i).yard.gates.currentCell? gate = some cell →
        (upTo steps k).yard.gates.currentCell? gate' = some cell →
        gate = gate' ∧ (upTo steps j).yard.gates.currentCell? gate = some cell)
    ∧ (∀ n gate cell, Detaches steps n gate cell → Trips steps n gate ∨ ∃ batch, Adds steps n batch gate)
    ∧ (∀ n cell, (upTo steps n).yard.gates.isTripped cell = true ↔ ∃ i < n, ∃ gate, Detaches steps i gate cell
        ∧ (Trips steps i gate ∨ ∃ batch, Adds steps i batch gate ∧ ∃ j < n, i < j ∧ Commits steps j batch))
    ∧ (∀ n m cell, n ≤ m → (upTo steps n).yard.gates.isTripped cell = true → (upTo steps m).yard.gates.isTripped cell = true)
    ∧ ∀ n batch opened, (upTo steps n).yard.batches.get? batch = some opened →
        Batched steps n batch opened
        ∧ (∀ cell, cell ∈ opened.cells ↔ ∃ gate, ∃ i < n, Adds steps i batch gate ∧ Detaches steps i gate cell)
        ∧ opened.cells.length = opened.gates.length
        ∧ (opened.commit (upTo steps n).yard.gates).1 = opened.gates.length := by
  refine ⟨fun n handle gate held => ⟨current?_untripped held, fun cloned m later => ?_, fun handle' gate' held' => ⟨fun same => ?_, ?_⟩⟩,
    fun i j k gate gate' cell ordered ordered' => current_between ordered ordered', fun n gate cell detaches => ?_,
    fun n cell => tripped_iff, fun n m cell ordered => onward_upTo ordered cell, fun n batch opened found => ?_⟩
  · rw [current?, current?, gates_upTo later (gates_clone cloned held), gates_upTo (Nat.le_of_lt later) held]
  · obtain ⟨cell, current⟩ := Gates.currentCell?_isSome (gate_known held)
    rw [current?, current?, held, held', Option.bind_some, Option.bind_some, current] at same
    exact (sound_upTo steps n).gates.apart gate gate' cell current same.symm
  · rintro rfl
    rw [current?, current?, held, held']
  · obtain trips | ⟨batch, adds, -⟩ := (detaches_iff detaches.1).mp detaches
    · exact .inl trips
    · exact .inr ⟨batch, adds⟩
  · have holds := batched found
    have untripped : ∀ cell ∈ opened.cells, (upTo steps n).yard.gates.isTripped cell = false := fun cell held =>
      ((sound_upTo steps n).held cell (.inr ⟨batch, opened, found, held⟩)).2.1
    have count := holds.taken.length_eq.symm
    refine ⟨holds, fun cell => ⟨holds.lost, ?_⟩, count, (Batch.commit_count holds.cells untripped).trans count⟩
    rintro ⟨gate, i, early, adds, detaches⟩
    exact held_of_adds adds detaches early found

/-- Two batches and a trip take three cells of one gate, which has two handles; the second batch alone is committed. -/
theorem cells_exact_two_batches :
    let steps : List HandleStep := [.newGate, .clone 0, .openBatch, .openBatch, .add 0 0, .trip 1, .add 1 1, .add 1 0, .commit 1]
    (∃ i < 9, ∃ gate, Detaches steps i gate 2
        ∧ (Trips steps i gate ∨ ∃ batch, Adds steps i batch gate ∧ ∃ j < 9, i < j ∧ Commits steps j batch))
      ∧ (∃ opened, (upTo steps 8).yard.batches.get? 1 = some opened ∧ (opened.commit (upTo steps 8).yard.gates).1 = 1
        ∧ (∃ gate, ∃ i < 8, Adds steps i 1 gate ∧ Detaches steps i gate 2))
      ∧ (upTo steps 9).yard.gates.isTripped 0 = false := by
  intro steps
  obtain ⟨-, -, -, tripped, -, batches⟩ := cells_exact steps
  have opened : (upTo steps 8).yard.batches.get? 1 = some { gates := [0], cells := [2] } := by decide +kernel
  obtain ⟨-, cells, -, count⟩ := batches 8 1 _ opened
  exact ⟨(tripped 9 2).mp (by decide +kernel), ⟨_, opened, count, (cells 2).mp List.mem_cons_self⟩, by decide +kernel⟩

end Handles

end CatalogReplica.Coherence
