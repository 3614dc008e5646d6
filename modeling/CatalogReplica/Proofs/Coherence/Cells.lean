import CatalogReplica.Proofs.Coherence.Gates

/-!
# Which cells govern

Every gate has a current cell of its own, which is not tripped.  While batches trip cells
that were current, a memo that is still valid is kept under the current cell of its gate,
or its gate is in the batch and the batch holds the cell.

* `Gates.Sound`: current cells are not tripped, differ, and are not in the batch.
* `Memo.Governed`: where the cell of a memo is while the memo is valid.
* `Sound.add`, `Sound.commit`, `Governed.add`, `Governed.commit`: a batch keeps both.
-/

namespace CatalogReplica.Coherence

namespace Gates

/-- Current cells exist, are not tripped, belong to one gate each, and are not among those
    that a batch is about to trip. -/
structure Sound (trips : Batch) (gates : Gates) : Prop where
  current : ∀ gate cell, gates.currentCell? gate = some cell →
    cell < gates.tripped.size ∧ gates.isTripped cell = false ∧ cell ∉ trips.cells
  apart : ∀ one two cell, gates.currentCell? one = some cell → gates.currentCell? two = some cell →
    one = two
  held : ∀ cell ∈ trips.cells, cell < gates.tripped.size

/-- Gates and cells were added, and nothing else happened. -/
structure Grows (before after : Gates) : Prop where
  cells : before.tripped.size ≤ after.tripped.size
  gates : before.current.size ≤ after.current.size
  current : ∀ gate cell, before.currentCell? gate = some cell → after.currentCell? gate = some cell
  tripped : ∀ cell < before.tripped.size, after.isTripped cell = before.isTripped cell

namespace Grows

variable {before after last : Gates}

theorem refl (gates : Gates) : gates.Grows gates :=
  ⟨Nat.le_refl _, Nat.le_refl _, fun _ _ current => current, fun _ _ => rfl⟩

theorem trans (first : before.Grows after) (second : after.Grows last) : before.Grows last where
  cells := Nat.le_trans first.cells second.cells
  gates := Nat.le_trans first.gates second.gates
  current gate cell current := second.current gate cell (first.current gate cell current)
  tripped cell known :=
    (second.tripped cell (Nat.lt_of_lt_of_le known first.cells)).trans (first.tripped cell known)

theorem onward (grows : before.Grows after) : before.Onward after := by
  intro cell tripped
  by_cases known : cell < before.tripped.size
  · exact (grows.tripped cell known).trans tripped
  · rw [isTripped, Array.getElem?_eq_none (Nat.le_of_not_lt known)] at tripped
    cases tripped

end Grows

variable {gates : Gates} {trips : Batch} {gate : GateId}

theorem sound_blank : ({} : Gates).Sound {} := by
  refine ⟨fun gate cell current => ?_, fun one two cell current => ?_, fun _ among => nomatch among⟩ <;>
    simp [currentCell?] at current

theorem currentCell?_isSome (known : gate < gates.current.size) :
    ∃ cell, gates.currentCell? gate = some cell :=
  ⟨gates.current[gate], Array.getElem?_eq_getElem known⟩

theorem isTripped_fresh (gates : Gates) : gates.isTripped gates.tripped.size = false := by
  simp [isTripped]

theorem currentCell?_newGate (gates : Gates) (gate : GateId) :
    gates.newGate.2.currentCell? gate
      = if gate = gates.current.size then some gates.tripped.size else gates.currentCell? gate := by
  simp only [newGate, newCell, currentCell?, Array.getElem?_push]

@[simp] theorem tripped_size_newGate (gates : Gates) :
    gates.newGate.2.tripped.size = gates.tripped.size + 1 := by
  simp [newGate, newCell]

@[simp] theorem current_size_newGate (gates : Gates) :
    gates.newGate.2.current.size = gates.current.size + 1 := by
  simp [newGate, newCell]

theorem grows_newGate (gates : Gates) : gates.Grows gates.newGate.2 where
  cells := by simp
  gates := by simp
  current gate cell current := by
    have known := (Array.getElem?_eq_some_iff.mp current).1
    rw [currentCell?_newGate, if_neg (Nat.ne_of_lt known)]
    exact current
  tripped cell _ := isTripped_newGate gates cell

/-- A new gate has a new cell. -/
theorem Sound.newGate (sound : gates.Sound trips) : gates.newGate.2.Sound trips := by
  constructor
  · intro gate cell current
    rw [currentCell?_newGate] at current
    rw [isTripped_newGate, tripped_size_newGate]
    split at current
    · cases current
      refine ⟨Nat.lt_succ_self _, isTripped_fresh gates, fun among => ?_⟩
      exact Nat.lt_irrefl _ (sound.held _ among)
    · obtain ⟨known, untripped, apart⟩ := sound.current gate cell current
      exact ⟨Nat.lt_succ_of_lt known, untripped, apart⟩
  · intro one two cell first second
    rw [currentCell?_newGate] at first second
    split at first <;> split at second
    · next same also => rw [same, also]
    · cases first
      exact absurd (sound.current two _ second).1 (Nat.lt_irrefl _)
    · cases second
      exact absurd (sound.current one _ first).1 (Nat.lt_irrefl _)
    · exact sound.apart one two cell first second
  · intro cell among
    rw [tripped_size_newGate]
    exact Nat.lt_succ_of_lt (sound.held cell among)

theorem detach_run {cell : CellId} (current : gates.currentCell? gate = some cell) :
    gates.detach gate = some (cell,
      { tripped := gates.tripped.push false
        current := gates.current.setIfInBounds gate gates.tripped.size }) := by
  unfold detach
  rw [current]
  rfl

end Gates

namespace Batch

variable {gates : Gates} {trips : Batch} {gate other : GateId}

/-- Adding a gate that is there already, or that does not exist, changes nothing; else its
    cell goes to the batch and a fresh one takes its place. -/
theorem add_cases (trips : Batch) (gate : GateId) (gates : Gates) :
    (trips.add gate gates = (trips, gates) ∧
      (gate ∈ trips.gates ∨ gates.currentCell? gate = none)) ∨
    ∃ cell, gate ∉ trips.gates ∧ gates.currentCell? gate = some cell ∧
      trips.add gate gates = ({ gates := gate :: trips.gates, cells := cell :: trips.cells },
        { tripped := gates.tripped.push false
          current := gates.current.setIfInBounds gate gates.tripped.size }) := by
  unfold add
  by_cases among : gate ∈ trips.gates
  · exact .inl ⟨if_pos among, .inl among⟩
  · cases current : gates.currentCell? gate with
    | none =>
      refine .inl ⟨?_, .inr rfl⟩
      rw [if_neg among, Gates.detach, current]
    | some cell => exact .inr ⟨cell, among, rfl, by rw [if_neg among, Gates.detach_run current]⟩

theorem gates_add (among : other ∈ trips.gates) (gate : GateId) (gates : Gates) :
    other ∈ (trips.add gate gates).1.gates := by
  obtain ⟨run, -⟩ | ⟨cell, -, -, run⟩ := trips.add_cases gate gates <;> rw [run]
  · exact among
  · exact List.mem_cons_of_mem _ among

theorem mem_gates_add (known : gate < gates.current.size) :
    gate ∈ (trips.add gate gates).1.gates := by
  obtain ⟨run, among | unknown⟩ | ⟨cell, -, -, run⟩ := trips.add_cases gate gates <;> rw [run]
  · exact among
  · obtain ⟨cell, current⟩ := Gates.currentCell?_isSome known
    rw [unknown] at current
    cases current
  · exact List.mem_cons_self

@[simp] theorem current_size_add (trips : Batch) (gate : GateId) (gates : Gates) :
    (trips.add gate gates).2.current.size = gates.current.size := by
  obtain ⟨run, -⟩ | ⟨cell, -, -, run⟩ := trips.add_cases gate gates <;> rw [run]
  exact Array.size_setIfInBounds

@[simp] theorem current_commit (trips : Batch) (gates : Gates) :
    (trips.commit gates).2.current = gates.current := by
  unfold commit
  generalize trips.cells = cells
  induction cells generalizing gates with
  | nil => rfl
  | cons cell cells inductionHypothesis =>
    simp only [tripCells]
    rw [inductionHypothesis, Gates.current_tripCell]

end Batch

namespace Gates

variable {gates : Gates} {trips : Batch}

theorem currentCell?_swap {current : Array CellId} {gate other : GateId} {fresh cell : CellId}
    (found : (current.setIfInBounds gate fresh)[other]? = some cell) :
    (other = gate ∧ cell = fresh) ∨ (other ≠ gate ∧ current[other]? = some cell) := by
  rw [Array.getElem?_setIfInBounds] at found
  split at found
  · next same =>
    split at found
    · cases found
      exact .inl ⟨same.symm, rfl⟩
    · cases found
  · next differs => exact .inr ⟨Ne.symm differs, found⟩

/-- A batch takes cells that were current and puts fresh ones in their places. -/
theorem Sound.add (sound : gates.Sound trips) (gate : GateId) :
    (trips.add gate gates).2.Sound (trips.add gate gates).1 := by
  -- The gate's old cell joins the batch, and the fresh one is the only new current cell.
  obtain ⟨run, -⟩ | ⟨taken, absent, was, run⟩ := trips.add_cases gate gates
  · rw [run]
    exact sound
  · have untouched := Batch.isTripped_add trips gate gates
    rw [run] at untouched ⊢
    obtain ⟨known, untripped, -⟩ := sound.current gate taken was
    have size : (gates.tripped.push false).size = gates.tripped.size + 1 := Array.size_push _
    constructor
    · intro other cell current
      rw [untouched, size]
      cases currentCell?_swap current with
      | inl swapped =>
        obtain ⟨rfl, rfl⟩ := swapped
        refine ⟨Nat.lt_succ_self _, isTripped_fresh gates, fun among => ?_⟩
        cases List.mem_cons.mp among with
        | inl same => exact Nat.lt_irrefl _ (same ▸ known)
        | inr before => exact Nat.lt_irrefl _ (sound.held _ before)
      | inr kept =>
        obtain ⟨differs, current⟩ := kept
        obtain ⟨known', untripped', apart⟩ := sound.current other cell current
        refine ⟨Nat.lt_succ_of_lt known', untripped', fun among => ?_⟩
        cases List.mem_cons.mp among with
        | inl same => exact differs (sound.apart other gate cell current (same ▸ was))
        | inr before => exact apart before
    · intro one two cell first second
      -- Two gates of one cell: an old cell lies below the fresh one, so both are old or both are the gate itself.
      obtain ⟨rfl, rfl⟩ | ⟨-, first⟩ := currentCell?_swap first <;>
        obtain ⟨same, fresh⟩ | ⟨-, second⟩ := currentCell?_swap second
      · exact same.symm
      · exact absurd (sound.current two _ second).1 (Nat.lt_irrefl _)
      · subst fresh
        exact absurd (sound.current one _ first).1 (Nat.lt_irrefl _)
      · exact sound.apart one two cell first second
    · intro cell among
      rw [size]
      cases List.mem_cons.mp among with
      | inl same => exact Nat.lt_succ_of_lt (same ▸ known)
      | inr before => exact Nat.lt_succ_of_lt (sound.held cell before)

/-- A commit trips no current cell. -/
theorem Sound.commit (sound : gates.Sound trips) : (trips.commit gates).2.Sound {} := by
  constructor
  · intro gate cell current
    rw [currentCell?, Batch.current_commit] at current
    obtain ⟨known, untripped, apart⟩ := sound.current gate cell current
    rw [Batch.commit, Batch.size_tripCells, ← Batch.commit, Batch.isTripped_commit]
    exact ⟨known, by simp [untripped, apart], List.not_mem_nil⟩
  · intro one two cell first second
    rw [currentCell?, Batch.current_commit] at first second
    exact sound.apart one two cell first second
  · exact fun _ among => nomatch among

end Gates

/-! ## The cells of memos -/

namespace Memo

variable {α : Type} {memo : Memo α} {gates after : Gates} {trips : Batch} {gate : GateId}

/-- While the memo is valid, its cell is the current one of the gate, or the gate is in the
    batch and the batch holds the cell. -/
def Governed (trips : Batch) (gates : Gates) (gate : GateId) (memo : Memo α) : Prop :=
  ∃ cell < gates.tripped.size, memo.cell = some cell ∧ (gates.isTripped cell = false →
    (gate ∈ trips.gates → cell ∈ trips.cells) ∧
      (gate ∉ trips.gates → gates.currentCell? gate = some cell))

/-- The memo is valid, and no batch is about to change that. -/
def Trusted (trips : Batch) (gates : Gates) (gate : GateId) (memo : Memo α) : Prop :=
  memo.isValid gates = true ∧ gate ∉ trips.gates

theorem isValid_cell {cell : CellId} (kept : memo.cell = some cell) (gates : Gates) :
    memo.isValid gates = !gates.isTripped cell := by
  unfold isValid
  rw [kept]

namespace Governed

theorem grows (governed : memo.Governed trips gates gate) (grows : gates.Grows after) :
    memo.Governed trips after gate := by
  obtain ⟨cell, known, kept, place⟩ := governed
  refine ⟨cell, Nat.lt_of_lt_of_le known grows.cells, kept, fun untripped => ?_⟩
  rw [grows.tripped cell known] at untripped
  exact ⟨(place untripped).1, fun absent => grows.current gate cell ((place untripped).2 absent)⟩

theorem isValid_grows (governed : memo.Governed trips gates gate) (grows : gates.Grows after) :
    memo.isValid after = memo.isValid gates := by
  obtain ⟨cell, known, kept, -⟩ := governed
  rw [isValid_cell kept, isValid_cell kept, grows.tripped cell known]

theorem add (governed : memo.Governed trips gates gate) (other : GateId) :
    memo.Governed (trips.add other gates).1 (trips.add other gates).2 gate := by
  obtain ⟨cell, known, kept, place⟩ := governed
  refine ⟨cell, Nat.lt_of_lt_of_le known (Batch.size_add trips other gates), kept, fun untripped => ?_⟩
  rw [Batch.isTripped_add] at untripped
  obtain ⟨among, current⟩ := place untripped
  obtain ⟨run, -⟩ | ⟨taken, absent, was, run⟩ := trips.add_cases other gates <;> rw [run]
  · exact ⟨among, current⟩
  · constructor
    · intro inside
      by_cases same : gate = other
      · subst same
        rw [current absent, Option.some.injEq] at was
        exact was ▸ List.mem_cons_self
      · exact List.mem_cons_of_mem _ (among ((List.mem_cons.mp inside).resolve_left same))
    · intro outside
      obtain ⟨differs, before⟩ := List.ne_and_not_mem_of_not_mem_cons outside
      rw [Gates.currentCell?, Array.getElem?_setIfInBounds, if_neg (Ne.symm differs)]
      exact current before

theorem commit (governed : memo.Governed trips gates gate) :
    memo.Governed {} (trips.commit gates).2 gate := by
  obtain ⟨cell, known, kept, place⟩ := governed
  refine ⟨cell, ?_, kept, fun untripped => ?_⟩
  · rw [Batch.commit, Batch.size_tripCells]
    exact known
  · rw [Batch.isTripped_commit, Bool.or_eq_false_iff, decide_eq_false_iff_not] at untripped
    obtain ⟨before, spared⟩ := untripped
    refine ⟨(nomatch ·), fun _ => ?_⟩
    rw [Gates.currentCell?, Batch.current_commit]
    exact (place before).2 fun inside => spared ⟨(place before).1 inside, known⟩

end Governed

theorem Trusted.grows (trusted : memo.Trusted trips after gate)
    (governed : memo.Governed trips gates gate) (grows : gates.Grows after) :
    memo.Trusted trips gates gate :=
  ⟨(governed.isValid_grows grows).symm.trans trusted.1, trusted.2⟩

/-- What is trusted with a further gate in the batch was trusted before. -/
theorem Trusted.of_add {other : GateId}
    (trusted : memo.Trusted (trips.add other gates).1 (trips.add other gates).2 gate) :
    memo.Trusted trips gates gate :=
  ⟨Gates.Onward.valid_before (Batch.onward_add trips other gates) trusted.1,
    fun among => trusted.2 (Batch.gates_add among other gates)⟩

/-- What is trusted after a commit was trusted with its batch. -/
theorem Trusted.of_commit (trusted : memo.Trusted {} (trips.commit gates).2 gate)
    (governed : memo.Governed trips gates gate) : memo.Trusted trips gates gate := by
  have before := Gates.Onward.valid_before (Batch.onward_commit trips gates) trusted.1
  refine ⟨before, fun among => ?_⟩
  obtain ⟨cell, known, kept, place⟩ := governed
  have valid := trusted.1
  rw [isValid_cell kept, Batch.isTripped_commit] at valid
  rw [isValid_cell kept, Bool.not_eq_true'] at before
  have inside := (place before).1 among
  rw [before, decide_eq_true ⟨inside, known⟩] at valid
  cases valid

/-- What is trusted stays trusted when gates are not tripped and the batch is empty. -/
theorem Trusted.to_grows (trusted : memo.Trusted trips gates gate)
    (governed : memo.Governed trips gates gate) (grows : gates.Grows after) :
    memo.Trusted trips after gate :=
  ⟨(governed.isValid_grows grows).trans trusted.1, trusted.2⟩

end Memo

end CatalogReplica.Coherence
