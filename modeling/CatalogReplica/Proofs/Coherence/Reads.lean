import CatalogReplica.Coherence.Slot

/-!
# What a read of a slot does

A read serves the memo of its slot while that is valid.  Otherwise it is refused, or it
takes the cell that governs the slot, runs, and keeps what the run gave under that cell,
whatever became of the cell in the meantime.

* `Place.read_ends`, `TableView.read_ends`: what holds after a read, from what holds
  after its run.
* `TableView.read_memo`: valid memos are served.
-/

namespace CatalogReplica.Coherence

/-- The mutator may compute every slot. -/
theorem SlotSpec.refusal_mutator (spec : SlotSpec) : spec.refusal .mutator = none := if_neg (by simp)

namespace Place

variable {σ α : Type} {place : Place σ α} {refusal : Option Fault} {body : Task σ (Computed α)}
  {state : σ} {mid : Except Interrupt (Computed α) → σ → Prop} {post : Except Interrupt α → σ → Prop}

/-- A computation keeps its result under the cell that was current when it started. -/
theorem compute_ends {cell : Option CellId} (governed : place.cell state = .ok cell state)
    (ran : body.Ends state mid)
    (kept : ∀ value after, mid (.ok (.cached value)) after →
      post (.ok value) (place.keep ⟨value, cell⟩ (place.noteCompute after)))
    (passed : ∀ value after, mid (.ok (.transient value)) after →
      post (.ok value) (place.noteTransient after))
    (broken : ∀ interrupt after, mid (.error interrupt) after → post (.error interrupt) after) :
    (place.compute body).Ends state post := by
  refine .next governed (ran.bind ?_ broken)
  intro result after given
  cases result with
  | cached value => exact kept value after given
  | transient value => exact passed value after given

/-- A read serves what is kept, or is refused, or computes. -/
theorem read_ends
    (served : ∀ value, place.peek state = some value → post (.ok value) (place.noteHit state))
    (refused : ∀ fault, place.peek state = none → refusal = some fault →
      post (.error (.fault fault)) state)
    (computed : place.peek state = none → refusal = none → (place.compute body).Ends state post) :
    (place.read refusal body).Ends state post := by
  refine .next (Task.get_run state) ?_
  cases peeked : place.peek state with
  | some value => exact served value peeked
  | none =>
    cases denied : refusal with
    | some fault => exact refused fault peeked denied
    | none => exact computed peeked denied

end Place

namespace TableView

variable {σ ν : Type} {view : TableView σ ν} {spec : SlotSpec} {access : Access}
  {body : Task σ (Computed ν)} {state : σ}
  {mid : Except Interrupt (Computed ν) → σ → Prop} {post : Except Interrupt ν → σ → Prop}

/-- The memo of a slot, valid or not. -/
def memo? (view : TableView σ ν) (spec : SlotSpec) (state : σ) : Option (Memo ν) :=
  (view.get? state).bind (·.memo? spec.index)

theorem peek_place (view : TableView σ ν) (spec : SlotSpec) (state : σ) :
    (view.place spec).peek state = (view.memo? spec state).bind (·.get? (view.gates state)) := by
  simp only [place, memo?]
  cases view.get? state with
  | none => rfl
  | some table => rfl

/-- Taking a cell changes nothing. -/
theorem cell_run (view : TableView σ ν) (spec : SlotSpec) (state : σ) :
    (∃ cell, view.cell spec state = .ok cell state) ∨
      view.cell spec state = .error (.crash none) state := by
  unfold cell
  cases spec.binding with
  | fixed => exact .inl ⟨none, rfl⟩
  | gate index =>
    dsimp only
    rw [Task.bind_ok (Task.get_run state)]
    cases (view.get? state).bind (·.gates[index]?) with
    | some gate => exact .inl ⟨_, rfl⟩
    | none => exact .inr rfl

/-- Looking for a slot changes nothing. -/
theorem require_run (view : TableView σ ν) (spec : SlotSpec) (state : σ) :
    view.require spec state = .ok () state ∨ view.require spec state = .error (.crash none) state := by
  unfold require
  rw [Task.bind_ok (Task.get_run state)]
  cases view.get? state with
  | none => exact .inr rfl
  | some table =>
    by_cases inside : spec.index < table.memos.size
    · exact .inl (by simp only [inside, if_true]; rfl)
    · exact .inr (by simp only [inside, if_false]; rfl)

/-- The table has the slot, and the gate that governs it. -/
def Has (view : TableView σ ν) (spec : SlotSpec) (state : σ) : Prop :=
  ∃ table, view.get? state = some table ∧ spec.index < table.memos.size ∧
    ∀ index, spec.binding = .gate index → ∃ gate, table.gates[index]? = some gate

theorem Has.require_run (has : view.Has spec state) : view.require spec state = .ok () state := by
  obtain ⟨table, held, inside, -⟩ := has
  unfold require
  rw [Task.bind_ok (Task.get_run state)]
  simp only [held, inside, if_true]
  rfl

theorem Has.cell_run (has : view.Has spec state) : ∃ cell, view.cell spec state = .ok cell state := by
  obtain ⟨table, held, -, gated⟩ := has
  unfold cell
  cases bound : spec.binding with
  | fixed => exact ⟨none, rfl⟩
  | gate index =>
    obtain ⟨gate, governs⟩ := gated index bound
    dsimp only
    rw [Task.bind_ok (Task.get_run state), held, Option.bind_some, governs]
    exact ⟨_, rfl⟩

/-- What passes both checks is there. -/
theorem has_of_run (required : view.require spec state = .ok () state)
    (taken : ∃ cell, view.cell spec state = .ok cell state) : view.Has spec state := by
  obtain ⟨governed, taken⟩ := taken
  unfold require at required
  rw [Task.bind_ok (Task.get_run state)] at required
  cases held : view.get? state with
  | none =>
    rw [held] at required
    cases required
  | some table =>
    refine ⟨table, held, Decidable.byContradiction fun outside => ?_, fun index bound => ?_⟩
    · simp only [held, outside, if_false] at required
      cases required
    · unfold cell at taken
      rw [bound] at taken
      dsimp only at taken
      rw [Task.bind_ok (Task.get_run state), held, Option.bind_some] at taken
      cases governs : table.gates[index]? with
      | some gate => exact ⟨gate, rfl⟩
      | none =>
        rw [governs] at taken
        cases taken

/-- A read of a slot breaks off, serves its valid memo, is refused, or ends as its run
    did, with the result kept under the cell that was taken first. -/
theorem read_ends
    (crashed : ¬ view.Has spec state → post (.error (.crash none)) state)
    (served : ∀ memo, view.memo? spec state = some memo → memo.isValid (view.gates state) = true →
      post (.ok memo.value) (view.count .slotHit state))
    (refused : ∀ fault, spec.refusal access = some fault → post (.error (.fault fault)) state)
    (ran : spec.refusal access = none → body.Ends state mid)
    (kept : ∀ value cell after, view.cell spec state = .ok cell state →
      mid (.ok (.cached value)) after →
      post (.ok value)
        (view.update (·.keep spec.index ⟨value, cell⟩) (view.count .slotCompute after)))
    (passed : ∀ value after, mid (.ok (.transient value)) after →
      post (.ok value) (view.count .slotTransient after))
    (broken : ∀ interrupt after, mid (.error interrupt) after → post (.error interrupt) after) :
    (view.read spec access body).Ends state post := by
  cases view.require_run spec state with
  | inr failed =>
    refine .stop failed (crashed fun has => ?_)
    rw [has.require_run] at failed
    cases failed
  | inl found =>
    refine .next found (Place.read_ends ?_ (fun fault _ => refused fault) ?_)
    · intro value peeked
      rw [peek_place] at peeked
      obtain ⟨memo, found, got⟩ := Option.bind_eq_some_iff.mp peeked
      unfold Memo.get? at got
      split at got
      · next valid =>
        cases got
        exact served memo found valid
      · cases got
    · intro _ allowed
      cases view.cell_run spec state with
      | inl taken =>
        obtain ⟨cell, governed⟩ := taken
        exact Place.compute_ends governed (ran allowed)
          (fun value after => kept value cell after governed) passed broken
      | inr failed =>
        refine .stop failed (crashed fun has => ?_)
        obtain ⟨cell, taken⟩ := has.cell_run
        rw [taken] at failed
        cases failed

/-- A valid memo is served, whoever reads. -/
theorem read_memo {memo : Memo ν} (found : view.memo? spec state = some memo)
    (valid : memo.isValid (view.gates state) = true) :
    view.read spec access body state = .ok memo.value (view.count .slotHit state) := by
  have peeked : (view.place spec).peek state = some memo.value := by
    rw [peek_place, found]
    simp only [Option.bind_some, Memo.get?, valid, if_true]
  have required : view.require spec state = .ok () state := by
    obtain ⟨table, held, kept⟩ := Option.bind_eq_some_iff.mp found
    have inside : spec.index < table.memos.size := by
      apply Decidable.byContradiction
      intro outside
      rw [SlotTable.memo?, Array.getElem?_eq_none (Nat.le_of_not_lt outside)] at kept
      cases kept
    unfold require
    rw [Task.bind_ok (Task.get_run state)]
    simp only [held, inside, if_true, Task.pure_run]
  unfold read
  rw [Task.bind_ok required]
  unfold Place.read
  rw [Task.bind_ok (Task.get_run state)]
  simp only [peeked]
  rfl

end TableView

end CatalogReplica.Coherence
