import CatalogReplica.Proofs.Coherence.Cells

/-!
# Batches as sets of gates

What a batch holds depends neither on the order in which gates were added nor on how often.
A commit trips the cells that these gates had, and counts what it tripped.

* `Gates.newly`: how many cells were tripped since.
* `Batch.commit_newly`: a commit counts the cells that it trips.
* `Batch.Took`: the batch holds the cells that the gates had.
* `Gates.Alike`, `Batch.Took.alike`: what batches with the same gates make of two states.
-/

namespace CatalogReplica.Coherence

/-- Where one of two predicates holds and never both, counts add up. -/
theorem countP_add {α : Type} {p q r : α → Bool} (each : ∀ one, (p one).toNat = (q one).toNat + (r one).toNat)
    (list : List α) : list.countP p = list.countP q + list.countP r := by
  induction list with
  | nil => rfl
  | cons one list ih =>
    have here := each one
    rw [List.countP_cons, List.countP_cons, List.countP_cons, ih]
    revert here
    cases p one <;> cases q one <;> cases r one <;> simp <;> omega

namespace Gates

variable {before after last gates : Gates} {cell : CellId}

/-! ## Counting -/

/-- How many cells were tripped since. -/
def newly (before after : Gates) : Nat :=
  (List.range after.tripped.size).countP fun cell => !before.isTripped cell && after.isTripped cell

theorem isTripped_unknown (unknown : gates.tripped.size ≤ cell) : gates.isTripped cell = false := by
  rw [isTripped, Array.getElem?_eq_none unknown]
  rfl

/-- Cells that do not exist do not count. -/
theorem newly_upTo (before after : Gates) {bound : Nat} (enough : after.tripped.size ≤ bound) :
    before.newly after = (List.range bound).countP fun cell => !before.isTripped cell && after.isTripped cell := by
  obtain ⟨more, rfl⟩ := Nat.exists_eq_add_of_le enough
  induction more with
  | zero => rfl
  | succ more ih =>
    rw [ih (Nat.le_add_right _ more), ← Nat.add_assoc, List.range_succ, List.countP_append]
    simp [isTripped_unknown (Nat.le_add_right _ more)]

theorem newly_congr {before' after' : Gates} (first : ∀ cell, before'.isTripped cell = before.isTripped cell)
    (second : ∀ cell, after'.isTripped cell = after.isTripped cell) : before'.newly after' = before.newly after := by
  rw [newly_upTo before after (Nat.le_max_left _ after'.tripped.size),
    newly_upTo before' after' (Nat.le_max_right after.tripped.size _)]
  simp only [first, second]

/-- What was tripped in two steps was tripped in one of them. -/
theorem newly_trans (first : before.Onward after) (second : after.Onward last) :
    before.newly last = before.newly after + after.newly last := by
  rw [newly_upTo before last (Nat.le_max_right after.tripped.size _),
    newly_upTo after last (Nat.le_max_right after.tripped.size _),
    newly_upTo before after (Nat.le_max_left _ last.tripped.size)]
  refine countP_add (fun cell => ?_) _
  have first := first cell
  have second := second cell
  cases was : before.isTripped cell <;> cases mid : after.isTripped cell <;> cases is : last.isTripped cell <;> simp_all

theorem newly_self (gates : Gates) : gates.newly gates = 0 := by
  refine List.countP_eq_zero.mpr fun cell _ => ?_
  cases gates.isTripped cell <;> simp

theorem newly_tripCell (known : cell < gates.tripped.size) :
    gates.newly (gates.tripCell cell) = if gates.isTripped cell then 0 else 1 := by
  have isNew (other : CellId) : (!gates.isTripped other && (gates.tripCell cell).isTripped other)
      = (!gates.isTripped other && decide (other = cell)) := by
    rw [isTripped_tripCell]
    cases gates.isTripped other <;> simp [known]
  unfold newly
  simp only [isNew, size_tripCell]
  split
  · next tripped =>
    refine List.countP_eq_zero.mpr fun other _ => ?_
    by_cases same : other = cell
    · simp [same, tripped]
    · simp [same]
  · next untripped =>
    have once : (List.range gates.tripped.size).count cell = 1 := by
      rw [List.nodup_range.count, if_pos (List.mem_range.mpr known)]
    rw [← once, List.count]
    refine List.countP_congr fun other _ => ?_
    by_cases same : other = cell
    · simp [same, untripped]
    · simp [same]

end Gates

namespace Batch

variable {base gates : Gates} {asked : GateId → Prop} {trips : Batch}

theorem onward_tripCells (cells : List CellId) (gates : Gates) : gates.Onward (tripCells cells gates).2 := by
  intro cell tripped
  rw [isTripped_tripCells, tripped, Bool.true_or]

theorem tripCells_newly (cells : List CellId) (gates : Gates) (known : ∀ cell ∈ cells, cell < gates.tripped.size) :
    (tripCells cells gates).1 = gates.newly (tripCells cells gates).2 := by
  induction cells generalizing gates with
  | nil => exact gates.newly_self.symm
  | cons cell cells ih =>
    have later : ∀ other ∈ cells, other < (gates.tripCell cell).tripped.size := by
      rw [Gates.size_tripCell]
      exact fun other among => known other (List.mem_cons_of_mem _ among)
    have one : gates.Onward (gates.tripCell cell) := fun other tripped => by
      rw [Gates.isTripped_tripCell, tripped, Bool.true_or]
    simp only [tripCells]
    rw [ih _ later, Gates.newly_trans one (onward_tripCells cells _),
      Gates.newly_tripCell (known cell List.mem_cons_self)]

/-- A commit counts the cells that it trips. -/
theorem commit_newly (sound : gates.Sound trips) : (trips.commit gates).1 = gates.newly (trips.commit gates).2 :=
  tripCells_newly trips.cells gates sound.held

/-! ## The gates of a batch -/

/-- The gates were added to the batch in some order, and it holds the cells that they had. -/
structure Took (base : Gates) (asked : GateId → Prop) (trips : Batch) (gates : Gates) : Prop where
  sound : gates.Sound trips
  among : ∀ gate, gate ∈ trips.gates ↔ asked gate ∧ ∃ cell, base.currentCell? gate = some cell
  cells : ∀ cell, cell ∈ trips.cells ↔ ∃ gate, asked gate ∧ base.currentCell? gate = some cell
  others : ∀ gate, ¬ asked gate → gates.currentCell? gate = base.currentCell? gate
  known : ∀ gate, gates.currentCell? gate = none ↔ base.currentCell? gate = none
  untouched : ∀ cell, gates.isTripped cell = base.isTripped cell
  grows : base.tripped.size ≤ gates.tripped.size
  fresh : ∀ gate cell, asked gate → gates.currentCell? gate = some cell → base.tripped.size ≤ cell

namespace Took

theorem start (sound : base.Sound {}) : Took base (fun _ => False) {} base :=
  ⟨sound, by simp, by simp, fun _ _ => rfl, fun _ => .rfl, fun _ => rfl, Nat.le_refl _, nofun⟩

theorem congr {asked' : GateId → Prop} (took : Took base asked trips gates) (same : ∀ gate, asked' gate ↔ asked gate) :
    Took base asked' trips gates :=
  have eq : asked' = asked := funext fun gate => propext (same gate)
  eq ▸ took

/-- A further gate is added, or was there already. -/
theorem add (took : Took base asked trips gates) (gate : GateId) :
    Took base (fun other => asked other ∨ other = gate) (trips.add gate gates).1 (trips.add gate gates).2 := by
  have sound := took.sound.add gate
  have untouched cell := (isTripped_add trips gate gates cell).trans (took.untouched cell)
  -- Adding does nothing, or moves the gate's cell into the batch and puts a fresh one in its place.
  obtain ⟨run, idle⟩ | ⟨cell, absent, current, run⟩ := trips.add_cases gate gates <;> rw [run] at sound untouched ⊢
  · -- the gate has no cell, or was asked for before
    have before : asked gate ∨ base.currentCell? gate = none := idle.imp (fun among => ((took.among gate).mp among).1)
      (took.known gate).mp
    have counts (other : GateId) (held : ∃ cell, base.currentCell? other = some cell) :
        asked other ∨ other = gate ↔ asked other := by
      refine ⟨fun wanted => wanted.elim id ?_, .inl⟩
      rintro rfl
      refine before.resolve_right fun none => ?_
      obtain ⟨cell, its⟩ := held
      cases none.symm.trans its
    refine ⟨sound, fun other => ?_, fun cell => ?_, fun other unasked => took.others other (unasked ∘ .inl), took.known,
      untouched, took.grows, fun other cell wanted current => ?_⟩
    · rw [took.among]
      exact ⟨fun ⟨wanted, held⟩ => ⟨(counts other held).mpr wanted, held⟩, fun ⟨wanted, held⟩ => ⟨(counts other held).mp wanted, held⟩⟩
    · rw [took.cells]
      exact ⟨fun ⟨other, wanted, its⟩ => ⟨other, (counts other ⟨cell, its⟩).mpr wanted, its⟩,
        fun ⟨other, wanted, its⟩ => ⟨other, (counts other ⟨cell, its⟩).mp wanted, its⟩⟩
    · refine took.fresh other cell ((counts other (Option.ne_none_iff_exists'.mp fun none => ?_)).mp wanted) current
      cases ((took.known other).mpr none).symm.trans current
  · -- the gate is new to the batch
    have held : ∃ cell, base.currentCell? gate = some cell := by
      cases its : base.currentCell? gate with
      | some cell => exact ⟨cell, rfl⟩
      | none => cases ((took.known gate).mpr its).symm.trans current
    have unasked : ¬ asked gate := fun wanted => absent ((took.among gate).mpr ⟨wanted, held⟩)
    have its := (took.others gate unasked).symm.trans current
    refine ⟨sound, fun other => ?_, fun other => ?_, fun other unasked => ?_, fun other => ?_, untouched, ?_,
      fun other cell wanted current => ?_⟩
    · rw [List.mem_cons, took.among]
      constructor
      · rintro (rfl | ⟨wanted, held⟩)
        · exact ⟨.inr rfl, held⟩
        · exact ⟨.inl wanted, held⟩
      · rintro ⟨wanted | rfl, held⟩
        · exact .inr ⟨wanted, held⟩
        · exact .inl rfl
    · rw [List.mem_cons, took.cells]
      constructor
      · rintro (rfl | ⟨one, wanted, had⟩)
        · exact ⟨gate, .inr rfl, its⟩
        · exact ⟨one, .inl wanted, had⟩
      · rintro ⟨one, wanted | rfl, had⟩
        · exact .inr ⟨one, wanted, had⟩
        · exact .inl (Option.some.inj (had.symm.trans its))
    · rw [Gates.currentCell?, Array.getElem?_setIfInBounds, if_neg fun same => unasked (.inr same.symm)]
      exact took.others other (unasked ∘ .inl)
    · rw [← took.known, Gates.currentCell?, Gates.currentCell?, Array.getElem?_eq_none_iff, Array.getElem?_eq_none_iff,
        Array.size_setIfInBounds]
    · exact Nat.le_trans took.grows (Nat.le_of_lt (by simp))
    · obtain ⟨-, rfl⟩ | ⟨differs, current⟩ := Gates.currentCell?_swap current
      · exact took.grows
      · exact took.fresh other cell (wanted.resolve_right differs) current

/-- A commit trips the cells that the gates had. -/
theorem isTripped_commit (took : Took base asked trips gates) (cell : CellId) :
    (trips.commit gates).2.isTripped cell = true ↔
      base.isTripped cell = true ∨ ∃ gate, asked gate ∧ base.currentCell? gate = some cell := by
  rw [Batch.isTripped_commit, took.untouched, Bool.or_eq_true, decide_eq_true_iff, took.cells]
  refine or_congr_right ⟨And.left, fun held => ⟨held, ?_⟩⟩
  exact took.sound.held cell ((took.cells cell).mpr held)

/-- Gates that were not asked for have their cells still. -/
theorem current_commit (took : Took base asked trips gates) {gate : GateId} (unasked : ¬ asked gate) :
    (trips.commit gates).2.currentCell? gate = base.currentCell? gate := by
  rw [Gates.currentCell?, Batch.current_commit]
  exact took.others gate unasked

theorem onward_commit (took : Took base asked trips gates) : base.Onward (trips.commit gates).2 :=
  fun cell tripped => (took.isTripped_commit cell).mpr (.inl tripped)

theorem size_commit (took : Took base asked trips gates) : base.tripped.size ≤ (trips.commit gates).2.tripped.size := by
  rw [commit, size_tripCells]
  exact took.grows

theorem newly_commit (took : Took base asked trips gates) :
    (trips.commit gates).1 = base.newly (trips.commit gates).2 := by
  rw [commit_newly took.sound]
  exact Gates.newly_congr took.untouched fun _ => rfl

end Took

end Batch

/-! ## Two states -/

namespace Gates

/-- The same cells are tripped in two states, and every gate has the same cell in both, or in both
    one that came after some time. -/
structure Alike (bound : Nat) (one two : Gates) : Prop where
  cells : ∀ cell, two.isTripped cell = one.isTripped cell
  current : ∀ gate, two.currentCell? gate = one.currentCell? gate ∨
    (∃ cell, one.currentCell? gate = some cell ∧ bound ≤ cell) ∧ ∃ cell, two.currentCell? gate = some cell ∧ bound ≤ cell

namespace Alike

variable {bound : Nat} {one two : Gates} {gate : GateId} {cell : CellId}

theorem refl (bound : Nat) (gates : Gates) : Alike bound gates gates := ⟨fun _ => rfl, fun _ => .inl rfl⟩

theorem none_iff (alike : Alike bound one two) (gate : GateId) :
    two.currentCell? gate = none ↔ one.currentCell? gate = none := by
  obtain same | ⟨⟨cell, its, -⟩, cell', its', -⟩ := alike.current gate
  · rw [same]
  · rw [its, its']
    exact iff_of_false nofun nofun

/-- A cell that is not later belongs to the same gate in both. -/
theorem current_same (alike : Alike bound one two) (early : ∀ cell, one.currentCell? gate = some cell → cell < bound) :
    two.currentCell? gate = one.currentCell? gate := by
  refine (alike.current gate).resolve_right ?_
  rintro ⟨⟨cell, its, later⟩, -⟩
  exact Nat.not_lt.mpr later (early cell its)

end Alike

end Gates

namespace Batch.Took

variable {bound : Nat} {base base' gates gates' : Gates} {asked : GateId → Prop} {trips trips' : Batch}

/-- Batches with the same gates, none of which got a later cell before, leave two states alike, and
    count the same number of cells. -/
theorem alike (took : Took base asked trips gates) (took' : Took base' asked trips' gates')
    (alike : Gates.Alike bound base base') (early : bound ≤ base.tripped.size) (early' : bound ≤ base'.tripped.size)
    (old : ∀ gate cell, asked gate → base.currentCell? gate = some cell → cell < bound) :
    Gates.Alike bound (trips.commit gates).2 (trips'.commit gates').2 ∧ (trips'.commit gates').1 = (trips.commit gates).1 := by
  have cells (cell : CellId) : (trips'.commit gates').2.isTripped cell = (trips.commit gates).2.isTripped cell := by
    have held (gate : GateId) : asked gate ∧ base'.currentCell? gate = some cell ↔
        asked gate ∧ base.currentCell? gate = some cell :=
      and_congr_right fun wanted => by rw [alike.current_same fun cell its => old gate cell wanted its]
    rw [Bool.eq_iff_iff, took.isTripped_commit, took'.isTripped_commit, alike.cells]
    simp only [held]
  refine ⟨⟨cells, fun gate => ?_⟩, ?_⟩
  · by_cases wanted : asked gate
    · rw [Gates.currentCell?, Gates.currentCell?, Batch.current_commit, Batch.current_commit, ← Gates.currentCell?,
        ← Gates.currentCell?]
      cases its : gates.currentCell? gate with
      | none =>
        left
        rw [took'.known, alike.none_iff, ← took.known, its]
      | some cell =>
        have there : gates'.currentCell? gate ≠ none := by
          rw [Ne, took'.known, alike.none_iff, ← took.known, its]
          exact Option.some_ne_none cell
        obtain ⟨cell', its'⟩ := Option.ne_none_iff_exists'.mp there
        exact .inr ⟨⟨cell, rfl, Nat.le_trans early (took.fresh gate cell wanted its)⟩, cell', its',
          Nat.le_trans early' (took'.fresh gate cell' wanted its')⟩
    · rw [took.current_commit wanted, took'.current_commit wanted]
      exact alike.current gate
  · rw [took.newly_commit, took'.newly_commit]
    exact Gates.newly_congr alike.cells cells

end Batch.Took

end CatalogReplica.Coherence
