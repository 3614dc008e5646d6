import CatalogReplica.Proofs.Coherence.Calls

/-!
# Nobody waits for good

Under single flight, the holder of the lock is the one reader between taking it and letting
go of it, so a reader that waits for the lock waits for a reader that can move.  Every step
brings its reader closer to its end.

* `Race.Latched`: who holds the lock of the slot.
* `Race.Latched.movable`: while a reader has no answer, some reader can move.
* `Race.Advance.effort`: every step leaves less to be done.
* `Race.Steady.fair_finishes`: readers that take turns all get their answers, whatever happened before.
-/

namespace CatalogReplica.Coherence.Race

variable {ν : Type} {race next : Race ν} {reader other base : Nat} {phase phase' : ReaderPhase ν}

/-- A reader in this phase is between taking the lock and letting go of it. -/
def owning : ReaderPhase ν → Bool
  | .locked | .cleared | .computing _ _ | .storing _ _ | .leaving _ => true
  | .start | .waiting | .done _ => false

/-- Who holds the lock of the slot. -/
structure Latched (race : Race ν) : Prop where
  inside : ∀ reader, race.holder = some reader → reader < race.readers.size
  single : race.spec.flight = .single → ∀ reader phase, race.readers[reader]? = some phase →
    (owning phase = true ↔ race.holder = some reader)
  duplicate : race.spec.flight = .duplicate → race.holder = none ∧ ∀ reader : Nat, race.readers[reader]? ≠ some .waiting

/-- Under single flight, two readers are never both at it. -/
theorem Latched.alone (latched : race.Latched) (single : race.spec.flight = .single) (here : race.readers[reader]? = some phase)
    (owns : owning phase = true) (there : race.readers[other]? = some phase') (owns' : owning phase' = true) : other = reader := by
  have first := (latched.single single reader phase here).mp owns
  have second := (latched.single single other phase' there).mp owns'
  exact Option.some.inj (second.symm.trans first)

/-- What the lock does as a reader moves from one phase to another. -/
theorem Advance.latch (advance : Advance race reader next) :
    ∃ old new, race.readers[reader]? = some old ∧ next.readers = (race.moveTo reader new).readers
      ∧ (new = .waiting → race.spec.flight = .single)
      ∧ (next.holder = race.holder ∧ (race.spec.flight = .single → owning new = owning old)
        ∨ old = .waiting ∧ owning new = true ∧ race.holder = none ∧ next.holder = some reader
        ∨ owning old = true ∧ owning new = false ∧ next.holder = if race.holder = some reader then none else race.holder) := by
  cases advance with
  | lock here free => exact ⟨_, _, here, rfl, nofun, .inr (.inl ⟨rfl, rfl, free, rfl⟩)⟩
  | leave here => exact ⟨_, _, here, rfl, nofun, .inr (.inr ⟨rfl, rfl, rfl⟩)⟩
  | queue here _ single => exact ⟨_, _, here, rfl, fun _ => single, .inl ⟨rfl, fun _ => rfl⟩⟩
  | skip here _ duplicate => exact ⟨_, _, here, rfl, nofun, .inl ⟨rfl, fun single => nomatch duplicate.symm.trans single⟩⟩
  | hit here | hitAgain here | clear here | begin here | finish here | pass here | fail here | store here =>
    exact ⟨_, _, here, rfl, nofun, .inl ⟨rfl, fun _ => rfl⟩⟩

/-- Every step keeps the lock with the reader that is at it. -/
theorem Latched.step (latched : race.Latched) (advance : Advance race reader next) : next.Latched := by
  have frame := advance.frame
  -- A step leaves the lock alone, takes it when free, or gives it back: three ways for each clause.
  obtain ⟨old, new, here, moved, waits, lock⟩ := advance.latch
  have now : next.readers[reader]? = some new := by
    rw [moved]
    exact readers_moveTo_self race here new
  constructor
  case inside =>
    intro holder held
    rw [frame.crowd]
    obtain ⟨same, -⟩ | ⟨-, -, -, taken⟩ | ⟨-, -, freed⟩ := lock
    · exact latched.inside holder (same ▸ held)
    · cases taken.symm.trans held
      exact advance.inside
    · rw [freed] at held
      split at held
      · cases held
      · exact latched.inside holder held
  case single =>
    intro single other phase there
    rw [frame.spec] at single
    by_cases same : other = reader
    · subst same
      cases now.symm.trans there
      have before := latched.single single other old here
      obtain ⟨same, owns⟩ | ⟨-, owns, -, taken⟩ | ⟨owned, owns, freed⟩ := lock
      · rw [same, owns single]
        exact before
      · simp [owns, taken]
      · rw [freed, if_pos (before.mp owned), owns]
        simp
    · -- As the lock is taken or given back by one reader, no other reader held it before or holds it after.
      rw [frame.others other same] at there
      have before := latched.single single other phase there
      obtain ⟨same', -⟩ | ⟨-, -, free, taken⟩ | ⟨owned, -, freed⟩ := lock
      · rw [same']
        exact before
      · rw [free] at before
        rw [taken]
        exact before.trans ⟨nofun, fun other => absurd (Option.some.inj other).symm same⟩
      · have held := (latched.single single reader old here).mp owned
        rw [held] at before
        rw [freed, if_pos held]
        exact before.trans ⟨fun other => absurd (Option.some.inj other).symm same, nofun⟩
  case duplicate =>
    intro duplicate
    rw [frame.spec] at duplicate
    obtain ⟨free, none_waits⟩ := latched.duplicate duplicate
    refine ⟨?_, fun other there => ?_⟩
    · obtain ⟨same, -⟩ | ⟨rfl, -⟩ | ⟨-, -, freed⟩ := lock
      · rw [same, free]
      · exact absurd here (none_waits reader)
      · rw [freed, free]
        rfl
    · by_cases same : other = reader
      · subst same
        cases now.symm.trans there
        cases duplicate.symm.trans (waits rfl)
      · rw [frame.others other same] at there
        exact none_waits other there

/-! ## Progress -/

/-- A reader that holds the lock can move. -/
theorem step_of_owning (here : race.readers[reader]? = some phase) (owns : owning phase = true) : (race.step reader).isSome := by
  unfold step
  rw [here]
  cases phase with
  | start | waiting | done => cases owns
  | locked | cleared | computing | storing | leaving => rfl

/-- While a reader has no answer, some reader can move. -/
theorem Latched.movable (latched : race.Latched) (here : race.readers[reader]? = some phase)
    (unanswered : ∀ answer, phase ≠ .done answer) :
    ∃ mover < race.readers.size, (race.step mover).isSome := by
  have inside : reader < race.readers.size := (Array.getElem?_eq_some_iff.mp here).1
  cases phase with
  | done answer => exact absurd rfl (unanswered answer)
  | start =>
    refine ⟨reader, inside, ?_⟩
    unfold Race.step
    rw [here]
    rfl
  | locked | cleared | computing | storing | leaving => exact ⟨reader, inside, step_of_owning here rfl⟩
  | waiting =>
    -- If the reader cannot have the lock, the one that has it can move.
    cases held : race.holder with
    | none =>
      refine ⟨reader, inside, ?_⟩
      unfold Race.step
      rw [here]
      dsimp only
      rw [held]
      rfl
    | some holder =>
      have within := latched.inside holder held
      cases flight : race.spec.flight with
      | duplicate => cases held.symm.trans (latched.duplicate flight).1
      | single =>
        have there : race.readers[holder]? = some race.readers[holder] := Array.getElem?_eq_getElem within
        exact ⟨holder, within, step_of_owning there ((latched.single flight holder _ there).mpr held)⟩

/-- How many steps a reader has still to make, at most. -/
def effort : ReaderPhase ν → Nat
  | .start => 7
  | .waiting => 6
  | .locked => 5
  | .cleared => 4
  | .computing _ _ => 3
  | .storing _ _ => 2
  | .leaving _ => 1
  | .done _ => 0

/-- Every step leaves less to be done. -/
theorem Advance.effort (advance : Advance race reader next) : next.weight effort < race.weight effort := by
  have lighter : ∃ old new, race.readers[reader]? = some old ∧ next.readers = (race.moveTo reader new).readers
      ∧ Race.effort new < Race.effort old := by
    cases advance with
    | hit here | skip here | queue here | lock here | hitAgain here | clear here | begin here | finish here | pass here
    | fail here | store here | leave here => exact ⟨_, _, here, rfl, by simp [Race.effort]⟩
  obtain ⟨old, new, here, moved, less⟩ := lighter
  have weight := weight_of_readers here moved Race.effort
  omega

theorem weight_effort_le (race : Race ν) : race.weight effort ≤ 7 * race.readers.size :=
  Turns.total_le fun phase => by cases phase <;> simp [effort]

/-- Every reader has its answer. -/
def Finished (race : Race ν) : Prop := ∀ reader < race.readers.size, ∃ answer, race.answer? reader = some answer

theorem answer?_eq {answer : Except Interrupt ν} :
    race.answer? reader = some answer ↔ race.readers[reader]? = some (.done answer) := by
  unfold answer?
  split
  next found =>
    rw [found]
    simp
  next other => exact ⟨nofun, fun done => absurd done (other answer)⟩

/-- Readers with nothing left to do have their answers. -/
theorem finished_of_effort (nothing : race.weight effort = 0) : race.Finished := by
  intro reader inside
  have here : race.readers[reader]? = some race.readers[reader] := Array.getElem?_eq_getElem inside
  have zero := Turns.total_eq_zero.mp nothing reader _ here
  cases phase : race.readers[reader] with
  | done answer => exact ⟨answer, answer?_eq.mpr (phase ▸ here)⟩
  | start | waiting | locked | cleared | computing | storing | leaving =>
    rw [phase] at zero
    cases zero

/-- What makes readers get on. -/
structure Steady (race : Race ν) : Prop where
  able : race.Able
  latched : race.Latched

theorem Steady.step (steady : race.Steady) (moved : race.step reader = some next) : next.Steady :=
  have advance := steady.able.advance moved
  ⟨steady.able.step advance.frame, steady.latched.step advance⟩

theorem advancing (readers : Nat) :
    Turns.Advancing Race.step readers (fun race : Race ν => race.Steady ∧ race.readers.size = readers) (·.weight effort) where
  keeps race reader next before moved :=
    ⟨before.1.step moved, (before.1.able.advance moved).frame.crowd.trans before.2⟩
  lessens race reader next before moved := (before.1.able.advance moved).effort
  movable race before something := by
    apply Decidable.byContradiction
    intro stuck
    refine something (Turns.total_eq_zero.mpr fun reader phase here => ?_)
    cases phase with
    | done => rfl
    | start | waiting | locked | cleared | computing | storing | leaving =>
      exact absurd (before.1.latched.movable here fun _ => nofun) (before.2 ▸ stuck)

/-- Readers that take turns all get their answers, however far each of them is. -/
theorem Steady.fair_finishes (steady : race.Steady) : (race.play (fairSchedule race.readers.size)).Finished := by
  have left := (advancing race.readers.size).rounds ⟨steady, rfl⟩
    (List.replicate (7 * race.readers.size) (List.range race.readers.size))
    fun round among reader inside => by
      rw [List.eq_of_mem_replicate among]
      exact List.mem_range.mpr inside
  have most := weight_effort_le race
  rw [List.length_replicate] at left
  exact finished_of_effort (Nat.le_zero.mp (Nat.le_trans left (by omega)))

end CatalogReplica.Coherence.Race
