import CatalogReplica.Proofs.Coherence.Racing

/-!
# Which computation answers which reader

Whatever the interleaving, a reader that computed gets what its own computation gave, and
computes only once; another one gets a cached value.  A valid memo is the cached value of a
reader that is through.

* `Race.Placed`: what the phase of a reader says of its computation and its answer.
* `Race.Course`: the account of all computations since a number, kept by every step.
* `Race.Counted`: hits and computes, against the readers that are through.
-/

namespace CatalogReplica.Coherence.Race

variable {ν : Type} {race next : Race ν} {reader other call base : Nat} {phase : ReaderPhase ν} {value : ν}
  {answer : Except Interrupt ν}

/-- The reader started the computation. -/
def Called (race : Race ν) (call reader : Nat) : Prop := race.callers[call]? = some reader

/-- The computation gave a value to be kept. -/
def Caches (race : Race ν) (call : Nat) (value : ν) : Prop := race.outcome call = .ok (.cached value)

/-- The reader has not computed since the number. -/
def Idle (race : Race ν) (base reader : Nat) : Prop := ∀ call, base ≤ call → ¬race.Called call reader

/-- The answer is what the reader itself computed. -/
def Own (race : Race ν) (base reader : Nat) (answer : Except Interrupt ν) : Prop :=
  ∃ call, base ≤ call ∧ race.Called call reader ∧ answer = (race.outcome call).map Computed.value

/-- The answer is what another reader computed. -/
def Shared (race : Race ν) (base reader : Nat) (answer : Except Interrupt ν) : Prop :=
  race.Idle base reader ∧ ∃ call value, base ≤ call ∧ call < race.calls ∧ race.Caches call value ∧ answer = .ok value

/-- What the phase of a reader says of its computation and its answer. -/
def Placed (race : Race ν) (base reader : Nat) : ReaderPhase ν → Prop
  | .start | .waiting | .locked | .cleared => race.Idle base reader
  | .computing call cell => base ≤ call ∧ race.Called call reader ∧ Trusted race.gates cell
  | .storing value cell => (∃ call, base ≤ call ∧ race.Called call reader ∧ race.Caches call value) ∧ Trusted race.gates cell
  | .leaving answer | .done answer => race.Own base reader answer ∨ race.Shared base reader answer

/-- The reader knows its answer. -/
def Settled (race : Race ν) (reader : Nat) (answer : Except Interrupt ν) : Prop :=
  race.readers[reader]? = some (.leaving answer) ∨ race.readers[reader]? = some (.done answer)

theorem Settled.among (settled : race.Settled reader answer) (here : race.readers[reader]? = some phase) :
    phase = .leaving answer ∨ phase = .done answer :=
  settled.imp (fun leaving => Option.some.inj (here.symm.trans leaving)) fun done => Option.some.inj (here.symm.trans done)

/-! ## What a step adds -/

theorem Called.lt (called : race.Called call reader) : call < race.calls := (Array.getElem?_eq_some_iff.mp called).1

/-- A computation that was started stays started. -/
theorem Frame.called (frame : Frame race reader next) (called : race.Called call other) : next.Called call other := by
  cases frame.callers with
  | inl same => rwa [Called, same]
  | inr added =>
    have pushed := added.1
    have inside : call ≠ race.callers.size := Nat.ne_of_lt called.lt
    rw [Called, pushed, Array.getElem?_push, if_neg inside]
    exact called

/-- A computation that was just started is the one of the reader that moved. -/
theorem Frame.called_before (frame : Frame race reader next) (called : next.Called call other) :
    race.Called call other ∨ call = race.calls ∧ other = reader ∧ race.readers[reader]? = some .cleared := by
  cases frame.callers with
  | inl same =>
    rw [Called, same] at called
    exact .inl called
  | inr added =>
    rw [Called, added.1, Array.getElem?_push] at called
    split at called
    next last =>
      cases called
      exact .inr ⟨last, rfl, added.2⟩
    next => exact .inl called

theorem Frame.calls_le (frame : Frame race reader next) : race.calls ≤ next.calls := by
  unfold calls
  cases frame.callers with
  | inl same => exact Nat.le_of_eq (congrArg Array.size same).symm
  | inr added =>
    rw [added.1, Array.size_push]
    exact Nat.le_succ _

theorem Frame.caches (frame : Frame race reader next) : next.Caches call value ↔ race.Caches call value := by
  rw [Caches, Caches, frame.outcome]

theorem Frame.idle (frame : Frame race reader next) (differs : other ≠ reader) (idle : race.Idle base other) :
    next.Idle base other :=
  fun call late called => (frame.called_before called).elim (idle call late) fun new => differs new.2.1

theorem Frame.own (frame : Frame race reader next) (own : race.Own base other answer) : next.Own base other answer := by
  obtain ⟨call, late, called, same⟩ := own
  exact ⟨call, late, frame.called called, frame.outcome ▸ same⟩

theorem Frame.shared (frame : Frame race reader next) (idle : next.Idle base other) (shared : race.Shared base other answer) :
    next.Shared base other answer := by
  obtain ⟨-, call, value, late, early, caches, same⟩ := shared
  exact ⟨idle, call, value, late, Nat.lt_of_lt_of_le early frame.calls_le, frame.caches.mpr caches, same⟩

/-- What is said of a reader stays true as another one moves. -/
theorem Frame.placed (frame : Frame race reader next) (differs : other ≠ reader) (placed : race.Placed base other phase) :
    next.Placed base other phase := by
  have answered : ∀ answer, race.Own base other answer ∨ race.Shared base other answer →
      next.Own base other answer ∨ next.Shared base other answer := fun _ =>
    Or.imp frame.own fun shared => frame.shared (frame.idle differs shared.1) shared
  cases phase with
  | start | waiting | locked | cleared => exact frame.idle differs placed
  | computing call cell => exact ⟨placed.1, frame.called placed.2.1, frame.gates ▸ placed.2.2⟩
  | storing value cell =>
    obtain ⟨⟨call, late, called, caches⟩, trusted⟩ := placed
    exact ⟨⟨call, late, frame.called called, frame.caches.mpr caches⟩, frame.gates ▸ trusted⟩
  | leaving answer | done answer => exact answered answer placed

/-- Keeping a value under a cell that is not tripped makes it the valid memo. -/
theorem valid?_store {cell : Option CellId} (able : race.Able) (trusted : Trusted race.gates cell) :
    (race.store reader value cell).valid? = some value := by
  have kept : (race.table.keep race.spec.index ⟨value, cell⟩).memo? race.spec.index = some ⟨value, cell⟩ := by
    simp [SlotTable.keep, SlotTable.memo?, able.there]
  change ((race.table.keep race.spec.index ⟨value, cell⟩).memo? race.spec.index).bind (·.get? race.gates) = _
  rw [kept, Option.bind_some]
  unfold Memo.get? Memo.isValid
  cases cell with
  | none => rfl
  | some id => simp [trusted id rfl]

/-! ## The account -/

/-- The account of the computations since a number. -/
structure Course (base : Nat) (race : Race ν) : Prop where
  able : race.Able
  based : base ≤ race.calls
  known : ∀ call reader, base ≤ call → race.Called call reader → reader < race.readers.size
  once : ∀ call call' reader, base ≤ call → base ≤ call' → race.Called call reader → race.Called call' reader → call = call'
  placed : ∀ reader phase, race.readers[reader]? = some phase → race.Placed base reader phase
  memo : ∀ value, race.valid? = some value →
    ∃ call reader, base ≤ call ∧ race.Called call reader ∧ race.Caches call value ∧ race.Settled reader (.ok value)
  kept : ∀ call reader value, base ≤ call → race.Called call reader → race.Caches call value →
    (∃ answer, race.Settled reader answer) → race.valid?.isSome

/-- A reader that finds a valid memo shares what another one computed. -/
theorem Course.shared (course : Course base race) (idle : race.Idle base reader) (valid : race.valid? = some value) :
    race.Shared base reader (.ok value) := by
  obtain ⟨call, _, late, called, caches, -⟩ := course.memo value valid
  exact ⟨idle, call, value, late, called.lt, caches, rfl⟩

/-- What is said of the reader that moved. -/
theorem Course.placed_self (course : Course base race) (advance : Advance race reader next)
    (now : next.readers[reader]? = some phase) : next.Placed base reader phase := by
  -- The reader moved is known by the step; where it stands next comes from where it stood.
  cases advance with
  | hit here valid =>
    cases (readers_moveTo_self (race.count .slotHit) here _).symm.trans now
    exact .inr (course.shared (course.placed reader _ here) valid)
  | hitAgain here valid =>
    cases (readers_moveTo_self (race.count .slotHit) here _).symm.trans now
    exact .inr (course.shared (course.placed reader _ here) valid)
  | skip here | queue here | lock here | clear here =>
    cases (readers_moveTo_self race here _).symm.trans now
    exact course.placed reader _ here
  | begin here trusted =>
    cases (readers_moveTo_self race here _).symm.trans now
    exact ⟨course.based, Array.getElem?_push_size, trusted⟩
  | finish here cached =>
    cases (readers_moveTo_self (race.count .slotCompute) here _).symm.trans now
    obtain ⟨late, called, trusted⟩ := course.placed reader _ here
    exact ⟨⟨_, late, called, cached⟩, trusted⟩
  | pass here transient =>
    cases (readers_moveTo_self (race.count .slotTransient) here _).symm.trans now
    obtain ⟨late, called, -⟩ := course.placed reader _ here
    exact .inl ⟨_, late, called, congrArg (Except.map Computed.value) transient.symm⟩
  | fail here failed =>
    cases (readers_moveTo_self race here _).symm.trans now
    obtain ⟨late, called, -⟩ := course.placed reader _ here
    exact .inl ⟨_, late, called, congrArg (Except.map Computed.value) failed.symm⟩
  | store here =>
    cases (readers_moveTo_self race here _).symm.trans now
    obtain ⟨⟨call, late, called, caches⟩, -⟩ := course.placed reader _ here
    exact .inl ⟨call, late, called, congrArg (Except.map Computed.value) caches.symm⟩
  | leave here =>
    cases (readers_moveTo_self race here _).symm.trans now
    exact course.placed reader _ here

/-- A memo becomes valid only as a reader keeps what it computed. -/
theorem Course.valid?_cases (course : Course base race) (advance : Advance race reader next) :
    next.valid? = race.valid? ∨ ∃ value cell, race.readers[reader]? = some (.storing value cell) ∧ next.valid? = some value
      ∧ next.Settled reader (.ok value) := by
  cases advance with
  | store here =>
    have trusted := (course.placed reader _ here).2
    exact .inr ⟨_, _, here, valid?_store course.able trusted, .inl (readers_moveTo_self race here _)⟩
  | _ => exact .inl rfl

/-- A reader that knows its answer sticks to it. -/
theorem Advance.settled (advance : Advance race reader next) (settled : race.Settled other answer) :
    next.Settled other answer := by
  by_cases same : other = reader
  · subst same
    cases advance with
    | leave here =>
      cases settled.among here with
      | inl same =>
        cases same
        exact .inr (readers_moveTo_self race here _)
      | inr same => cases same
    | hit here | skip here | queue here | lock here | hitAgain here | clear here | begin here | finish here | pass here
    | fail here | store here => exact (settled.among here).elim nofun nofun
  · rwa [Settled, advance.frame.others other same]

/-- A reader that computed a cached value knows its answer only after the value was kept. -/
theorem Course.settled_before (course : Course base race) (advance : Advance race reader next) (late : base ≤ call)
    (called : next.Called call other) (caches : race.Caches call value) (settled : next.Settled other answer) :
    race.Called call other ∧ (∃ answer, race.Settled other answer) ∨ next.valid?.isSome := by
  have frame := advance.frame
  by_cases same : other = reader
  · subst same
    have placed := course.placed other
    cases advance with
    | hit here | hitAgain here | skip here | queue here | lock here | clear here => exact absurd called (placed _ here call late)
    | begin here => exact (settled.among (readers_moveTo_self race here _)).elim nofun nofun
    | finish here => exact (settled.among (readers_moveTo_self (race.count .slotCompute) here _)).elim nofun nofun
    | pass here ended | fail here ended =>
      -- A reader has computed once only, and what it just computed is not to be cached.
      obtain ⟨late', called', -⟩ := placed _ here
      cases course.once _ _ other late late' called called'
      cases caches.symm.trans ended
    | store here =>
      rw [valid?_store course.able (placed _ here).2]
      exact .inr rfl
    | leave here => exact .inl ⟨called, _, .inl here⟩
  · have before := (frame.called_before called).resolve_right fun new => same new.2.1
    rw [Settled, frame.others other same] at settled
    exact .inl ⟨before, answer, settled⟩

/-- Every step keeps the account. -/
theorem Course.step (course : Course base race) (moved : race.step reader = some next) : Course base next := by
  have advance := course.able.advance moved
  have frame := advance.frame
  constructor
  case able => exact course.able.step frame
  case based => exact Nat.le_trans course.based frame.calls_le
  case known =>
    intro call other late called
    rw [frame.crowd]
    obtain before | ⟨-, rfl, -⟩ := frame.called_before called
    · exact course.known call other late before
    · exact advance.inside
  case once =>
    -- A reader that starts a computation has not computed yet.
    intro call call' other late late' called called'
    obtain before | ⟨last, rfl, here⟩ := frame.called_before called
    · obtain before' | ⟨-, rfl, here⟩ := frame.called_before called'
      · exact course.once call call' other late late' before before'
      · exact absurd before (course.placed _ _ here call late)
    · obtain before' | ⟨last', -, -⟩ := frame.called_before called'
      · exact absurd before' (course.placed _ _ here call' late')
      · rw [last, last']
  case placed =>
    intro other phase now
    by_cases same : other = reader
    · subst same
      exact course.placed_self advance now
    · rw [frame.others other same] at now
      exact frame.placed same (course.placed other phase now)
  case memo =>
    intro value valid
    obtain same | ⟨kept, cell, here, now, settled⟩ := course.valid?_cases advance
    · rw [same] at valid
      obtain ⟨call, other, late, called, caches, settled⟩ := course.memo value valid
      exact ⟨call, other, late, frame.called called, frame.caches.mpr caches, advance.settled settled⟩
    · cases now.symm.trans valid
      obtain ⟨⟨call, late, called, caches⟩, -⟩ := course.placed reader _ here
      exact ⟨call, reader, late, frame.called called, frame.caches.mpr caches, settled⟩
  case kept =>
    intro call other value late called caches ⟨answer, settled⟩
    rw [frame.caches] at caches
    obtain ⟨before, knew⟩ | some := course.settled_before advance late called caches settled
    · obtain same | ⟨kept, cell, -, now, -⟩ := course.valid?_cases advance
      · rw [same]
        exact course.kept call other value late before caches knew
      · rw [now]
        rfl
    · exact some

/-! ## Counts -/

/-- One for a reader that computes, computed or was served. -/
def engaged : ReaderPhase ν → Nat
  | .start | .waiting | .locked | .cleared => 0
  | _ => 1

/-- One for a reader whose computation has not ended. -/
def running : ReaderPhase ν → Nat
  | .computing _ _ => 1
  | _ => 0

/-- Every computation gives a value to be kept. -/
def AllCached (race : Race ν) : Prop := ∀ call, ∃ value, race.Caches call value

/-- The counts since a moment, against the readers that are through. -/
structure Counted (start : Race ν) (race : Race ν) : Prop where
  hits : race.tally.get .slotHit + race.calls = start.tally.get .slotHit + start.calls + race.weight engaged
  computes : race.AllCached →
    race.tally.get .slotCompute + race.weight running + start.calls = start.tally.get .slotCompute + race.calls

/-- A hit or the start of a computation makes a reader count as engaged. -/
theorem Advance.hits (advance : Advance race reader next) :
    ∃ old new, race.readers[reader]? = some old ∧ next.readers = (race.moveTo reader new).readers
      ∧ next.tally.get .slotHit + next.calls + engaged old = race.tally.get .slotHit + race.calls + engaged new := by
  cases advance with
  | hit here | hitAgain here =>
    refine ⟨_, _, here, rfl, ?_⟩
    simp only [count, moveTo, calls, engaged, Tally.get_add, if_true]
    omega
  | finish here | pass here =>
    refine ⟨_, _, here, rfl, ?_⟩
    simp [count, moveTo, calls, engaged, Tally.get_add]
  | begin here =>
    refine ⟨_, _, here, rfl, ?_⟩
    simp only [moveTo, calls, engaged, Array.size_push]
    omega
  | skip here | queue here | lock here | clear here | fail here | store here | leave here => exact ⟨_, _, here, rfl, rfl⟩

/-- A computation that ends is counted where its value is to be kept. -/
theorem Advance.computes (advance : Advance race reader next) (cached : race.AllCached) :
    ∃ old new, race.readers[reader]? = some old ∧ next.readers = (race.moveTo reader new).readers
      ∧ next.tally.get .slotCompute + running new + race.calls = race.tally.get .slotCompute + running old + next.calls := by
  cases advance with
  | @pass call _ _ here transient =>
    obtain ⟨value, caches⟩ := cached call
    cases caches.symm.trans transient
  | @fail call _ _ here failed =>
    obtain ⟨value, caches⟩ := cached call
    cases caches.symm.trans failed
  | hit here | hitAgain here =>
    refine ⟨_, _, here, rfl, ?_⟩
    simp [count, moveTo, calls, running, Tally.get_add]
  | finish here =>
    refine ⟨_, _, here, rfl, ?_⟩
    simp only [count, moveTo, calls, running, Tally.get_add, if_true]
    omega
  | begin here =>
    refine ⟨_, _, here, rfl, ?_⟩
    simp only [moveTo, calls, running, Array.size_push]
    omega
  | skip here | queue here | lock here | clear here | store here | leave here => exact ⟨_, _, here, rfl, rfl⟩

theorem Counted.step {start : Race ν} (counted : Counted start race) (advance : Advance race reader next) :
    Counted start next := by
  constructor
  · obtain ⟨old, new, here, moved, hits⟩ := advance.hits
    have weight := weight_of_readers here moved engaged
    have before := counted.hits
    omega
  · intro cached
    have cached : race.AllCached := fun call => (cached call).imp fun _ => advance.frame.caches.mp
    obtain ⟨old, new, here, moved, computes⟩ := advance.computes cached
    have weight := weight_of_readers here moved running
    have before := counted.computes cached
    omega

end CatalogReplica.Coherence.Race
