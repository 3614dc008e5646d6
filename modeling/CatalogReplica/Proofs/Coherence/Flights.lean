import CatalogReplica.Proofs.Coherence.Latch

/-!
# Flight modes

Under single flight, readers compute one after another until one of them caches a value, and
all later ones are served that value: whoever holds the lock looks again before it computes.
Under duplicate flight, every reader answers with a value that one of them computed, and the
memo is one of their answers.

* `Race.Solo`: under single flight, every computation but the last one cached nothing.
* `Race.flights`: what simultaneous readers get, under each flight mode.
-/

namespace CatalogReplica.Coherence.Race

variable {ν : Type} {race next : Race ν} {reader other base call : Nat} {phase : ReaderPhase ν} {value : ν}
  {answer : Except Interrupt ν}

/-- A reader in this phase is about to compute, or to keep what it computed. -/
def fetching : ReaderPhase ν → Bool
  | .cleared | .computing _ _ | .storing _ _ => true
  | _ => false

/-- A reader in this phase computes, or is about to keep what it computed. -/
def busy : ReaderPhase ν → Bool
  | .computing _ _ | .storing _ _ => true
  | _ => false

theorem owning_of_fetching (fetches : fetching phase = true) : owning phase = true := by
  cases phase <;> first | rfl | cases fetches

theorem fetching_of_busy (works : busy phase = true) : fetching phase = true := by
  cases phase <;> first | rfl | cases works

/-- Under single flight, every computation since a number but the last one cached nothing. -/
structure Solo (base : Nat) (race : Race ν) : Prop where
  spent : ∀ call value, base ≤ call → call + 1 < race.calls → ¬race.Caches call value
  valid : ∀ value, race.valid? = some value → base < race.calls ∧ race.Caches (race.calls - 1) value
  unset : ∀ (reader : Nat) phase, race.readers[reader]? = some phase → fetching phase = true → race.valid? = none
  latest : ∀ (reader : Nat) call cell, race.readers[reader]? = some (.computing call cell) → call + 1 = race.calls
  stored : ∀ (reader : Nat) value cell, race.readers[reader]? = some (.storing value cell) →
    base < race.calls ∧ race.Caches (race.calls - 1) value
  quiet : race.valid? = none → (∀ (reader : Nat) phase, race.readers[reader]? = some phase → busy phase = false) →
    ∀ call value, base ≤ call → call < race.calls → ¬race.Caches call value
  served : ∀ reader value, race.Settled reader (.ok value) → race.Idle base reader → race.valid? = some value

/-- A step by which nothing is computed or kept. -/
structure Calm (race : Race ν) (reader : Nat) (next : Race ν) (old new : ReaderPhase ν) : Prop where
  here : race.readers[reader]? = some old
  moved : next.readers = (race.moveTo reader new).readers
  calls : next.calls = race.calls
  valid : next.valid? = race.valid?
  quiet : busy old = false ∧ busy new = false
  unset : fetching new = true → race.valid? = none
  settled : ∀ value, new = .leaving (.ok value) ∨ new = .done (.ok value) →
    race.valid? = some value ∨ race.Settled reader (.ok value)

theorem Calm.now {old new : ReaderPhase ν} (calm : Calm race reader next old new) : next.readers[reader]? = some new := by
  rw [calm.moved]
  exact readers_moveTo_self race calm.here new

/-- Every reader is where it was, or it is the one that moved. -/
theorem Calm.cases {old new : ReaderPhase ν} (calm : Calm race reader next old new) (frame : Frame race reader next)
    {other : Nat} {phase : ReaderPhase ν} (there : next.readers[other]? = some phase) :
    other = reader ∧ phase = new ∨ race.readers[other]? = some phase := by
  by_cases same : other = reader
  · subst same
    exact .inl ⟨rfl, Option.some.inj (there.symm.trans calm.now)⟩
  · exact .inr (frame.others other same ▸ there)

theorem Solo.calm {old new : ReaderPhase ν} (solo : Solo base race) (frame : Frame race reader next)
    (calm : Calm race reader next old new) : Solo base next where
  -- The calls, the value and the outcomes are as before, so each clause asks only where the one reader moved to.
  spent call value late early := by
    rw [calm.calls] at early
    rw [frame.caches]
    exact solo.spent call value late early
  valid value valid := by
    rw [calm.valid] at valid
    rw [calm.calls, frame.caches]
    exact solo.valid value valid
  unset other phase there fetches := by
    rw [calm.valid]
    obtain ⟨-, rfl⟩ | before := calm.cases frame there
    · exact calm.unset fetches
    · exact solo.unset other phase before fetches
  latest other call cell there := by
    rw [calm.calls]
    obtain ⟨-, rfl⟩ | before := calm.cases frame there
    · cases calm.quiet.2
    · exact solo.latest other call cell before
  stored other value cell there := by
    rw [calm.calls, frame.caches]
    obtain ⟨-, rfl⟩ | before := calm.cases frame there
    · cases calm.quiet.2
    · exact solo.stored other value cell before
  quiet invalid idle call value late early := by
    rw [calm.valid] at invalid
    rw [calm.calls] at early
    rw [frame.caches]
    refine solo.quiet invalid (fun other phase there => ?_) call value late early
    by_cases same : other = reader
    · subst same
      cases calm.here.symm.trans there
      exact calm.quiet.1
    · exact idle other phase (frame.others other same ▸ there)
  served other value settled idle := by
    rw [calm.valid]
    have before : race.Idle base other := fun call late called => idle call late (frame.called called)
    by_cases same : other = reader
    · subst same
      have known : new = .leaving (.ok value) ∨ new = .done (.ok value) := settled.among calm.now
      exact (calm.settled value known).elim id fun knew => solo.served other value knew before
    · rw [Settled, frame.others other same] at settled
      exact solo.served other value settled before

/-- While a reader fetches a value, no memo is valid, no other reader fetches one and none was served. -/
structure Sole (base : Nat) (race : Race ν) (reader : Nat) (next : Race ν) (new : ReaderPhase ν) : Prop where
  invalid : race.valid? = none
  now : next.readers[reader]? = some new
  alone : ∀ (other : Nat) phase, next.readers[other]? = some phase → fetching phase = true → other = reader ∧ phase = new
  unserved : ∀ other value, next.Settled other (.ok value) → next.Idle base other → other = reader

theorem Solo.sole {old new : ReaderPhase ν} (solo : Solo base race) (latched : race.Latched) (single : race.spec.flight = .single)
    (frame : Frame race reader next) (here : race.readers[reader]? = some old) (fetches : fetching old = true)
    (now : next.readers[reader]? = some new) : Sole base race reader next new where
  invalid := solo.unset reader old here fetches
  now := now
  alone other phase there fetches' := by
    by_cases same : other = reader
    · subst same
      exact ⟨rfl, Option.some.inj (there.symm.trans now)⟩
    · rw [frame.others other same] at there
      exact absurd (latched.alone single here (owning_of_fetching fetches) there (owning_of_fetching fetches')) same
  unserved other value settled idle := by
    apply Decidable.byContradiction
    intro differs
    rw [Settled, frame.others other differs] at settled
    have valid := solo.served other value settled fun call late called => idle call late (frame.called called)
    cases valid.symm.trans (solo.unset reader old here fetches)

/-- A reader starts to compute after all computations before cached nothing. -/
theorem Solo.starts {cell : Option CellId} (solo : Solo base race) (frame : Frame race reader next)
    (sole : Sole base race reader next (.computing race.calls cell)) (calls : next.calls = race.calls + 1)
    (valid : next.valid? = race.valid?)
    (idle : ∀ (other : Nat) phase, race.readers[other]? = some phase → busy phase = false) : Solo base next where
  spent call value late early := by
    rw [frame.caches]
    exact solo.quiet sole.invalid idle call value late (by omega)
  valid value kept := by
    cases (valid.symm.trans kept).symm.trans sole.invalid
  unset _ _ _ _ := valid.trans sole.invalid
  latest other call cell there := by
    obtain ⟨-, same⟩ := sole.alone other _ there rfl
    cases same
    exact calls.symm
  stored other value cell there := nomatch (sole.alone other _ there rfl).2
  quiet _ idle := nomatch idle reader _ sole.now
  served other value settled idle := by
    cases sole.unserved other value settled idle
    exact (settled.among sole.now).elim nofun nofun

/-- A reader's computation ends with a value to be kept. -/
theorem Solo.ends {cell : Option CellId} (solo : Solo base race) (frame : Frame race reader next)
    (sole : Sole base race reader next (.storing value cell)) (calls : next.calls = race.calls) (valid : next.valid? = race.valid?)
    (cached : base < race.calls ∧ race.Caches (race.calls - 1) value) : Solo base next where
  spent call value late early := by
    rw [frame.caches]
    exact solo.spent call value late (calls ▸ early)
  valid value kept := by
    cases (valid.symm.trans kept).symm.trans sole.invalid
  unset _ _ _ _ := valid.trans sole.invalid
  latest other call cell there := nomatch (sole.alone other _ there rfl).2
  stored other value cell there := by
    obtain ⟨-, same⟩ := sole.alone other _ there rfl
    cases same
    rw [calls, frame.caches]
    exact cached
  quiet _ idle := nomatch idle reader _ sole.now
  served other value settled idle := by
    cases sole.unserved other value settled idle
    exact (settled.among sole.now).elim nofun nofun

/-- A reader's computation ends with nothing to be kept. -/
theorem Solo.misses (solo : Solo base race) (frame : Frame race reader next) (sole : Sole base race reader next (.leaving answer))
    (calls : next.calls = race.calls) (valid : next.valid? = race.valid?) (own : ∃ call, base ≤ call ∧ next.Called call reader)
    (uncached : ∀ value, ¬race.Caches (race.calls - 1) value) : Solo base next where
  spent call value late early := by
    rw [frame.caches]
    exact solo.spent call value late (calls ▸ early)
  valid value kept := by
    cases (valid.symm.trans kept).symm.trans sole.invalid
  unset _ _ _ _ := valid.trans sole.invalid
  latest other call cell there := nomatch (sole.alone other _ there rfl).2
  stored other value cell there := nomatch (sole.alone other _ there rfl).2
  quiet _ _ call value late early := by
    rw [frame.caches]
    by_cases last : call + 1 < race.calls
    · exact solo.spent call value late last
    · have same : call = race.calls - 1 := by omega
      exact same ▸ uncached value
  served other value settled idle := by
    cases sole.unserved other value settled idle
    obtain ⟨call, late, called⟩ := own
    exact absurd called (idle call late)

/-- A reader keeps what it computed. -/
theorem Solo.keeps (solo : Solo base race) (frame : Frame race reader next) (sole : Sole base race reader next (.leaving answer))
    (calls : next.calls = race.calls) (valid : next.valid? = some value) (own : ∃ call, base ≤ call ∧ next.Called call reader)
    (cached : base < race.calls ∧ race.Caches (race.calls - 1) value) : Solo base next where
  spent call value late early := by
    rw [frame.caches]
    exact solo.spent call value late (calls ▸ early)
  valid value' kept := by
    cases valid.symm.trans kept
    rw [calls, frame.caches]
    exact cached
  unset other phase there fetches := by
    obtain ⟨-, rfl⟩ := sole.alone other phase there fetches
    cases fetches
  latest other call cell there := nomatch (sole.alone other _ there rfl).2
  stored other value cell there := nomatch (sole.alone other _ there rfl).2
  quiet invalid := nomatch valid.symm.trans invalid
  served other value settled idle := by
    cases sole.unserved other value settled idle
    obtain ⟨call, late, called⟩ := own
    exact absurd called (idle call late)

/-- Every step under single flight keeps it so. -/
theorem Solo.step (solo : Solo base race) (course : Course base race) (latched : race.Latched) (single : race.spec.flight = .single)
    (advance : Advance race reader next) : Solo base next := by
  have frame := advance.frame
  -- The steps that compute or keep a value have their own lemmas; the rest are calm.
  cases advance with
  | hit here valid =>
    refine solo.calm frame ⟨here, rfl, rfl, rfl, ⟨rfl, rfl⟩, nofun, fun value knows => ?_⟩
    cases knows with
    | inl same => cases same
    | inr same =>
      cases same
      exact .inl valid
  | skip _ _ duplicate => cases duplicate.symm.trans single
  | queue here => exact solo.calm frame ⟨here, rfl, rfl, rfl, ⟨rfl, rfl⟩, nofun, fun _ => (·.elim nofun nofun)⟩
  | lock here => exact solo.calm frame ⟨here, rfl, rfl, rfl, ⟨rfl, rfl⟩, nofun, fun _ => (·.elim nofun nofun)⟩
  | hitAgain here valid =>
    refine solo.calm frame ⟨here, rfl, rfl, rfl, ⟨rfl, rfl⟩, nofun, fun value knows => ?_⟩
    cases knows with
    | inl same =>
      cases same
      exact .inl valid
    | inr same => cases same
  | clear here invalid =>
    exact solo.calm frame ⟨here, rfl, rfl, rfl, ⟨rfl, rfl⟩, fun _ => invalid, fun _ => (·.elim nofun nofun)⟩
  | leave here =>
    refine solo.calm frame ⟨here, rfl, rfl, rfl, ⟨rfl, rfl⟩, nofun, fun value knows => ?_⟩
    cases knows with
    | inl same => cases same
    | inr same =>
      cases same
      exact .inr (.inl here)
  | begin here =>
    have sole := solo.sole latched single frame here rfl (readers_moveTo_self race here _)
    refine solo.starts frame sole (Array.size_push _) rfl fun other phase there => ?_
    cases works : busy phase with
    | false => rfl
    | true =>
      cases latched.alone single here rfl there (owning_of_fetching (fetching_of_busy works))
      cases here.symm.trans there
      cases works
  | finish here cached =>
    have sole := solo.sole latched single frame here rfl (readers_moveTo_self (race.count .slotCompute) here _)
    have last := solo.latest reader _ _ here
    obtain ⟨late, -, -⟩ := course.placed reader _ here
    refine solo.ends frame sole rfl rfl ⟨by omega, ?_⟩
    rw [← last]
    exact cached
  | pass here transient =>
    have sole := solo.sole latched single frame here rfl (readers_moveTo_self (race.count .slotTransient) here _)
    have last := solo.latest reader _ _ here
    obtain ⟨late, called, -⟩ := course.placed reader _ here
    refine solo.misses frame sole rfl rfl ⟨_, late, called⟩ fun value caches => ?_
    rw [← last] at caches
    cases caches.symm.trans transient
  | fail here failed =>
    have sole := solo.sole latched single frame here rfl (readers_moveTo_self race here _)
    have last := solo.latest reader _ _ here
    obtain ⟨late, called, -⟩ := course.placed reader _ here
    refine solo.misses frame sole rfl rfl ⟨_, late, called⟩ fun value caches => ?_
    rw [← last] at caches
    cases caches.symm.trans failed
  | store here =>
    have sole := solo.sole latched single frame here rfl (readers_moveTo_self race here _)
    obtain ⟨⟨call, late, called, -⟩, trusted⟩ := course.placed reader _ here
    exact solo.keeps frame sole rfl (valid?_store course.able trusted) ⟨call, late, called⟩ (solo.stored reader _ _ here)

/-! ## From the first look on -/

/-- The readers are about to look at a slot without a valid memo, and nobody is at it. -/
structure Ready (race : Race ν) (n : Nat) : Prop where
  able : race.Able
  readers : race.readers = Array.replicate n .start
  invalid : race.valid? = none
  free : race.holder = none

theorem Ready.start {n : Nat} (ready : race.Ready n) (here : race.readers[reader]? = some phase) : phase = .start := by
  rw [ready.readers, Array.getElem?_replicate] at here
  split at here
  · exact (Option.some.inj here).symm
  · cases here

theorem Ready.size {n : Nat} (ready : race.Ready n) : race.readers.size = n := by
  rw [ready.readers, Array.size_replicate]

theorem Ready.not_settled {n : Nat} (ready : race.Ready n) : ¬race.Settled reader answer :=
  fun settled => settled.elim (fun there => nomatch ready.start there) fun there => nomatch ready.start there

/-- Nobody has computed since a number that is not reached yet. -/
theorem idle_calls (race : Race ν) (reader : Nat) : race.Idle race.calls reader :=
  fun _ late called => absurd called.lt (Nat.not_lt.mpr late)

/-- What holds of the readers on their way, and where they started. -/
structure Underway (start race : Race ν) : Prop where
  spec : race.spec = start.spec
  outcome : race.outcome = start.outcome
  size : race.readers.size = start.readers.size
  course : Course start.calls race
  latched : race.Latched
  counted : Counted start race
  solo : race.spec.flight = .single → Solo start.calls race

theorem Ready.underway {n : Nat} (ready : race.Ready n) : Underway race race where
  spec := rfl
  outcome := rfl
  size := rfl
  -- No reader has started, so nothing has been called, kept or settled yet.
  course := {
    able := ready.able
    based := Nat.le_refl _
    known := fun _ reader late called => absurd called (idle_calls race reader _ late)
    once := fun _ _ reader late _ called => absurd called (idle_calls race reader _ late)
    placed := fun reader phase here => by
      cases ready.start here
      exact idle_calls race reader
    memo := fun value valid => nomatch ready.invalid.symm.trans valid
    kept := fun _ reader _ late called => absurd called (idle_calls race reader _ late) }
  latched := {
    inside := fun reader held => nomatch ready.free.symm.trans held
    single := fun _ reader phase here => by
      cases ready.start here
      rw [ready.free]
      exact ⟨nofun, nofun⟩
    duplicate := fun _ => ⟨ready.free, fun reader there => nomatch ready.start there⟩ }
  counted := by
    have resting : ∀ weigh : ReaderPhase ν → Nat, weigh .start = 0 → race.weight weigh = 0 := fun weigh none =>
      Turns.total_eq_zero.mpr fun _ phase here => ready.start here ▸ none
    constructor
    · rw [resting engaged rfl]
      omega
    · rw [resting running rfl]
      omega
  solo := fun _ => {
    spent := fun call _ late early => absurd early (by omega)
    valid := fun value valid => nomatch ready.invalid.symm.trans valid
    unset := fun _ _ _ _ => ready.invalid
    latest := fun reader call cell there => nomatch ready.start there
    stored := fun reader value cell there => nomatch ready.start there
    quiet := fun _ _ call _ late early => absurd early (Nat.not_lt.mpr late)
    served := fun _ _ settled => absurd settled ready.not_settled }

theorem Underway.step {start : Race ν} (underway : Underway start race) (moved : race.step reader = some next) :
    Underway start next := by
  have advance := underway.course.able.advance moved
  have frame := advance.frame
  exact {
    spec := frame.spec.trans underway.spec
    outcome := frame.outcome.trans underway.outcome
    size := frame.crowd.trans underway.size
    course := underway.course.step moved
    latched := underway.latched.step advance
    counted := underway.counted.step advance
    solo := fun single =>
      have single := frame.spec ▸ single
      (underway.solo single).step underway.course underway.latched single advance }

theorem Underway.play {start : Race ν} (underway : Underway start race) (schedule : List Nat) :
    Underway start (race.play schedule) :=
  Turns.play_keeps (Underway start) (fun _ _ _ before moved => before.step moved) underway schedule

/-! ## When all readers have their answers -/

/-- Every reader counts as engaged in the end, and none computes. -/
theorem Finished.weights (finished : race.Finished) : race.weight engaged = race.readers.size ∧ race.weight running = 0 := by
  have done (reader : Nat) (phase : ReaderPhase ν) (here : race.readers[reader]? = some phase) :
      ∃ answer, phase = .done answer := by
    obtain ⟨answer, answered⟩ := finished reader (Array.getElem?_eq_some_iff.mp here).1
    exact ⟨answer, Option.some.inj (here.symm.trans (answer?_eq.mp answered))⟩
  have through : race.weight engaged = 1 * race.readers.size := Turns.total_eq fun reader phase here => by
    obtain ⟨answer, rfl⟩ := done reader phase here
    rfl
  refine ⟨through.trans (Nat.one_mul _), Turns.total_eq_zero.mpr fun reader phase here => ?_⟩
  obtain ⟨answer, rfl⟩ := done reader phase here
  rfl

/-- One computation serves all readers: all answer with its value, and all but one of them are hits. -/
structure OneFlight (start : Race ν) (n : Nat) (value : ν) (after : Race ν) : Prop where
  computed : start.Caches start.calls value
  calls : after.calls = start.calls + 1
  answers : ∀ reader < n, after.answer? reader = some (.ok value)
  kept : after.valid? = some value
  computes : after.tally.get .slotCompute = start.tally.get .slotCompute + 1
  hits : after.tally.get .slotHit = start.tally.get .slotHit + (n - 1)

/-- Readers compute one after another until a value is cached. -/
structure InTurn (start : Race ν) (n : Nat) (after : Race ν) : Prop where
  /-- What a computation gave, an error included, is the answer of its own reader. -/
  own : ∀ call, start.calls ≤ call → call < after.calls →
    ∃ reader < n, after.Called call reader ∧ after.answer? reader = some ((start.outcome call).map Computed.value)
  once : ∀ call call' reader, start.calls ≤ call → start.calls ≤ call' →
    after.Called call reader → after.Called call' reader → call = call'
  /-- A reader that did not compute got the value that was kept. -/
  others : ∀ reader < n, after.Idle start.calls reader →
    ∃ value, after.valid? = some value ∧ after.answer? reader = some (.ok value)
  /-- After a computation that cached nothing, another reader computes again, as long as one is left. -/
  again : ∀ call, start.calls ≤ call → call < after.calls → (∀ value, ¬start.Caches call value) →
    call + 1 < after.calls ∨ ∀ reader < n, ¬after.Idle start.calls reader

/-- Every reader answers with a value that one of them computed, and the memo is one of the answers. -/
structure AnyFlight (start : Race ν) (n : Nat) (after : Race ν) : Prop where
  answers : ∀ reader < n, ∃ call value, start.calls ≤ call ∧ call < after.calls ∧ start.Caches call value
    ∧ after.answer? reader = some (.ok value)
  kept : 0 < n → ∃ reader < n, ∃ value, after.valid? = some value ∧ after.answer? reader = some (.ok value)
  counts : (after.tally.get .slotCompute - start.tally.get .slotCompute) + (after.tally.get .slotHit - start.tally.get .slotHit) = n

namespace Underway

variable {start : Race ν} {n : Nat}

theorem caches (underway : Underway start race) : race.Caches call value ↔ start.Caches call value := by
  rw [Caches, Caches, underway.outcome]

/-- A reader with an answer computed it or shares it. -/
theorem answered (underway : Underway start race) (finished : race.Finished) (inside : reader < race.readers.size) :
    ∃ answer, race.answer? reader = some answer ∧ (race.Own start.calls reader answer ∨ race.Shared start.calls reader answer) := by
  obtain ⟨answer, answered⟩ := finished reader inside
  exact ⟨answer, answered, underway.course.placed reader _ (answer?_eq.mp answered)⟩

theorem anyFlight (underway : Underway start race) (finished : race.Finished) (all : start.AllCached)
    (size : race.readers.size = n) : AnyFlight start n race := by
  have cached : race.AllCached := fun call => (all call).imp fun _ => underway.caches.mpr
  have answers : ∀ reader < n, ∃ call value, start.calls ≤ call ∧ call < race.calls ∧ start.Caches call value
      ∧ race.answer? reader = some (.ok value) := by
    intro reader inside
    obtain ⟨answer, answered, own | shared⟩ := underway.answered finished (size ▸ inside)
    · obtain ⟨call, late, called, rfl⟩ := own
      obtain ⟨value, caches⟩ := cached call
      rw [caches] at answered
      exact ⟨call, value, late, called.lt, underway.caches.mp caches, answered⟩
    · obtain ⟨-, call, value, late, early, caches, rfl⟩ := shared
      exact ⟨call, value, late, early, underway.caches.mp caches, answered⟩
  refine ⟨answers, fun some => ?_, ?_⟩
  · -- The reader of any computation is through, so its value was kept.
    obtain ⟨call, value, late, early, caches, -⟩ := answers 0 some
    obtain ⟨caller, called⟩ : ∃ caller, race.Called call caller := ⟨_, Array.getElem?_eq_getElem early⟩
    obtain ⟨answer, answered⟩ := finished caller (underway.course.known call caller late called)
    have isKept := underway.course.kept call caller value late called (underway.caches.mpr caches)
      ⟨answer, .inr (answer?_eq.mp answered)⟩
    obtain ⟨memo, valid⟩ := Option.isSome_iff_exists.mp isKept
    obtain ⟨call', reader, late', called', -, settled⟩ := underway.course.memo memo valid
    have inside := underway.course.known call' reader late' called'
    obtain ⟨answer', answered'⟩ := finished reader inside
    obtain same | same := settled.among (answer?_eq.mp answered')
    · cases same
    · cases same
      exact ⟨reader, size ▸ inside, memo, valid, answered'⟩
  · obtain ⟨through, still⟩ := finished.weights
    -- Each reader hits or computes, and each computation is counted once.
    have hits := underway.counted.hits
    have computes := underway.counted.computes cached
    omega

theorem inTurn (underway : Underway start race) (finished : race.Finished) (single : start.spec.flight = .single)
    (size : race.readers.size = n) : InTurn start n race := by
  have solo := underway.solo (underway.spec ▸ single)
  have shares : ∀ reader < n, race.Idle start.calls reader →
      ∃ value, race.valid? = some value ∧ race.answer? reader = some (.ok value) := by
    intro reader inside idle
    obtain ⟨answer, answered, own | shared⟩ := underway.answered finished (size ▸ inside)
    · obtain ⟨call, late, called, -⟩ := own
      exact absurd called (idle call late)
    · obtain ⟨-, call, value, -, -, -, rfl⟩ := shared
      exact ⟨value, solo.served reader value (.inr (answer?_eq.mp answered)) idle, answered⟩
  refine ⟨fun call late early => ?_, underway.course.once, shares, fun call late early uncached => ?_⟩
  · obtain ⟨reader, called⟩ : ∃ reader, race.Called call reader := ⟨_, Array.getElem?_eq_getElem early⟩
    have inside := underway.course.known call reader late called
    refine ⟨reader, size ▸ inside, called, ?_⟩
    obtain ⟨answer, answered, own | shared⟩ := underway.answered finished inside
    · obtain ⟨call', late', called', rfl⟩ := own
      cases underway.course.once call call' reader late late' called called'
      rw [answered, underway.outcome]
    · exact absurd called (shared.1 call late)
  · by_cases last : call + 1 < race.calls
    · exact .inl last
    · refine .inr fun reader inside idle => ?_
      obtain ⟨value, valid, -⟩ := shares reader inside idle
      have cached := (solo.valid value valid).2
      have same : race.calls - 1 = call := by omega
      exact uncached value (underway.caches.mp (same ▸ cached))

theorem oneFlight (underway : Underway start race) (finished : race.Finished) (single : start.spec.flight = .single)
    (all : start.AllCached) (some : 0 < n) (size : race.readers.size = n) : ∃ value, OneFlight start n value race := by
  have solo := underway.solo (underway.spec ▸ single)
  have cached : race.AllCached := fun call => (all call).imp fun _ => underway.caches.mpr
  have any := underway.anyFlight finished all size
  -- A second computation would have followed one that cached nothing.
  have one : race.calls = start.calls + 1 := by
    obtain ⟨call, -, late, early, -⟩ := any.answers 0 some
    obtain ⟨value, caches⟩ := cached start.calls
    have few : ¬start.calls + 1 < race.calls := fun more => solo.spent start.calls value (Nat.le_refl _) more caches
    omega
  obtain ⟨value, caches⟩ := all start.calls
  obtain ⟨through, still⟩ := finished.weights
  have hits := underway.counted.hits
  have computes := underway.counted.computes cached
  refine ⟨value, caches, one, fun reader inside => ?_, ?_, by omega, by omega⟩
  · obtain ⟨call, value', late, early, caches', answered⟩ := any.answers reader inside
    have same : call = start.calls := by omega
    subst same
    cases caches.symm.trans caches'
    exact answered
  · obtain ⟨reader, -, memo, valid, -⟩ := any.kept some
    have caches' := underway.caches.mp (solo.valid memo valid).2
    rw [one, Nat.add_sub_cancel] at caches'
    cases caches.symm.trans caches'
    exact valid

end Underway

/-- Readers of an unset or stale slot, interleaved in any way while the gates stay as they are, and
    then left to take turns, all get their answers.  When they have them: under single flight with
    cached results, one computation has served them all; under single flight in general, they have
    computed one after another until a value was cached; under duplicate flight with cached results,
    each has answered with a value that one of them computed. -/
theorem flights {n : Nat} (ready : race.Ready n) (schedule : List Nat) :
    ((race.play schedule).play (fairSchedule n)).Finished
    ∧ ((race.play schedule).Finished →
      (race.spec.flight = .single → race.AllCached → 0 < n → ∃ value, OneFlight race n value (race.play schedule))
      ∧ (race.spec.flight = .single → InTurn race n (race.play schedule))
      ∧ (race.spec.flight = .duplicate → race.AllCached → AnyFlight race n (race.play schedule))) := by
  have underway := ready.underway.play schedule
  have size : (race.play schedule).readers.size = n := underway.size.trans ready.size
  have steady : (race.play schedule).Steady := ⟨underway.course.able, underway.latched⟩
  refine ⟨size ▸ steady.fair_finishes, fun finished => ⟨?_, ?_, ?_⟩⟩
  · exact fun single all some => underway.oneFlight finished single all some size
  · exact fun single => underway.inTurn finished single size
  · exact fun _ all => underway.anyFlight finished all size

/-- A slot whose memo was computed under a cell that has been tripped since. -/
def stale (readers : Nat) : Race Int :=
  let race := unset .single
  { race with
    gates := race.gates.trip 0
    table := race.table.keep 0 ⟨7, some 0⟩
    readers := Array.replicate readers .start }

theorem flights_stale : (stale 3).Ready 3 ∧ ∃ value, OneFlight (stale 3) 3 value ((stale 3).play (fairSchedule 3)) := by
  have ready : (stale 3).Ready 3 :=
    { able := {
        there := by decide
        permitted := fun _ _ => rfl
        governed := ⟨some 1, rfl, fun id same => by cases same; rfl⟩ }
      readers := rfl
      invalid := by decide
      free := rfl }
  have finished := (flights ready []).1
  exact ⟨ready, ((flights ready (fairSchedule 3)).2 finished).1 rfl (fun call => ⟨call, rfl⟩) (by decide)⟩

end CatalogReplica.Coherence.Race
