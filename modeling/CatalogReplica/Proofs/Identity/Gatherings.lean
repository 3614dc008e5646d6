import CatalogReplica.Proofs.Identity.Runs
import CatalogReplica.Proofs.Identity.Waiters

/-!
# One construction for all who wait

What any schedule of the threads comes to: the first thread's construction serves them all, and the
cache is as a lookup by the first thread alone leaves it.

* `Gathering.Underway`: what every moment has after the first thread has called.
* `Gathering.advancing`: as long as a thread has no answer, some thread can move.
* `Gathering.Served`: what has become of everybody.
* `Gathering.one_for_all`: every schedule comes to that.
-/

namespace CatalogReplica.Identity

variable {κ ν : Type} [DecidableEq κ] [DecidableEq ν]

namespace Gathering

open Stage (view)

variable {gathering : Gathering κ ν}

/-! ### Runs -/

section runs

variable {crowd next : Crowd (Stage κ ν) κ ν} {thread : Nat} {all : Prop}

/-- The first thread's constructor is running. -/
def Opening (gathering : Gathering κ ν) (crowd : Crowd (Stage κ ν) κ ν) : Prop :=
  ∃ left shadow state callers, crowd = gathering.crowd none state callers
    ∧ gathering.Course (.constructing 0 left) shadow none state callers

/-- A moment after the first thread has called; if `all`, after everybody has. -/
def Underway (gathering : Gathering κ ν) (all : Prop) (crowd : Crowd (Stage κ ν) κ ν) : Prop :=
  ∃ leads shadow result state callers, crowd = gathering.crowd result state callers
    ∧ gathering.Course leads shadow result state callers ∧ (all → Gathered callers)

/-- The first thread has called. -/
theorem Ready.opening (ready : gathering.Ready) :
    ∃ crowd, gathering.start.step gathering.leader = some crowd ∧ gathering.Opening crowd := by
  have outside {thread : Nat} {phase : CallerPhase (Stage κ ν) κ ν} (here : gathering.start.callers[thread]? = some phase) :
      phase = .outside := by
    rw [start, Array.getElem?_replicate] at here
    split at here
    · exact (Option.some.inj here).symm
    · cases here
  have here : gathering.start.callers[gathering.leader]? = some .outside := by
    rw [start, Array.getElem?_replicate, if_pos (Nat.lt_succ_of_le ready.inside)]
  have called : gathering.start.call gathering.leader = gathering.crowd none gathering.claimed
      (gathering.start.callers.setIfInBounds gathering.leader (.constructing 0 gathering.leading.constructor.acts)) :=
    Crowd.call_of_build (Program.claiming_of_free ready.free fun value found => ready.dead value (Cache.mem_of_find? found))
  have begins : gathering.Progress (.constructing 0 gathering.leading.constructor.acts) gathering.claimed none :=
    .constructing (List.nil_append _).symm
  -- The leader's first phase weighs nothing, so a weight of zero outside stays zero.
  have still (weigh : CallerPhase (Stage κ ν) κ ν → Nat) (nothing : weigh .outside = 0)
      (nothing' : weigh (.constructing 0 gathering.leading.constructor.acts) = 0) :
      0 = Turns.total (gathering.start.callers.setIfInBounds gathering.leader
        (.constructing 0 gathering.leading.constructor.acts)) weigh := by
    have moved := Turns.total_set here (.constructing 0 gathering.leading.constructor.acts) weigh
    have before : Turns.total gathering.start.callers weigh = 0 :=
      Turns.total_eq_zero.mpr fun _ _ there => outside there ▸ nothing
    omega
  refine ⟨_, ?_, gathering.leading.constructor.acts, gathering.claimed, _, _, called, ?_⟩
  · unfold Crowd.step
    rw [here]
  · refine ⟨?_, Turns.getElem?_set_self here _, begins, fun other phase differs there => ?_,
      [], [], .refl _, fun value => still _ rfl rfl, fun note => still _ rfl rfl⟩
    · rw [Array.size_setIfInBounds, start, Array.size_replicate]
    · rw [Turns.getElem?_set_of_ne differs] at there
      exact outside there ▸ .outside

/-- The first thread's constructor is running until it has ended. -/
theorem Opening.play (ready : gathering.Ready) (opening : gathering.Opening crowd) (schedule : List Nat) :
    gathering.Opening (crowd.play schedule) ∨ (crowd.play schedule).Past gathering.leader := by
  refine Turns.play_keeps (fun now => gathering.Opening now ∨ now.Past gathering.leader)
    (fun now thread next before moved => ?_) (.inl opening) schedule
  cases before with
  | inr past => exact .inr (past.step moved)
  | inl opening =>
    obtain ⟨left, shadow, state, callers, rfl, course⟩ := opening
    obtain ⟨old, new, leads, shadow', result, state', here, rfl, course', -⟩ := course.step ready (.inl trivial) moved
    -- The first thread's next phase tells whether that step was the end of its constructor.
    have progress := course'.progress
    cases progress with
    | constructing => exact .inl ⟨_, _, _, _, rfl, course'⟩
    | settling | queueing | publishing | reporting | returned => exact .inr ⟨_, course'.here, trivial⟩

theorem Underway.step (ready : gathering.Ready) (covers : (∃ value, gathering.leading.ending = .ok value) ∨ all)
    (underway : gathering.Underway all crowd) (moved : crowd.step thread = some next) :
    gathering.Underway all next ∧ next.effort < crowd.effort := by
  obtain ⟨leads, shadow, result, state, callers, rfl, course, gathered⟩ := underway
  obtain ⟨old, new, leads', shadow', result', state', here, rfl, course', less, stays⟩ :=
    course.step ready (.inr (covers.imp_right gathered)) moved
  refine ⟨⟨leads', shadow', result', state', _, rfl, course', fun all => (gathered all).turn here stays⟩, ?_⟩
  have weight := Turns.total_set here new CallerPhase.effort
  change Turns.total (callers.setIfInBounds thread new) CallerPhase.effort < Turns.total callers CallerPhase.effort
  omega

/-- While a thread has no answer, some thread can move. -/
theorem Course.movable {leads : CallerPhase (Stage κ ν) κ ν} {shadow : Stage κ ν} {result : Option (Except Fault ν)}
    {state : Stage κ ν} {callers : Array (CallerPhase (Stage κ ν) κ ν)}
    (course : gathering.Course leads shadow result state callers)
    (something : Turns.total callers CallerPhase.effort ≠ 0) :
    ∃ mover, mover < gathering.others + 1 ∧ ((gathering.crowd result state callers).step mover).isSome := by
  apply Decidable.byContradiction
  intro stuck
  have still (mover : Nat) (phase : CallerPhase (Stage κ ν) κ ν) (here : callers[mover]? = some phase) :
      ((gathering.crowd result state callers).step mover).isSome = false := by
    rw [← Bool.not_eq_true]
    intro moves
    exact stuck ⟨mover, course.size ▸ (Array.getElem?_eq_some_iff.mp here).1, moves⟩
  have first := still gathering.leader leads course.here
  unfold Crowd.step at first
  rw [show (gathering.crowd result state callers).callers[gathering.leader]? = some leads from course.here] at first
  refine something (Turns.total_eq_zero.mpr fun thread phase here => ?_)
  -- The first thread can move until it has returned, and by then those who wait have a result.
  have progress := course.progress
  cases progress with
  | @constructing past left split => cases left <;> cases first
  | settling | queueing | publishing | reporting => cases first
  | returned =>
    by_cases same : thread = gathering.leader
    · subst same
      cases course.here.symm.trans here
      rfl
    · have others := still thread phase here
      unfold Crowd.step at others
      rw [show (gathering.crowd _ state callers).callers[thread]? = some phase from here] at others
      cases course.others thread phase same here with
      | outside | waiting => cases others
      | served | found => rfl

theorem advancing (ready : gathering.Ready) (covers : (∃ value, gathering.leading.ending = .ok value) ∨ all) :
    Turns.Advancing Crowd.step (gathering.others + 1) (gathering.Underway all) Crowd.effort where
  keeps _ _ _ underway moved := (underway.step ready covers moved).1
  lessens _ _ _ underway moved := (underway.step ready covers moved).2
  movable crowd underway something := by
    obtain ⟨leads, shadow, result, state, callers, rfl, course, -⟩ := underway
    exact course.movable something

end runs

/-! ### When all threads have their answers -/

/-- What a lookup by the first thread alone leaves. -/
def alone (gathering : Gathering κ ν) : Stage κ ν :=
  (view.lookup gathering.leader gathering.key gathering.leading.constructor.task).exec gathering.stage

/-- What the others report: a miss for each that waited, and a hit for each that came later. -/
def visits (gathering : Gathering κ ν) (waits : Nat) : List (Note κ) :=
  List.replicate waits .miss ++ List.replicate (gathering.others - waits) .hit

/-- What has become of everybody. -/
structure Served (gathering : Gathering κ ν) (waits : Nat) (now : Crowd (Stage κ ν) κ ν) : Prop where
  /-- All return the object that was constructed, and it is in the entry of the key. -/
  succeeded : ∀ value, gathering.leading.ending = .ok value →
    (∀ thread ≤ gathering.others, now.answer? thread = some (.ok value))
      ∧ (gathering.key, value) ∈ now.state.cache.table ∧ now.state.alive value = true
      ∧ now.state.held = List.replicate gathering.others value ++ gathering.alone.held
  /-- All return the fault. -/
  failed : ∀ fault, gathering.leading.ending = .error (.fault fault) →
    ∀ thread ≤ gathering.others, now.answer? thread = some (.error (.fault fault))
  /-- The first thread breaks off, and the others return the fault that says so. -/
  brokeOff : ∀ note, gathering.leading.ending = .error (.crash note) →
    now.answer? gathering.leader = some (.error (.crash note))
      ∧ ∀ thread ≤ gathering.others, thread ≠ gathering.leader →
        now.answer? thread = some (.error (.fault (Cache.brokenOff (gathering.shown gathering.key))))
  absent : ∀ interrupt, gathering.leading.ending = .error interrupt →
    now.state.cache.has gathering.key = false ∧ now.state.held = gathering.alone.held
  unclaimed : now.state.cache.claim? gathering.key = none
  /-- The cache is as a lookup by the first thread alone leaves it. -/
  cache : now.state.cache = gathering.alone.cache
  reports : now.state.notes.Perm (gathering.visits waits ++ gathering.alone.notes)
  counted : ∀ counter, now.state.tally.get counter
    = gathering.alone.tally.get counter + Note.counted counter (gathering.visits waits)

section served

variable {leads : CallerPhase (Stage κ ν) κ ν} {shadow state : Stage κ ν} {result : Option (Except Fault ν)}
  {callers : Array (CallerPhase (Stage κ ν) κ ν)} {crowd : Crowd (Stage κ ν) κ ν} {all : Prop}

/-- The first thread has returned and the others have their answers. -/
theorem Course.finished (course : gathering.Course leads shadow result state callers)
    (finished : (gathering.crowd result state callers).Finished) :
    leads = .returned gathering.leading.ending ∧ shadow = gathering.leading.last gathering.key gathering.built
      ∧ ∀ (thread : Nat) phase, thread ≠ gathering.leader → callers[thread]? = some phase →
        phase = .served gathering.shared ∨ ∃ value, gathering.leading.ending = .ok value ∧ phase = .found value := by
  have answered (thread : Nat) (phase : CallerPhase (Stage κ ν) κ ν) (here : callers[thread]? = some phase) :
      ∃ answer, (gathering.crowd result state callers).answer? thread = some answer :=
    finished thread (Array.getElem?_eq_some_iff.mp here).1
  have first := answered gathering.leader leads course.here
  unfold Crowd.answer? at first
  rw [show (gathering.crowd result state callers).callers[gathering.leader]? = some leads from course.here] at first
  obtain ⟨answer, first⟩ := first
  have progress := course.progress
  cases progress with
  | constructing | settling | queueing | publishing | reporting => cases first
  | returned =>
    refine ⟨rfl, rfl, fun thread phase differs here => ?_⟩
    have follows := course.others thread phase differs here
    cases follows with
    | served published => exact .inl (congrArg _ (Option.some.inj published).symm)
    | found ending _ => exact .inr ⟨_, ending, rfl⟩
    | outside | waiting =>
      obtain ⟨answer, own⟩ := answered thread _ here
      unfold Crowd.answer? at own
      rw [show (gathering.crowd _ state callers).callers[thread]? = some _ from here] at own
      cases own

/-- The first thread alone would have left what the construction leaves. -/
theorem Ready.alone_eq (ready : gathering.Ready) : gathering.alone = gathering.leading.last gathering.key gathering.built := by
  have dead (value : ν) (found : gathering.stage.cache.find? gathering.key = some value) : gathering.stage.alive value = false :=
    ready.dead value (Cache.mem_of_find? found)
  unfold alone Task.exec
  rw [Work.lookup_eq ready.free dead]
  cases gathering.leading.ending <;> rfl

/-- Those who waited and those who came later are all there are. -/
theorem Course.visitors (course : gathering.Course leads shadow result state callers)
    (finished : (gathering.crowd result state callers).Finished) :
    Turns.total callers (fun phase => phase.notes.count .miss) + Turns.total callers (fun phase => phase.notes.count .hit)
      = gathering.others := by
  obtain ⟨-, -, others⟩ := course.finished finished
  have one : Turns.total callers (fun phase => phase.notes.count .miss + phase.notes.count .hit) + 1
      = 1 * callers.size + (leads.notes.count .miss + leads.notes.count .hit) :=
    Turns.total_others course.here fun thread phase differs here => by
      obtain rfl | ⟨value, -, rfl⟩ := others thread phase differs here <;> rfl
  rw [course.progress.guestless.1, course.size, List.count_nil, List.count_nil, ← Turns.total_add] at one
  omega

/-- Where everybody called in time, nobody found the object. -/
theorem Course.hits (course : gathering.Course leads shadow result state callers) (all : Gathered callers) :
    Turns.total callers (fun phase => phase.notes.count .hit) = 0 := by
  refine Turns.total_eq_zero.mpr fun thread phase here => ?_
  by_cases first : thread = gathering.leader
  · subst first
    cases course.here.symm.trans here
    rw [course.progress.guestless.1, List.count_nil]
  · cases course.others thread phase first here with
    | outside | waiting | served => rfl
    | found => exact absurd rfl ((all thread _ here).2 _)

/-- What the others report in the end. -/
theorem Course.visits (course : gathering.Course leads shadow result state callers)
    (finished : (gathering.crowd result state callers).Finished) {extra : List (Note κ)}
    (told : ∀ note, extra.count note = Turns.total callers fun phase => phase.notes.count note) :
    extra.Perm (gathering.visits (Turns.total callers fun phase => phase.notes.count .miss)) := by
  have everyone := course.visitors finished
  obtain ⟨-, -, others⟩ := course.finished finished
  have none (note : Note κ) (other : note ≠ .miss ∧ note ≠ .hit) :
      Turns.total callers (fun phase => phase.notes.count note) = 0 := by
    refine Turns.total_eq_zero.mpr fun thread phase here => ?_
    by_cases first : thread = gathering.leader
    · subst first
      cases course.here.symm.trans here
      rw [course.progress.guestless.1, List.count_nil]
    · obtain rfl | ⟨value, -, rfl⟩ := others thread phase first here
      · exact List.count_eq_zero.mpr fun among => other.1 (List.mem_singleton.mp among)
      · exact List.count_eq_zero.mpr fun among => other.2 (List.mem_singleton.mp among)
  refine List.perm_iff_count.mpr fun note => ?_
  rw [told, Gathering.visits, List.count_append, List.count_replicate, List.count_replicate]
  cases note with
  | miss => simp
  | hit =>
    simp only [beq_iff_eq, reduceCtorEq, if_true, if_false, Nat.zero_add]
    omega
  | constructed key => exact none _ ⟨nofun, nofun⟩
  | left why key => exact none _ ⟨nofun, nofun⟩

/-- What the others were given: a reference on the object for each, if there is one. -/
theorem Course.given (course : gathering.Course leads shadow result state callers)
    (finished : (gathering.crowd result state callers).Finished) {refs : List ν}
    (given : ∀ value, refs.count value = Turns.total callers fun phase => phase.refs.count value) :
    (∀ value, gathering.leading.ending = .ok value → refs = List.replicate gathering.others value)
      ∧ ∀ interrupt, gathering.leading.ending = .error interrupt → refs = [] := by
  obtain ⟨-, -, others⟩ := course.finished finished
  refine ⟨fun value ending => ?_, fun interrupt ending => ?_⟩
  · have shared : gathering.shared = .ok value := by rw [Gathering.shared, ending]; rfl
    refine List.perm_replicate.mp (List.perm_iff_count.mpr fun other => ?_)
    -- Each caller but the leader has taken the value once, and the leader's own is its construction's.
    have all : Turns.total callers (fun phase => phase.refs.count other) + [value].count other
        = [value].count other * callers.size + leads.refs.count other :=
      Turns.total_others course.here fun thread phase differs here => by
        obtain rfl | ⟨found, isOk, rfl⟩ := others thread phase differs here
        · rw [shared]
          rfl
        · cases ending.symm.trans isOk
          rfl
    rw [course.progress.guestless.2, course.size, List.count_nil, Nat.mul_succ] at all
    have each : (List.replicate gathering.others value).count other = [value].count other * gathering.others := by
      rw [List.count_replicate, List.count_singleton]
      split <;> simp
    rw [given, each]
    omega
  · have nothing (value : ν) : refs.count value = 0 := by
      rw [given, Turns.total_eq_zero]
      intro thread phase here
      by_cases first : thread = gathering.leader
      · subst first
        cases course.here.symm.trans here
        rw [course.progress.guestless.2, List.count_nil]
      · obtain rfl | ⟨found, isOk, rfl⟩ := others thread phase first here
        · have shared : ∃ fault, gathering.shared = .error fault := by
            rw [Gathering.shared, ending]
            cases interrupt <;> exact ⟨_, rfl⟩
          obtain ⟨fault, shared⟩ := shared
          rw [shared]
          rfl
        · cases ending.symm.trans isOk
    exact List.eq_nil_iff_forall_not_mem.mpr fun value => List.count_eq_zero.mp (nothing value)

/-- The answers of all threads. -/
theorem Course.answers (course : gathering.Course leads shadow result state callers)
    (finished : (gathering.crowd result state callers).Finished) :
    (gathering.crowd result state callers).answer? gathering.leader = some gathering.leading.ending
      ∧ ∀ thread ≤ gathering.others, thread ≠ gathering.leader →
        (gathering.crowd result state callers).answer? thread = some (gathering.shared.mapError .fault) := by
  obtain ⟨returned, -, others⟩ := course.finished finished
  constructor
  · unfold Crowd.answer?
    rw [show (gathering.crowd result state callers).callers[gathering.leader]? = some leads from course.here, returned]
  · intro thread inside differs
    have within : thread < callers.size := Nat.lt_of_lt_of_eq (Nat.lt_succ_of_le inside) course.size.symm
    have here : callers[thread]? = some callers[thread] := Array.getElem?_eq_getElem within
    unfold Crowd.answer?
    rw [show (gathering.crowd result state callers).callers[thread]? = some _ from here]
    obtain served | ⟨value, ending, found⟩ := others thread _ differs here
    · rw [served]
    · rw [found, Gathering.shared, ending]
      rfl

theorem Course.served (ready : gathering.Ready) (course : gathering.Course leads shadow result state callers)
    (finished : (gathering.crowd result state callers).Finished) :
    gathering.Served (Turns.total callers fun phase => phase.notes.count .miss) (gathering.crowd result state callers) := by
  obtain ⟨refs, extra, extension, given, told⟩ := course.guests
  obtain ⟨own, shared⟩ := course.answers finished
  have visits := course.visits finished told
  have given := course.given finished given
  obtain ⟨rfl, rfl, -⟩ := course.finished finished
  have settled : ¬(CallerPhase.returned gathering.leading.ending : CallerPhase (Stage κ ν) κ ν).Unsettled := id
  -- What held of the leader alone still holds: the others only added holds and notes.
  obtain ⟨table, claims, -⟩ := course.progress.settled settled
  rw [← ready.alone_eq] at extension table claims
  have held : state.held = refs ++ gathering.alone.held := extension.held
  have cache : state.cache = gathering.alone.cache := extension.cache
  constructor
  case succeeded =>
    intro value ending
    have entered := course.progress.entered ready settled ending
    rw [← ready.alone_eq] at entered
    refine ⟨fun thread inside => ?_, cache ▸ entered.entry, extension.alive (Stage.alive_of_held entered.held), ?_⟩
    · by_cases first : thread = gathering.leader
      · rw [first, own, ending]
      · rw [shared thread inside first, Gathering.shared, ending]
        rfl
    · rw [← given.1 value ending]
      exact held
  case failed =>
    intro fault ending thread inside
    by_cases first : thread = gathering.leader
    · rw [first, own, ending]
    · rw [shared thread inside first, Gathering.shared, ending]
      rfl
  case brokeOff =>
    intro note ending
    refine ⟨by rw [own, ending], fun thread inside differs => ?_⟩
    rw [shared thread inside differs, Gathering.shared, ending]
    rfl
  case absent =>
    intro interrupt ending
    have absent := (gathering.leading.entered_error ready.builds ending).2
    rw [given.2 interrupt ending] at held
    refine ⟨?_, held⟩
    change state.cache.has gathering.key = false
    rw [Cache.has, Cache.find?, cache, table]
    exact absent
  case unclaimed =>
    change state.cache.claim? gathering.key = none
    rw [Cache.claim?, cache, claims]
    cases ending : gathering.leading.ending with
    | ok value => exact (gathering.leading.entered_ok ready.builds ending).free
    | error interrupt => exact (gathering.leading.entered_error ready.builds ending).1
  case cache => exact cache
  case reports => exact extension.notes.trans (visits.append_right _)
  case counted =>
    intro counter
    change state.tally.get counter = _
    have same : Note.counted counter extra = Note.counted counter (gathering.visits _) := (visits.filterMap _).count_eq _
    rw [extension.tally, same]

end served

/-! ### When the object is there -/

section live

variable {crowd : Crowd (Stage κ ν) κ ν} {value : ν}

/-- Nobody has started a constructor, and who has called has found the object. -/
structure Finds (gathering : Gathering κ ν) (value : ν) (state : Stage κ ν)
    (callers : Array (CallerPhase (Stage κ ν) κ ν)) : Prop where
  size : callers.size = gathering.others + 1
  phases : ∀ (thread : Nat) phase, callers[thread]? = some phase → phase = .outside ∨ phase = .found value
  guests : ∃ refs extra, Stage.Extends gathering.stage state refs extra

/-- The threads as long as nobody has started a constructor. -/
def idle (gathering : Gathering κ ν) (state : Stage κ ν) (callers : Array (CallerPhase (Stage κ ν) κ ν)) :
    Crowd (Stage κ ν) κ ν := { gathering.start with state, callers }

section finds

variable (unique : gathering.stage.cache.Unique) (entry : (gathering.key, value) ∈ gathering.stage.cache.table)
  (live : gathering.stage.alive value = true) {state : Stage κ ν} {callers : Array (CallerPhase (Stage κ ν) κ ν)}
  (finds : gathering.Finds value state callers)

include unique entry live finds

/-- A thread that calls finds the object. -/
theorem Finds.call {first : Nat} (here : callers[first]? = some .outside) :
    (gathering.idle state callers).call first = gathering.idle (view.hold value (view.store [.hit] state.cache state))
        (callers.setIfInBounds first (.found value)) ∧
      gathering.Finds value (view.hold value (view.store [.hit] state.cache state))
        (callers.setIfInBounds first (.found value)) := by
  obtain ⟨refs, extra, extension⟩ := finds.guests
  have unique' : state.cache.Unique := by
    rw [extension.cache]
    exact unique
  refine ⟨Crowd.call_of_hit (Stage.ask_of_live unique' (extension.cache ▸ entry) (extension.alive live) first),
    ?_, fun thread phase there => ?_, _, _, (extension.tell [.hit]).welcome value⟩
  · rw [Array.size_setIfInBounds, finds.size]
  · by_cases same : thread = first
    · subst same
      exact .inr (Option.some.inj ((Turns.getElem?_set_self here _).symm.trans there)).symm
    · rw [Turns.getElem?_set_of_ne same] at there
      exact finds.phases thread phase there

/-- Nobody claims the key, so a turn is a call that finds the object, or it is passed. -/
theorem Finds.turn (first : Nat) : ∃ state' callers',
    ((gathering.idle state callers).step first).getD (gathering.idle state callers) = gathering.idle state' callers'
      ∧ gathering.Finds value state' callers'
      ∧ (first ≤ gathering.others → callers'[first]? = some (.found value))
      ∧ ∀ thread : Nat, callers[thread]? = some (.found value) → callers'[thread]? = some (.found value) := by
  unfold Crowd.step
  cases here : callers[first]? with
  | none =>
    rw [show (gathering.idle state callers).callers[first]? = none from here]
    refine ⟨state, callers, rfl, finds, fun inside => ?_, fun _ => id⟩
    have within := Array.getElem?_eq_none_iff.mp here
    rw [finds.size] at within
    omega
  | some phase =>
    rw [show (gathering.idle state callers).callers[first]? = some phase from here]
    obtain rfl | rfl := finds.phases first phase here
    · obtain ⟨called, finds'⟩ := finds.call unique entry live here
      refine ⟨_, _, called, finds', fun _ => Turns.getElem?_set_self here _, fun thread found => ?_⟩
      by_cases same : thread = first
      · subst same
        exact Turns.getElem?_set_self here _
      · rwa [Turns.getElem?_set_of_ne same]
    · exact ⟨state, callers, rfl, finds, fun _ => here, fun _ => id⟩

/-- A thread that has its turn has found the object, and one that had found it still has. -/
theorem Finds.play (schedule : List Nat) :
    ∃ state' callers', (gathering.idle state callers).play schedule = gathering.idle state' callers'
      ∧ gathering.Finds value state' callers'
      ∧ ∀ thread ≤ gathering.others, thread ∈ schedule ∨ callers[thread]? = some (.found value) →
        callers'[thread]? = some (.found value) := by
  induction schedule generalizing state callers with
  | nil =>
    refine ⟨state, callers, rfl, finds, fun thread _ found => ?_⟩
    exact found.resolve_left List.not_mem_nil
  | cons first schedule inductionHypothesis =>
    obtain ⟨state', callers', moved, finds', own, stays⟩ := finds.turn unique entry live first
    obtain ⟨last, callers'', played, finds'', found⟩ := inductionHypothesis finds'
    refine ⟨last, callers'', ?_, finds'', fun thread inside among => found thread inside ?_⟩
    · rw [← played, ← moved]
      rfl
    · obtain among | before := among
      · obtain rfl | later := List.mem_cons.mp among
        · exact .inr (own inside)
        · exact .inl later
      · exact .inr (stays thread before)

end finds

theorem start_finds (gathering : Gathering κ ν) (value : ν) :
    gathering.Finds value gathering.stage gathering.start.callers where
  size := Array.size_replicate ..
  phases thread phase here := by
    rw [start, Array.getElem?_replicate] at here
    split at here
    · exact .inl (Option.some.inj here).symm
    · cases here
  guests := ⟨[], [], .refl _⟩

end live

/-! ### All schedules -/

/-- The moment after the first thread has called and others, or itself, have had turns. -/
def moment (gathering : Gathering κ ν) (early : List Nat) : Crowd (Stage κ ν) κ ν :=
  gathering.start.play (gathering.leader :: early)

/-- The constructor is running then. -/
def Running (gathering : Gathering κ ν) (early : List Nat) : Prop :=
  ∃ record left, (gathering.moment early).callers[gathering.leader]? = some (.constructing record left)

/-- Everybody has called by then. -/
def AllCalled (gathering : Gathering κ ν) (early : List Nat) : Prop :=
  ∀ thread : Nat, (gathering.moment early).callers[thread]? ≠ some .outside

theorem Ready.underway (ready : gathering.Ready) {early : List Nat} (running : gathering.Running early) :
    gathering.Underway (gathering.AllCalled early) (gathering.moment early) := by
  obtain ⟨crowd, called, opening⟩ := ready.opening
  have begun : gathering.moment early = crowd.play early := by
    change Turns.play Crowd.step ((gathering.start.step gathering.leader).getD gathering.start) early = _
    rw [called]
    rfl
  obtain ⟨record, left, running⟩ := running
  rw [AllCalled, begun]
  rw [begun] at running
  obtain ⟨left', shadow, state, callers, same, course⟩ | ⟨phase, there, ended⟩ := opening.play ready early
  · refine ⟨_, shadow, none, state, callers, same, course, fun all thread phase here => ⟨?_, fun value => ?_⟩⟩
    · rintro rfl
      rw [same] at all
      exact all thread here
    · rintro rfl
      by_cases first : thread = gathering.leader
      · subst first
        cases course.here.symm.trans here
      · cases course.others thread _ first here with
        | found _ settled => exact settled trivial
  · cases running.symm.trans there
    exact ended.elim

/-- Threads call for a key in any order.  If the key has a live object, no constructor runs, and everybody
    who has a turn returns the object.  Otherwise the first one constructs.  The others call while its
    constructor is running, which may use the cache meanwhile, or, if it succeeds, at any time.  Then no
    other constructor runs; everybody has an answer as soon as everybody has had enough turns; and in the
    end the construction has served all of them. -/
theorem one_for_all (sound : gathering.stage.Sound) :
    (∀ value, (gathering.key, value) ∈ gathering.stage.cache.table → gathering.stage.alive value = true →
      ∀ schedule, (gathering.start.play schedule).calls = 0
        ∧ (gathering.start.play schedule).state.cache = gathering.stage.cache
        ∧ ∀ thread ≤ gathering.others, thread ∈ schedule →
          (gathering.start.play schedule).answer? thread = some (.ok value))
    ∧ (gathering.Ready → ∀ early, gathering.Running early →
      (∃ value, gathering.leading.ending = .ok value) ∨ gathering.AllCalled early →
      ∀ rest, ((gathering.moment early).play rest).calls = 1
        ∧ (∀ rounds : List (List Nat), (∀ round ∈ rounds, ∀ thread ≤ gathering.others, thread ∈ round) →
          ((gathering.moment early).play rest).effort ≤ rounds.length →
          (((gathering.moment early).play rest).play rounds.flatten).Finished)
        ∧ (((gathering.moment early).play rest).Finished →
          ∃ waits ≤ gathering.others, (gathering.AllCalled early → waits = gathering.others)
            ∧ gathering.Served waits ((gathering.moment early).play rest))) := by
  constructor
  · intro value entry live schedule
    obtain ⟨state, callers, played, finds, found⟩ := gathering.start_finds value |>.play sound.unique entry live schedule
    change gathering.start.play schedule = _ at played
    obtain ⟨refs, extra, extension⟩ := finds.guests
    rw [played]
    refine ⟨rfl, extension.cache, fun thread inside among => ?_⟩
    unfold Crowd.answer?
    rw [show (gathering.idle state callers).callers[thread]? = _ from found thread inside (.inl among)]
  · intro ready early running covers rest
    -- The account holds from the moment on, whatever turns follow.
    have advancing := advancing ready covers
    have underway := Turns.play_keeps _ advancing.keeps (ready.underway running) rest
    have now := underway
    obtain ⟨leads, shadow, result, state, callers, same, course, all⟩ := now
    refine ⟨?_, fun rounds everybody enough => ?_, fun finished => ?_⟩
    · change (Turns.play Crowd.step _ rest).calls = 1
      rw [same]
      rfl
    · have left := advancing.rounds underway rounds fun round among thread inside =>
        everybody round among thread (Nat.le_of_lt_succ inside)
      exact Crowd.finished_of_effort (Nat.le_zero.mp (Nat.le_trans left (Nat.le_of_eq (Nat.sub_eq_zero_of_le enough))))
    · change (Turns.play Crowd.step _ rest).Finished at finished
      change ∃ waits ≤ _, _ ∧ gathering.Served waits (Turns.play Crowd.step _ rest)
      rw [same] at finished ⊢
      have everyone := course.visitors finished
      refine ⟨_, by omega, fun called => ?_, course.served ready finished⟩
      have none := course.hits (all called)
      omega

/-- Two threads wait for the first one, whose constructor constructs the object of 8, is refused its own
    key, and breaks off. -/
def broken : Gathering Nat Nat where
  shown := .ofNat
  key := 7
  work _ := {
    moves := [.ask 0 8, .finish 0 8 80, .ask 0 7]
    ending := .error (.crash none) }
  leader := 0
  others := 2
  stage := .start "mirrors" (.soft 1) (.shared 8) id

theorem one_for_all_broken :
    broken.stage.Sound ∧ broken.Served 2 ((broken.moment [2, 0, 1, 0, 0]).play [0, 0, 2, 0, 0, 1, 0, 2]) := by
  have sound : broken.stage.Sound := Stage.start_sound ..
  have ready : broken.Ready :=
    { sound
      free := rfl
      dead := nofun
      inside := Nat.zero_le 2
      fits := ⟨by decide, by decide⟩ }
  have running : broken.Running [2, 0, 1, 0, 0] := ⟨0, [], rfl⟩
  have called : broken.AllCalled [2, 0, 1, 0, 0]
    | 0 | 1 | 2 | _ + 3 => nofun
  have finished : ((broken.moment [2, 0, 1, 0, 0]).play [0, 0, 2, 0, 0, 1, 0, 2]).Finished
    | 0, _ | 1, _ | 2, _ => ⟨_, rfl⟩
    | _ + 3, inside => absurd inside (Nat.not_lt.mpr (Nat.le_add_left 3 _))
  obtain ⟨-, -, served⟩ := (one_for_all sound).2 ready [2, 0, 1, 0, 0] running (.inr called) [0, 0, 2, 0, 0, 1, 0, 2]
  obtain ⟨waits, -, waited, served⟩ := served finished
  rw [waited called] at served
  exact ⟨sound, served⟩

end Gathering

end CatalogReplica.Identity
