import CatalogReplica.Proofs.Identity.Callers
import CatalogReplica.Proofs.Turns

/-!
# Waiting for a construction

Threads call for a key of which there is no object.  The first of them constructs it, and whatever
the order in which the others call, are woken and return, the construction serves them all.  What
happens to the cache is what a lookup by the first thread alone does to it.

* `Stage.Extends`: a stage with further references and reports.
* `Gathering.Course`: how far the first thread is, and what the others can have come to by then.
* `Gathering.Course.step`: what one step does to it.
-/

namespace CatalogReplica.Identity

variable {κ ν : Type} [DecidableEq κ] [DecidableEq ν]

/-! ## Stages with guests -/

namespace Stage

/-- A stage has further references and further reports, and is otherwise as another one. -/
structure Extends (shadow real : Stage κ ν) (refs : List ν) (extra : List (Note κ)) : Prop where
  cache : real.cache = shadow.cache
  held : real.held = refs ++ shadow.held
  notes : real.notes.Perm (extra ++ shadow.notes)
  tally : ∀ counter, real.tally.get counter = shadow.tally.get counter + Note.counted counter extra

namespace Extends

variable {shadow real : Stage κ ν} {refs : List ν} {extra : List (Note κ)}

omit [DecidableEq κ] [DecidableEq ν] in
theorem refl (stage : Stage κ ν) : Extends stage stage [] [] :=
  ⟨rfl, rfl, .refl _, fun _ => (Int.add_zero _).symm⟩

omit [DecidableEq κ] in
theorem alive {value : ν} (extension : Extends shadow real refs extra) (live : shadow.alive value = true) :
    real.alive value = true := by
  simp only [Stage.alive, Bool.or_eq_true, List.contains_iff_mem] at live ⊢
  rw [extension.cache, extension.held]
  exact live.imp_left fun among => List.mem_append_right refs among

omit [DecidableEq κ] in
theorem alive_eq (extension : Extends shadow real [] extra) : real.alive = shadow.alive := by
  funext value
  rw [Stage.alive, Stage.alive, extension.cache, extension.held, List.nil_append]

omit [DecidableEq κ] in
/-- Both report the same. -/
theorem note (extension : Extends shadow real refs extra) (more : List (Note κ)) :
    Extends (view.note more shadow) (view.note more real) refs extra where
  cache := extension.cache
  held := extension.held
  notes := by
    change (real.notes ++ more).Perm (extra ++ (shadow.notes ++ more))
    rw [← List.append_assoc]
    exact extension.notes.append_right more
  tally counter := by
    change (Note.count more real.tally).get counter = (Note.count more shadow.tally).get counter + _
    rw [Note.get_count, Note.get_count, extension.tally]
    omega

omit [DecidableEq κ] in
/-- Both get the same cache. -/
theorem set (extension : Extends shadow real refs extra) (cache : Cache κ ν) :
    Extends (view.set cache shadow) (view.set cache real) refs extra :=
  ⟨rfl, extension.held, extension.notes, extension.tally⟩

omit [DecidableEq κ] in
/-- Where there are no further references, both get the same one. -/
theorem hold (extension : Extends shadow real [] extra) (value : ν) :
    Extends (view.hold value shadow) (view.hold value real) [] extra :=
  ⟨extension.cache, congrArg (value :: ·) extension.held, extension.notes, extension.tally⟩

omit [DecidableEq κ] in
/-- A guest takes a reference. -/
theorem welcome (extension : Extends shadow real refs extra) (value : ν) :
    Extends shadow (view.hold value real) (value :: refs) extra :=
  ⟨extension.cache, congrArg (value :: ·) extension.held, extension.notes, extension.tally⟩

omit [DecidableEq κ] in
/-- A guest reports something. -/
theorem tell (extension : Extends shadow real refs extra) (more : List (Note κ)) :
    Extends shadow (view.store more real.cache real) refs (more ++ extra) where
  cache := extension.cache
  held := extension.held
  notes := by
    change (real.notes ++ more).Perm (more ++ extra ++ shadow.notes)
    rw [List.append_assoc]
    exact List.perm_append_comm.trans (extension.notes.append_left more)
  tally counter := by
    change (Note.count more real.tally).get counter = _
    rw [Note.get_count, extension.tally, Note.counted_append]
    omega

/-- Where there are no further references, a move does the same to both. -/
theorem apply (extension : Extends shadow real [] extra) (move : Move κ ν) :
    Extends (move.apply shadow) (move.apply real) [] extra := by
  obtain ⟨notes, retold⟩ := move.apply_retold shadow
  have same : real = { shadow with tally := real.tally, notes := real.notes } := by
    obtain ⟨cache, held, -, -⟩ := extension
    cases real
    cases cache
    cases held
    rfl
  have after := retold real.tally real.notes
  have before := retold shadow.tally shadow.notes
  rw [← same] at after
  have noted := extension.note notes
  rw [after, before]
  exact ⟨rfl, rfl, noted.notes, noted.tally⟩

omit [DecidableEq κ] in
theorem ended (extension : Extends shadow real [] extra) (work : Work κ ν) (key : κ) :
    Extends (work.ended key shadow) (work.ended key real) [] extra := by
  unfold Work.ended
  cases work.ending with
  | ok value => exact (extension.hold value).note _
  | error interrupt => exact extension

/-- Where there are no further references, the insertion sweeps the same keys away. -/
theorem conclude (extension : Extends shadow real [] extra) (key : κ) (outcome : Except Interrupt ν) :
    (view.conclude key outcome real).1 = (view.conclude key outcome shadow).1
      ∧ Extends (view.conclude key outcome shadow).2 (view.conclude key outcome real).2 [] extra := by
  have alive : view.alive real = view.alive shadow := extension.alive_eq
  have cache : view.get real = view.get shadow := extension.cache
  unfold CacheView.conclude CacheView.abandon
  rw [alive, cache]
  cases outcome with
  | ok value => exact ⟨rfl, extension.set _⟩
  | error interrupt => exact ⟨rfl, extension.set _⟩

omit [DecidableEq κ] in
theorem enqueue (extension : Extends shadow real refs extra) (outcome : Except Interrupt ν) :
    Extends (view.enqueue outcome shadow) (view.enqueue outcome real) refs extra := by
  have cache : view.get real = view.get shadow := extension.cache
  unfold CacheView.enqueue
  rw [cache]
  cases outcome with
  | ok value => exact extension.set _
  | error interrupt => exact extension

end Extends

end Stage

/-! ## What the threads come to -/

namespace CallerPhase

variable {σ : Type}

/-- What a thread has reported that does not construct. -/
def notes : CallerPhase σ κ ν → List (Note κ)
  | .waiting _ | .served _ => [.miss]
  | .found _ => [.hit]
  | .outside | .constructing _ _ | .settling _ _ | .queueing _ _ _ | .publishing _ _ _ | .reporting _ _ | .returned _ => []

/-- The reference that a thread was given that does not construct. -/
def refs : CallerPhase σ κ ν → List ν
  | .served (.ok value) | .found value => [value]
  | .served (.error _) | .waiting _ | .outside | .constructing _ _ | .settling _ _ | .queueing _ _ _ | .publishing _ _ _
  | .reporting _ _ | .returned _ => []

/-- How many steps a thread has still to make that does not start a constructor. -/
def effort : CallerPhase σ κ ν → Nat
  | .constructing _ left => left.length + 5
  | .settling _ _ => 4
  | .queueing _ _ _ => 3
  | .publishing _ _ _ => 2
  | .reporting _ _ => 1
  | .outside => 2
  | .waiting _ => 1
  | .returned _ | .served _ | .found _ => 0

/-- The thread's own constructor has ended. -/
def Ended : CallerPhase σ κ ν → Prop
  | .settling _ _ | .queueing _ _ _ | .publishing _ _ _ | .reporting _ _ | .returned _ => True
  | .outside | .constructing _ _ | .waiting _ | .served _ | .found _ => False

/-- The claim is still in place. -/
def Unsettled : CallerPhase σ κ ν → Prop
  | .constructing _ _ | .settling _ _ => True
  | .outside | .queueing _ _ _ | .publishing _ _ _ | .reporting _ _ | .returned _ | .waiting _ | .served _ | .found _ => False

end CallerPhase

namespace Crowd

variable {σ : Type}

/-- How many steps are left, as long as nobody starts a constructor. -/
def effort (crowd : Crowd σ κ ν) : Nat := Turns.total crowd.callers CallerPhase.effort

section call

variable {crowd : Crowd σ κ ν} {thread : Nat} {state : σ}

omit [DecidableEq ν] in
theorem call_of_hit {value : ν} (asked : crowd.view.ask thread crowd.key crowd.state = (.hit value, state)) :
    crowd.call thread = { crowd.moveTo thread (.found value) with state := crowd.view.hold value state } := by
  rw [call, asked]

omit [DecidableEq ν] in
theorem call_of_wait (asked : crowd.view.ask thread crowd.key crowd.state = (.wait, state)) :
    crowd.call thread = { crowd.moveTo thread (.waiting (crowd.calls - 1)) with state } := by
  rw [call, asked]

omit [DecidableEq ν] in
theorem call_of_build (asked : crowd.view.ask thread crowd.key crowd.state = (.build, state)) :
    crowd.call thread = { crowd.moveTo thread (.constructing crowd.calls (crowd.constructors thread).acts) with
      state, records := crowd.records.push { owner := thread } } := by
  rw [call, asked]

end call

omit [DecidableEq ν] in
/-- A step moves one thread, and a constructor that has ended stays so. -/
theorem step_callers {crowd next : Crowd σ κ ν} {thread : Nat} (moved : crowd.step thread = some next) :
    ∃ old new, crowd.callers[thread]? = some old ∧ next.callers = crowd.callers.setIfInBounds thread new
      ∧ (old.Ended → new.Ended) := by
  unfold step at moved
  split at moved
  next => cases moved
  next here =>
    cases moved
    unfold call
    split <;> exact ⟨_, _, here, rfl, False.elim⟩
  next here =>
    cases moved
    exact ⟨_, _, here, rfl, False.elim⟩
  next here =>
    cases moved
    unfold finish
    split <;> exact ⟨_, _, here, rfl, False.elim⟩
  iterate 4
    next here =>
      cases moved
      exact ⟨_, _, here, rfl, id⟩
  next here =>
    obtain ⟨result, -, rfl⟩ := Option.map_eq_some_iff.mp moved
    unfold wake
    split <;> exact ⟨_, _, here, rfl, False.elim⟩
  all_goals cases moved

/-- A thread whose constructor has ended. -/
def Past (crowd : Crowd σ κ ν) (thread : Nat) : Prop := ∃ phase, crowd.callers[thread]? = some phase ∧ phase.Ended

omit [DecidableEq ν] in
theorem Past.step {crowd next : Crowd σ κ ν} {thread other : Nat} (past : crowd.Past other)
    (moved : crowd.step thread = some next) : next.Past other := by
  obtain ⟨phase, there, ended⟩ := past
  obtain ⟨old, new, here, callers, stays⟩ := step_callers moved
  unfold Past
  rw [callers]
  by_cases same : other = thread
  · subst same
    cases here.symm.trans there
    exact ⟨new, Turns.getElem?_set_self here new, stays ended⟩
  · exact ⟨phase, (Turns.getElem?_set_of_ne same new).trans there, ended⟩

/-- Every thread has its answer. -/
def Finished (crowd : Crowd σ κ ν) : Prop := ∀ thread < crowd.callers.size, ∃ answer, crowd.answer? thread = some answer

omit [DecidableEq κ] [DecidableEq ν] in
theorem finished_of_effort {crowd : Crowd σ κ ν} (nothing : crowd.effort = 0) : crowd.Finished := by
  intro thread inside
  have here : crowd.callers[thread]? = some crowd.callers[thread] := Array.getElem?_eq_getElem inside
  have zero := Turns.total_eq_zero.mp nothing thread _ here
  unfold answer?
  rw [here]
  cases phase : crowd.callers[thread] with
  | returned outcome => exact ⟨outcome, rfl⟩
  | served result => exact ⟨_, rfl⟩
  | found value => exact ⟨_, rfl⟩
  | outside | constructing | settling | queueing | publishing | reporting | waiting =>
    rw [phase] at zero
    cases zero

end Crowd

/-- Threads that are about to call for a key. -/
structure Gathering (κ ν : Type) where
  /-- How keys are shown. -/
  shown : κ → Text.Form
  key : κ
  /-- What the constructor of each thread would do. -/
  work : Nat → Work κ ν
  /-- The thread that calls first. -/
  leader : Nat
  /-- How many further threads there are. -/
  others : Nat
  /-- The cache among its callers. -/
  stage : Stage κ ν

namespace Gathering

open Stage (view)

variable {gathering : Gathering κ ν}

/-- The threads before any of them has called. -/
def start (gathering : Gathering κ ν) : Crowd (Stage κ ν) κ ν where
  view := { view with key := gathering.shown }
  key := gathering.key
  constructors thread := (gathering.work thread).constructor
  state := gathering.stage
  callers := Array.replicate (gathering.others + 1) .outside

/-- What the first thread's constructor does. -/
def leading (gathering : Gathering κ ν) : Work κ ν := gathering.work gathering.leader

/-- The stage when the first thread has claimed the key. -/
def claimed (gathering : Gathering κ ν) : Stage κ ν := Program.claiming gathering.leader gathering.key gathering.stage

/-- The stage when the first thread's constructor is about to end, if nobody else calls. -/
def built (gathering : Gathering κ ν) : Stage κ ν := Move.after gathering.leading.moves gathering.claimed

/-- What those who wait get. -/
def shared (gathering : Gathering κ ν) : Except Fault ν := gathering.start.shared gathering.leading.ending

/-- The threads when there is one record. -/
def crowd (gathering : Gathering κ ν) (result : Option (Except Fault ν)) (state : Stage κ ν)
    (callers : Array (CallerPhase (Stage κ ν) κ ν)) : Crowd (Stage κ ν) κ ν :=
  { gathering.start with state, callers, records := #[{ owner := gathering.leader, result }] }

/-- The first thread constructs: its key is free and has no live object. -/
structure Ready (gathering : Gathering κ ν) : Prop where
  sound : gathering.stage.Sound
  free : gathering.stage.cache.claim? gathering.key = none
  dead : ∀ value, (gathering.key, value) ∈ gathering.stage.cache.table → gathering.stage.alive value = false
  inside : gathering.leader ≤ gathering.others
  fits : gathering.leading.Fits gathering.key gathering.claimed

/-- How far the first thread is, what the cache would be if it were alone, and what its record holds. -/
inductive Progress (gathering : Gathering κ ν) :
    CallerPhase (Stage κ ν) κ ν → Stage κ ν → Option (Except Fault ν) → Prop where
  | constructing {past left : List (Move κ ν)} (split : gathering.leading.moves = past ++ left) :
      Progress gathering (.constructing 0 (left.map fun move stage => move.apply stage)) (Move.after past gathering.claimed) none
  | settling : Progress gathering (.settling 0 gathering.leading.ending)
      (gathering.leading.ended gathering.key gathering.built) none
  | queueing : Progress gathering
      (.queueing 0 gathering.leading.ending (gathering.leading.swept gathering.key gathering.built))
      (gathering.leading.entered gathering.key gathering.built) none
  | publishing : Progress gathering
      (.publishing 0 gathering.leading.ending (gathering.leading.swept gathering.key gathering.built))
      (gathering.leading.queued gathering.key gathering.built) none
  | reporting : Progress gathering
      (.reporting gathering.leading.ending (gathering.leading.swept gathering.key gathering.built))
      (gathering.leading.queued gathering.key gathering.built) (some gathering.shared)
  | returned : Progress gathering (.returned gathering.leading.ending)
      (gathering.leading.last gathering.key gathering.built) (some gathering.shared)

/-- What another thread can have come to by then. -/
inductive Follows (gathering : Gathering κ ν) (leads : CallerPhase (Stage κ ν) κ ν) (result : Option (Except Fault ν)) :
    CallerPhase (Stage κ ν) κ ν → Prop where
  | outside : Follows gathering leads result .outside
  | waiting : Follows gathering leads result (.waiting 0)
  | served {shared : Except Fault ν} (published : result = some shared) : Follows gathering leads result (.served shared)
  | found {value : ν} (ending : gathering.leading.ending = .ok value) (settled : ¬leads.Unsettled) :
      Follows gathering leads result (.found value)

/-- A moment of the threads.  The stage is what it would be if the first thread were alone, with
    what the other threads reported and were given. -/
structure Course (gathering : Gathering κ ν) (leads : CallerPhase (Stage κ ν) κ ν) (shadow : Stage κ ν)
    (result : Option (Except Fault ν)) (state : Stage κ ν) (callers : Array (CallerPhase (Stage κ ν) κ ν)) : Prop where
  size : callers.size = gathering.others + 1
  here : callers[gathering.leader]? = some leads
  progress : gathering.Progress leads shadow result
  others : ∀ (thread : Nat) phase, thread ≠ gathering.leader → callers[thread]? = some phase →
    gathering.Follows leads result phase
  guests : ∃ refs extra, Stage.Extends shadow state refs extra
    ∧ (∀ value, refs.count value = Turns.total callers fun phase => phase.refs.count value)
    ∧ ∀ note, extra.count note = Turns.total callers fun phase => phase.notes.count note

/-! ### The first thread -/

section progress

variable {leads : CallerPhase (Stage κ ν) κ ν} {shadow : Stage κ ν} {result : Option (Except Fault ν)}

theorem Ready.claims (ready : gathering.Ready) : gathering.claimed.Pending gathering.leader gathering.key :=
  .claiming ready.sound ready.free (fun value found => ready.dead value (Cache.mem_of_find? found)) gathering.leader

theorem Ready.builds (ready : gathering.Ready) : gathering.built.Pending gathering.leader gathering.key :=
  ready.claims.after ready.fits.allowed ready.fits.spares

/-- While the claim is in place, the key has no entry. -/
theorem Progress.pending (ready : gathering.Ready) (progress : gathering.Progress leads shadow result)
    (unsettled : leads.Unsettled) : shadow.Pending gathering.leader gathering.key ∧ result = none := by
  cases progress with
  | @constructing past left split =>
    have allowed := ready.fits.allowed
    rw [split] at allowed
    refine ⟨ready.claims.after (Move.allowedAll_append.mp allowed).1 fun move among => ?_, rfl⟩
    exact ready.fits.spares move (split ▸ List.mem_append_left left among)
  | settling =>
    have cache : (gathering.leading.ended gathering.key gathering.built).cache = gathering.built.cache := by
      unfold Work.ended
      cases gathering.leading.ending <;> rfl
    refine ⟨⟨⟨?_, ?_⟩, ?_⟩, rfl⟩
    · rw [cache]
      exact ready.builds.sound.unique
    · rw [cache]
      exact ready.builds.sound.apart
    · rw [cache]
      exact ready.builds.claimed
  | queueing | publishing | reporting | returned => exact unsettled.elim

/-- When the claim is gone, the cache has the entries and claims that the insertion left. -/
theorem Progress.settled (progress : gathering.Progress leads shadow result) (settled : ¬leads.Unsettled) :
    shadow.cache.table = (gathering.leading.entered gathering.key gathering.built).cache.table
      ∧ shadow.cache.claims = (gathering.leading.entered gathering.key gathering.built).cache.claims
      ∧ shadow.held = (gathering.leading.entered gathering.key gathering.built).held := by
  cases progress with
  | constructing | settling => exact absurd trivial settled
  | queueing => exact ⟨rfl, rfl, rfl⟩
  | publishing | reporting | returned => exact gathering.leading.queued_same gathering.key gathering.built

theorem Progress.entered {value : ν} (ready : gathering.Ready) (progress : gathering.Progress leads shadow result)
    (settled : ¬leads.Unsettled) (ending : gathering.leading.ending = .ok value) : shadow.Entered gathering.key value := by
  obtain ⟨table, claims, held⟩ := progress.settled settled
  have entered := gathering.leading.entered_ok ready.builds ending
  refine ⟨?_, ?_, table ▸ entered.entry, held ▸ entered.held⟩
  · rw [Cache.Unique, table]
    exact entered.unique
  · rw [Cache.claim?, claims]
    exact entered.free

theorem Progress.guestless (progress : gathering.Progress leads shadow result) : leads.notes = [] ∧ leads.refs = [] := by
  cases progress <;> exact ⟨rfl, rfl⟩

end progress

/-! ### Steps -/

section steps

variable {leads leads' : CallerPhase (Stage κ ν) κ ν} {shadow shadow' state state' : Stage κ ν}
  {result result' : Option (Except Fault ν)} {callers : Array (CallerPhase (Stage κ ν) κ ν)} {thread : Nat}
  {next : Crowd (Stage κ ν) κ ν}

/-- While the claim is in place, the other threads have been given nothing. -/
theorem Course.quiet (ready : gathering.Ready) (course : gathering.Course leads shadow result state callers)
    (unsettled : leads.Unsettled) {refs : List ν}
    (counted : ∀ value, refs.count value = Turns.total callers fun phase => phase.refs.count value) : refs = [] := by
  have nothing (value : ν) : refs.count value = 0 := by
    rw [counted, Turns.total_eq_zero]
    intro thread phase here
    by_cases same : thread = gathering.leader
    · subst same
      cases course.here.symm.trans here
      rw [course.progress.guestless.2, List.count_nil]
    · cases course.others thread phase same here with
      | outside | waiting => rfl
      | served published => cases (course.progress.pending ready unsettled).2.symm.trans published
      | found ending settled => exact absurd unsettled settled
  exact List.eq_nil_iff_forall_not_mem.mpr fun value => List.count_eq_zero.mp (nothing value)

/-- What one step of a thread leads to. -/
def Turned (gathering : Gathering κ ν) (callers : Array (CallerPhase (Stage κ ν) κ ν)) (thread : Nat)
    (next : Crowd (Stage κ ν) κ ν) : Prop :=
  ∃ old new leads shadow result state, callers[thread]? = some old
    ∧ next = gathering.crowd result state (callers.setIfInBounds thread new)
    ∧ gathering.Course leads shadow result state (callers.setIfInBounds thread new)
    ∧ new.effort < old.effort
    ∧ (old ≠ .outside → new ≠ .outside ∧ ∀ value, new ≠ .found value)

/-- The first thread moves on. -/
theorem Course.lead (ready : gathering.Ready) (course : gathering.Course leads shadow result state callers)
    (progress : gathering.Progress leads' shadow' result')
    (settled : ¬leads.Unsettled → ¬leads'.Unsettled) (published : ∀ shared, result = some shared → result' = some shared)
    (less : leads'.effort < leads.effort)
    (extends' : ∀ refs extra, (leads.Unsettled → refs = []) → Stage.Extends shadow state refs extra →
      Stage.Extends shadow' state' refs extra) :
    gathering.Turned callers gathering.leader
      (gathering.crowd result' state' (callers.setIfInBounds gathering.leader leads')) := by
  refine ⟨leads, leads', leads', shadow', result', state', course.here, rfl, ?_, less, fun _ => ?_⟩
  case refine_2 => cases progress <;> exact ⟨nofun, nofun⟩
  constructor
  case size => exact (Array.size_setIfInBounds ..).trans course.size
  case here => exact Turns.getElem?_set_self course.here leads'
  case progress => exact progress
  case others =>
    intro thread phase differs here
    rw [Turns.getElem?_set_of_ne differs] at here
    cases course.others thread phase differs here with
    | outside => exact .outside
    | waiting => exact .waiting
    | served shared => exact .served (published _ shared)
    | found ending late => exact .found ending (settled late)
  case guests =>
    obtain ⟨refs, extra, extension, given, told⟩ := course.guests
    -- The first thread is given nothing and reports nothing as a guest, so the sums stay.
    refine ⟨refs, extra, extends' refs extra (fun unsettled => course.quiet ready unsettled given) extension,
      fun value => ?_, fun note => ?_⟩
    · have moved := Turns.total_set course.here leads' fun phase => phase.refs.count value
      simp only [progress.guestless.2, course.progress.guestless.2, List.count_nil, Nat.add_zero] at moved
      rw [given, moved]
    · have moved := Turns.total_set course.here leads' fun phase => phase.notes.count note
      simp only [progress.guestless.1, course.progress.guestless.1, List.count_nil, Nat.add_zero] at moved
      rw [told, moved]

/-- Another thread moves on, reports something and may be given a reference. -/
theorem Course.follow {old new : CallerPhase (Stage κ ν) κ ν} (refs : List ν) (notes : List (Note κ))
    (course : gathering.Course leads shadow result state callers) (differs : thread ≠ gathering.leader)
    (here : callers[thread]? = some old) (follows : gathering.Follows leads result new)
    (given : new.refs = refs ++ old.refs) (told : new.notes = notes ++ old.notes) (less : new.effort < old.effort)
    (stays : old ≠ .outside → new ≠ .outside ∧ ∀ value, new ≠ .found value)
    (extends' : ∀ refs' extra, Stage.Extends shadow state refs' extra →
      Stage.Extends shadow state' (refs ++ refs') (notes ++ extra)) :
    gathering.Turned callers thread (gathering.crowd result state' (callers.setIfInBounds thread new)) := by
  refine ⟨old, new, leads, shadow, result, state', here, rfl, ?_, less, stays⟩
  constructor
  case size => exact (Array.size_setIfInBounds ..).trans course.size
  case here =>
    rw [Turns.getElem?_set_of_ne (Ne.symm differs)]
    exact course.here
  case progress => exact course.progress
  case others =>
    intro other phase another there
    by_cases same : other = thread
    · subst same
      cases (Turns.getElem?_set_self here new).symm.trans there
      exact follows
    · rw [Turns.getElem?_set_of_ne same] at there
      exact course.others other phase another there
  case guests =>
    obtain ⟨refs', extra, extension, before, before'⟩ := course.guests
    refine ⟨refs ++ refs', notes ++ extra, extends' refs' extra extension, fun value => ?_, fun note => ?_⟩
    · have moved := Turns.total_set here new fun phase => phase.refs.count value
      simp only [given, List.count_append] at moved
      rw [List.count_append, before]
      omega
    · have moved := Turns.total_set here new fun phase => phase.notes.count note
      simp only [told, List.count_append] at moved
      rw [List.count_append, before']
      omega

theorem finish_eq (state : Stage κ ν) (callers : Array (CallerPhase (Stage κ ν) κ ν)) :
    (gathering.crowd result state callers).finish gathering.leader 0
      = gathering.crowd result (gathering.leading.ended gathering.key state)
        (callers.setIfInBounds gathering.leader (.settling 0 gathering.leading.ending)) := by
  unfold Crowd.finish Work.ended
  rw [show (gathering.crowd result state callers).constructors gathering.leader = gathering.leading.constructor from rfl]
  unfold Work.constructor
  cases gathering.leading.ending <;> rfl

/-- A step of the first thread. -/
theorem Course.leader_step (ready : gathering.Ready) (course : gathering.Course leads shadow result state callers)
    (moved : (gathering.crowd result state callers).step gathering.leader = some next) :
    gathering.Turned callers gathering.leader next := by
  unfold Crowd.step at moved
  rw [show (gathering.crowd result state callers).callers[gathering.leader]? = some leads from course.here] at moved
  have progress := course.progress
  cases progress with
  | @constructing past left split =>
    cases left with
    | nil =>
      rw [List.map_nil] at moved
      dsimp only at moved
      rw [finish_eq] at moved
      cases moved
      have whole : Move.after past gathering.claimed = gathering.built := by
        rw [Gathering.built, split, List.append_nil]
      refine course.lead ready .settling id (fun _ => id) (by simp [CallerPhase.effort])
        fun refs extra quiet extension => ?_
      cases quiet trivial
      rw [whole] at extension
      exact extension.ended _ _
    | cons move left =>
      cases moved
      have split' : gathering.leading.moves = (past ++ [move]) ++ left := by
        rw [split, List.append_assoc]
        rfl
      refine course.lead ready (.constructing split') id (fun _ => id) (by simp [CallerPhase.effort])
        fun refs extra quiet extension => ?_
      -- A move sees which objects are alive, and guests with references could change that.
      cases quiet trivial
      rw [Move.after_append]
      exact extension.apply move
  | settling =>
    cases moved
    obtain ⟨refs, extra, extension, given, -⟩ := course.guests
    cases course.quiet ready trivial given
    -- The sweep takes the keys that it would take if the first thread were alone.
    have swept := (extension.conclude gathering.key gathering.leading.ending).1
    have onward : gathering.Progress
        (.queueing 0 gathering.leading.ending (view.conclude gathering.key gathering.leading.ending state).1)
        (gathering.leading.entered gathering.key gathering.built) none := by
      rw [swept]
      exact .queueing
    refine course.lead ready onward (fun _ => id) (fun _ => id) (Nat.lt_succ_self _) fun refs extra quiet extension => ?_
    cases quiet trivial
    exact (extension.conclude _ _).2
  | queueing =>
    cases moved
    exact course.lead ready .publishing (fun _ => id) (fun _ => id) (Nat.lt_succ_self _) fun _ _ _ extension =>
      extension.enqueue _
  | publishing =>
    cases moved
    exact course.lead ready .reporting (fun _ => id) nofun (Nat.lt_succ_self _) fun _ _ _ => id
  | reporting =>
    cases moved
    exact course.lead ready .returned (fun _ => id) (fun _ => id) (Nat.lt_succ_self _) fun _ _ _ extension =>
      extension.note _
  | returned => cases moved

/-- Every thread has called, and none of them came too late to wait. -/
def Gathered (callers : Array (CallerPhase (Stage κ ν) κ ν)) : Prop :=
  ∀ (thread : Nat) phase, callers[thread]? = some phase → phase ≠ .outside ∧ ∀ value, phase ≠ .found value

/-- A step of another thread.  A thread does not call when the construction has failed. -/
theorem Course.follower_step (ready : gathering.Ready) (course : gathering.Course leads shadow result state callers)
    (timely : leads.Unsettled ∨ (∃ value, gathering.leading.ending = .ok value) ∨ Gathered callers)
    (differs : thread ≠ gathering.leader) (moved : (gathering.crowd result state callers).step thread = some next) :
    gathering.Turned callers thread next := by
  unfold Crowd.step at moved
  cases here : callers[thread]? with
  | none =>
    rw [show (gathering.crowd result state callers).callers[thread]? = none from here] at moved
    cases moved
  | some phase =>
    rw [show (gathering.crowd result state callers).callers[thread]? = some phase from here] at moved
    cases course.others thread phase differs here with
    | outside =>
      cases moved
      obtain ⟨refs, extra, extension, -⟩ := course.guests
      -- Before the claim is gone, the thread finds the record and waits; later it finds the object.
      by_cases unsettled : leads.Unsettled
      · have pending := (course.progress.pending ready unsettled).1.of_cache extension.cache
        have called : (gathering.crowd result state callers).call thread
            = gathering.crowd result (view.store [.miss] state.cache state) (callers.setIfInBounds thread (.waiting 0)) :=
          Crowd.call_of_wait (pending.ask differs)
        rw [called]
        exact course.follow [] [.miss] differs here .waiting rfl rfl (Nat.lt_succ_self _) (absurd rfl)
          fun _ _ extension => extension.tell _
      · obtain still | ⟨value, ending⟩ | all := timely
        · exact absurd still unsettled
        · have entered := course.progress.entered ready unsettled ending
          have unique : state.cache.Unique := by
            rw [extension.cache]
            exact entered.unique
          have live : state.alive value = true := extension.alive (Stage.alive_of_held entered.held)
          have called : (gathering.crowd result state callers).call thread
              = gathering.crowd result (view.hold value (view.store [.hit] state.cache state))
                (callers.setIfInBounds thread (.found value)) :=
            Crowd.call_of_hit (Stage.ask_of_live unique (extension.cache ▸ entered.entry) live thread)
          rw [called]
          exact course.follow [value] [.hit] differs here (.found ending unsettled) rfl rfl (Nat.zero_lt_succ _) (absurd rfl)
            fun _ _ extension => (extension.tell _).welcome value
        · exact absurd rfl (all thread _ here).1
    | waiting =>
      obtain ⟨shared, published, rfl⟩ := Option.map_eq_some_iff.mp moved
      have held : result = some shared := published
      cases shared with
      | ok value =>
        exact course.follow [value] [] differs here (.served held) rfl rfl (Nat.lt_succ_self _) (fun _ => ⟨nofun, nofun⟩)
          fun _ _ extension => extension.welcome value
      | error fault =>
        exact course.follow [] [] differs here (.served held) rfl rfl (Nat.lt_succ_self _) (fun _ => ⟨nofun, nofun⟩)
          fun _ _ => id
    | served | found => cases moved

theorem Course.step (ready : gathering.Ready) (course : gathering.Course leads shadow result state callers)
    (timely : leads.Unsettled ∨ (∃ value, gathering.leading.ending = .ok value) ∨ Gathered callers)
    (moved : (gathering.crowd result state callers).step thread = some next) : gathering.Turned callers thread next := by
  by_cases first : thread = gathering.leader
  · subst first
    exact course.leader_step ready moved
  · exact course.follower_step ready timely first moved

omit [DecidableEq κ] [DecidableEq ν] in
/-- Who has called has called for good. -/
theorem Gathered.turn {old new : CallerPhase (Stage κ ν) κ ν} (all : Gathered callers) (here : callers[thread]? = some old)
    (stays : old ≠ .outside → new ≠ .outside ∧ ∀ value, new ≠ .found value) :
    Gathered (callers.setIfInBounds thread new) := by
  intro other phase there
  by_cases same : other = thread
  · subst same
    cases (Turns.getElem?_set_self here new).symm.trans there
    exact stays (all other old here).1
  · rw [Turns.getElem?_set_of_ne same] at there
    exact all other phase there

end steps

end Gathering

end CatalogReplica.Identity
