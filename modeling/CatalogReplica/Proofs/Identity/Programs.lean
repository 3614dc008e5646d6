import CatalogReplica.Proofs.Identity.Moves

/-!
# Programs over an identity cache

A program of one thread looks keys up and does other things with a cache, and what it does
next depends on what it saw.  The constructor of a lookup is such a program itself, so that
constructors nest to any depth and fail or break off wherever they like.

* `Program.run`: what a program does.
* `Program.Passes`: the moments of a run, each with the keys of the constructors that are
  running.
* `Program.nothing_left`: what a construction that failed leaves.
* `Program.reentrancy_exact`: the keys that are claimed are those of the running constructors.
-/

namespace CatalogReplica.Identity

variable {κ ν : Type}

/-- The move is no part of a lookup. -/
def Move.Aside : Move κ ν → Prop
  | .ask _ _ | .finish _ _ _ | .abandon _ _ => False
  | .get _ | .evict _ | .clear | .live | .purge | .relieve | .copy _ | .drop _ => True

/-- What one thread does with a cache. -/
inductive Program (κ ν : Type) where
  /-- Ends: with an object, with a fault, or broken off. -/
  | finish (outcome : Except Interrupt ν)
  /-- Looks a key up, and goes on with what comes of it. -/
  | lookup (key : κ) (construct : Program κ ν) (next : Except Interrupt ν → Program κ ν)
  /-- Does something else, and goes on with what it sees then. -/
  | aside (move : Move κ ν) (isAside : move.Aside) (next : Stage κ ν → Program κ ν)

variable [DecidableEq κ] [DecidableEq ν]

namespace Program

open Stage (view)

/-- Runs the program.  The object that it ends with is held for whoever runs it. -/
def run (thread : Nat) : Program κ ν → Task (Stage κ ν) ν
  | .finish (.ok value) => fun stage => .ok value (view.hold value stage)
  | .finish (.error interrupt) => throw interrupt
  | .lookup key construct next => do
      let outcome ← Task.attempt (view.lookup thread key (construct.run thread))
      (next outcome).run thread
  | .aside move _ next => do
      modify fun stage => move.apply stage
      (next (← get)).run thread

/-- The moments of a run, each with the keys of the constructors that are running then, the
    innermost in front. -/
inductive Passes (thread : Nat) : Program κ ν → List κ → Stage κ ν → List κ → Stage κ ν → Prop where
  /-- The moment at which the program starts. -/
  | here {program stack stage} : Passes thread program stack stage stack stage
  /-- A moment of the constructor that a lookup runs. -/
  | inside {key construct next stack stage marked stack' stage'} :
      view.ask thread key stage = (.build, marked) →
      Passes thread construct (key :: stack) marked stack' stage' →
      Passes thread (.lookup key construct next) stack stage stack' stage'
  /-- A moment after the lookup has returned or broken off. -/
  | later {key construct next stack stage outcome last stack' stage'} :
      Task.attempt (view.lookup thread key (construct.run thread)) stage = .ok outcome last →
      Passes thread (next outcome) stack last stack' stage' →
      Passes thread (.lookup key construct next) stack stage stack' stage'
  /-- A moment after something else. -/
  | onward {move isAside next stack stage stack' stage'} :
      Passes thread (next (move.apply stage)) stack (move.apply stage) stack' stage' →
      Passes thread (.aside move isAside next) stack stage stack' stage'

variable {thread : Nat} {key : κ} {stage marked last : Stage κ ν} {construct : Program κ ν}

/-! ## Lookups -/

/-- A lookup finds an object, or it is refused since the key is claimed, or it claims the key;
    in the last two cases the key has no entry from then on. -/
theorem ask_cases (thread : Nat) (key : κ) (stage : Stage κ ν) :
    (∃ value after, view.ask thread key stage = (.hit value, after) ∧ after.cache = stage.cache) ∨
    (∃ asked after, view.ask thread key stage = (asked, after) ∧ (asked = .reentrant ∨ asked = .wait) ∧
      stage.cache.claim? key ≠ none ∧ after.cache.claims = stage.cache.claims ∧
      after.cache.table = (stage.cache.erase key).table) ∨
    ∃ marked, view.ask thread key stage = (.build, marked) ∧ stage.cache.claim? key = none ∧
      marked.cache.claims = ⟨key, thread⟩ :: stage.cache.claims ∧ marked.cache.table = (stage.cache.erase key).table := by
  unfold CacheView.ask
  obtain ⟨value, -, -, run⟩ | ⟨asked, notes, after, run, table, -, state⟩ :=
    (view.get stage).ask_cases (view.alive stage) thread key
  · rw [run]
    exact .inl ⟨value, _, rfl, rfl⟩
  · rw [run]
    obtain ⟨refused, claimed, claims⟩ | ⟨rfl, free, claims⟩ := state
    · exact .inr (.inl ⟨asked, _, rfl, refused, claimed, claims, table⟩)
    · exact .inr (.inr ⟨_, rfl, free, claims, table⟩)

omit [DecidableEq ν] in
theorem absent_of_fewer {before after : Cache κ ν} (fewer : ∀ entry ∈ after.table, entry ∈ before.table)
    (absent : before.has key = false) : after.has key = false := by
  rw [← Bool.not_eq_true, Cache.has_iff] at absent ⊢
  intro present
  obtain ⟨entry, among, rfl⟩ := List.mem_map.mp present
  exact absent (List.mem_map_of_mem (fewer entry among))

omit [DecidableEq ν] in
theorem absent_of_erased {before after : Cache κ ν} (table : after.table = (before.erase key).table) :
    after.has key = false := by
  rw [← Bool.not_eq_true, Cache.has_iff, table]
  intro present
  obtain ⟨entry, among, same⟩ := List.mem_map.mp present
  exact (Cache.mem_erase.mp among).2 same

/-! ## What a program leaves alone -/

/-- The claims are as they were, and a key that is claimed has no entry if it had none. -/
structure Frames (before after : Stage κ ν) : Prop where
  claims : after.cache.claims = before.cache.claims
  absent : ∀ key, before.cache.claim? key ≠ none → before.cache.has key = false → after.cache.has key = false

namespace Frames

variable {before mid after : Stage κ ν}

omit [DecidableEq ν] in
theorem of_fewer (claims : after.cache.claims = before.cache.claims)
    (fewer : ∀ entry ∈ after.cache.table, entry ∈ before.cache.table) : Frames before after :=
  ⟨claims, fun _ _ => absent_of_fewer fewer⟩

omit [DecidableEq ν] in
theorem trans (first : Frames before mid) (second : Frames mid after) : Frames before after where
  claims := second.claims.trans first.claims
  absent key claimed absent := by
    have claimed' : mid.cache.claim? key ≠ none := by
      unfold Cache.claim? at claimed ⊢
      rwa [first.claims]
    exact second.absent key claimed' (first.absent key claimed absent)

/-- What is no part of a lookup claims nothing and enters nothing. -/
theorem aside {move : Move κ ν} (isAside : move.Aside) (stage : Stage κ ν) : Frames stage (move.apply stage) := by
  cases move with
  | ask thread key => exact isAside.elim
  | finish thread key value => exact isAside.elim
  | abandon thread key => exact isAside.elim
  | get key =>
    have fewer := @Cache.mem_of_get? κ ν _ stage.cache stage.alive key
    obtain ⟨value, -, -, run⟩ | ⟨-, notes, cache, run, -, claims⟩ := stage.cache.get?_cases stage.alive key
    all_goals
      rw [run] at fewer
      simp only [Move.apply, CacheView.get?, view, run]
    · exact .of_fewer rfl fun _ among => among
    · exact .of_fewer claims fun _ => fewer
  | evict key =>
    obtain ⟨found, notes, cache, run, table, claims, -⟩ := stage.cache.evict_cases stage.alive key
    have left : ((Move.evict key).apply stage).cache = cache := by
      simp only [Move.apply, CacheView.evict, view, run]
      rfl
    refine .of_fewer (by rw [left, claims]) fun entry among => ?_
    rw [left, table] at among
    exact (Cache.mem_erase.mp among).1
  | clear => exact .of_fewer rfl fun _ among => absurd among List.not_mem_nil
  | live => exact .of_fewer rfl fun _ among => among
  | purge => exact .of_fewer rfl fun _ among => (List.mem_filter.mp among).1
  | relieve => exact .of_fewer rfl fun _ among => among
  | copy value => exact .of_fewer rfl fun _ among => among
  | drop value => exact .of_fewer rfl fun _ among => among

omit [DecidableEq ν] in
/-- The end of a construction takes away the claim that its lookup made, and no other one. -/
theorem unmark {claims : List (Claim κ)} (free : stage.cache.claim? key = none)
    (same : claims = ⟨key, thread⟩ :: stage.cache.claims) :
    (claims.filter fun claim => claim.key != key) = stage.cache.claims := by
  rw [same, List.filter_cons, bne_self_eq_false, if_neg Bool.false_ne_true]
  refine List.filter_eq_self.mpr fun claim among => ?_
  have differs := List.find?_eq_none.mp free claim among
  simpa [bne] using differs

omit [DecidableEq ν] in
/-- A construction that claimed its key, and then succeeded or failed. -/
theorem construction (free : stage.cache.claim? key = none)
    (claims : marked.cache.claims = ⟨key, thread⟩ :: stage.cache.claims)
    (table : marked.cache.table = (stage.cache.erase key).table) (frames : Frames marked mid)
    (unmarked : after.cache.claims = mid.cache.claims.filter fun claim => claim.key != key)
    (entries : ∀ entry ∈ after.cache.table, entry.1 = key ∨ entry ∈ mid.cache.table) : Frames stage after where
  claims := by
    rw [unmarked]
    exact unmark free (frames.claims.trans claims)
  absent other claimed absent := by
    have differs : other ≠ key := by
      rintro rfl
      exact claimed free
    have claimed' : marked.cache.claim? other ≠ none := by
      rw [Cache.claim?, claims, List.find?_cons, show (key == other) = false by simpa using Ne.symm differs]
      exact claimed
    have fewer (entry : κ × ν) (among : entry ∈ marked.cache.table) : entry ∈ stage.cache.table :=
      (Cache.mem_erase.mp (table ▸ among)).1
    have gone := frames.absent other claimed' (absent_of_fewer fewer absent)
    rw [← Bool.not_eq_true, Cache.has_iff] at gone ⊢
    intro present
    obtain ⟨entry, among, rfl⟩ := List.mem_map.mp present
    exact gone (List.mem_map_of_mem ((entries entry among).resolve_left differs))

end Frames

/-- A lookup that claims its key runs its constructor. -/
theorem lookup_of_build (builds : view.ask thread key stage = (.build, marked)) (construct : Task (Stage κ ν) ν) :
    view.lookup thread key construct stage = match construct marked with
      | .ok value last => .ok value (view.settle key value last)
      | .error interrupt last => .error interrupt (view.abandon key last) := by
  unfold CacheView.lookup
  rw [builds]
  dsimp only
  cases construct marked <;> rfl

/-- A lookup leaves alone what its constructor leaves alone. -/
theorem lookup_frames {construct : Task (Stage κ ν) ν}
    (frames : ∀ stage, construct.Ends stage fun _ after => Frames stage after) (thread : Nat) (key : κ)
    (stage : Stage κ ν) : (view.lookup thread key construct).Ends stage fun _ after => Frames stage after := by
  unfold Task.Ends
  obtain ⟨value, after, asked, same⟩ | ⟨asked, after, run, refused, -, claims, table⟩ |
    ⟨marked, builds, free, claims, table⟩ := ask_cases thread key stage
  · unfold CacheView.lookup
    rw [asked]
    exact .of_fewer (congrArg Cache.claims same) fun _ among => same ▸ among
  · have fewer (entry : κ × ν) (among : entry ∈ after.cache.table) : entry ∈ stage.cache.table :=
      (Cache.mem_erase.mp (table ▸ among)).1
    unfold CacheView.lookup
    rw [run]
    obtain rfl | rfl := refused <;> exact .of_fewer claims fewer
  · have ends := frames marked
    rw [lookup_of_build builds]
    unfold Task.Ends at ends
    cases ran : construct marked with
    | ok value mid =>
      rw [ran] at ends
      have settled := mid.cache.settle_spec mid.alive key value
      exact .construction free claims table ends settled.claims fun entry among =>
        (settled.entries entry among).imp (fun same => by rw [same]) And.left
    | error interrupt mid =>
      rw [ran] at ends
      exact .construction free claims table ends rfl fun _ => .inr

/-- Whatever a program does, the claims that it found are what it leaves. -/
theorem run_frames (thread : Nat) (program : Program κ ν) (stage : Stage κ ν) :
    (program.run thread).Ends stage fun _ after => Frames stage after := by
  induction program generalizing stage with
  | finish outcome => cases outcome <;> exact .of_fewer rfl fun _ among => among
  | lookup key construct next constructHypothesis nextHypothesis =>
    refine (lookup_frames constructHypothesis thread key stage).attempt.bind ?_ (by rintro _ _ ⟨_, ⟨⟩, _⟩)
    rintro outcome mid ⟨_, -, first⟩
    exact (nextHypothesis outcome mid).weaken fun _ _ second => first.trans second
  | aside move isAside next nextHypothesis =>
    refine .next (Task.modify_run _ stage) (.next (Task.get_run _) ?_)
    exact (nextHypothesis _ _).weaken fun _ _ second => (Frames.aside isAside stage).trans second

/-! ## Constructions that fail -/

/-- What a lookup reports before it runs its constructor: a miss, and the dead entry of its key
    if it removes one. -/
def missed (cache : Cache κ ν) (key : κ) : List (Note κ) :=
  .miss :: if cache.has key then [.left .reclaimed key] else []

/-- The stage when the key has been claimed: without a dead entry of the key, and otherwise the
    same. -/
def claiming (thread : Nat) (key : κ) (stage : Stage κ ν) : Stage κ ν :=
  view.store (missed stage.cache key) { stage.cache.erase key with claims := ⟨key, thread⟩ :: stage.cache.claims } stage

omit [DecidableEq ν] in
/-- A key without an entry has none to be removed. -/
theorem erase_of_absent {cache : Cache κ ν} (absent : cache.find? key = none) : cache.erase key = cache := by
  have same : cache.table.filter (fun entry => entry.1 != key) = cache.table := by
    refine List.filter_eq_self.mpr fun entry among => ?_
    rw [bne_iff_ne]
    rintro rfl
    exact Cache.not_mem_of_find? absent among
  rw [Cache.erase, same]

omit [DecidableEq ν] in
/-- A key without a live object that is not claimed gets claimed. -/
theorem claims_of_free {cache : Cache κ ν} {alive : ν → Bool} (free : cache.claim? key = none)
    (dead : ∀ value, cache.find? key = some value → alive value = false) :
    cache.ask alive thread key
      = (.build, missed cache key, { cache.erase key with claims := ⟨key, thread⟩ :: cache.claims }) := by
  have claims (other : Cache κ ν) (same : other.claims = cache.claims) :
      other.claim thread key = (.build, { other with claims := ⟨key, thread⟩ :: other.claims }) := by
    have free' : other.claim? key = none := by rw [Cache.claim?, same]; exact free
    rw [Cache.claim, free']
  unfold Cache.ask missed Cache.has
  cases found : cache.find? key with
  | none =>
    dsimp only
    rw [claims cache rfl, erase_of_absent found]
    rfl
  | some value =>
    dsimp only
    rw [dead value found, claims (cache.erase key) rfl, if_neg Bool.false_ne_true]
    dsimp only
    unfold Cache.removal
    cases (cache.erase key).discipline <;> rfl

theorem claiming_of_free (free : stage.cache.claim? key = none)
    (dead : ∀ value, stage.cache.find? key = some value → stage.alive value = false) :
    view.ask thread key stage = (.build, claiming thread key stage) := by
  unfold CacheView.ask
  rw [show (view.get stage).ask (view.alive stage) thread key = _ from claims_of_free free dead]
  rfl

/-- A lookup that is about to run its constructor has claimed its key.  An entry of the key was
    dead. -/
theorem ask_build (builds : view.ask thread key stage = (.build, marked)) :
    marked = claiming thread key stage ∧ stage.cache.claim? key = none ∧
      ∀ value, stage.cache.find? key = some value → stage.alive value = false := by
  have free : stage.cache.claim? key = none := by
    obtain ⟨value, after, run, -⟩ | ⟨asked, after, run, refused, -⟩ | ⟨_, -, free, -⟩ := ask_cases thread key stage
    · cases run.symm.trans builds
    · obtain rfl | rfl := refused <;> cases run.symm.trans builds
    · exact free
  have dead : ∀ value, stage.cache.find? key = some value → stage.alive value = false := by
    intro value found
    cases live : stage.alive value with
    | false => rfl
    | true =>
      have hit : stage.cache.ask stage.alive thread key = (.hit value, [.hit], stage.cache) := by
        unfold Cache.ask
        rw [found]
        exact if_pos live
      unfold CacheView.ask at builds
      simp only [view, hit] at builds
      cases builds
  exact ⟨(Prod.mk.inj (builds.symm.trans (claiming_of_free free dead))).2, free, dead⟩

/-- What a failed construction leaves, given the stage that its lookup started from, the stage
    that its constructor left and the stage that the lookup left. -/
structure NothingLeft (key : κ) (before nested after : Stage κ ν) : Prop where
  /-- The mark of the key goes; whatever the constructor did otherwise stays. -/
  left : after = { nested with cache := { nested.cache with claims := before.cache.claims } }
  unmarked : after.cache.claim? key = none
  absent : after.cache.has key = false
  /-- The next lookup of the key, of whatever thread, runs its constructor. -/
  again : ∀ thread, view.ask thread key after = (.build, claiming thread key after) ∧
    ∀ construct : Task (Stage κ ν) ν, view.lookup thread key construct after
      = match construct (claiming thread key after) with
        | .ok value last => .ok value (view.settle key value last)
        | .error interrupt last => .error interrupt (view.abandon key last)

/-- A lookup whose constructor ran and failed or broke off leaves what the constructor would have
    left alone, run with the key claimed, but for the claim.  Before that, at most a dead entry
    of the key was removed and reported, and nothing was counted as constructed. -/
theorem nothing_left {interrupt : Interrupt} (builds : (view.ask thread key stage).1 = .build)
    (failed : view.lookup thread key (construct.run thread) stage = .error interrupt last) :
    ∃ nested, construct.run thread (claiming thread key stage) = .error interrupt nested ∧
      NothingLeft key stage nested last ∧
      (stage.cache.Unique → ∀ value, (key, value) ∈ stage.cache.table → stage.alive value = false) ∧
      (claiming thread key stage).tally.get .identityConstruct = stage.tally.get .identityConstruct := by
  have asked : view.ask thread key stage = (.build, (view.ask thread key stage).2) := Prod.ext builds rfl
  obtain ⟨marks, free, dead⟩ := ask_build asked
  rw [marks] at asked
  have ends := run_frames thread construct (claiming thread key stage)
  rw [lookup_of_build asked] at failed
  unfold Task.Ends at ends
  cases ran : construct.run thread (claiming thread key stage) with
  | ok value nested =>
    rw [ran] at failed
    cases failed
  | error other nested =>
    rw [ran] at failed ends
    cases failed
    have claims : (nested.cache.claims.filter fun claim => claim.key != key) = stage.cache.claims :=
      Frames.unmark free ends.claims
    have left : view.abandon key nested
        = { nested with cache := { nested.cache with claims := stage.cache.claims } } := by
      rw [← claims]
      rfl
    have claimed : (claiming thread key stage).cache.claim? key ≠ none := by
      have first : (claiming thread key stage).cache.claim? key = some ⟨key, thread⟩ :=
        List.find?_cons_of_pos (beq_self_eq_true key)
      rw [first]
      exact Option.some_ne_none _
    have absent : nested.cache.has key = false := ends.absent key claimed (absent_of_erased rfl)
    have unmarked : (view.abandon key nested).cache.claim? key = none := by
      rw [left]
      exact free
    refine ⟨nested, rfl, ⟨left, unmarked, absent, fun thread => ?_⟩, fun unique value among => ?_, ?_⟩
    · have missing : (view.abandon key nested).cache.find? key = none :=
        Option.not_isSome_iff_eq_none.mp (Bool.eq_false_iff.mp absent)
      have again : view.ask thread key (view.abandon key nested) = (.build, claiming thread key _) :=
        claiming_of_free unmarked fun value found => by cases missing.symm.trans found
      exact ⟨again, lookup_of_build again⟩
    · exact dead value (Cache.find?_of_mem unique among)
    · have silent : Note.counted .identityConstruct (missed stage.cache key) = 0 := by
        unfold missed
        cases stage.cache.has key <;> rfl
      change (Note.count (missed stage.cache key) stage.tally).get .identityConstruct = _
      rw [Note.get_count, silent]
      exact Int.add_zero _

/-- A constructor that constructs the object of 8, is refused its own key, and breaks off. -/
def selfish : Program Nat Nat :=
  .lookup 8 (.finish (.ok 80)) fun _ => .lookup 7 (.finish (.ok 70)) fun _ => .finish (.error (.crash none))

theorem nothing_left_selfish :
    let stage := Move.after [.ask 0 7, .finish 0 7 70, .drop 70] (Stage.start "mirrors" .weak .confined id)
    (view.ask 0 7 stage).1 = .build ∧ ∃ interrupt nested last,
      view.lookup 0 7 (selfish.run 0) stage = .error interrupt last ∧ NothingLeft 7 stage nested last := by
  intro stage
  have builds : (view.ask 0 7 stage).1 = .build := by decide
  have failed : view.lookup 0 7 (selfish.run 0) stage
      = .error (.crash none) (Task.exec (view.lookup 0 7 (selfish.run 0)) stage) := rfl
  obtain ⟨nested, -, left, -⟩ := nothing_left builds failed
  exact ⟨builds, _, nested, _, failed, left⟩

/-! ## Running constructors -/

/-- The keys that are claimed are those of the given constructors, each once, and none of them
    has an entry. -/
structure Marked (thread : Nat) (stack : List κ) (stage : Stage κ ν) : Prop where
  claims : stage.cache.claims = stack.map (⟨·, thread⟩)
  once : stack.Nodup
  absent : ∀ key ∈ stack, stage.cache.has key = false

namespace Marked

variable {stack : List κ} {after : Stage κ ν}

omit [DecidableEq ν] in
theorem claim? (marked : Marked thread stack stage) (key : κ) :
    stage.cache.claim? key = if key ∈ stack then some ⟨key, thread⟩ else none := by
  rw [Cache.claim?, marked.claims]
  clear marked
  induction stack with
  | nil => rfl
  | cons top stack inductionHypothesis =>
    rw [List.map_cons, List.find?_cons]
    by_cases same : top = key
    · subst same
      simp
    · rw [show (top == key) = false by simpa using same]
      simp only [inductionHypothesis, List.mem_cons, Ne.symm same, false_or]

omit [DecidableEq ν] in
theorem frames (marked : Marked thread stack stage) (frames : Frames stage after) : Marked thread stack after where
  claims := frames.claims.trans marked.claims
  once := marked.once
  absent key among := by
    refine frames.absent key ?_ (marked.absent key among)
    rw [marked.claim?, if_pos among]
    exact Option.some_ne_none _

/-- A lookup that is about to run its constructor puts its key on top. -/
theorem push (before : Marked thread stack stage) (builds : view.ask thread key stage = (.build, marked)) :
    Marked thread (key :: stack) marked := by
  obtain ⟨rfl, free, -⟩ := ask_build builds
  have fresh : key ∉ stack := fun among => by
    rw [before.claim?, if_pos among] at free
    cases free
  refine ⟨?_, List.nodup_cons.mpr ⟨fresh, before.once⟩, fun other among => ?_⟩
  · exact congrArg (⟨key, thread⟩ :: ·) before.claims
  · cases List.mem_cons.mp among with
    | inl same => exact same ▸ absent_of_erased rfl
    | inr later =>
      exact absent_of_fewer (fun _ kept => (List.mem_filter.mp kept).1) (before.absent other later)

/-- A key is refused just if its constructor is running, and there is no other thread to wait
    for. -/
theorem asked (marked : Marked thread stack stage) (key : κ) :
    ((view.ask thread key stage).1 = .reentrant ↔ key ∈ stack) ∧ (view.ask thread key stage).1 ≠ .wait := by
  have claims := marked.claim? key
  by_cases among : key ∈ stack
  · rw [if_pos among] at claims
    have missing : stage.cache.find? key = none :=
      Option.not_isSome_iff_eq_none.mp (Bool.eq_false_iff.mp (marked.absent key among))
    have refused : (view.ask thread key stage).1 = .reentrant := by
      unfold CacheView.ask Cache.ask Cache.claim
      simp only [view, missing, claims, if_true]
    exact ⟨⟨fun _ => among, fun _ => refused⟩, fun wait => (by cases refused.symm.trans wait)⟩
  · rw [if_neg among] at claims
    obtain ⟨value, after, run, -⟩ | ⟨asked, after, -, -, claimed, -⟩ | ⟨_, run, -⟩ := ask_cases thread key stage
    · rw [run]
      exact ⟨⟨fun refused => (by cases refused), fun its => absurd its among⟩, fun wait => (by cases wait)⟩
    · exact absurd claims claimed
    · rw [run]
      exact ⟨⟨fun refused => (by cases refused), fun its => absurd its among⟩, fun wait => (by cases wait)⟩

end Marked

/-- Every moment of a run has the keys of its constructors claimed. -/
theorem Passes.keeps {program : Program κ ν} {stack stack' : List κ} {after : Stage κ ν}
    (passes : Passes thread program stack stage stack' after) (before : Marked thread stack stage) :
    Marked thread stack' after := by
  induction passes with
  | here => exact before
  | inside builds _ inductionHypothesis => exact inductionHypothesis (before.push builds)
  | @later key construct next stack stage outcome last stack' stage' ran _ inductionHypothesis =>
    have ends := (lookup_frames (run_frames thread construct) thread key stage).attempt
    rw [Task.Ends.of_ok ran] at ends
    obtain ⟨_, -, frames⟩ := ends
    exact inductionHypothesis (before.frames frames)
  | @onward move isAside next stack stage stack' stage' _ inductionHypothesis =>
    exact inductionHypothesis (before.frames (.aside isAside stage))

/-- At every moment of every run of one thread over a new cache, the keys that are claimed are
    those of the running constructors, each once, and none of them has an entry.  A lookup is
    refused just if the constructor of its key is running, and then runs no constructor.  When
    no constructor is running, and when the program has ended, no key is claimed. -/
theorem reentrancy_exact (name : String) (retention : Retention) (discipline : Discipline) (spread : κ → Nat)
    {program : Program κ ν} {stack : List κ} {stage : Stage κ ν}
    (passes : Passes thread program [] (Stage.start name retention discipline spread) stack stage) :
    Marked thread stack stage ∧
      (∀ key, ((view.ask thread key stage).1 = .reentrant ↔ key ∈ stack) ∧ (view.ask thread key stage).1 ≠ .wait) ∧
      (∀ key ∈ stack, ∃ fault after, fault.kind = .reentrant ∧
        ∀ construct : Task (Stage κ ν) ν, view.lookup thread key construct stage = .error (.fault fault) after) ∧
      (stack = [] → stage.cache.claims = []) ∧
      (program.run thread).Ends (Stage.start name retention discipline spread) fun _ last =>
        last.cache.claims = [] := by
  have start : Marked thread [] (Stage.start name retention discipline spread : Stage κ ν) :=
    ⟨rfl, List.nodup_nil, fun _ among => absurd among List.not_mem_nil⟩
  have marked := passes.keeps start
  refine ⟨marked, marked.asked, fun key among => ?_, ?_, ?_⟩
  · have refused := (marked.asked key).1.mpr among
    have asked : view.ask thread key stage = (.reentrant, (view.ask thread key stage).2) := Prod.ext refused rfl
    generalize (view.ask thread key stage).2 = after at asked
    refine ⟨after.cache.reentry (.atom "key"), after, rfl, fun construct => ?_⟩
    unfold CacheView.lookup
    rw [asked]
    rfl
  · rintro rfl
    exact marked.claims
  · exact (run_frames thread program (Stage.start name retention discipline spread)).weaken fun _ _ frames =>
      frames.claims

/-- While the constructor of 8 runs inside that of 7, the cache is cleared. -/
theorem reentrancy_exact_nested :
    let program : Program Nat Nat :=
      .lookup 7 (.lookup 8 (.aside .clear trivial fun _ => .finish (.ok 80)) fun _ => .finish (.ok 70)) fun _ =>
        .finish (.error (.crash none))
    ∃ stage, Passes 0 program [] (Stage.start "mirrors" .weak (.shared 8) id) [8, 7] stage ∧
      (view.ask 0 7 stage).1 = .reentrant := by
  intro program
  have passes : Passes 0 program [] (Stage.start "mirrors" .weak (.shared 8) id) [8, 7] _ :=
    .inside rfl (.inside rfl (.onward .here))
  exact ⟨_, passes, ((reentrancy_exact "mirrors" .weak (.shared 8) id passes).2.1 7).1.mpr (by decide)⟩

end Program

end CatalogReplica.Identity
