import CatalogReplica.Identity.Crowd
import CatalogReplica.Proofs.Identity.Programs

/-!
# The construction of one key

From the moment at which a thread has claimed a key, the key has no entry and other threads are
told to wait, whatever the constructor and other threads do with the cache.  The construction
then ends in four steps, which together are the end of a lookup.

* `Stage.Pending`: the key is claimed and has no entry; `Stage.Pending.after`: a constructor keeps
  it so.
* `Work.last`: what the four steps leave; `Work.lookup_eq`: it is what a lookup leaves.
* `Move.apply_retold`: what a move does does not depend on what was reported before.
-/

namespace CatalogReplica.Identity

variable {κ ν : Type} [DecidableEq κ] [DecidableEq ν]

/-- The move ends the construction for the key. -/
def Move.Ends (key : κ) : Move κ ν → Prop
  | .finish _ other _ | .abandon _ other => other = key
  | .ask _ _ | .get _ | .evict _ | .clear | .live | .purge | .relieve | .copy _ | .drop _ => False

instance (key : κ) : (move : Move κ ν) → Decidable (move.Ends key)
  | .finish _ other _ | .abandon _ other => inferInstanceAs (Decidable (other = key))
  | .ask _ _ | .get _ | .evict _ | .clear | .live | .purge | .relieve | .copy _ | .drop _ => .isFalse id

/-- One run of a thread's constructor: what is done with the cache meanwhile, by the constructor
    itself or by other threads, and how it ends. -/
structure Work (κ ν : Type) where
  moves : List (Move κ ν) := []
  ending : Except Interrupt ν

/-- The moves are possible for whoever makes them, and none of them ends the construction that
    they are part of. -/
structure Work.Fits (work : Work κ ν) (key : κ) (stage : Stage κ ν) : Prop where
  allowed : Move.AllowedAll work.moves stage
  spares : ∀ move ∈ work.moves, ¬move.Ends key

/-! ## Keys under construction -/

namespace Stage

/-- A thread has claimed the key. -/
structure Pending (thread : Nat) (key : κ) (stage : Stage κ ν) : Prop where
  sound : stage.Sound
  claimed : stage.cache.claim? key = some ⟨key, thread⟩

variable {thread other : Nat} {key : κ} {stage : Stage κ ν} {move : Move κ ν} {moves : List (Move κ ν)}

namespace Pending

omit [DecidableEq ν] in
theorem absent (pending : stage.Pending thread key) : stage.cache.find? key = none := by
  cases found : stage.cache.find? key with
  | none => rfl
  | some value => cases (pending.sound.apart key (Cache.has_of_find? found)).symm.trans pending.claimed

omit [DecidableEq ν] in
theorem of_cache {real : Stage κ ν} (pending : stage.Pending thread key) (same : real.cache = stage.cache) :
    real.Pending thread key := by
  refine ⟨⟨?_, ?_⟩, ?_⟩ <;> rw [same]
  · exact pending.sound.unique
  · exact pending.sound.apart
  · exact pending.claimed

/-- Another thread that calls is told to wait, and counts a miss. -/
theorem ask (pending : stage.Pending thread key) (differs : other ≠ thread) :
    view.ask other key stage = (.wait, view.store [.miss] stage.cache stage) := by
  have asked : stage.cache.ask stage.alive other key = (.wait, [.miss], stage.cache) := by
    unfold Cache.ask
    rw [pending.absent]
    dsimp only
    unfold Cache.claim
    rw [pending.claimed]
    dsimp only
    rw [if_neg (Ne.symm differs)]
  unfold CacheView.ask
  rw [show (view.get stage).ask (view.alive stage) other key = _ from asked]

/-- A key that is free and has no live object is claimed by the first who calls. -/
theorem claiming (sound : stage.Sound) (free : stage.cache.claim? key = none)
    (dead : ∀ value, stage.cache.find? key = some value → stage.alive value = false) (thread : Nat) :
    (Program.claiming thread key stage).Pending thread key where
  sound := by
    have leads := (Move.ask_leads sound thread key).sound
    have asked : (Move.ask thread key).apply stage = Program.claiming thread key stage := by
      simp only [Move.apply, Program.claiming_of_free free dead]
    rwa [asked] at leads
  claimed := List.find?_cons_of_pos (beq_self_eq_true key)

omit [DecidableEq ν] in
/-- The claim stays where the claims of the key stay. -/
theorem claimed_filter {after : Stage κ ν} (pending : stage.Pending thread key) {ended : κ} (differs : ended ≠ key)
    (claims : after.cache.claims = stage.cache.claims.filter fun claim => claim.key != ended) :
    after.cache.claim? key = some ⟨key, thread⟩ := by
  have claimed := pending.claimed
  unfold Cache.claim? at claimed ⊢
  rw [claims, List.find?_filter]
  refine Eq.trans (congrArg (List.find? · stage.cache.claims) (funext fun claim => ?_)) claimed
  by_cases same : claim.key = key
  · simp [same, Ne.symm differs]
  · simp [same]

theorem apply (pending : stage.Pending thread key) (allowed : move.Allowed stage) (spares : ¬move.Ends key) :
    (move.apply stage).Pending thread key where
  sound := (Move.apply_leads pending.sound allowed).sound
  claimed := by
    -- Every move but `ask`, `finish` and `abandon` leaves the claims alone.
    have aside (isAside : move.Aside) : (move.apply stage).cache.claim? key = some ⟨key, thread⟩ := by
      rw [Cache.claim?, (Program.Frames.aside isAside stage).claims]
      exact pending.claimed
    cases move with
    | ask asker other =>
      have stays {after : Stage κ ν} (claims : after.cache.claims = stage.cache.claims) :
          after.cache.claim? key = some ⟨key, thread⟩ := by
        rw [Cache.claim?, claims]
        exact pending.claimed
      obtain ⟨value, after, run, same⟩ | ⟨asked, after, run, refused, -, claims, -⟩ | ⟨marked, run, free, claims, -⟩ :=
        Program.ask_cases asker other stage
      · simp only [Move.apply, run]
        exact stays (congrArg Cache.claims same)
      · have left : (Move.ask asker other).apply stage = after := by
          simp only [Move.apply, run]
          obtain rfl | rfl := refused <;> rfl
        rw [left]
        exact stays claims
      · simp only [Move.apply, run]
        -- A build claims a free key, so it is not the one pending.
        have differs : other ≠ key := by
          rintro rfl
          cases free.symm.trans pending.claimed
        rw [Cache.claim?, claims, List.find?_cons, show (other == key) = false by simpa using differs]
        exact pending.claimed
    | finish ender other value =>
      exact pending.claimed_filter spares (stage.cache.settle_spec (view.hold value stage).alive other value).claims
    | abandon ender other => exact pending.claimed_filter spares rfl
    | get | evict | clear | live | purge | relieve | copy | drop => exact aside trivial

theorem after (pending : stage.Pending thread key) (allowed : Move.AllowedAll moves stage)
    (spares : ∀ move ∈ moves, ¬move.Ends key) : (Move.after moves stage).Pending thread key := by
  induction moves generalizing stage with
  | nil => exact pending
  | cons move moves inductionHypothesis =>
    have first := pending.apply allowed.1 (spares move List.mem_cons_self)
    exact inductionHypothesis first allowed.2 fun later among => spares later (List.mem_cons_of_mem _ among)

end Pending

/-- The key has a live object, which somebody holds, and is not claimed. -/
structure Entered (key : κ) (value : ν) (stage : Stage κ ν) : Prop where
  unique : stage.cache.Unique
  free : stage.cache.claim? key = none
  entry : (key, value) ∈ stage.cache.table
  held : value ∈ stage.held

omit [DecidableEq κ] in
theorem alive_of_held {value : ν} (held : value ∈ stage.held) : stage.alive value = true := by
  rw [Stage.alive, Bool.or_eq_true]
  exact .inl (List.contains_iff_mem.mpr held)

/-- Whoever calls finds the object. -/
theorem ask_of_live {value : ν} (unique : stage.cache.Unique) (entry : (key, value) ∈ stage.cache.table)
    (live : stage.alive value = true) (thread : Nat) :
    view.ask thread key stage = (.hit value, view.store [.hit] stage.cache stage) := by
  unfold CacheView.ask
  rw [show (view.get stage).ask (view.alive stage) thread key = _ from Cache.ask_of_live unique entry live]
  rfl

end Stage

/-! ## What a move reads -/

/-- What a move does, and what is reported of it, does not depend on what was reported before. -/
theorem Move.apply_retold (move : Move κ ν) (stage : Stage κ ν) :
    ∃ notes, ∀ tally told, move.apply { stage with tally, notes := told }
      = { move.apply stage with tally := Note.count notes tally, notes := told ++ notes } := by
  -- A move never reads tally or notes: it tells the same whatever was told before.
  have quiet (same : ∀ tally told, move.apply { stage with tally, notes := told }
      = { move.apply stage with tally, notes := told }) :
      ∃ notes, ∀ tally told, move.apply { stage with tally, notes := told }
        = { move.apply stage with tally := Note.count notes tally, notes := told ++ notes } := by
    refine ⟨[], fun tally told => ?_⟩
    rw [same, List.append_nil]
    rfl
  cases move with
  | ask thread key =>
    refine ⟨(stage.cache.ask stage.alive thread key).2.1, fun tally told => ?_⟩
    have alive : ({ stage with tally, notes := told } : Stage κ ν).alive = stage.alive := rfl
    simp only [Move.apply, CacheView.ask, CacheView.store, Stage.view, alive]
    cases (stage.cache.ask stage.alive thread key).1 <;> rfl
  | get key =>
    refine ⟨(stage.cache.get? stage.alive key).2.1, fun tally told => ?_⟩
    have alive : ({ stage with tally, notes := told } : Stage κ ν).alive = stage.alive := rfl
    simp only [Move.apply, CacheView.get?, CacheView.store, Stage.view, alive]
    cases (stage.cache.get? stage.alive key).1 <;> rfl
  | evict key =>
    refine ⟨(stage.cache.evict stage.alive key).2.1, fun tally told => ?_⟩
    have alive : ({ stage with tally, notes := told } : Stage κ ν).alive = stage.alive := rfl
    simp only [Move.apply, CacheView.evict, CacheView.store, Stage.view, alive]
    cases (stage.cache.evict stage.alive key).1 <;> rfl
  | finish thread key value =>
    exact ⟨(stage.cache.settle (Stage.view.hold value stage).alive key value).2.1, fun _ _ => rfl⟩
  | clear => exact ⟨stage.cache.clear.1, fun _ _ => rfl⟩
  | purge => exact ⟨(stage.cache.purge stage.alive).2.1, fun _ _ => rfl⟩
  | abandon | live | relieve | copy | drop => exact quiet fun _ _ => rfl

/-! ## The end of a construction -/

namespace Work

open Stage (view)

variable {work : Work κ ν} {thread : Nat} {key : κ} {stage : Stage κ ν}

/-- The constructor as a crowd runs it. -/
def constructor (work : Work κ ν) : Constructor (Stage κ ν) ν where
  acts := work.moves.map fun move stage => move.apply stage
  ending := match work.ending with
    | .ok value => fun stage => .ok value (view.hold value stage)
    | .error interrupt => throw interrupt

/-- The stage when the constructor has ended. -/
def ended (work : Work κ ν) (key : κ) (stage : Stage κ ν) : Stage κ ν :=
  match work.ending with
  | .ok value => view.note [.constructed key] (view.hold value stage)
  | .error _ => stage

/-- The stage when the object has been entered, if there is one. -/
def entered (work : Work κ ν) (key : κ) (stage : Stage κ ν) : Stage κ ν :=
  (view.conclude key work.ending (work.ended key stage)).2

/-- The keys that the insertion sweeps away. -/
def swept (work : Work κ ν) (key : κ) (stage : Stage κ ν) : List κ :=
  (view.conclude key work.ending (work.ended key stage)).1

/-- The stage when the object has been queued, if there is one. -/
def queued (work : Work κ ν) (key : κ) (stage : Stage κ ν) : Stage κ ν :=
  view.enqueue work.ending (work.entered key stage)

/-- The stage when everything has been reported. -/
def last (work : Work κ ν) (key : κ) (stage : Stage κ ν) : Stage κ ν :=
  view.note ((work.swept key stage).map (.left .reclaimed)) (work.queued key stage)

theorem task_eq (work : Work κ ν) (stage : Stage κ ν) :
    work.constructor.task stage = match work.ending with
      | .ok value => .ok value (view.hold value (Move.after work.moves stage))
      | .error interrupt => .error interrupt (Move.after work.moves stage) := by
  have acts (moves : List (Move κ ν)) (stage : Stage κ ν) :
      (moves.map fun move stage => move.apply stage).foldl (fun stage act => act stage) stage = Move.after moves stage := by
    induction moves generalizing stage with
    | nil => rfl
    | cons move moves inductionHypothesis => exact inductionHypothesis _
  unfold Constructor.task constructor
  dsimp only
  rw [acts]
  cases work.ending <;> rfl

/-- The four steps are the end of a lookup. -/
theorem lookup_eq (free : stage.cache.claim? key = none)
    (dead : ∀ value, stage.cache.find? key = some value → stage.alive value = false) :
    view.lookup thread key work.constructor.task stage = match work.ending with
      | .ok value => .ok value (work.last key (Move.after work.moves (Program.claiming thread key stage)))
      | .error interrupt => .error interrupt (work.last key (Move.after work.moves (Program.claiming thread key stage))) := by
  rw [Program.lookup_of_build (Program.claiming_of_free free dead), task_eq]
  generalize Move.after work.moves (Program.claiming thread key stage) = built
  unfold last queued swept entered ended
  cases work.ending with
  | ok value =>
    have reports (swept : List κ) : Note.constructed key :: swept.map (Note.left .reclaimed)
        = [.constructed key] ++ swept.map (.left .reclaimed) := rfl
    dsimp only
    unfold CacheView.settle CacheView.store Cache.settle
    dsimp only
    rw [reports]
    simp only [CacheView.conclude, CacheView.enqueue, view, Note.count_append, List.append_assoc]
    rfl
  | error interrupt =>
    simp [CacheView.conclude, CacheView.enqueue, CacheView.abandon, view, Note.count]

/-- A key whose construction has succeeded has the object. -/
theorem entered_ok {value : ν} (pending : stage.Pending thread key) (ending : work.ending = .ok value) :
    (work.entered key stage).Entered key value := by
  have settled := stage.cache.settle_spec (view.hold value stage).alive key value
  have table : (work.entered key stage).cache.table = (stage.cache.settle (view.hold value stage).alive key value).2.2.table := by
    unfold entered ended
    rw [ending]
    exact (Cache.table_queue _ value).symm
  have claims : (work.entered key stage).cache.claims = (stage.cache.settle (view.hold value stage).alive key value).2.2.claims := by
    unfold entered ended
    rw [ending]
    exact (Cache.claims_queue _ value).symm
  have held : (work.entered key stage).held = value :: stage.held := by
    unfold entered ended
    rw [ending]
    rfl
  refine ⟨?_, ?_, ?_, held ▸ List.mem_cons_self⟩
  · unfold Cache.Unique
    rw [table]
    exact settled.unique pending.sound.unique
  · rw [Cache.claim?, claims, settled.claims, List.find?_filter, List.find?_eq_none]
    simp
  · rw [table]
    exact settled.own (Stage.alive_of_held List.mem_cons_self)

/-- A key whose construction has failed has no entry and is not claimed. -/
theorem entered_error {interrupt : Interrupt} (pending : stage.Pending thread key) (ending : work.ending = .error interrupt) :
    (work.entered key stage).cache.claim? key = none ∧ (work.entered key stage).cache.has key = false := by
  have cache : (work.entered key stage).cache = stage.cache.abandon key := by
    unfold entered ended
    rw [ending]
    rfl
  rw [cache]
  refine ⟨?_, ?_⟩
  · change (stage.cache.claims.filter fun claim => claim.key != key).find? _ = none
    rw [List.find?_filter, List.find?_eq_none]
    simp
  · change (stage.cache.find? key).isSome = false
    rw [pending.absent]
    rfl

theorem queued_same (work : Work κ ν) (key : κ) (stage : Stage κ ν) :
    (work.queued key stage).cache.table = (work.entered key stage).cache.table
      ∧ (work.queued key stage).cache.claims = (work.entered key stage).cache.claims
      ∧ (work.queued key stage).held = (work.entered key stage).held := by
  unfold queued CacheView.enqueue
  cases work.ending with
  | ok value => exact ⟨Cache.table_queue _ value, Cache.claims_queue _ value, rfl⟩
  | error interrupt => exact ⟨rfl, rfl, rfl⟩

end Work

end CatalogReplica.Identity
