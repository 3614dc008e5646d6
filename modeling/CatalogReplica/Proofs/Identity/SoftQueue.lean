import Mathlib.Data.List.Pairwise
import CatalogReplica.Proofs.Identity.Retaining
import CatalogReplica.Proofs.Identity.Runs

/-!
# The queue of a soft cache

A soft cache keeps the objects alive that were constructed last, as many as its capacity.  They
wait in a queue: the end of a construction puts its object at the back and pushes the front out
if there is no room, an eviction takes an object out wherever it stands, and a clear or a relief
empties the queue.

* `Move.completed`: the objects of a run, in the order in which their constructions ended.
* `Move.shifts`: what a move does to the queue.
* `Stage.Queued`: what a run of moves keeps of the queue and the table.
* `Stage.Waits`: how many objects stand behind one in the queue.
* `Move.soft_retention`: a soft cache keeps what it promises and no more.
-/

namespace CatalogReplica.Identity

variable {κ ν : Type}

/-! ## The queue by itself -/

namespace Cache

variable {cache : Cache κ ν} {capacity : Nat} {value : ν}

/-- An object is put at the back, and the front goes if there is no room. -/
theorem soft_queue (retention : cache.retention = .soft capacity) (bounded : cache.soft.length ≤ capacity) :
    (cache.queue value).2.soft = (cache.soft ++ [value]).drop (cache.soft.length + 1 - capacity) := by
  have room : cache.retention.capacity = capacity := by rw [retention]; rfl
  unfold queue
  rw [room]
  split
  next empty =>
    subst empty
    rw [List.eq_nil_of_length_eq_zero (Nat.le_zero.mp bounded)]
    rfl
  next =>
    have long : (cache.soft ++ [value]).length = cache.soft.length + 1 := List.length_append
    split
    next oldest rest joined =>
      rw [joined, List.length_cons] at long
      rw [joined]
      split
      next full =>
        have one : cache.soft.length + 1 - capacity = 1 := by omega
        rw [one]
        rfl
      next roomy =>
        have none : cache.soft.length + 1 - capacity = 0 := by omega
        rw [none]
        rfl
    next joined => simp at joined

end Cache

namespace Move

/-- The object whose construction the move ends. -/
def completes : Move κ ν → Option ν
  | .finish _ _ value => some value
  | _ => none

/-- The objects that a run constructs, in the order in which their constructions end. -/
def completed (moves : List (Move κ ν)) : List ν := moves.filterMap completes

theorem completed_append (first second : List (Move κ ν)) :
    completed (first ++ second) = completed first ++ completed second := List.filterMap_append

theorem nodup_of_append {first second : List (Move κ ν)} (once : (completed (first ++ second)).Nodup) :
    (completed first).Nodup := (List.nodup_append.mp (completed_append first second ▸ once)).1

theorem length_completed (moves : List (Move κ ν)) : (completed moves).length = moves.countP constructs := by
  unfold completed
  rw [List.length_filterMap_eq_countP]
  refine List.countP_congr fun move _ => ?_
  cases move <;> simp [completes, constructs]

/-- If every object is constructed once, it has one key. -/
theorem key_of_completed {moves : List (Move κ ν)} (once : (completed moves).Nodup) {one two : Nat} {key other : κ}
    {value : ν} (first : .finish one key value ∈ moves) (second : .finish two other value ∈ moves) : key = other := by
  have apart := List.pairwise_filterMap.mp once
  have : Std.Symm fun one two : Move κ ν => ∀ made, one.completes = some made → ∀ made', two.completes = some made' →
      made ≠ made' := ⟨fun _ _ differ _ here _ there => (differ _ there _ here).symm⟩
  by_contra differ
  have moved : (.finish one key value : Move κ ν) ≠ .finish two other value := fun same => by
    cases same
    exact differ rfl
  exact apart.forall first second moved value rfl value rfl rfl

variable [DecidableEq κ] [DecidableEq ν] {stage : Stage κ ν} {move : Move κ ν} {capacity : Nat}

open Stage (view)

/-! ## One move -/

/-- What a move does to the queue of a cache with a capacity. -/
def shifts (capacity : Nat) (stage : Stage κ ν) : Move κ ν → List ν
  | .finish _ _ value => (stage.cache.soft ++ [value]).drop (stage.cache.soft.length + 1 - capacity)
  | .evict key => ((stage.cache.find? key).filter stage.alive).elim stage.cache.soft stage.cache.soft.erase
  | .clear | .relieve => []
  | _ => stage.cache.soft

theorem apply_queue (retention : stage.cache.retention = .soft capacity) (bounded : stage.cache.soft.length ≤ capacity)
    (unique : stage.cache.Unique) (move : Move κ ν) :
    (move.apply stage).cache.soft = move.shifts capacity stage ∧ (move.apply stage).cache.retention = .soft capacity := by
  rw [← retention]
  -- Only a settled value enters the queue, and only what leaves the table is taken out of it.
  cases move with
  | ask thread key =>
    have frame := stage.cache.ask_frame stage.alive thread key
    unfold apply CacheView.ask
    dsimp only [view]
    generalize stage.cache.ask stage.alive thread key = asked at frame
    obtain ⟨answer, notes, cache⟩ := asked
    cases answer <;> exact frame
  | finish thread key value =>
    have settled := (Cache.settle_enters unique (view.hold value stage).alive key value).2.1
    have retention' : (stage.cache.abandon key).retention = .soft capacity := retention
    exact ⟨settled.soft.trans (Cache.soft_queue retention' bounded),
      settled.retention.trans (Cache.retention_queue _ value)⟩
  | get key =>
    have same := stage.cache.get?_matches stage.alive key
    unfold apply CacheView.get?
    dsimp only [view]
    generalize stage.cache.get? stage.alive key = got at same
    obtain ⟨found, notes, cache⟩ := got
    cases found <;> exact ⟨same.soft, same.retention⟩
  | evict key =>
    have erased := (stage.cache.evict_erases stage.alive key).2.2.1
    unfold apply CacheView.evict
    dsimp only [view]
    generalize stage.cache.evict stage.alive key = evicted at erased
    obtain ⟨found, notes, cache⟩ := evicted
    cases found <;> exact ⟨erased.soft, erased.retention⟩
  | _ => exact ⟨rfl, rfl⟩

/-- An entry was there before, or a construction has entered it. -/
theorem entry_origin {key : κ} {value : ν} (among : (key, value) ∈ (move.apply stage).cache.table) :
    (key, value) ∈ stage.cache.table ∨ ∃ thread, move = .finish thread key value := by
  -- Every move but `finish` keeps the table or thins it.
  cases move with
  | ask thread other =>
    have before : (key, value) ∈ (stage.cache.ask stage.alive thread other).2.2.table → (key, value) ∈ stage.cache.table :=
      Cache.mem_of_ask
    refine .inl (before ?_)
    unfold apply CacheView.ask at among
    dsimp only [view] at among
    generalize stage.cache.ask stage.alive thread other = asked at among
    obtain ⟨answer, notes, cache⟩ := asked
    cases answer <;> exact among
  | finish thread other made =>
    have settled := stage.cache.settle_spec (view.hold made stage).alive other made
    obtain same | ⟨before, -⟩ := settled.entries _ among
    · cases same
      exact .inr ⟨thread, rfl⟩
    · exact .inl before
  | get other =>
    have before : (key, value) ∈ (stage.cache.get? stage.alive other).2.2.table → (key, value) ∈ stage.cache.table :=
      Cache.mem_of_get?
    refine .inl (before ?_)
    unfold apply CacheView.get? at among
    dsimp only [view] at among
    generalize stage.cache.get? stage.alive other = got at among
    obtain ⟨found, notes, cache⟩ := got
    cases found <;> exact among
  | evict other =>
    have before : (key, value) ∈ (stage.cache.evict stage.alive other).2.2.table →
        (key, value) ∈ stage.cache.table ∧ key ≠ other := Cache.mem_of_evict
    refine .inl (before ?_).1
    unfold apply CacheView.evict at among
    dsimp only [view] at among
    generalize stage.cache.evict stage.alive other = evicted at among
    obtain ⟨found, notes, cache⟩ := evicted
    cases found <;> exact among
  | clear => cases among
  | purge => exact .inl (List.mem_filter.mp among).1
  | _ => exact .inl among

end Move

variable [DecidableEq κ] [DecidableEq ν] {stage : Stage κ ν} {move : Move κ ν} {moves : List (Move κ ν)} {capacity : Nat}

namespace Stage

omit [DecidableEq κ] in
theorem alive_of_queued {value : ν} (queued : value ∈ stage.cache.soft) : stage.alive value = true := by
  simp [alive, Cache.keeps, queued]

omit [DecidableEq κ] in
/-- A soft cache keeps alive what is in its queue. -/
theorem alive_iff (retention : stage.cache.retention = .soft capacity) {value : ν} :
    stage.alive value = true ↔ value ∈ stage.held ∨ value ∈ stage.cache.soft := by
  simp [alive, Cache.keeps, retention]

/-- What a run has left in the table and in the queue.  The queue has at most as many objects as
    its capacity, in the order in which they were constructed, and each has its entry. -/
structure Queued (capacity : Nat) (moves : List (Move κ ν)) (stage : Stage κ ν) : Prop where
  retention : stage.cache.retention = .soft capacity
  bounded : stage.cache.soft.length ≤ capacity
  ordered : stage.cache.soft.Sublist (Move.completed moves)
  entered : ∀ key value, (key, value) ∈ stage.cache.table → ∃ thread, .finish thread key value ∈ moves
  entries : ∀ value ∈ stage.cache.soft, ∃ key, (key, value) ∈ stage.cache.table

omit [DecidableEq κ] [DecidableEq ν] in
theorem start_queued (name : String) (discipline : Discipline) (spread : κ → Nat) :
    Queued capacity [] (start name (.soft capacity) discipline spread : Stage κ ν) :=
  ⟨rfl, Nat.zero_le _, List.Sublist.refl _, nofun, nofun⟩

namespace Queued

variable (queued : Queued capacity moves stage) (sound : stage.Sound)

include queued

omit [DecidableEq κ] [DecidableEq ν] in
theorem soft_nodup (once : (Move.completed moves).Nodup) : stage.cache.soft.Nodup := queued.ordered.nodup once

include sound

/-- An object in the queue leaves its entry with the queue only. -/
theorem entries_apply (once : (Move.completed (moves ++ [move])).Nodup) (allowed : move.Allowed stage) :
    ∀ value ∈ move.shifts capacity stage, ∃ key, (key, value) ∈ (move.apply stage).cache.table := by
  intro value among
  have leads := Move.apply_leads sound allowed
  have kept (stays : value ∈ stage.cache.soft) (evicted : ∀ key, (key, value) ∈ stage.cache.table → move ≠ .evict key)
      (cleared : move ≠ .clear) : ∃ key, (key, value) ∈ (move.apply stage).cache.table := by
    obtain ⟨key, entry⟩ := queued.entries value stays
    exact ⟨key, leads.stays key value entry (alive_of_queued stays) (evicted key entry) cleared⟩
  cases move with
  | finish thread key made =>
    have joined : value ∈ stage.cache.soft ++ [made] := List.mem_of_mem_drop among
    cases List.mem_append.mp joined with
    | inl stays => exact kept stays (fun _ _ => nofun) nofun
    | inr new =>
      obtain rfl := List.mem_singleton.mp new
      exact ⟨key, (Move.Gives.made thread).entry sound allowed⟩
  | evict key =>
    have nodup : stage.cache.soft.Nodup := queued.soft_nodup (Move.nodup_of_append once)
    change value ∈ ((stage.cache.find? key).filter stage.alive).elim stage.cache.soft stage.cache.soft.erase at among
    cases found : (stage.cache.find? key).filter stage.alive with
    | none =>
      -- the entry of the key has no live object, so it is not that of a queued one
      rw [found] at among
      refine kept among (fun other entry same => ?_) nofun
      cases same
      have dead := Option.filter_eq_none_iff.mp found value (Cache.find?_of_mem sound.unique entry)
      exact dead (alive_of_queued among)
    | some gone =>
      rw [found] at among
      obtain ⟨differs, stays⟩ := nodup.mem_erase_iff.mp among
      refine kept stays (fun other entry same => ?_) nofun
      cases same
      obtain ⟨known, -⟩ := Option.filter_eq_some_iff.mp found
      exact differs (sound.unique.eq entry (Cache.mem_of_find? known))
  | clear => cases among
  | relieve => cases among
  | _ => exact kept among (fun _ _ => nofun) nofun

/-- One more move keeps the queue in order. -/
theorem apply (once : (Move.completed (moves ++ [move])).Nodup) (allowed : move.Allowed stage) :
    Queued capacity (moves ++ [move]) (move.apply stage) := by
  obtain ⟨soft, retention⟩ := Move.apply_queue queued.retention queued.bounded sound.unique move
  have entries := queued.entries_apply sound once allowed
  rw [← soft] at entries
  -- The capacity, the order of completion, the origin of each entry, and the entry of each queued value.
  refine ⟨retention, ?_, ?_, fun key value among => ?_, entries⟩
  · have bounded := queued.bounded
    rw [soft]
    unfold Move.shifts
    split
    · rw [List.length_drop, List.length_append, List.length_singleton]
      omega
    · cases (stage.cache.find? _).filter stage.alive with
      | none => exact bounded
      | some gone => exact Nat.le_trans List.erase_sublist.length_le bounded
    · exact Nat.zero_le _
    · exact Nat.zero_le _
    · exact bounded
  · have ordered := queued.ordered
    rw [soft, Move.completed_append]
    unfold Move.shifts
    split
    · exact (List.drop_sublist _ _).trans (ordered.append (List.Sublist.refl _))
    · refine List.Sublist.trans ?_ (ordered.trans (List.sublist_append_left _ _))
      cases (stage.cache.find? _).filter stage.alive with
      | none => exact List.Sublist.refl _
      | some gone => exact List.erase_sublist
    · exact List.nil_sublist _
    · exact List.nil_sublist _
    · exact ordered.trans (List.sublist_append_left _ _)
  · obtain before | ⟨thread, rfl⟩ := Move.entry_origin among
    · obtain ⟨thread, done⟩ := queued.entered key value before
      exact ⟨thread, List.mem_append_left _ done⟩
    · exact ⟨thread, List.mem_append_right _ (List.mem_singleton_self _)⟩

/-- A run keeps the queue in order. -/
theorem after {since : List (Move κ ν)} (once : (Move.completed (moves ++ since)).Nodup)
    (allowed : Move.AllowedAll since stage) : Queued capacity (moves ++ since) (Move.after since stage) := by
  induction since generalizing stage moves with
  | nil =>
    rw [List.append_nil]
    exact queued
  | cons move since ih =>
    have split : moves ++ move :: since = (moves ++ [move]) ++ since := by simp
    rw [split] at once ⊢
    exact ih (queued.apply sound (Move.nodup_of_append once) allowed.1) (Move.apply_leads sound allowed.1).sound once allowed.2

end Queued

/-- The object waits in the queue, with at most so many behind it. -/
def Waits (behind : Nat) (value : ν) (stage : Stage κ ν) : Prop :=
  ∃ older younger, stage.cache.soft = older ++ value :: younger ∧ younger.length ≤ behind

omit [DecidableEq κ] [DecidableEq ν] in
theorem Waits.mem {behind : Nat} {value : ν} (waits : stage.Waits behind value) : value ∈ stage.cache.soft := by
  obtain ⟨older, younger, standing, -⟩ := waits
  rw [standing]
  exact List.mem_append_right older List.mem_cons_self

end Stage

namespace Move

open Stage (view)

/-! ## How long an object waits -/

section waiting

variable {behind : Nat} {thread : Nat} {key : κ} {value : ν}

/-- An object in the queue stays there while there is room for all that are constructed after
    it, unless its key is evicted or the queue is emptied. -/
theorem waits_apply (queued : stage.Queued capacity moves) (sound : stage.Sound)
    (once : (completed moves).Nodup) (entry : (key, value) ∈ stage.cache.table)
    (waits : stage.Waits behind value) (room : behind + move.constructs.toNat < capacity)
    (unevicted : move ≠ .evict key) (uncleared : move ≠ .clear) (unrelieved : move ≠ .relieve) :
    (move.apply stage).Waits (behind + move.constructs.toNat) value := by
  obtain ⟨soft, -⟩ := apply_queue queued.retention queued.bounded sound.unique move
  obtain ⟨older, younger, standing, few⟩ := waits
  unfold Stage.Waits
  rw [soft]
  cases move with
  | finish thread other made =>
    change behind + 1 < capacity at room
    refine ⟨older.drop (stage.cache.soft.length + 1 - capacity), younger ++ [made], ?_, ?_⟩
    · -- the front that goes is an older object, since there is room for those behind this one
      have early : stage.cache.soft.length + 1 - capacity ≤ older.length := by
        rw [standing, List.length_append, List.length_cons]
        omega
      change (stage.cache.soft ++ [made]).drop (stage.cache.soft.length + 1 - capacity) = _
      rw [standing] at early ⊢
      rw [List.append_assoc, List.drop_append_of_le_length early, List.cons_append]
    · rw [List.length_append]
      exact Nat.add_le_add_right few 1
  | evict other =>
    change ∃ older younger, ((stage.cache.find? other).filter stage.alive).elim _ _ = _ ∧ _
    cases found : (stage.cache.find? other).filter stage.alive with
    | none => exact ⟨older, younger, standing, few⟩
    | some gone =>
      -- an object was constructed once, so that it has one key, and that one is not evicted
      have differs : value ≠ gone := by
        rintro rfl
        obtain ⟨known, -⟩ := Option.filter_eq_some_iff.mp found
        obtain ⟨one, first⟩ := queued.entered _ _ entry
        obtain ⟨two, second⟩ := queued.entered _ _ (Cache.mem_of_find? known)
        exact unevicted (congrArg evict (key_of_completed once second first))
      change ∃ older younger, stage.cache.soft.erase gone = _ ∧ _
      rw [standing, List.erase_append]
      split
      · exact ⟨_, younger, rfl, few⟩
      · rw [List.erase_cons_tail (by simpa using differs)]
        exact ⟨older, _, rfl, Nat.le_trans List.erase_sublist.length_le few⟩
  | clear => exact absurd rfl uncleared
  | relieve => exact absurd rfl unrelieved
  | _ => exact ⟨older, younger, standing, few⟩

/-- A run with fewer constructions than there is room for leaves an object waiting. -/
theorem waits_after {since : List (Move κ ν)} (queued : stage.Queued capacity moves) (sound : stage.Sound)
    (once : (completed (moves ++ since)).Nodup) (allowed : AllowedAll since stage)
    (entry : (key, value) ∈ stage.cache.table) (waits : stage.Waits behind value)
    (room : behind + since.countP constructs < capacity)
    (unevicted : .evict key ∉ since) (uncleared : .clear ∉ since) (unrelieved : .relieve ∉ since) :
    (after since stage).Waits (behind + since.countP constructs) value := by
  induction since generalizing stage moves behind with
  | nil => exact waits
  | cons move since ih =>
    have split : moves ++ move :: since = (moves ++ [move]) ++ since := by simp
    have counted : (move :: since).countP constructs = move.constructs.toNat + since.countP constructs := by
      rw [List.countP_cons, Nat.add_comm]
      cases move.constructs <;> rfl
    rw [counted, ← Nat.add_assoc] at room ⊢
    rw [List.mem_cons, not_or] at unevicted uncleared unrelieved
    rw [split] at once
    have first : (completed (moves ++ [move])).Nodup := nodup_of_append once
    have leads := apply_leads sound allowed.1
    have live := Stage.alive_of_queued waits.mem
    exact ih (queued.apply sound first allowed.1) leads.sound once allowed.2
      (leads.stays key value entry live (Ne.symm unevicted.1) (Ne.symm uncleared.1))
      (waits_apply queued sound (nodup_of_append first) entry waits (by omega) (Ne.symm unevicted.1) (Ne.symm uncleared.1)
        (Ne.symm unrelieved.1))
      room unevicted.2 uncleared.2 unrelieved.2

/-- Without an eviction, a clear or a relief the queue has the objects that were constructed
    last. -/
theorem soft_after {since : List (Move κ ν)} (queued : stage.Queued capacity moves) (sound : stage.Sound)
    (once : (completed (moves ++ since)).Nodup) (allowed : AllowedAll since stage)
    (unevicted : ∀ key, .evict key ∉ since) (uncleared : .clear ∉ since) (unrelieved : .relieve ∉ since) :
    (after since stage).cache.soft = (stage.cache.soft ++ completed since).drop
      (stage.cache.soft.length + (completed since).length - capacity) := by
  have bounded := queued.bounded
  induction since generalizing stage moves with
  | nil =>
    have roomy : stage.cache.soft.length + 0 - capacity = 0 := by omega
    change stage.cache.soft = (stage.cache.soft ++ []).drop (stage.cache.soft.length + 0 - capacity)
    rw [roomy, List.append_nil, List.drop_zero]
  | cons move since ih =>
    have split : moves ++ move :: since = (moves ++ [move]) ++ since := by simp
    rw [split] at once
    have next := queued.apply sound (nodup_of_append once) allowed.1
    have rest := ih next (apply_leads sound allowed.1).sound once allowed.2
      (fun key among => unevicted key (List.mem_cons_of_mem _ among)) (fun among => uncleared (List.mem_cons_of_mem _ among))
      (fun among => unrelieved (List.mem_cons_of_mem _ among)) next.bounded
    obtain ⟨soft, -⟩ := apply_queue queued.retention bounded sound.unique move
    have shifted : move.shifts capacity stage = (stage.cache.soft ++ completed [move]).drop
        (stage.cache.soft.length + (completed [move]).length - capacity) := by
      have roomy : stage.cache.soft.length + 0 - capacity = 0 := by omega
      have same : stage.cache.soft = (stage.cache.soft ++ []).drop (stage.cache.soft.length + 0 - capacity) := by
        rw [roomy, List.append_nil, List.drop_zero]
      cases move with
      | finish thread key value => rfl
      | evict key => exact absurd List.mem_cons_self (unevicted key)
      | clear => exact absurd List.mem_cons_self uncleared
      | relieve => exact absurd List.mem_cons_self unrelieved
      | _ => exact same
    have whole : completed (move :: since) = completed [move] ++ completed since := completed_append [move] since
    have early : stage.cache.soft.length + (completed [move]).length - capacity
        ≤ (stage.cache.soft ++ completed [move]).length := by
      rw [List.length_append]
      omega
    -- what goes at the front now and what goes later are one piece of the whole
    change (after since (move.apply stage)).cache.soft = _
    rw [rest, soft, shifted, whole, ← List.append_assoc, ← List.drop_append_of_le_length early, List.drop_drop]
    congr 1
    simp only [List.length_drop, List.length_append] at early ⊢
    omega

variable {since : List (Move κ ν)} (queued : stage.Queued capacity moves) (sound : stage.Sound)
  (once : (completed (moves ++ .finish thread key value :: since)).Nodup)
  (allowed : AllowedAll (.finish thread key value :: since) stage)

include queued sound once allowed

/-- A new object waits while fewer objects than the capacity are constructed after it. -/
theorem waits_of_finished (few : since.countP constructs < capacity) (unevicted : .evict key ∉ since)
    (uncleared : .clear ∉ since) (unrelieved : .relieve ∉ since) :
    value ∈ (after (.finish thread key value :: since) stage).cache.soft := by
  have split : moves ++ .finish thread key value :: since = (moves ++ [.finish thread key value]) ++ since := by simp
  rw [split] at once
  have waits : ((finish thread key value).apply stage).Waits 0 value := by
    obtain ⟨soft, -⟩ := apply_queue queued.retention queued.bounded sound.unique (finish thread key value)
    have early : stage.cache.soft.length + 1 - capacity ≤ stage.cache.soft.length := by omega
    refine ⟨stage.cache.soft.drop (stage.cache.soft.length + 1 - capacity), [], ?_, Nat.le_refl 0⟩
    rw [soft, ← List.drop_append_of_le_length early]
    rfl
  exact (waits_after (queued.apply sound (nodup_of_append once) allowed.1) (apply_leads sound allowed.1).sound once allowed.2
    ((Gives.made thread).entry sound allowed.1) waits (by omega) unevicted uncleared unrelieved).mem

/-- If nothing is evicted, a new object does not wait longer. -/
theorem gone_of_finished (many : capacity ≤ since.countP constructs) (unevicted : ∀ key, .evict key ∉ since)
    (uncleared : .clear ∉ since) (unrelieved : .relieve ∉ since) :
    value ∉ (after (.finish thread key value :: since) stage).cache.soft := by
  have soft := soft_after queued sound once allowed (by simpa using unevicted) (by simpa using uncleared)
    (by simpa using unrelieved)
  have made : completed (.finish thread key value :: since) = value :: completed since := rfl
  -- what is left is a part of what was constructed since, and that is not this object
  have new : value ∉ completed since := by
    rw [completed_append, made] at once
    exact (List.nodup_cons.mp (List.nodup_append.mp once).2.1).1
  have late : (stage.cache.soft ++ [value]).length
      ≤ stage.cache.soft.length + (completed since).length + 1 - capacity := by
    rw [length_completed, List.length_append, List.length_singleton]
    omega
  rw [soft, made, List.append_cons, List.length_cons, ← Nat.add_assoc, List.drop_append, List.drop_of_length_le late,
    List.nil_append]
  exact fun among => new (List.mem_of_mem_drop among)

end waiting

/-! ## Every run -/

section retention

variable (name : String) (discipline : Discipline) (spread : κ → Nat)

/-- A soft cache keeps what it promises and no more, in every run that constructs an object but
    once.  Its queue has at most as many objects as its capacity, in the order in which their
    constructions ended, and each is what its key gives; no other object is alive that nobody
    holds.  An object stays alive while fewer objects than the capacity are constructed after
    it, unless its key is evicted or the cache is cleared or relieved; and if nothing is
    evicted, it does not stay longer.  A relief counts the queue and leaves those alive that
    somebody holds. -/
theorem soft_retention
    (allowed : AllowedAll moves (Stage.start name (.soft capacity) discipline spread : Stage κ ν))
    (once : (completed moves).Nodup) :
    let now := after moves (Stage.start name (.soft capacity) discipline spread)
    (now.cache.soft.length ≤ capacity ∧ now.cache.soft.Nodup ∧ now.cache.soft.Sublist (completed moves) ∧
      ∀ value ∈ now.cache.soft, now.alive value = true ∧
        ∃ key, (key, value) ∈ now.cache.table ∧ (view.get? key now).1 = some value) ∧
    (∀ spare : List ν, spare.Nodup → (∀ value ∈ spare, now.alive value = true ∧ value ∉ now.held) →
      spare.length ≤ capacity) ∧
    (∀ before thread key value since, moves = before ++ .finish thread key value :: since →
      .evict key ∉ since → .clear ∉ since → .relieve ∉ since →
        (since.countP constructs < capacity → now.alive value = true) ∧
        ((∀ other, .evict other ∉ since) → capacity ≤ since.countP constructs →
          (now.alive value = true ↔ value ∈ now.held))) ∧
    (view.relieve now).1 = now.cache.soft.length ∧
      ∀ value, (view.relieve now).2.alive value = true ↔ value ∈ now.held := by
  intro now
  have sound : now.Sound := (after_run (Stage.start_sound name (.soft capacity) discipline spread) allowed).sound
  have queued : now.Queued capacity moves :=
    (Stage.start_queued name discipline spread).after (Stage.start_sound name _ discipline spread) once allowed
  refine ⟨⟨queued.bounded, queued.soft_nodup once, queued.ordered, fun value waits => ?_⟩, fun spare nodup idle => ?_,
    fun before thread key value since split unevicted uncleared unrelieved => ?_, rfl, fun value => ?_⟩
  · have live := Stage.alive_of_queued waits
    obtain ⟨key, entry⟩ := queued.entries value waits
    refine ⟨live, key, entry, ?_⟩
    rw [CacheView.get?_of_live sound.unique entry live]
  · have waiting : spare ⊆ now.cache.soft := fun value among =>
      ((Stage.alive_iff queued.retention).mp (idle value among).1).resolve_left (idle value among).2
    exact Nat.le_trans (nodup.subperm waiting).length_le queued.bounded
  · subst split
    obtain ⟨allowedBefore, allowedSince⟩ := allowedAll_append.mp allowed
    have onceBefore : (completed before).Nodup := nodup_of_append once
    have started : (Stage.start name (.soft capacity) discipline spread : Stage κ ν).Sound := Stage.start_sound name _ _ _
    have soundBefore := (after_run started allowedBefore).sound
    have queuedBefore := (Stage.start_queued name discipline spread).after started onceBefore allowedBefore
    have last : now = after (.finish thread key value :: since) (after before _) := after_append before _ _
    rw [Stage.alive_iff queued.retention]
    refine ⟨fun few => .inr ?_, fun others many => or_iff_left ?_⟩
    · rw [last]
      exact waits_of_finished queuedBefore soundBefore once allowedSince few unevicted uncleared unrelieved
    · rw [last]
      exact gone_of_finished queuedBefore soundBefore once allowedSince many others uncleared unrelieved
  · simp [CacheView.relieve, view, Cache.relieve, Stage.alive, Cache.keeps, queued.retention]

end retention

/-- The constructor for 1 constructs the object of 2.  The object of 1 is evicted, so that there
    is room for the object of 2 when that of 3 is constructed; the object of 4 pushes it out. -/
def softRun : List (Move Nat Nat) :=
  [.ask 0 1, .ask 0 2, .finish 0 2 20, .drop 20, .finish 0 1 10, .drop 10, .evict 1, .drop 10,
    .ask 0 3, .finish 0 3 30, .drop 30, .get 2, .drop 20, .ask 0 4, .finish 0 4 40]

theorem soft_retention_softRun :
    let start : Stage Nat Nat := Stage.start "mirrors" (.soft 2) .confined id
    AllowedAll softRun start ∧ (completed softRun).Nodup ∧
      (after softRun start).cache.soft.Sublist [20, 10, 30, 40] ∧ (after softRun start).alive 30 = true ∧
      (view.relieve (after softRun start)).1 = 2 :=
  have allowed : AllowedAll softRun (Stage.start "mirrors" (.soft 2) .confined id) := by decide
  have retained := soft_retention "mirrors" .confined id allowed (by decide)
  have alive := (retained.2.2.1 (softRun.take 9) 0 3 30 (softRun.drop 10) rfl (by decide) (by decide) (by decide)).1
    (by decide)
  ⟨allowed, by decide, retained.1.2.2.1, alive, retained.2.2.2.1⟩

end Move

end CatalogReplica.Identity
