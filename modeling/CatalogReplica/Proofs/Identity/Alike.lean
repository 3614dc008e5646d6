import Mathlib.Data.List.Nodup
import Mathlib.Data.List.Perm.Subperm
import CatalogReplica.Proofs.Identity.Accounts

/-!
# Identity caches that differ in dead entries

Two caches are alike if they have the same live entries, in the same order, and are equal
apart from their tables.  How a cache is shared, how it spreads its keys and when it sweeps
its shards shows in the dead entries alone, so an operation on two caches that are alike
gives the same answer, reports the same hits, misses and constructions and leaves the
caches alike.

* `Cache.Alike`: the caches differ in dead entries.
* `Note.looked`: the reports without those of entries that left.
* `Cache.Alike.ask`, `Cache.Alike.settle`, ...: the operations.
-/

namespace CatalogReplica.Identity

namespace Note

variable {κ : Type} {notes more : List (Note κ)}

/-- The reports without those of entries that left. -/
def looked (notes : List (Note κ)) : List (Note κ) := notes.filter fun note => note.departure?.isNone

@[simp] theorem looked_left (why : Departure) (keys : List κ) : looked (keys.map (.left why)) = [] := by
  simp [looked, departure?]

@[simp] theorem looked_cons (note : Note κ) :
    looked (note :: notes) = if note.departure?.isNone then note :: looked notes else looked notes := by
  simp [looked, List.filter_cons]

/-- Hits, misses and constructions are counted by the reports of them. -/
theorem counted_looked {counter : Counter} (other : ∀ why (key : κ), (left why key).counter? ≠ some counter)
    (notes : List (Note κ)) : counted counter (looked notes) = counted counter notes := by
  induction notes with
  | nil => rfl
  | cons note notes ih =>
    cases note with
    | left why key => simp [departure?, ih, other why key]
    | _ => simp [departure?, ih]

variable [DecidableEq κ]

/-- How often the key was entered. -/
def entered (key : κ) (notes : List (Note κ)) : Nat := notes.count (.constructed key)

theorem entered_looked (key : κ) (notes : List (Note κ)) : entered key (looked notes) = entered key notes :=
  List.count_filter rfl

/-- How many of the departures are of the key. -/
def gone (key : κ) (departures : List (κ × Departure)) : Nat := departures.countP fun entry => entry.1 == key

/-- An entry is there if its key was entered once more than it left. -/
theorem gone_of_follow {key : κ} {inside outside : Bool} (followed : follow key notes inside = some outside) :
    gone key (departures notes) + outside.toNat = entered key notes + inside.toNat := by
  -- On the notes: following a key flips at each construction and departure of it, and the count keeps step.
  induction notes generalizing inside with
  | nil =>
    cases followed
    rfl
  | cons note notes ih =>
    cases note with
    | hit => simpa [departure?, entered] using ih followed
    | miss => simpa [departure?, entered] using ih followed
    | constructed other =>
      rw [follow] at followed
      by_cases same : other = key
      · subst same
        cases inside <;> simp at followed
        simpa [departure?, entered, Nat.add_right_comm] using ih followed
      · rw [if_pos same] at followed
        simpa [departure?, entered, same] using ih followed
    | left why other =>
      rw [follow] at followed
      by_cases same : other = key
      · subst same
        cases inside <;> simp at followed
        have rest := ih followed
        simp only [departures_cons, departure?, gone, entered, Option.toList_some, List.singleton_append,
          List.countP_cons_of_pos, beq_self_eq_true, Bool.toNat_true, Bool.toNat_false] at rest ⊢
        rw [List.count_cons_of_ne (by simp)]
        omega
      · rw [if_pos same] at followed
        simpa [departure?, entered, gone, same] using ih followed

end Note

namespace Cache

variable {κ ν : Type} [DecidableEq κ] [DecidableEq ν]
  {cache after one two one' two' : Cache κ ν} {alive : ν → Bool} {key : κ} {value : ν} {thread : Nat}

/-! ## Live entries -/

omit [DecidableEq ν] in
/-- The live entries tell of every key whether it has a live object. -/
theorem lookup_live (unique : cache.Unique) (alive : ν → Bool) (key : κ) :
    (cache.live alive).lookup key = (cache.find? key).filter alive := by
  let purged : Cache κ ν := { cache with table := cache.live alive }
  have only : purged.Unique := List.Sublist.nodup (List.filter_sublist.map _) unique
  change purged.find? key = _
  cases found : cache.find? key with
  | none =>
    cases kept : purged.find? key with
    | none => rfl
    | some value => exact absurd (List.mem_filter.mp (mem_of_find? kept)).1 (not_mem_of_find? found)
  | some value =>
    cases live : alive value with
    | true =>
      rw [find?_of_mem only (List.mem_filter.mpr ⟨mem_of_find? found, live⟩), Option.filter_some_pos live]
    | false =>
      rw [Option.filter_some_neg (by simp [live])]
      cases kept : purged.find? key with
      | none => rfl
      | some other =>
        obtain ⟨among, isLive⟩ := List.mem_filter.mp (mem_of_find? kept)
        rw [unique.eq among (mem_of_find? found), live] at isLive
        cases isLive

omit [DecidableEq κ] [DecidableEq ν] in
/-- Removing dead entries leaves the live ones in order. -/
theorem Trimmed.live_eq (trimmed : Trimmed alive cache after) (unique : cache.Unique) :
    after.live alive = cache.live alive := by
  have fewer : (after.live alive).Sublist (cache.live alive) := trimmed.table.filter _
  have once : (cache.live alive).Nodup := (List.Nodup.of_map _ unique).sublist List.filter_sublist
  have all : cache.live alive ⊆ after.live alive := by
    intro entry among
    obtain ⟨among, isLive⟩ := List.mem_filter.mp among
    exact List.mem_filter.mpr ⟨trimmed.live entry among isLive, isLive⟩
  exact fewer.eq_of_length_le (once.subperm all).length_le

omit [DecidableEq ν] in
theorem live_of_erased (table : after.table = (cache.erase key).table) (alive : ν → Bool) :
    after.live alive = (cache.live alive).filter fun entry => entry.1 != key := by
  simp only [live, table, erase, List.filter_filter, Bool.and_comm]

/-! ## Caches that are alike -/

/-- The caches are equal apart from their tables, and from how they are shared and swept. -/
structure Matches (one two : Cache κ ν) : Prop where
  name : one.name = two.name
  retention : one.retention = two.retention
  soft : one.soft = two.soft
  claims : one.claims = two.claims

/-- The caches differ in dead entries, and in how they are shared and swept. -/
structure Alike (alive : ν → Bool) (one two : Cache κ ν) : Prop extends one.Matches two where
  live : one.live alive = two.live alive

namespace Matches

omit [DecidableEq κ] [DecidableEq ν] in
theorem trans (first : one.Matches two) (second : two.Matches after) : one.Matches after :=
  ⟨first.name.trans second.name, first.retention.trans second.retention, first.soft.trans second.soft,
    first.claims.trans second.claims⟩

omit [DecidableEq κ] [DecidableEq ν] in
theorem symm (matching : one.Matches two) : two.Matches one :=
  ⟨matching.name.symm, matching.retention.symm, matching.soft.symm, matching.claims.symm⟩

omit [DecidableEq ν] in
theorem claim (matching : one.Matches two) (thread : Nat) (key : κ) :
    (one.claim thread key).1 = (two.claim thread key).1 ∧
      (one.claim thread key).2.Matches (two.claim thread key).2 := by
  obtain ⟨name, retention, soft, claims⟩ := matching
  unfold Cache.claim claim?
  rw [claims]
  split
  · exact ⟨rfl, name, retention, soft, claims⟩
  · exact ⟨rfl, name, retention, soft, rfl⟩

omit [DecidableEq ν] in
theorem abandon (matching : one.Matches two) (key : κ) : (one.abandon key).Matches (two.abandon key) :=
  ⟨matching.name, matching.retention, matching.soft, by simp only [Cache.abandon, matching.claims]⟩

omit [DecidableEq κ] [DecidableEq ν] in
theorem sweep (cache : Cache κ ν) (alive : ν → Bool) (shard : Nat) :
    (cache.sweep alive shard).2.Matches cache := by
  unfold Cache.sweep
  split <;> exact ⟨rfl, rfl, rfl, rfl⟩

omit [DecidableEq κ] [DecidableEq ν] in
/-- The same object is let go of the queue. -/
theorem queue (matching : one.Matches two) (value : ν) :
    (one.queue value).1 = (two.queue value).1 ∧ (one.queue value).2.Matches (two.queue value).2 := by
  obtain ⟨name, retention, soft, claims⟩ := matching
  unfold Cache.queue
  rw [retention, soft]
  split
  · exact ⟨rfl, name, retention, soft, claims⟩
  · split
    · split <;> exact ⟨rfl, name, rfl, rfl, claims⟩
    · exact ⟨rfl, name, retention, soft, claims⟩

end Matches

/-! ## One cache -/

omit [DecidableEq ν] in
theorem claim_frame (cache : Cache κ ν) (thread : Nat) (key : κ) :
    (cache.claim thread key).2.soft = cache.soft ∧ (cache.claim thread key).2.retention = cache.retention := by
  unfold claim
  split <;> exact ⟨rfl, rfl⟩

omit [DecidableEq ν] in
/-- A lookup leaves the queue alone until its construction ends. -/
theorem ask_frame (cache : Cache κ ν) (alive : ν → Bool) (thread : Nat) (key : κ) :
    (cache.ask alive thread key).2.2.soft = cache.soft ∧
      (cache.ask alive thread key).2.2.retention = cache.retention := by
  unfold ask
  split
  · split
    · exact ⟨rfl, rfl⟩
    · exact claim_frame (cache.erase key) thread key
  · exact claim_frame cache thread key

omit [DecidableEq ν] in
/-- A lookup claims its key if it is to construct an object. -/
theorem ask_claims (cache : Cache κ ν) (alive : ν → Bool) (thread : Nat) (key : κ) :
    match (cache.ask alive thread key).1 with
    | .build => cache.claim? key = none ∧
        (cache.ask alive thread key).2.2.claims = ⟨key, thread⟩ :: cache.claims
    | .hit value => (cache.ask alive thread key).2.2.claims = cache.claims ∧
        (key, value) ∈ cache.table ∧ alive value = true
    | _ => (cache.ask alive thread key).2.2.claims = cache.claims := by
  obtain ⟨value, among, live, run⟩ | ⟨asked, notes, after, run, -, -, state⟩ :=
    cache.ask_cases alive thread key
  · rw [run]
    exact ⟨rfl, among, live⟩
  · rw [run]
    obtain ⟨rfl | rfl, -, claims⟩ | ⟨rfl, free, claims⟩ := state
    · exact claims
    · exact claims
    · exact ⟨free, claims⟩

omit [DecidableEq ν] in
theorem get?_matches (cache : Cache κ ν) (alive : ν → Bool) (key : κ) :
    (cache.get? alive key).2.2.Matches cache := by
  unfold get?
  split
  · split
    · exact ⟨rfl, rfl, rfl, rfl⟩
    · split <;> exact ⟨rfl, rfl, rfl, rfl⟩
  · exact ⟨rfl, rfl, rfl, rfl⟩

omit [DecidableEq κ] [DecidableEq ν] in
theorem mem_queue {other : ν} (among : other ∈ (cache.queue value).2.soft) :
    other ∈ cache.soft ∨ other = value := by
  have joined : other ∈ cache.soft ++ [value] → other ∈ cache.soft ∨ other = value := by
    simp
  unfold queue at among
  split at among
  · exact .inl among
  · split at among
    · rename_i oldest rest queued
      rw [queued] at joined
      split at among
      · exact joined (List.mem_cons_of_mem _ among)
      · exact joined among
    · exact .inl among

omit [DecidableEq κ] [DecidableEq ν] in
theorem retention_queue (cache : Cache κ ν) (value : ν) : (cache.queue value).2.retention = cache.retention := by
  unfold queue
  split
  · rfl
  · split
    · split <;> rfl
    · rfl

section one

variable (unique : cache.Unique)

include unique

omit [DecidableEq ν] in
/-- A lookup of a key without a live object asks for its claim. -/
theorem ask_of_missed (missed : (cache.find? key).filter alive = none) (thread : Nat) :
    ∃ notes after, cache.ask alive thread key = ((cache.claim thread key).1, notes, after) ∧
      Note.looked notes = [.miss] ∧ after.Matches (cache.claim thread key).2 ∧
      after.live alive = cache.live alive := by
  have table (mid : Cache κ ν) : (mid.claim thread key).2.live alive = mid.live alive := by
    unfold claim
    split <;> rfl
  unfold ask
  cases found : cache.find? key with
  | none => exact ⟨_, _, rfl, rfl, ⟨rfl, rfl, rfl, rfl⟩, table cache⟩
  | some value =>
    have dead : alive value = false := by simpa [found] using missed
    have trimmed : Trimmed alive cache (cache.erase key) :=
      trimmed_erase fun other among => by rw [unique.eq among (mem_of_find? found), dead]
    have erased : (cache.erase key).Matches cache := ⟨rfl, rfl, rfl, rfl⟩
    obtain ⟨asked, claimed⟩ := erased.claim thread key
    simp only [dead, Bool.false_eq_true, if_false, asked]
    refine ⟨_, _, rfl, ?_, claimed, (table (cache.erase key)).trans (trimmed.live_eq unique)⟩
    unfold removal
    split <;> rfl

omit [DecidableEq ν] in
theorem get?_of_missed (missed : (cache.find? key).filter alive = none) :
    ∃ notes after, cache.get? alive key = (none, notes, after) ∧ Note.looked notes = [.miss] ∧
      after.Matches cache ∧ after.live alive = cache.live alive := by
  unfold get?
  cases found : cache.find? key with
  | none => exact ⟨_, _, rfl, rfl, ⟨rfl, rfl, rfl, rfl⟩, rfl⟩
  | some value =>
    have dead : alive value = false := by simpa [found] using missed
    have trimmed : Trimmed alive cache (cache.erase key) :=
      trimmed_erase fun other among => by rw [unique.eq among (mem_of_find? found), dead]
    simp only [dead, Bool.false_eq_true, if_false]
    cases cache.discipline with
    | shared shards => exact ⟨_, _, rfl, rfl, ⟨rfl, rfl, rfl, rfl⟩, rfl⟩
    | confined => exact ⟨_, _, rfl, rfl, ⟨rfl, rfl, rfl, rfl⟩, trimmed.live_eq unique⟩

omit [DecidableEq ν] in
/-- The end of a construction enters the object, queues it and sweeps dead entries. -/
theorem settle_enters (alive : ν → Bool) (key : κ) (value : ν) :
    (cache.settle alive key value).1 = ((cache.abandon key).queue value).1 ∧
      (cache.settle alive key value).2.2.Matches ((cache.abandon key).queue value).2 ∧
      (cache.settle alive key value).2.2.live alive
        = [(key, value)].filter (fun entry => alive entry.2)
          ++ (cache.live alive).filter fun entry => entry.1 != key := by
  let entered := (cache.abandon key).insert key value
  have once : entered.Unique := by
    unfold Unique
    simp only [entered, insert, List.map_cons, List.nodup_cons]
    refine ⟨fun among => ?_, List.Sublist.nodup (List.filter_sublist.map _) unique⟩
    obtain ⟨entry, kept, same⟩ := List.mem_map.mp among
    exact (mem_erase.mp kept).2 same
  have swept := (Matches.sweep entered alive (entered.shard key)).trans
    (⟨rfl, rfl, rfl, rfl⟩ : entered.Matches (cache.abandon key))
  have queued := swept.queue value
  refine ⟨queued.1, queued.2, ?_⟩
  have trimmed := (trimmed_sweep entered alive (entered.shard key)).trans (.of_eq (table_queue _ value))
  have erased : (cache.erase key).live alive = (cache.live alive).filter fun entry => entry.1 != key :=
    live_of_erased rfl alive
  calc (cache.settle alive key value).2.2.live alive
    _ = entered.live alive := trimmed.live_eq once
    _ = [(key, value)].filter (fun entry => alive entry.2) ++ (cache.erase key).live alive := by
        simp only [live, entered, insert, List.filter_cons, List.filter_nil]
        split <;> rfl
    _ = _ := by rw [erased]

end one

/-- An eviction gives the live object of the key, and removes it from the queue. -/
theorem evict_erases (cache : Cache κ ν) (alive : ν → Bool) (key : κ) :
    let found := (cache.find? key).filter alive
    (cache.evict alive key).1 = found ∧ Note.looked (cache.evict alive key).2.1 = [] ∧
      (cache.evict alive key).2.2.Matches { cache with soft := found.elim cache.soft cache.soft.erase } ∧
      (cache.evict alive key).2.2.live alive = (cache.live alive).filter fun entry => entry.1 != key := by
  obtain ⟨_, _, _, run, table, -⟩ := cache.evict_cases alive key
  have erased : (cache.evict alive key).2.2.table = (cache.erase key).table := by rw [run]; exact table
  have live := live_of_erased erased alive
  suffices answers : (cache.evict alive key).1 = (cache.find? key).filter alive ∧
      Note.looked (cache.evict alive key).2.1 = [] ∧ (cache.evict alive key).2.2.Matches
        { cache with soft := ((cache.find? key).filter alive).elim cache.soft cache.soft.erase } from
    ⟨answers.1, answers.2.1, answers.2.2, live⟩
  unfold evict
  cases cache.find? key with
  | none => exact ⟨rfl, rfl, rfl, rfl, rfl, rfl⟩
  | some value =>
    dsimp only
    cases isLive : alive value with
    | true =>
      rw [Option.filter_some_pos isLive]
      exact ⟨rfl, rfl, rfl, rfl, rfl, rfl⟩
    | false =>
      rw [Option.filter_some_neg (by simp [isLive])]
      exact ⟨rfl, rfl, rfl, rfl, rfl, rfl⟩

/-! ## Two caches -/

namespace Alike

omit [DecidableEq κ] [DecidableEq ν] in
/-- Caches that match two that are alike, and keep their live entries. -/
theorem congr (alike : Alike alive one two) (first : one'.Matches one) (second : two'.Matches two)
    (live : one'.live alive = one.live alive) (live' : two'.live alive = two.live alive) :
    Alike alive one' two' :=
  ⟨first.trans (alike.toMatches.trans second.symm), live.trans (alike.live.trans live'.symm)⟩

variable (alike : Alike alive one two)

include alike

section unique

variable (unique : one.Unique) (unique' : two.Unique)

include unique unique'

omit [DecidableEq ν] in
theorem found (key : κ) : (one.find? key).filter alive = (two.find? key).filter alive := by
  rw [← lookup_live unique, ← lookup_live unique', alike.live]

omit [DecidableEq ν] in
/-- Two lookups find the same object or ask for the same claim. -/
theorem ask (thread : Nat) (key : κ) :
    (one.ask alive thread key).1 = (two.ask alive thread key).1 ∧
      Note.looked (one.ask alive thread key).2.1 = Note.looked (two.ask alive thread key).2.1 ∧
      Alike alive (one.ask alive thread key).2.2 (two.ask alive thread key).2.2 := by
  have same := alike.found unique unique' key
  cases found : (two.find? key).filter alive with
  | some value =>
    obtain ⟨known, live⟩ := Option.filter_eq_some_iff.mp found
    obtain ⟨known', -⟩ := Option.filter_eq_some_iff.mp (same.trans found)
    rw [ask_of_live unique (mem_of_find? known') live, ask_of_live unique' (mem_of_find? known) live]
    exact ⟨rfl, rfl, alike⟩
  | none =>
    obtain ⟨notes, after, run, looked, matching, live⟩ := ask_of_missed unique (same.trans found) thread
    obtain ⟨notes', after', run', looked', matching', live'⟩ := ask_of_missed unique' found thread
    obtain ⟨asked, claimed⟩ := alike.toMatches.claim thread key
    rw [run, run', asked]
    exact ⟨rfl, looked.trans looked'.symm, matching.trans (claimed.trans matching'.symm),
      live.trans (alike.live.trans live'.symm)⟩

omit [DecidableEq ν] in
/-- The same live object of a key is found. -/
theorem get? (key : κ) :
    (one.get? alive key).1 = (two.get? alive key).1 ∧
      Note.looked (one.get? alive key).2.1 = Note.looked (two.get? alive key).2.1 ∧
      Alike alive (one.get? alive key).2.2 (two.get? alive key).2.2 := by
  have same := alike.found unique unique' key
  cases found : (two.find? key).filter alive with
  | some value =>
    obtain ⟨known, live⟩ := Option.filter_eq_some_iff.mp found
    obtain ⟨known', -⟩ := Option.filter_eq_some_iff.mp (same.trans found)
    rw [get?_of_live unique (mem_of_find? known') live, get?_of_live unique' (mem_of_find? known) live]
    exact ⟨rfl, rfl, alike⟩
  | none =>
    obtain ⟨notes, after, run, looked, matching, live⟩ := get?_of_missed unique (same.trans found)
    obtain ⟨notes', after', run', looked', matching', live'⟩ := get?_of_missed unique' found
    rw [run, run']
    exact ⟨rfl, looked.trans looked'.symm, alike.congr matching matching' live live'⟩

/-- The same live object of a key is evicted. -/
theorem evict (key : κ) :
    (one.evict alive key).1 = (two.evict alive key).1 ∧
      Note.looked (one.evict alive key).2.1 = Note.looked (two.evict alive key).2.1 ∧
      Alike alive (one.evict alive key).2.2 (two.evict alive key).2.2 := by
  obtain ⟨answer, looked, matching, live⟩ := one.evict_erases alive key
  obtain ⟨answer', looked', matching', live'⟩ := two.evict_erases alive key
  have same := alike.found unique unique' key
  refine ⟨by rw [answer, answer', same], looked.trans looked'.symm, ⟨?_, ?_⟩⟩
  · refine matching.trans (.trans ?_ matching'.symm)
    rw [same]
    exact ⟨alike.name, alike.retention, by rw [alike.soft], alike.claims⟩
  · rw [live, live', alike.live]

omit [DecidableEq ν] in
/-- The same object is let go, and the new one is in both caches if it lives. -/
theorem settle (key : κ) (value : ν) :
    (one.settle alive key value).1 = (two.settle alive key value).1 ∧
      Note.looked (one.settle alive key value).2.1 = Note.looked (two.settle alive key value).2.1 ∧
      Alike alive (one.settle alive key value).2.2 (two.settle alive key value).2.2 := by
  obtain ⟨answer, matching, live⟩ := settle_enters unique alive key value
  obtain ⟨answer', matching', live'⟩ := settle_enters unique' alive key value
  have queued := (alike.toMatches.abandon key).queue value
  refine ⟨answer.trans (queued.1.trans answer'.symm), ?_, matching.trans (queued.2.trans matching'.symm), ?_⟩
  · simp [Cache.settle, Note.departure?]
  · rw [live, live', alike.live]

end unique

omit [DecidableEq ν] in
theorem abandon (key : κ) : Alike alive (one.abandon key) (two.abandon key) :=
  ⟨alike.toMatches.abandon key, alike.live⟩

omit [DecidableEq κ] [DecidableEq ν] in
theorem clear : Alike alive one.clear.2 two.clear.2 :=
  ⟨⟨alike.name, alike.retention, rfl, alike.claims⟩, rfl⟩

omit [DecidableEq κ] [DecidableEq ν] in
theorem purge : Alike alive (one.purge alive).2.2 (two.purge alive).2.2 := by
  refine ⟨⟨alike.name, alike.retention, alike.soft, alike.claims⟩, ?_⟩
  exact congrArg (List.filter fun entry => alive entry.2) alike.live

omit [DecidableEq κ] [DecidableEq ν] in
theorem relieve : Alike alive one.relieve.2 two.relieve.2 :=
  ⟨⟨alike.name, alike.retention, rfl, alike.claims⟩, alike.live⟩

end Alike

end Cache

end CatalogReplica.Identity
