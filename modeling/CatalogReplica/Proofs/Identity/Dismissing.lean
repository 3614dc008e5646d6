import CatalogReplica.Proofs.Identity.Retaining
import Mathlib.Data.List.Dedup

/-!
# Keys that leave a cache

What an eviction leaves of a cache does not depend on which of its objects live.  Several
evictions leave the same cache in whatever order they happen, and if one of them happens twice.

* `foldl_of_set`: steps in any order, and as often as they like.
* `Cache.dismiss`: what an eviction leaves of a cache.
* `Cache.evict_run`: an eviction, exactly.
-/

namespace CatalogReplica.Identity

/-! ## Steps in any order -/

section steps

variable {α σ : Type} {step : σ → α → σ} (swap : ∀ state one other, step (step state one) other = step (step state other) one)
  (again : ∀ state one, step (step state one) one = step state one)

include swap again

/-- A step that is taken later anyway makes no difference. -/
theorem foldl_absorb {one : α} {list : List α} (later : one ∈ list) (state : σ) :
    list.foldl step (step state one) = list.foldl step state := by
  induction list generalizing state with
  | nil => cases later
  | cons first list ih =>
    rw [List.foldl_cons, List.foldl_cons]
    obtain rfl | later := List.mem_cons.mp later
    · rw [again]
    · rw [swap, ih later]

theorem foldl_dedup [DecidableEq α] (list : List α) (state : σ) : list.dedup.foldl step state = list.foldl step state := by
  induction list generalizing state with
  | nil => rfl
  | cons first list ih =>
    rw [List.foldl_cons]
    by_cases later : first ∈ list
    · rw [List.dedup_cons_of_mem later, ih, foldl_absorb swap again later]
    · rw [List.dedup_cons_of_notMem later, List.foldl_cons, ih]

/-- Steps that commute and that may be repeated lead to what depends on the set of steps. -/
theorem foldl_of_set [DecidableEq α] {list list' : List α} (same : ∀ one, one ∈ list ↔ one ∈ list') (state : σ) :
    list.foldl step state = list'.foldl step state := by
  have perm : list.dedup.Perm list'.dedup := by
    refine (List.perm_ext_iff_of_nodup (List.nodup_dedup _) (List.nodup_dedup _)).mpr fun one => ?_
    rw [List.mem_dedup, List.mem_dedup, same]
  rw [← foldl_dedup swap again list, ← foldl_dedup swap again list']
  exact perm.foldl_eq' (fun one _ other _ state => swap state one other) state

end steps

namespace Cache

variable {κ ν : Type} [DecidableEq κ] [DecidableEq ν] {alive : ν → Bool} {cache : Cache κ ν} {key other : κ} {value : ν}

/-! ## One key -/

/-- What an eviction leaves of a cache. -/
def dismiss (cache : Cache κ ν) (key : κ) : Cache κ ν :=
  match cache.find? key with
  | none => cache
  | some value => { cache.erase key with soft := cache.soft.erase value }

omit [DecidableEq ν] in
theorem find?_erase (cache : Cache κ ν) (key other : κ) :
    (cache.erase key).find? other = if other = key then none else cache.find? other := by
  unfold find? erase
  dsimp only
  generalize cache.table = table
  induction table with
  | nil => simp
  | cons entry table ih =>
    obtain ⟨first, value⟩ := entry
    rw [List.filter_cons]
    by_cases gone : first = key
    · subst gone
      simp only [bne_self_eq_false, Bool.false_eq_true, if_false, ih]
      split
      · rfl
      · next differs => rw [List.lookup_cons, beq_eq_false_iff_ne.mpr differs]
    · simp only [bne_iff_ne, ne_eq, gone, not_false_eq_true, if_true, List.lookup_cons]
      by_cases same : other = first
      · simp [same, gone]
      · simp [beq_eq_false_iff_ne.mpr same, ih]

theorem dismiss_of_none (absent : cache.find? key = none) : cache.dismiss key = cache := by
  unfold dismiss
  rw [absent]

theorem dismiss_of_some (found : cache.find? key = some value) :
    cache.dismiss key = { cache.erase key with soft := cache.soft.erase value } := by
  unfold dismiss
  rw [found]

theorem find?_dismiss (cache : Cache κ ν) (key other : κ) :
    (cache.dismiss key).find? other = if other = key then none else cache.find? other := by
  cases found : cache.find? key with
  | none =>
    rw [dismiss_of_none found]
    split
    · next same => rw [same, found]
    · rfl
  | some value =>
    rw [dismiss_of_some found]
    exact find?_erase cache key other

theorem dismiss_dismiss (cache : Cache κ ν) (key : κ) : (cache.dismiss key).dismiss key = cache.dismiss key :=
  dismiss_of_none (by rw [find?_dismiss, if_pos rfl])

/-- Keys leave in any order. -/
theorem dismiss_comm (cache : Cache κ ν) (key other : κ) :
    (cache.dismiss key).dismiss other = (cache.dismiss other).dismiss key := by
  by_cases same : other = key
  · rw [same]
  · have first : (cache.dismiss key).find? other = cache.find? other := by rw [find?_dismiss, if_neg same]
    have second : (cache.dismiss other).find? key = cache.find? key := by rw [find?_dismiss, if_neg (Ne.symm same)]
    cases its : cache.find? key with
    | none => rw [dismiss_of_none its, dismiss_of_none (second.trans its)]
    | some value =>
      cases its' : cache.find? other with
      | none => rw [dismiss_of_none its', dismiss_of_none (first.trans its')]
      | some value' =>
        rw [dismiss_of_some (first.trans its'), dismiss_of_some (second.trans its), dismiss_of_some its, dismiss_of_some its']
        simp only [erase, List.filter_filter, Bool.and_comm, List.erase_comm]

omit [DecidableEq ν] in
theorem find?_eq_none : cache.find? key = none ↔ ∀ entry ∈ cache.table, entry.1 ≠ key := by
  unfold find?
  rw [List.lookup_eq_none_iff]
  exact forall₂_congr fun entry _ => by rw [bne_iff_ne, ne_comm]

theorem mem_dismiss {entry : κ × ν} : entry ∈ (cache.dismiss key).table ↔ entry ∈ cache.table ∧ entry.1 ≠ key := by
  cases found : cache.find? key with
  | none =>
    rw [dismiss_of_none found]
    exact (and_iff_left_of_imp fun among => find?_eq_none.mp found entry among).symm
  | some value =>
    rw [dismiss_of_some found]
    exact mem_erase

/-- What the cache keeps alive after an eviction it kept alive before. -/
theorem keeps_of_dismiss (kept : (cache.dismiss key).keeps value = true) : cache.keeps value = true := by
  cases found : cache.find? key with
  | none => rwa [dismiss_of_none found] at kept
  | some other =>
    rw [dismiss_of_some found, keeps_iff] at kept
    rw [keeps_iff]
    refine kept.imp List.mem_of_mem_erase (And.imp_right ?_)
    rintro ⟨key, among⟩
    exact ⟨key, (mem_erase.mp among).1⟩

/-- The cache keeps alive what it kept, apart from the object of the key. -/
theorem keeps_dismiss (unique : cache.Unique) (kept : cache.keeps value = true) (other : cache.find? key ≠ some value) :
    (cache.dismiss key).keeps value = true := by
  cases found : cache.find? key with
  | none => rwa [dismiss_of_none found]
  | some gone =>
    rw [keeps_iff] at kept
    rw [dismiss_of_some found, keeps_iff]
    refine kept.imp (fun queued => ?_) (And.imp_right ?_)
    · refine (List.mem_erase_of_ne ?_).mpr queued
      rintro rfl
      exact other found
    · rintro ⟨its, among⟩
      exact ⟨its, mem_erase.mpr ⟨among, fun same => other (same ▸ find?_of_mem unique among)⟩⟩

omit [DecidableEq ν] in
theorem length_erase (unique : cache.Unique) (key : κ) :
    cache.length = (cache.erase key).length + (cache.find? key).toList.length := by
  unfold Unique at unique
  unfold length erase find?
  dsimp only
  generalize cache.table = table at unique
  induction table with
  | nil => rfl
  | cons entry table ih =>
    obtain ⟨first, value⟩ := entry
    rw [List.map_cons, List.nodup_cons] at unique
    by_cases same : first = key
    · subst same
      have absent : ((first, value) :: table).filter (·.1 != first) = table := by
        rw [List.filter_cons_of_neg (by simp), List.filter_eq_self]
        exact fun entry among => bne_iff_ne.mpr fun its => unique.1 (List.mem_map.mpr ⟨entry, among, its⟩)
      rw [absent, List.lookup_cons_self]
      rfl
    · have differs : (key == first) = false := beq_eq_false_iff_ne.mpr (Ne.symm same)
      rw [List.filter_cons_of_pos (by simpa using same), List.lookup_cons, differs, List.length_cons, List.length_cons,
        ih unique.2]
      exact Nat.add_right_comm _ _ 1

/-- An eviction takes the entry of the key away, if there is one, and no other. -/
theorem length_dismiss (unique : cache.Unique) (key : κ) :
    cache.length = (cache.dismiss key).length + (cache.find? key).toList.length := by
  cases found : cache.find? key with
  | none =>
    rw [dismiss_of_none found]
    rfl
  | some value =>
    rw [dismiss_of_some found, ← found]
    exact length_erase unique key

/-- An eviction gives the object of the key if it lives, and leaves the cache without the key. -/
theorem evict_run (soft : ∀ value ∈ cache.soft, alive value = true) (key : κ) :
    ∃ notes, cache.evict alive key = ((cache.find? key).filter alive, notes, cache.dismiss key) := by
  unfold evict dismiss
  cases cache.find? key with
  | none => exact ⟨_, rfl⟩
  | some value =>
    dsimp only
    cases live : alive value with
    | true => exact ⟨[.left .evicted key], by simp [Option.filter, live, erase]⟩
    | false =>
      -- what does not live is not in the queue
      have absent : value ∉ cache.soft := fun among => by
        rw [soft value among] at live
        cases live
      rw [List.erase_of_not_mem absent]
      exact ⟨[.left .evicted key], by simp [Option.filter, live, erase]⟩

end Cache

end CatalogReplica.Identity
