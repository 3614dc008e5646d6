import CatalogReplica.Identity.Cache

/-!
# The table of an identity cache

Every key has at most one entry.  Apart from the entry of the key that it is about, an
operation removes dead entries only.

* `Cache.Trimmed`: some dead entries were removed.
* `Cache.ask_cases`: a lookup finds the live object of a key or claims the key.
* `Cache.settle_spec`: ending a claim with an object enters it.
* `CacheView.lookup_ends`: what holds after a lookup, from what holds after its
  construction.
-/

namespace CatalogReplica.Identity

namespace Cache

variable {κ ν : Type} [DecidableEq κ] [DecidableEq ν]
  {cache after last : Cache κ ν} {alive : ν → Bool} {key other : κ} {value : ν} {thread : Nat}

/-! ## Entries -/

/-- Every key has at most one entry. -/
def Unique (cache : Cache κ ν) : Prop := (cache.table.map (·.1)).Nodup

omit [DecidableEq ν] in
theorem mem_of_find? (found : cache.find? key = some value) : (key, value) ∈ cache.table := by
  obtain ⟨before, rest, split, -⟩ := List.lookup_eq_some_iff.mp found
  rw [split]
  exact List.mem_append_right before List.mem_cons_self

omit [DecidableEq ν] in
theorem find?_of_mem (unique : cache.Unique) (among : (key, value) ∈ cache.table) :
    cache.find? key = some value := by
  unfold Unique at unique
  unfold find?
  generalize cache.table = table at unique among
  induction table with
  | nil => cases among
  | cons first rest inductionHypothesis =>
    obtain ⟨firstKey, firstValue⟩ := first
    simp only [List.map_cons, List.nodup_cons] at unique
    rw [List.lookup_cons]
    cases List.mem_cons.mp among with
    | inl same =>
      cases same
      rw [beq_self_eq_true]
    | inr later =>
      have differs : (key == firstKey) = false := by
        rw [beq_eq_false_iff_ne]
        rintro rfl
        exact unique.1 (List.mem_map_of_mem later)
      rw [differs]
      exact inductionHypothesis unique.2 later

omit [DecidableEq ν] in
theorem not_mem_of_find? (absent : cache.find? key = none) : (key, value) ∉ cache.table := by
  intro among
  have found := List.lookup_eq_none_iff.mp absent (key, value) among
  simp at found

omit [DecidableEq ν] in
/-- One key has one object. -/
theorem Unique.eq (unique : cache.Unique) {one two : ν} (first : (key, one) ∈ cache.table)
    (second : (key, two) ∈ cache.table) : one = two := by
  have same := (find?_of_mem unique first).symm.trans (find?_of_mem unique second)
  exact Option.some.inj same

omit [DecidableEq ν] in
theorem mem_erase {entry : κ × ν} :
    entry ∈ (cache.erase key).table ↔ entry ∈ cache.table ∧ entry.1 ≠ key := by
  simp [erase, List.mem_filter]

/-! ## Trimming -/

/-- Some dead entries were removed. -/
structure Trimmed (alive : ν → Bool) (before after : Cache κ ν) : Prop where
  table : after.table.Sublist before.table
  live : ∀ entry ∈ before.table, alive entry.2 = true → entry ∈ after.table

namespace Trimmed

omit [DecidableEq κ] [DecidableEq ν]

theorem of_eq (same : after.table = cache.table) : Trimmed alive cache after :=
  ⟨same ▸ List.Sublist.refl _, fun _ among _ => same ▸ among⟩

theorem refl (cache : Cache κ ν) : Trimmed alive cache cache := .of_eq rfl

theorem trans (first : Trimmed alive cache after) (second : Trimmed alive after last) :
    Trimmed alive cache last :=
  ⟨second.table.trans first.table,
    fun entry among live => second.live entry (first.live entry among live) live⟩

theorem unique (trimmed : Trimmed alive cache after) (unique : cache.Unique) : after.Unique :=
  List.Sublist.nodup (trimmed.table.map _) unique

theorem mem (trimmed : Trimmed alive cache after) {entry : κ × ν} (among : entry ∈ after.table) :
    entry ∈ cache.table := trimmed.table.subset among

/-- What is kept is decided entry by entry, and live entries are kept. -/
theorem filter (cache : Cache κ ν) {keep : κ × ν → Bool} (same : after.table = cache.table.filter keep)
    (live : ∀ entry ∈ cache.table, alive entry.2 = true → keep entry = true) :
    Trimmed alive cache after := by
  constructor
  · rw [same]
    exact List.filter_sublist
  · intro entry among isLive
    rw [same]
    exact List.mem_filter.mpr ⟨among, live entry among isLive⟩

end Trimmed

omit [DecidableEq ν] in
/-- Removing the entry of a key without a live object. -/
theorem trimmed_erase (dead : ∀ value, (key, value) ∈ cache.table → alive value = false) :
    Trimmed alive cache (cache.erase key) := by
  refine .filter cache rfl fun entry among isLive => ?_
  rw [bne_iff_ne]
  rintro rfl
  rw [dead entry.2 among] at isLive
  cases isLive

omit [DecidableEq κ] [DecidableEq ν] in
theorem trimmed_sweep (cache : Cache κ ν) (alive : ν → Bool) (shard : Nat) :
    Trimmed alive cache (cache.sweep alive shard).2 := by
  unfold sweep
  split
  · exact .refl cache
  · refine .filter cache rfl fun entry _ isLive => ?_
    rw [isLive, Bool.or_true]

omit [DecidableEq κ] [DecidableEq ν] in
theorem claims_sweep (cache : Cache κ ν) (alive : ν → Bool) (shard : Nat) :
    (cache.sweep alive shard).2.claims = cache.claims := by
  unfold sweep
  split <;> rfl

omit [DecidableEq κ] [DecidableEq ν] in
theorem table_queue (cache : Cache κ ν) (value : ν) :
    (cache.queue value).2.table = cache.table := by
  unfold queue
  split
  · rfl
  · split
    · split <;> rfl
    · rfl

omit [DecidableEq κ] [DecidableEq ν] in
theorem claims_queue (cache : Cache κ ν) (value : ν) :
    (cache.queue value).2.claims = cache.claims := by
  unfold queue
  split
  · rfl
  · split
    · split <;> rfl
    · rfl

/-! ## Looking up -/

omit [DecidableEq ν] in
theorem claim_cases (cache : Cache κ ν) (thread : Nat) (key : κ) :
    (∃ asked, (asked = .reentrant ∨ asked = .wait) ∧ cache.claim? key ≠ none ∧
      cache.claim thread key = (asked, cache)) ∨
    (cache.claim? key = none ∧
      cache.claim thread key = (.build, { cache with claims := ⟨key, thread⟩ :: cache.claims })) := by
  unfold claim
  cases claimed : cache.claim? key with
  | none => exact .inr ⟨rfl, rfl⟩
  | some claim =>
    refine .inl ⟨_, ?_, by simp, rfl⟩
    split
    · exact .inl rfl
    · exact .inr rfl

omit [DecidableEq ν] in
/-- A lookup finds the live object of a key; otherwise it leaves no entry of the key, and
    claims the key unless it is claimed already. -/
theorem ask_cases (cache : Cache κ ν) (alive : ν → Bool) (thread : Nat) (key : κ) :
    (∃ value, (key, value) ∈ cache.table ∧ alive value = true ∧
      cache.ask alive thread key = (.hit value, [.hit], cache)) ∨
    ∃ asked notes after, cache.ask alive thread key = (asked, notes, after) ∧
      after.table = (cache.erase key).table ∧
      (cache.Unique → Trimmed alive cache after) ∧
      (((asked = .reentrant ∨ asked = .wait) ∧ cache.claim? key ≠ none ∧ after.claims = cache.claims) ∨
        (asked = .build ∧ cache.claim? key = none ∧
          after.claims = ⟨key, thread⟩ :: cache.claims)) := by
  unfold ask
  cases found : cache.find? key with
  | none =>
    have same : (cache.erase key).table = cache.table := by
      refine List.filter_eq_self.mpr fun entry among => ?_
      rw [bne_iff_ne]
      rintro rfl
      exact not_mem_of_find? found among
    obtain ⟨asked, state, claimed, run⟩ | ⟨free, run⟩ := cache.claim_cases thread key
    · exact .inr ⟨_, _, _, by rw [run], same.symm, fun _ => .refl cache, .inl ⟨state, claimed, rfl⟩⟩
    · let after : Cache κ ν := { cache with claims := ⟨key, thread⟩ :: cache.claims }
      exact .inr ⟨.build, [.miss], after, by rw [run], same.symm, fun _ => .of_eq rfl,
        .inr ⟨rfl, free, rfl⟩⟩
  | some value =>
    dsimp only
    cases live : alive value with
    | true => exact .inl ⟨value, mem_of_find? found, live, rfl⟩
    | false =>
      have trimmed (unique : cache.Unique) : Trimmed alive cache (cache.erase key) :=
        trimmed_erase fun other among => by rw [unique.eq among (mem_of_find? found), live]
      obtain ⟨asked, state, claimed, run⟩ | ⟨free, run⟩ := (cache.erase key).claim_cases thread key
      · exact .inr ⟨_, _, _, by rw [run]; rfl, rfl, trimmed, .inl ⟨state, claimed, rfl⟩⟩
      · let after : Cache κ ν :=
          { cache.erase key with claims := ⟨key, thread⟩ :: cache.claims }
        exact .inr ⟨.build, _, after, by rw [run]; rfl, rfl,
          fun unique => (trimmed unique).trans (.of_eq rfl), .inr ⟨rfl, free, rfl⟩⟩

omit [DecidableEq ν] in
theorem ask_of_live (unique : cache.Unique) (among : (key, value) ∈ cache.table) (live : alive value = true) :
    cache.ask alive thread key = (.hit value, [.hit], cache) := by
  unfold ask
  rw [find?_of_mem unique among]
  dsimp only
  rw [if_pos live]

omit [DecidableEq ν] in
theorem get?_of_live (unique : cache.Unique) (among : (key, value) ∈ cache.table) (live : alive value = true) :
    cache.get? alive key = (some value, [.hit], cache) := by
  unfold get?
  rw [find?_of_mem unique among]
  dsimp only
  rw [if_pos live]

/-- A key that has a live object loses it. -/
theorem evict_of_live (unique : cache.Unique) (among : (key, value) ∈ cache.table)
    (live : alive value = true) : (cache.evict alive key).1 = some value := by
  unfold evict
  rw [find?_of_mem unique among]
  dsimp only
  rw [if_pos live]

/-- What ending a claim with an object does to the table. -/
structure Settled (alive : ν → Bool) (key : κ) (value : ν) (before after : Cache κ ν) : Prop where
  entries : ∀ entry ∈ after.table, entry = (key, value) ∨ (entry ∈ before.table ∧ entry.1 ≠ key)
  live : ∀ entry ∈ before.table, entry.1 ≠ key → alive entry.2 = true → entry ∈ after.table
  own : alive value = true → (key, value) ∈ after.table
  unique : before.Unique → after.Unique
  claims : after.claims = before.claims.filter fun claim => claim.key != key

omit [DecidableEq ν] in
theorem settle_spec (cache : Cache κ ν) (alive : ν → Bool) (key : κ) (value : ν) :
    Settled alive key value cache (cache.settle alive key value).2.2 := by
  -- Settling sweeps the shard and queues the value; the sweep only trims, and the queue leaves the table.
  have trimmed := trimmed_sweep ((cache.abandon key).insert key value) alive
    (((cache.abandon key).insert key value).shard key)
  have trimmed := trimmed.trans (.of_eq (table_queue _ value))
  have table : ((cache.abandon key).insert key value).table
      = (key, value) :: (cache.erase key).table := rfl
  refine { entries := ?entries, live := ?live, own := trimmed.live (key, value) List.mem_cons_self, unique := ?unique,
           claims := ?claims }
  case entries =>
    intro entry among
    have before := trimmed.mem among
    rw [table] at before
    exact (List.mem_cons.mp before).imp_right mem_erase.mp
  case live =>
    intro entry among differs isLive
    exact trimmed.live entry (List.mem_cons_of_mem _ (mem_erase.mpr ⟨among, differs⟩)) isLive
  case unique =>
    intro unique
    refine trimmed.unique ?_
    unfold Unique
    rw [table, List.map_cons, List.nodup_cons]
    refine ⟨fun among => ?_, List.Sublist.nodup (List.filter_sublist.map _) unique⟩
    obtain ⟨entry, kept, same⟩ := List.mem_map.mp among
    exact (mem_erase.mp kept).2 same
  case claims =>
    have claims := claims_queue
      (((cache.abandon key).insert key value).sweep alive
        (((cache.abandon key).insert key value).shard key)).2 value
    rw [claims_sweep] at claims
    exact claims

/-! ## Further operations -/

omit [DecidableEq ν] in
/-- Asking for the live object of a key gives it, or there is none. -/
theorem get?_cases (cache : Cache κ ν) (alive : ν → Bool) (key : κ) :
    (∃ value, (key, value) ∈ cache.table ∧ alive value = true ∧
      cache.get? alive key = (some value, [.hit], cache)) ∨
    (cache.Unique → ∀ value, (key, value) ∈ cache.table → alive value = false) ∧
      ∃ notes after, cache.get? alive key = (none, notes, after) ∧
        (cache.Unique → Trimmed alive cache after) ∧ after.claims = cache.claims := by
  unfold get?
  cases found : cache.find? key with
  | none =>
    exact .inr ⟨fun _ value among => absurd among (not_mem_of_find? found),
      [.miss], cache, rfl, fun _ => .refl cache, rfl⟩
  | some value =>
    dsimp only
    cases live : alive value with
    | true => exact .inl ⟨value, mem_of_find? found, live, rfl⟩
    | false =>
      have dead (unique : cache.Unique) (other : ν) (among : (key, other) ∈ cache.table) :
          alive other = false := by rw [unique.eq among (mem_of_find? found), live]
      refine .inr ⟨dead, ?_⟩
      cases cache.discipline with
      | shared shards => exact ⟨[.miss], cache, rfl, fun _ => .refl cache, rfl⟩
      | confined =>
        exact ⟨[.left .reclaimed key, .miss], cache.erase key, rfl,
          fun unique => trimmed_erase (dead unique), rfl⟩

/-- Evicting a key removes its entry and gives its live object. -/
theorem evict_cases (cache : Cache κ ν) (alive : ν → Bool) (key : κ) :
    ∃ found notes after, cache.evict alive key = (found, notes, after) ∧
      after.table = (cache.erase key).table ∧ after.claims = cache.claims ∧
      ∀ value ∈ found, (key, value) ∈ cache.table ∧ alive value = true := by
  unfold evict
  cases found : cache.find? key with
  | none =>
    refine ⟨none, [], cache, rfl, ?_, rfl, by simp⟩
    refine (List.filter_eq_self.mpr fun entry among => ?_).symm
    rw [bne_iff_ne]
    rintro rfl
    exact not_mem_of_find? found among
  | some value =>
    dsimp only
    cases live : alive value with
    | true =>
      refine ⟨some value, _, _, rfl, rfl, rfl, ?_⟩
      rintro _ ⟨⟩
      exact ⟨mem_of_find? found, live⟩
    | false => exact ⟨none, _, _, rfl, rfl, rfl, by simp⟩

/-- When an eviction gives no object, none is alive under the key. -/
theorem not_alive_of_evict (unique : cache.Unique) (none : (cache.evict alive key).1 = none)
    (among : (key, value) ∈ cache.table) : alive value = false := by
  unfold evict at none
  cases found : cache.find? key with
  | none => exact absurd among (not_mem_of_find? found)
  | some other =>
    rw [found] at none
    obtain rfl := unique.eq among (mem_of_find? found)
    cases live : alive value with
    | false => rfl
    | true => simp [live] at none

omit [DecidableEq κ] [DecidableEq ν] in
theorem trimmed_purge (cache : Cache κ ν) (alive : ν → Bool) :
    Trimmed alive cache (cache.purge alive).2.2 :=
  .filter cache rfl fun _ _ isLive => isLive

/-! ## What is in the table afterwards -/

section mem

variable {entry : κ × ν}

omit [DecidableEq ν] in
theorem mem_of_ask (among : entry ∈ (cache.ask alive thread key).2.2.table) : entry ∈ cache.table := by
  obtain ⟨value, -, -, run⟩ | ⟨asked, notes, after, run, table, -⟩ := cache.ask_cases alive thread key
  · rwa [run] at among
  · rw [run, table] at among
    exact (mem_erase.mp among).1

omit [DecidableEq ν] in
theorem mem_of_get? (among : entry ∈ (cache.get? alive key).2.2.table) : entry ∈ cache.table := by
  unfold get? at among
  split at among
  · split at among
    · exact among
    · split at among
      · exact among
      · exact (mem_erase.mp among).1
  · exact among

theorem mem_of_evict (among : entry ∈ (cache.evict alive key).2.2.table) : entry ∈ cache.table ∧ entry.1 ≠ key := by
  obtain ⟨found, notes, after, run, table, -⟩ := cache.evict_cases alive key
  rw [run, table] at among
  exact mem_erase.mp among

omit [DecidableEq ν] in
/-- What a lookup finds is in the table. -/
theorem mem_of_hit (hit : (cache.ask alive thread key).1 = .hit value) : (key, value) ∈ cache.table := by
  obtain ⟨found, among, -, run⟩ | ⟨asked, _, _, run, -, -, missed⟩ := cache.ask_cases alive thread key
  · rw [run] at hit
    cases hit
    exact among
  · rw [run] at hit
    obtain ⟨none | none, -⟩ | ⟨none, -⟩ := missed <;> cases hit.symm.trans none

omit [DecidableEq ν] in
theorem mem_of_found (found : (cache.get? alive key).1 = some value) : (key, value) ∈ cache.table := by
  obtain ⟨other, among, -, run⟩ | ⟨-, _, _, run, -⟩ := cache.get?_cases alive key <;> rw [run] at found <;> cases found
  exact among

theorem mem_of_evicted (evicted : (cache.evict alive key).1 = some value) : (key, value) ∈ cache.table := by
  obtain ⟨found, _, _, run, -, -, before⟩ := cache.evict_cases alive key
  rw [run] at evicted
  exact (before value evicted).1

end mem

end Cache

/-! ## Lookups in a larger state -/

namespace CacheView

variable {σ κ ν : Type} [DecidableEq κ] [DecidableEq ν] {view : CacheView σ κ ν} {thread : Nat}
  {key : κ} {construct : Task σ ν} {state : σ} {mid post : Except Interrupt ν → σ → Prop}

omit [DecidableEq ν] in
/-- A lookup finds a live object, or is refused while the key is claimed, or constructs an
    object while it claims the key itself. -/
theorem lookup_ends
    (hit : ∀ value, (key, value) ∈ (view.get state).table → view.alive state value = true →
      post (.ok value) (view.hold value (view.store [.hit] (view.get state) state)))
    (refused : ∀ interrupt notes after, (view.get state).claim? key ≠ none →
      ((view.get state).Unique → Cache.Trimmed (view.alive state) (view.get state) after) →
      post (.error interrupt) (view.store notes after state))
    (built : ∀ notes after, (view.get state).claim? key = none →
      after.table = ((view.get state).erase key).table →
      ((view.get state).Unique → Cache.Trimmed (view.alive state) (view.get state) after) →
      after.claims = ⟨key, thread⟩ :: (view.get state).claims →
      construct.Ends (view.store notes after state) mid)
    (settled : ∀ value last, mid (.ok value) last → post (.ok value) (view.settle key value last))
    (abandoned : ∀ interrupt last, mid (.error interrupt) last →
      post (.error interrupt) (view.abandon key last)) :
    (view.lookup thread key construct).Ends state post := by
  unfold Task.Ends lookup ask
  obtain ⟨value, among, live, run⟩ | ⟨asked, notes, after, run, table, trimmed, state'⟩ :=
    (view.get state).ask_cases (view.alive state) thread key
  · rw [run]
    exact hit value among live
  · rw [run]
    obtain ⟨waits, claimed, -⟩ | ⟨rfl, free, claims⟩ := state'
    · cases waits with
      | inl reentrant =>
        subst reentrant
        exact refused _ notes after claimed trimmed
      | inr wait =>
        subst wait
        exact refused _ notes after claimed trimmed
    · have ends := built notes after free table trimmed claims
      unfold Task.Ends at ends
      dsimp only
      cases ran : construct (view.store notes after state) with
      | ok value last =>
        rw [ran] at ends
        exact settled value last ends
      | error interrupt last =>
        rw [ran] at ends
        exact abandoned interrupt last ends

section live

variable {value : ν} (unique : (view.get state).Unique) (among : (key, value) ∈ (view.get state).table)
  (live : view.alive state value = true)

include unique among live

omit [DecidableEq ν] in
/-- A lookup that finds a live object does not run the constructor. -/
theorem lookup_of_live (thread : Nat) (construct : Task σ ν) :
    view.lookup thread key construct state
      = .ok value (view.hold value (view.store [.hit] (view.get state) state)) := by
  unfold lookup ask
  rw [Cache.ask_of_live unique among live]

omit [DecidableEq ν] in
theorem get?_of_live :
    view.get? key state = (some value, view.hold value (view.store [.hit] (view.get state) state)) := by
  unfold get?
  rw [Cache.get?_of_live unique among live]
  rfl

end live

section find

omit [DecidableEq ν] in
/-- The first entry of a key gives its live object, whatever the other entries are. -/
theorem lookup_of_found {value : ν} (thread : Nat) (construct : Task σ ν) (found : (view.get state).find? key = some value)
    (live : view.alive state value = true) : view.lookup thread key construct state
      = .ok value (view.hold value (view.store [.hit] (view.get state) state)) := by
  unfold lookup ask Cache.ask
  simp only [found, live, if_true]

omit [DecidableEq ν] in
/-- A key with a live object is found, whatever the other entries are. -/
theorem lookup_of_known (thread : Nat) (construct : Task σ ν)
    (known : ((view.get state).find? key).any (view.alive state) = true) :
    ∃ value, view.lookup thread key construct state
      = .ok value (view.hold value (view.store [.hit] (view.get state) state)) := by
  obtain ⟨value, found, live⟩ := (Option.any_eq_true _ _).mp known
  exact ⟨value, lookup_of_found thread construct found live⟩

omit [DecidableEq ν] in
/-- A key without a live object that is not claimed is constructed. -/
theorem lookup_of_unknown_ends (unknown : ((view.get state).find? key).any (view.alive state) = false)
    (free : (view.get state).claim? key = none)
    (built : ∀ notes after, after.claims = ⟨key, thread⟩ :: (view.get state).claims →
      construct.Ends (view.store notes after state) mid)
    (settled : ∀ value last, mid (.ok value) last → post (.ok value) (view.settle key value last))
    (abandoned : ∀ interrupt last, mid (.error interrupt) last → post (.error interrupt) (view.abandon key last)) :
    (view.lookup thread key construct).Ends state post := by
  have claims (cache : Cache κ ν) (same : cache.claims = (view.get state).claims) :
      cache.claim thread key = (.build, { cache with claims := ⟨key, thread⟩ :: cache.claims }) := by
    have isFree : cache.claim? key = none := by rw [Cache.claim?, same]; exact free
    rw [Cache.claim, isFree]
  -- A dead entry is erased before the claim, an absent one needs none; both ways the builder is this thread.
  obtain ⟨notes, after, asked, claimed⟩ : ∃ notes after,
      (view.get state).ask (view.alive state) thread key = (.build, notes, after) ∧
        after.claims = ⟨key, thread⟩ :: (view.get state).claims := by
    unfold Cache.ask
    cases found : (view.get state).find? key with
    | none =>
      dsimp only
      rw [claims _ rfl]
      exact ⟨_, _, rfl, rfl⟩
    | some value =>
      rw [found, Option.any_some] at unknown
      simp only [unknown, Bool.false_eq_true, if_false]
      rw [claims ((view.get state).erase key) rfl]
      exact ⟨_, _, rfl, rfl⟩
  have ends := built notes after claimed
  unfold Task.Ends lookup ask at *
  rw [asked]
  dsimp only
  cases ran : construct (view.store notes after state) with
  | ok value last =>
    rw [ran] at ends
    exact settled value last ends
  | error interrupt last =>
    rw [ran] at ends
    exact abandoned interrupt last ends

end find

end CacheView

end CatalogReplica.Identity
