import CatalogReplica.Proofs.Identity.Alike

/-!
# What identity caches keep alive

A lookup takes dead entries away at most, so that the cache keeps alive what it kept alive.
An object that enters may push another one out of the queue, and an eviction takes one out.

* `Cache.Shelved`: a shared cache that keeps only living objects alive.
* `Cache.Retains`: what a cache keeps alive after an operation.
* `Cache.Retains.ask`, `Cache.Retains.settle`, ...: the operations.
-/

namespace CatalogReplica.Identity.Cache

variable {κ ν : Type} [DecidableEq ν] {cache before after last : Cache κ ν} {alive : ν → Bool} {spare : List ν} {key : κ} {value : ν}

omit [DecidableEq ν] in
/-- The cache is shared, has one entry for a key, and keeps living objects alive. -/
structure Shelved (alive : ν → Bool) (cache : Cache κ ν) : Prop where
  unique : cache.Unique
  shared : ∃ shards, cache.discipline = .shared shards
  soft : ∀ value ∈ cache.soft, alive value = true

/-- What the cache kept alive it keeps alive, apart from the spare objects. -/
structure Retains (alive : ν → Bool) (spare : List ν) (before after : Cache κ ν) : Prop where
  shelved : after.Shelved alive
  keeps : ∀ value, alive value = true → before.keeps value = true → after.keeps value = true ∨ value ∈ spare

theorem keeps_iff : cache.keeps value = true ↔
    value ∈ cache.soft ∨ cache.retention = .strong ∧ ∃ key, (key, value) ∈ cache.table := by
  simp [keeps]

/-- An eviction does not make the cache keep more alive. -/
theorem keeps_of_evict [DecidableEq κ] (kept : (cache.evict alive key).2.2.keeps value = true) :
    cache.keeps value = true := by
  rw [keeps_iff] at kept ⊢
  unfold Cache.evict at kept
  cases found : cache.find? key with
  | none =>
    rw [found] at kept
    exact kept
  | some other =>
    have fewer {entry : κ × ν} (among : entry ∈ (cache.erase key).table) : entry ∈ cache.table :=
      (mem_erase.mp among).1
    rw [found] at kept
    dsimp only at kept
    split at kept
    · refine kept.imp List.mem_of_mem_erase (And.imp_right ?_)
      rintro ⟨one, among⟩
      exact ⟨one, fewer among⟩
    · refine kept.imp_right (And.imp_right ?_)
      rintro ⟨one, among⟩
      exact ⟨one, fewer among⟩

/-- A cache with no more entries and the same queue keeps no more alive. -/
theorem keeps_of_fewer (fewer : after.table ⊆ before.table) (soft : after.soft = before.soft)
    (retention : after.retention = before.retention) (kept : after.keeps value = true) : before.keeps value = true := by
  rw [keeps_iff] at kept ⊢
  rw [← soft, ← retention]
  exact kept.imp_right fun ⟨strong, key, among⟩ => ⟨strong, key, fewer among⟩

/-- Nor does a lookup. -/
theorem keeps_of_ask [DecidableEq κ] {thread : Nat} (kept : (cache.ask alive thread key).2.2.keeps value = true) :
    cache.keeps value = true := by
  obtain ⟨soft, retention⟩ := cache.ask_frame alive thread key
  exact keeps_of_fewer (fun _ among => mem_of_ask among) soft retention kept

theorem keeps_of_get? [DecidableEq κ] (kept : (cache.get? alive key).2.2.keeps value = true) : cache.keeps value = true := by
  unfold get? at kept
  split at kept
  · split at kept
    · exact kept
    · split at kept
      · exact kept
      · exact @keeps_of_fewer _ _ _ cache _ value (fun _ among => (mem_erase.mp among).1) rfl rfl kept
  · exact kept

/-- The only object that an end of a construction may keep alive besides is the one that was constructed. -/
theorem keeps_of_settle [DecidableEq κ] {other : ν} (kept : (cache.settle alive key value).2.2.keeps other = true) :
    cache.keeps other = true ∨ other = value := by
  let entered := (cache.abandon key).insert key value
  have swept := Matches.sweep entered alive (entered.shard key)
  have queued : (cache.settle alive key value).2.2 = ((entered.sweep alive (entered.shard key)).2.queue value).2 := rfl
  rw [keeps_iff] at kept ⊢
  obtain soft | ⟨strong, one, among⟩ := kept
  · rw [queued] at soft
    refine (mem_queue soft).imp_left fun before => .inl ?_
    rw [swept.soft] at before
    exact before
  · obtain same | ⟨before, -⟩ := (cache.settle_spec alive key value).entries _ among
    · exact .inr (congrArg Prod.snd same)
    · rw [queued, retention_queue, swept.retention] at strong
      exact .inl (.inr ⟨strong, one, before⟩)

omit [DecidableEq ν] in
/-- What is found is alive. -/
theorem alive_of_get? [DecidableEq κ] (found : (cache.get? alive key).1 = some value) : alive value = true := by
  obtain ⟨other, -, live, run⟩ | ⟨-, _, _, run, -⟩ := cache.get?_cases alive key
  · rw [run] at found
    exact Option.some.inj found ▸ live
  · rw [run] at found
    cases found

/-- What is given when its key is evicted is alive. -/
theorem alive_of_evict [DecidableEq κ] (found : (cache.evict alive key).1 = some value) : alive value = true := by
  unfold evict at found
  split at found
  · cases found
  · split at found
    · next live =>
      cases found
      exact live
    · cases found

omit [DecidableEq ν] in
/-- A shared cache is not changed when it is asked for a live object. -/
theorem Shelved.get? [DecidableEq κ] (shelved : cache.Shelved alive) (key : κ) :
    ∃ notes, cache.get? alive key = ((cache.find? key).filter alive, notes, cache) := by
  obtain ⟨shards, shared⟩ := shelved.shared
  unfold Cache.get?
  cases cache.find? key with
  | none => exact ⟨_, rfl⟩
  | some value =>
    dsimp only
    cases live : alive value with
    | true => exact ⟨_, by rw [Option.filter_some_pos live]; rfl⟩
    | false =>
      rw [shared, Option.filter_some_neg (by simp [live])]
      exact ⟨_, rfl⟩

omit [DecidableEq ν] in
/-- The queue keeps what it kept, but for the object that it has no room for. -/
theorem queue_keeps (cache : Cache κ ν) (value : ν) {other : ν}
    (kept : other ∈ cache.soft) : other ∈ (cache.queue value).2.soft ∨ other ∈ (cache.queue value).1.toList := by
  unfold Cache.queue
  split
  · exact .inl kept
  · have joined := List.mem_append_left [value] kept
    split
    · next oldest rest queued =>
      rw [queued] at joined
      split
      · obtain rfl | later := List.mem_cons.mp joined
        · exact .inr (List.mem_singleton_self _)
        · exact .inl later
      · exact .inl joined
    · exact .inl kept

namespace Retains

theorem refl (shelved : cache.Shelved alive) (spare : List ν) : Retains alive spare cache cache :=
  ⟨shelved, fun _ _ keeps => .inl keeps⟩

/-- Some dead entries were removed. -/
theorem of_trimmed (shelved : before.Shelved alive) (trimmed : before.Unique → Trimmed alive before after)
    (soft : after.soft = before.soft) (retention : after.retention = before.retention)
    (discipline : after.discipline = before.discipline) : Retains alive spare before after := by
  have trimmed := trimmed shelved.unique
  refine ⟨⟨trimmed.unique shelved.unique, discipline ▸ shelved.shared, soft ▸ shelved.soft⟩, fun value live keeps => .inl ?_⟩
  rw [keeps_iff] at keeps ⊢
  rw [soft, retention]
  exact keeps.imp_right fun ⟨strong, key, among⟩ => ⟨strong, key, trimmed.live (key, value) among live⟩

theorem purge (shelved : cache.Shelved alive) : Retains alive spare cache (cache.purge alive).2.2 :=
  .of_trimmed shelved (fun _ => cache.trimmed_purge alive) rfl rfl rfl

/-- What was in the queue is let go. -/
theorem relieve (shelved : cache.Shelved alive) : Retains alive cache.soft cache cache.relieve.2 := by
  refine ⟨⟨shelved.unique, shelved.shared, nofun⟩, fun value _ keeps => ?_⟩
  rw [keeps_iff] at keeps ⊢
  exact keeps.elim .inr fun strong => .inl (.inr strong)

variable [DecidableEq κ]

theorem ask (shelved : cache.Shelved alive) (thread : Nat) (key : κ) :
    Retains alive spare cache (cache.ask alive thread key).2.2 := by
  obtain ⟨soft, retention⟩ := cache.ask_frame alive thread key
  refine .of_trimmed shelved ?_ soft retention ?_
  · obtain ⟨value, -, -, run⟩ | ⟨asked, notes, after, run, -, trimmed, -⟩ := cache.ask_cases alive thread key <;> rw [run]
    · exact fun _ => .refl cache
    · exact trimmed
  · unfold Cache.ask Cache.claim
    split
    · split
      · rfl
      · dsimp only
        split <;> rfl
    · dsimp only
      split <;> rfl

theorem abandon (shelved : cache.Shelved alive) (key : κ) : Retains alive spare cache (cache.abandon key) :=
  .of_trimmed shelved (fun _ => .of_eq rfl) rfl rfl rfl

/-- An object that is evicted is not kept alive any more. -/
theorem evict (shelved : cache.Shelved alive) (key : κ) :
    Retains alive (cache.evict alive key).1.toList cache (cache.evict alive key).2.2 := by
  have erased : (cache.erase key).Unique := List.Sublist.nodup (List.filter_sublist.map _) shelved.unique
  unfold Cache.evict
  cases found : cache.find? key with
  | none => exact .refl shelved _
  | some value =>
    have among := mem_of_find? found
    have others {other : ν} (differs : other ≠ value) (strong : ∃ one, (one, other) ∈ cache.table) :
        ∃ one, (one, other) ∈ (cache.erase key).table := by
      obtain ⟨one, there⟩ := strong
      refine ⟨one, mem_erase.mpr ⟨there, ?_⟩⟩
      rintro rfl
      exact differs (shelved.unique.eq there among)
    dsimp only
    cases live : alive value with
    | true =>
      refine ⟨⟨erased, shelved.shared, fun other kept => shelved.soft other (List.mem_of_mem_erase kept)⟩, fun other _ keeps => ?_⟩
      by_cases same : other = value
      · exact .inr (same ▸ List.mem_singleton_self _)
      · rw [keeps_iff] at keeps ⊢
        exact .inl (keeps.imp (List.mem_erase_of_ne same).mpr fun ⟨strong, one⟩ => ⟨strong, others same one⟩)
    | false =>
      refine ⟨⟨erased, shelved.shared, shelved.soft⟩, fun other lives keeps => .inl ?_⟩
      have differs : other ≠ value := by
        rintro rfl
        cases live.symm.trans lives
      rw [keeps_iff] at keeps ⊢
      exact keeps.imp_right fun ⟨strong, one⟩ => ⟨strong, others differs one⟩

/-- A new object enters the cache. -/
theorem settle (shelved : cache.Shelved alive) (lives : alive value = true)
    (absent : ∀ entry ∈ cache.table, entry.1 ≠ key) :
    Retains alive (cache.settle alive key value).1.toList cache (cache.settle alive key value).2.2 := by
  have spec := cache.settle_spec alive key value
  have unique : cache.Unique := shelved.unique
  have enters := settle_enters unique alive key value
  have discipline : (cache.settle alive key value).2.2.discipline = cache.discipline := by
    unfold Cache.settle Cache.sweep Cache.queue
    dsimp only
    split <;> split <;> first | rfl | (split <;> first | rfl | (split <;> rfl))
  have retention := enters.2.1.retention.trans (retention_queue (cache.abandon key) value)
  have soft := enters.2.1.soft
  refine ⟨⟨spec.unique shelved.unique, discipline ▸ shelved.shared, fun other kept => ?_⟩, fun other live keeps => ?_⟩
  · rw [soft] at kept
    obtain before | rfl := mem_queue kept
    · exact shelved.soft other before
    · exact lives
  · rw [enters.1]
    rw [keeps_iff] at keeps ⊢
    rw [soft, retention]
    obtain kept | ⟨strong, one, among⟩ := keeps
    · exact (queue_keeps (cache.abandon key) value kept).imp_left .inl
    · exact .inl (.inr ⟨strong, one, spec.live (one, other) among (absent _ among) live⟩)

end Retains

end CatalogReplica.Identity.Cache
