import CatalogReplica.Proofs.Identity.Runs

/-!
# How large an identity cache grows

Dead entries stay in a table until something finds them.  The end of a construction sweeps the
shard of its key once the shard has grown to its threshold, and the next threshold is twice what
is left.  So the entries of a shard stay below its threshold, and the threshold stays below twice
the most live entries that the shard ever had.

* `Cache.Dwindles`: what everything but the end of a construction does to the shards.
* `Cache.Swept`: what a sweep removes and reports.
* `Stage.Roomy`: what every move keeps of a shard.
* `Move.LiveWithin`: at no moment of a run a shard has more live entries than a limit.
* `Move.entries_bounded`: the dead entries of a cache do not accumulate.
-/

namespace CatalogReplica.Identity

/-- How many shards a cache has. -/
def Discipline.count : Discipline → Nat
  | shared shards => shards
  | confined => 1

variable {κ ν : Type}

namespace Cache

variable {cache before mid after : Cache κ ν} {alive : ν → Bool} {shard other limit : Nat} {key : κ} {value : ν}

/-! ## Shards -/

/-- The caches have the same shards, to be swept at the same sizes. -/
structure SameShards (before after : Cache κ ν) : Prop where
  discipline : after.discipline = before.discipline
  spread : after.spread = before.spread
  raised : after.raised = before.raised

namespace SameShards

theorem trans (first : SameShards before mid) (second : SameShards mid after) : SameShards before after :=
  ⟨second.discipline.trans first.discipline, second.spread.trans first.spread, second.raised.trans first.raised⟩

theorem shard_eq (same : SameShards before after) (key : κ) : after.shard key = before.shard key := by
  simp only [shard, same.discipline, same.spread]

theorem threshold_eq (same : SameShards before after) (shard : Nat) : after.threshold shard = before.threshold shard := by
  simp only [threshold, same.raised]

theorem inShard_eq (same : SameShards before after) (table : after.table = before.table) (shard : Nat) :
    after.inShard shard = before.inShard shard := by
  simp only [inShard, table, same.shard_eq]

end SameShards

/-- Entries went at most, and the shards are as they were. -/
structure Dwindles (before after : Cache κ ν) : Prop extends SameShards before after where
  table : after.table.Sublist before.table

namespace Dwindles

theorem of_eq (same : SameShards before after) (table : after.table = before.table) : Dwindles before after :=
  ⟨same, table ▸ List.Sublist.refl _⟩

theorem trans (first : Dwindles before mid) (second : Dwindles mid after) : Dwindles before after :=
  ⟨first.toSameShards.trans second.toSameShards, second.table.trans first.table⟩

theorem shards (dwindles : Dwindles before after) :
    after.discipline = before.discipline ∧ after.spread = before.spread :=
  ⟨dwindles.discipline, dwindles.spread⟩

theorem length_le (dwindles : Dwindles before after) (shard : Nat) :
    (after.inShard shard).length ≤ (before.inShard shard).length := by
  simp only [inShard, dwindles.shard_eq]
  exact (dwindles.table.filter _).length_le

variable [DecidableEq κ]

theorem erase (cache : Cache κ ν) (key : κ) : Dwindles cache (cache.erase key) :=
  ⟨⟨rfl, rfl, rfl⟩, List.filter_sublist⟩

theorem claim (cache : Cache κ ν) (thread : Nat) (key : κ) : Dwindles cache (cache.claim thread key).2 := by
  obtain ⟨asked, -, -, run⟩ | ⟨-, run⟩ := cache.claim_cases thread key <;> rw [run] <;> exact .of_eq ⟨rfl, rfl, rfl⟩ rfl

theorem ask (cache : Cache κ ν) (alive : ν → Bool) (thread : Nat) (key : κ) :
    Dwindles cache (cache.ask alive thread key).2.2 := by
  unfold Cache.ask
  cases cache.find? key with
  | none => exact claim cache thread key
  | some value =>
    dsimp only
    split
    · exact .of_eq ⟨rfl, rfl, rfl⟩ rfl
    · exact (erase cache key).trans (claim (cache.erase key) thread key)

theorem get? (cache : Cache κ ν) (alive : ν → Bool) (key : κ) : Dwindles cache (cache.get? alive key).2.2 := by
  unfold Cache.get?
  split
  · split
    · exact .of_eq ⟨rfl, rfl, rfl⟩ rfl
    · split
      · exact .of_eq ⟨rfl, rfl, rfl⟩ rfl
      · exact erase cache key
  · exact .of_eq ⟨rfl, rfl, rfl⟩ rfl

theorem evict [DecidableEq ν] (cache : Cache κ ν) (alive : ν → Bool) (key : κ) :
    Dwindles cache (cache.evict alive key).2.2 := by
  unfold Cache.evict
  split
  · exact .of_eq ⟨rfl, rfl, rfl⟩ rfl
  · dsimp only
    split
    · exact (erase cache key).trans (.of_eq ⟨rfl, rfl, rfl⟩ rfl)
    · exact erase cache key

end Dwindles

theorem queue_dwindles (cache : Cache κ ν) (value : ν) : Dwindles cache (cache.queue value).2 := by
  refine .of_eq ?_ (table_queue cache value)
  unfold queue
  split
  · exact ⟨rfl, rfl, rfl⟩
  · split
    · split <;> exact ⟨rfl, rfl, rfl⟩
    · exact ⟨rfl, rfl, rfl⟩

/-! ## Sweeps -/

/-- What a sweep of a shard does.  A shard below its threshold is left alone.  Otherwise exactly
    the dead entries of the shard go, each of their keys is reported once, and the next threshold
    is twice what is left. -/
structure Swept (alive : ν → Bool) (shard : Nat) (before after : Cache κ ν) (keys : List κ) : Prop where
  early : (before.inShard shard).length < before.threshold shard →
    keys = [] ∧ after.table = before.table ∧ after.threshold shard = before.threshold shard
  due : before.threshold shard ≤ (before.inShard shard).length →
    after.table = before.table.filter (fun entry => before.shard entry.1 != shard || alive entry.2) ∧
      (∀ key, key ∈ keys ↔ ∃ value, (key, value) ∈ before.table ∧ before.shard key = shard ∧ alive value = false) ∧
      after.threshold shard = max sweepMin (2 * (after.inShard shard).length)
  once : before.Unique → keys.Nodup
  others : ∀ other, other ≠ shard →
    after.inShard other = before.inShard other ∧ after.threshold other = before.threshold other
  shards : after.discipline = before.discipline ∧ after.spread = before.spread

/-- What stays in the shard that was swept are its live entries. -/
theorem inShard_of_swept (same : after.shard = before.shard)
    (table : after.table = before.table.filter fun entry => before.shard entry.1 != shard || alive entry.2) :
    after.inShard shard = (before.inShard shard).filter fun entry => alive entry.2 := by
  simp only [inShard, same, table, List.filter_filter]
  refine List.filter_congr fun entry _ => ?_
  cases own : before.shard entry.1 == shard <;> simp [bne, own]

theorem inShard_of_other (same : after.shard = before.shard) (differs : other ≠ shard)
    (table : after.table = before.table.filter fun entry => before.shard entry.1 != shard || alive entry.2) :
    after.inShard other = before.inShard other := by
  simp only [inShard, same, table, List.filter_filter]
  refine List.filter_congr fun entry _ => ?_
  cases its : before.shard entry.1 == other with
  | false => rfl
  | true =>
    have apart : (before.shard entry.1 != shard) = true := by
      rw [bne_iff_ne, beq_iff_eq.mp its]
      exact differs
    rw [apart]
    rfl

theorem sweep_swept (cache : Cache κ ν) (alive : ν → Bool) (shard : Nat) :
    Swept alive shard cache (cache.sweep alive shard).2 (cache.sweep alive shard).1 := by
  unfold sweep
  split
  next early =>
    exact ⟨fun _ => ⟨rfl, rfl, rfl⟩, fun due => absurd early (Nat.not_lt_of_le due), fun _ => List.nodup_nil,
      fun _ _ => ⟨rfl, rfl⟩, rfl, rfl⟩
  next due =>
    have raised (other next : Nat) (differs : other ≠ shard) :
        (((shard, next) :: cache.raised).lookup other).getD sweepMin = cache.threshold other := by
      rw [List.lookup_cons, show (other == shard) = false by simpa using differs]
      rfl
    refine ⟨fun early => absurd early due, fun _ => ⟨rfl, fun key => ?_, ?_⟩, fun unique => ?_,
      fun other differs => ⟨inShard_of_other rfl differs rfl, raised other _ differs⟩, rfl, rfl⟩
    · rw [List.mem_map]
      constructor
      · rintro ⟨⟨_, value⟩, gone, rfl⟩
        obtain ⟨inside, dead⟩ := List.mem_filter.mp gone
        obtain ⟨among, own⟩ := List.mem_filter.mp inside
        exact ⟨value, among, beq_iff_eq.mp own, by simpa using dead⟩
      · rintro ⟨value, among, own, dead⟩
        have inside : (key, value) ∈ cache.inShard shard := List.mem_filter.mpr ⟨among, beq_iff_eq.mpr own⟩
        exact ⟨(key, value), List.mem_filter.mpr ⟨inside, by simpa using dead⟩, rfl⟩
    · simp only [threshold, List.lookup_cons, beq_self_eq_true, Option.getD_some]
      rfl
    · exact List.Sublist.nodup ((List.filter_sublist.trans List.filter_sublist).map _) unique

/-- The entries of a shard are fewer than its threshold, which is as low as the limit allows. -/
structure Roomy (shard limit : Nat) (cache : Cache κ ν) : Prop where
  below : (cache.inShard shard).length < cache.threshold shard
  raised : cache.threshold shard ≤ max sweepMin (2 * limit)

namespace Roomy

theorem bounded (roomy : cache.Roomy shard limit) : (cache.inShard shard).length < max sweepMin (2 * limit) :=
  Nat.lt_of_lt_of_le roomy.below roomy.raised

theorem dwindles (roomy : before.Roomy shard limit) (dwindles : Dwindles before after) : after.Roomy shard limit := by
  constructor
  · rw [dwindles.threshold_eq]
    exact Nat.lt_of_le_of_lt (dwindles.length_le shard) roomy.below
  · rw [dwindles.threshold_eq]
    exact roomy.raised

/-- A sweep makes room in a shard with few live entries, however many dead ones it has. -/
theorem sweep {keys : List κ} (swept : Swept alive shard before after keys)
    (raised : before.threshold shard ≤ max sweepMin (2 * limit))
    (few : ((before.inShard shard).filter fun entry => alive entry.2).length ≤ limit) : after.Roomy shard limit := by
  have same : after.shard = before.shard := by
    funext key
    simp only [Cache.shard, swept.shards]
  by_cases early : (before.inShard shard).length < before.threshold shard
  · obtain ⟨-, table, threshold⟩ := swept.early early
    refine ⟨?_, threshold ▸ raised⟩
    rw [threshold]
    simpa only [inShard, table, same] using early
  · obtain ⟨table, -, threshold⟩ := swept.due (Nat.le_of_not_lt early)
    have left := inShard_of_swept same table
    rw [← left] at few
    constructor
    · -- twice what is left is more than what is left, unless nothing is left
      have positive : 0 < sweepMin := by decide
      rw [threshold]
      omega
    · rw [threshold]
      omega

end Roomy

/-! ## The whole table -/

/-- The shards of a cache make up its table. -/
theorem length_lt_of_shards {shards : Nat} (some : 0 < shards) (all : ∀ key, cache.shard key < shards)
    (small : ∀ shard < shards, (cache.inShard shard).length < limit) : cache.length < shards * limit := by
  have below (count : Nat) (within : count ≤ shards) :
      (cache.table.countP fun entry => decide (cache.shard entry.1 < count)) ≤ count * (limit - 1) := by
    induction count with
    | zero => simp
    | succ count ih =>
      have split : (cache.table.countP fun entry => decide (cache.shard entry.1 < count + 1))
          = (cache.table.countP fun entry => decide (cache.shard entry.1 < count))
            + cache.table.countP fun entry => cache.shard entry.1 == count := by
        induction cache.table with
        | nil => rfl
        | cons entry table inner =>
          simp only [List.countP_cons, inner, decide_eq_true_eq, beq_iff_eq]
          grind
      have last := small count within
      have rest := ih (Nat.le_of_succ_le within)
      rw [inShard, ← List.countP_eq_length_filter] at last
      rw [split, Nat.succ_mul]
      omega
  have everything : (cache.table.countP fun entry => decide (cache.shard entry.1 < shards)) = cache.table.length :=
    List.countP_eq_length.mpr fun entry _ => decide_eq_true (all entry.1)
  have whole := below shards (Nat.le_refl shards)
  have one : 0 < limit := Nat.zero_lt_of_lt (small 0 some)
  rw [everything] at whole
  calc cache.table.length
    _ ≤ shards * (limit - 1) := whole
    _ < shards * limit := Nat.mul_lt_mul_of_pos_left (Nat.sub_lt one Nat.one_pos) some

end Cache

variable [DecidableEq κ] [DecidableEq ν] {stage : Stage κ ν} {move : Move κ ν} {moves : List (Move κ ν)}
  {key : κ} {value : ν} {thread shard limit : Nat}

open Stage (view)

namespace Stage

omit [DecidableEq κ] in
/-- How many live entries a shard has. -/
def liveIn (shard : Nat) (stage : Stage κ ν) : Nat := (stage.cache.inShard shard).countP fun entry => stage.alive entry.2

/-- The end of a construction halfway: the object is in the table, and the shard is about to be
    swept. -/
def entering (key : κ) (value : ν) (stage : Stage κ ν) : Stage κ ν :=
  { view.hold value stage with cache := (stage.cache.abandon key).insert key value }

/-- A key under construction has no entry that its object would replace. -/
theorem table_entering (sound : stage.Sound) (claimed : ⟨key, thread⟩ ∈ stage.cache.claims) :
    (entering key value stage).cache.table = (key, value) :: stage.cache.table := by
  have absent := Cache.Apart.absent sound.apart claimed
  have missing : stage.cache.find? key = none := Option.not_isSome_iff_eq_none.mp (Bool.eq_false_iff.mp absent)
  have alone : (stage.cache.erase key).table = stage.cache.table := by
    refine List.filter_eq_self.mpr fun entry among => ?_
    rw [bne_iff_ne]
    rintro rfl
    exact Cache.not_mem_of_find? missing among
  exact congrArg ((key, value) :: ·) alone

/-- Entering an object makes no other one live. -/
theorem alive_entering (sound : stage.Sound) (claimed : ⟨key, thread⟩ ∈ stage.cache.claims) :
    (entering key value stage).alive = (view.hold value stage).alive := by
  funext other
  by_cases same : value = other
  · simp [alive, entering, view, same]
  · have differs : (value == other) = false := by simpa using same
    have entries : ((entering key value stage).cache.table.any fun entry => entry.2 == other)
        = stage.cache.table.any fun entry => entry.2 == other := by
      rw [table_entering sound claimed, List.any_cons, differs]
      rfl
    unfold alive Cache.keeps
    rw [entries]
    rfl

end Stage

namespace Move

/-! ## One move -/

/-- The moments in the midst of a move at which there are entries that it may take away again. -/
def midst (stage : Stage κ ν) : Move κ ν → List (Stage κ ν)
  | .finish _ key value => [stage.entering key value]
  | _ => []

/-- The end of a construction sweeps the shard of its key, and no other one. -/
theorem finish_swept (value : ν) (sound : stage.Sound) (claimed : ⟨key, thread⟩ ∈ stage.cache.claims) :
    ∃ keys, ((finish thread key value).apply stage).notes
        = stage.notes ++ .constructed key :: keys.map (.left .reclaimed) ∧
      Cache.Swept (stage.entering key value).alive (stage.cache.shard key) (stage.entering key value).cache
        ((finish thread key value).apply stage).cache keys := by
  let entered := (stage.cache.abandon key).insert key value
  have swept := entered.sweep_swept (stage.entering key value).alive (stage.cache.shard key)
  have queued := (entered.sweep (stage.entering key value).alive (stage.cache.shard key)).2.queue_dwindles value
  have table := (entered.sweep (stage.entering key value).alive (stage.cache.shard key)).2.table_queue value
  rw [Stage.alive_entering sound claimed] at swept queued table ⊢
  refine ⟨_, rfl, ?_⟩
  have shard_eq := queued.inShard_eq table
  refine ⟨fun early => ?_, fun due => ?_, swept.once, fun other differs => ?_, ?_⟩
  · obtain ⟨none, same, threshold⟩ := swept.early early
    exact ⟨none, table.trans same, (queued.threshold_eq _).trans threshold⟩
  · obtain ⟨left, keys, threshold⟩ := swept.due due
    refine ⟨table.trans left, keys, ?_⟩
    exact (queued.threshold_eq _).trans (threshold.trans (by rw [← shard_eq]; rfl))
  · obtain ⟨same, threshold⟩ := swept.others other differs
    exact ⟨(shard_eq other).trans same, (queued.threshold_eq other).trans threshold⟩
  · exact ⟨queued.discipline.trans swept.shards.1, queued.spread.trans swept.shards.2⟩

/-- Everything but the end of a construction takes entries away at most. -/
theorem apply_dwindles (unfinished : ∀ thread key value, move ≠ .finish thread key value) :
    Cache.Dwindles stage.cache (move.apply stage).cache := by
  cases move with
  | ask thread key =>
    have asks := Cache.Dwindles.ask stage.cache stage.alive thread key
    unfold apply CacheView.ask
    dsimp only [view]
    generalize stage.cache.ask stage.alive thread key = asked at asks
    obtain ⟨answer, notes, cache⟩ := asked
    cases answer <;> exact asks
  | finish thread key value => exact absurd rfl (unfinished thread key value)
  | get key =>
    have gets := Cache.Dwindles.get? stage.cache stage.alive key
    unfold apply CacheView.get?
    dsimp only [view]
    generalize stage.cache.get? stage.alive key = got at gets
    obtain ⟨found, notes, cache⟩ := got
    cases found <;> exact gets
  | evict key =>
    have evicts := Cache.Dwindles.evict stage.cache stage.alive key
    unfold apply CacheView.evict
    dsimp only [view]
    generalize stage.cache.evict stage.alive key = evicted at evicts
    obtain ⟨found, notes, cache⟩ := evicted
    cases found <;> exact evicts
  | clear => exact ⟨⟨rfl, rfl, rfl⟩, List.nil_sublist _⟩
  | purge => exact ⟨⟨rfl, rfl, rfl⟩, List.filter_sublist⟩
  | _ => exact .of_eq ⟨rfl, rfl, rfl⟩ rfl

/-- An object that is entered into another shard leaves the entries of this one alone. -/
theorem inShard_entering (differs : shard ≠ stage.cache.shard key) :
    (stage.entering key value).cache.inShard shard = stage.cache.inShard shard := by
  unfold Stage.entering Cache.insert Cache.inShard
  rw [List.filter_cons_of_neg (by simpa [Cache.shard, Cache.abandon] using differs.symm)]
  simp only [Cache.erase, Cache.abandon, List.filter_filter]
  refine List.filter_congr fun entry _ => ?_
  by_cases same : entry.1 = key
  · subst same
    simpa [Cache.shard] using differs.symm
  · simp [same, Cache.shard]

/-- A move leaves room in a shard that has few live entries all the while. -/
theorem apply_roomy (roomy : stage.cache.Roomy shard limit) (sound : stage.Sound) (allowed : move.Allowed stage)
    (few : ∀ mid ∈ move.midst stage, mid.liveIn shard ≤ limit) : (move.apply stage).cache.Roomy shard limit := by
  cases move with
  | finish thread key value =>
    obtain ⟨keys, -, swept⟩ := finish_swept value sound allowed
    by_cases own : shard = stage.cache.shard key
    · subst own
      have live := few _ (List.mem_singleton_self _)
      rw [Stage.liveIn, List.countP_eq_length_filter] at live
      exact Cache.Roomy.sweep swept roomy.raised live
    · obtain ⟨entries, raised⟩ := swept.others shard own
      constructor
      · rw [entries, raised, inShard_entering own]
        exact roomy.below
      · rw [raised]
        exact roomy.raised
  | _ => exact roomy.dwindles (apply_dwindles fun _ _ _ => nofun)

/-- The shards of a cache are never split otherwise. -/
theorem apply_shards (sound : stage.Sound) (allowed : move.Allowed stage) :
    (move.apply stage).cache.discipline = stage.cache.discipline ∧ (move.apply stage).cache.spread = stage.cache.spread := by
  cases move with
  | finish thread key value =>
    obtain ⟨keys, -, swept⟩ := finish_swept value sound allowed
    exact swept.shards
  | _ => exact Cache.Dwindles.shards (apply_dwindles fun _ _ _ => nofun)

/-! ## Every run -/

/-- At no moment of the run the shard has more live entries than the limit, neither between two
    moves nor in the midst of one. -/
def LiveWithin (shard limit : Nat) : List (Move κ ν) → Stage κ ν → Prop
  | [], stage => stage.liveIn shard ≤ limit
  | move :: moves, stage => stage.liveIn shard ≤ limit ∧ (∀ mid ∈ move.midst stage, mid.liveIn shard ≤ limit) ∧
      LiveWithin shard limit moves (move.apply stage)

instance decideLiveWithin (shard limit : Nat) : (moves : List (Move κ ν)) → (stage : Stage κ ν) →
    Decidable (LiveWithin shard limit moves stage)
  | [], _ => inferInstanceAs (Decidable (_ ≤ _))
  | move :: moves, stage =>
      have := decideLiveWithin shard limit moves (move.apply stage)
      inferInstanceAs (Decidable (_ ∧ _ ∧ _))

theorem after_roomy (roomy : stage.cache.Roomy shard limit) (sound : stage.Sound) (allowed : AllowedAll moves stage)
    (few : LiveWithin shard limit moves stage) : (after moves stage).cache.Roomy shard limit := by
  induction moves generalizing stage with
  | nil => exact roomy
  | cons move moves ih =>
    exact ih (apply_roomy roomy sound allowed.1 few.2.1) (apply_leads sound allowed.1).sound allowed.2 few.2.2

theorem after_shards (sound : stage.Sound) (allowed : AllowedAll moves stage) :
    (after moves stage).cache.discipline = stage.cache.discipline ∧
      (after moves stage).cache.spread = stage.cache.spread := by
  induction moves generalizing stage with
  | nil => exact ⟨rfl, rfl⟩
  | cons move moves ih =>
    obtain ⟨discipline, spread⟩ := apply_shards sound allowed.1
    obtain ⟨discipline', spread'⟩ := ih (apply_leads sound allowed.1).sound allowed.2
    exact ⟨discipline'.trans discipline, spread'.trans spread⟩

omit [DecidableEq κ] [DecidableEq ν] in
theorem start_roomy (name : String) (retention : Retention) (discipline : Discipline) (spread : κ → Nat)
    (shard limit : Nat) : (Stage.start name retention discipline spread : Stage κ ν).cache.Roomy shard limit :=
  ⟨show 0 < Cache.sweepMin by decide, Nat.le_max_left _ _⟩

section bounded

variable (name : String) (retention : Retention) (discipline : Discipline) (spread : κ → Nat)

/-- The dead entries of a cache do not accumulate, in any run.  While a shard has no more live
    entries than a limit, it has fewer entries than twice the limit, or than 64 if that is more,
    and the one shard of a confined cache is its whole table; so the cache has fewer entries than
    that for each of its shards.  A sweep at the end of a construction takes exactly the dead
    entries of the shard away and reports the key of each of them once. -/
theorem entries_bounded
    (allowed : AllowedAll moves (Stage.start name retention discipline spread : Stage κ ν)) :
    let start : Stage κ ν := Stage.start name retention discipline spread
    let now := after moves start
    (∀ shard limit, LiveWithin shard limit moves start →
      (now.cache.inShard shard).length < max Cache.sweepMin (2 * limit)) ∧
    (discipline = .confined → now.cache.inShard 0 = now.cache.table) ∧
    (∀ limit, 0 < discipline.count → (∀ shard < discipline.count, LiveWithin shard limit moves start) →
      now.cache.length < discipline.count * max Cache.sweepMin (2 * limit)) ∧
    ∀ thread key value, (.finish thread key value : Move κ ν).Allowed now →
      ∃ keys, ((finish thread key value).apply now).notes
          = now.notes ++ .constructed key :: keys.map (.left .reclaimed) ∧ keys.Nodup ∧
        Cache.Swept (now.entering key value).alive (now.cache.shard key) (now.entering key value).cache
          ((finish thread key value).apply now).cache keys := by
  intro start now
  have started : start.Sound := Stage.start_sound name retention discipline spread
  have sound : now.Sound := (after_run started allowed).sound
  obtain ⟨same, spreads⟩ := after_shards started allowed
  have bounded (shard limit : Nat) (few : LiveWithin shard limit moves start) :
      (now.cache.inShard shard).length < max Cache.sweepMin (2 * limit) :=
    (after_roomy (start_roomy name retention discipline spread shard limit) started allowed few).bounded
  refine ⟨bounded, fun confined => ?_, fun limit some few => ?_, fun thread key value claimed => ?_⟩
  · refine List.filter_eq_self.mpr fun entry _ => ?_
    rw [Cache.shard, same, show start.cache.discipline = .confined from confined]
    rfl
  · refine Cache.length_lt_of_shards some (fun key => ?_) fun shard within => bounded shard limit (few shard within)
    rw [Cache.shard, same]
    change (match discipline with | .shared shards => _ % shards | .confined => 0) < _
    cases discipline with
    | shared shards => exact Nat.mod_lt _ some
    | confined => exact Nat.one_pos
  · obtain ⟨keys, reported, swept⟩ := finish_swept value sound claimed
    have absent := Cache.Apart.absent sound.apart claimed
    have unique : (now.entering key value).cache.Unique :=
      (Cache.enter_accounts sound.unique absent _ (Stage.table_entering sound claimed)).2
    exact ⟨keys, reported, swept.once unique, swept⟩

end bounded

/-- Objects of so many keys, each let go before the next one is constructed. -/
def churn (keys : Nat) : List (Move Nat Nat) :=
  (List.range keys).flatMap fun key => [.ask 0 key, .finish 0 key key, .drop key]

/-- The object of the last key sweeps away what is left of the others. -/
theorem entries_bounded_churn :
    let start : Stage Nat Nat := Stage.start "mirrors" .weak .confined id
    let last := churn 63 ++ [.ask 0 63]
    AllowedAll last start ∧ LiveWithin 0 1 last start ∧ (after last start).cache.length = 63 ∧
      (after last start).cache.length < 1 * 64 ∧
      ∃ keys : List Nat, ((finish 0 63 63).apply (after last start)).notes
        = (after last start).notes ++ .constructed 63 :: keys.map (.left .reclaimed) ∧ keys.Nodup := by
  intro start last
  have allowed : AllowedAll last start := by decide +kernel
  have few : LiveWithin 0 1 last start := by decide +kernel
  obtain ⟨-, -, whole, sweeps⟩ := entries_bounded "mirrors" .weak .confined id allowed
  obtain ⟨keys, reported, once, -⟩ := sweeps 0 63 63 (by decide +kernel)
  refine ⟨allowed, few, by decide +kernel, ?_, keys, reported, once⟩
  exact whole 1 Nat.one_pos fun shard within => (Nat.lt_one_iff.mp within) ▸ few

end Move

end CatalogReplica.Identity
