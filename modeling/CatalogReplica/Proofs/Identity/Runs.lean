import CatalogReplica.Proofs.Identity.Moves

/-!
# What every run over an identity cache keeps

* `Stage.Run`: what a run leads to, from what each of its moves leads to.
* `Move.entries_conserved`: the entries are the constructions less the departures, and the
  counters say so.
* `Move.same_object`: an object that somebody keeps alive stays the object of its key.
-/

namespace CatalogReplica.Identity

variable {κ ν : Type} [DecidableEq κ] [DecidableEq ν]

namespace Stage

/-- What a run leads to.  Its reports account for the entries that came and went, with one
    construction for each that succeeded and one hit or miss for each lookup. -/
structure Run (moves : List (Move κ ν)) (before after : Stage κ ν) : Prop where
  sound : after.Sound
  reports : ∃ notes, after.notes = before.notes ++ notes ∧ after.tally = Note.count notes before.tally ∧
    Cache.Accounts notes before.cache after.cache ∧
    Cache.Counted (moves.countP Move.constructs) (moves.countP Move.looks) notes

omit [DecidableEq ν] in
theorem start_sound (name : String) (retention : Retention) (discipline : Discipline) (spread : κ → Nat) :
    (start name retention discipline spread : Stage κ ν).Sound :=
  ⟨List.nodup_nil, fun _ _ => rfl⟩

end Stage

namespace Move

open Stage (view Run)

variable {stage : Stage κ ν} {moves : List (Move κ ν)}

theorem after_run (sound : stage.Sound) (allowed : AllowedAll moves stage) :
    Run moves stage (after moves stage) := by
  induction moves generalizing stage with
  | nil =>
    exact ⟨sound, [], (List.append_nil _).symm, rfl, .idle rfl rfl rfl fun _ _ => rfl, rfl, rfl⟩
  | cons move moves ih =>
    have first := apply_leads sound allowed.1
    have rest := ih first.sound allowed.2
    obtain ⟨notes, noted, tallied, accounts, counted⟩ := first.reports
    obtain ⟨more, noted', tallied', accounts', counted'⟩ := rest.reports
    refine ⟨rest.sound, notes ++ more, ?_, ?_, accounts.trans accounts', ?_, ?_⟩
    · rw [after, noted', noted, List.append_assoc]
    · rw [after, tallied', tallied, Note.count_append]
    · rw [Note.counted_append, counted.constructions, counted'.constructions, List.countP_cons]
      cases move.constructs <;> simp
      omega
    · have looks := counted.looks
      have looks' := counted'.looks
      rw [Note.counted_append, Note.counted_append, List.countP_cons]
      cases looked : move.looks <;> simp only [looked, Bool.toNat_true, Bool.toNat_false] at looks <;> simp <;> omega

/-! ## Conservation -/

omit [DecidableEq κ] in
/-- What a purge leaves is still alive without what it took away. -/
theorem alive_of_purged {entry : κ × ν} (among : entry ∈ (view.purge stage).2.cache.table) :
    (view.purge stage).2.alive entry.2 = true := by
  have live : stage.alive entry.2 = true := (List.mem_filter.mp among).2
  have own : (view.purge stage).2.cache.table.any (fun other => other.2 == entry.2) = true :=
    List.any_eq_true.mpr ⟨entry, among, beq_self_eq_true _⟩
  change (stage.held.contains entry.2
    || (stage.cache.soft.contains entry.2
      || (stage.cache.retention == .strong && (view.purge stage).2.cache.table.any _))) = true
  rw [own]
  simp only [Stage.alive, Cache.keeps, Bool.or_eq_true, Bool.and_eq_true] at live ⊢
  exact live.imp_right (Or.imp_right fun strong => ⟨strong.1, trivial⟩)

section conservation

variable (name : String) (retention : Retention) (discipline : Discipline) (spread : κ → Nat)

/-- At every point of a run the entries are the objects constructed less those reported to
    leave, for each key constructions and departures alternate, and the counters agree with
    the reports.  Purging then would give the number of dead entries and leave the live
    ones. -/
theorem entries_conserved
    (allowed : AllowedAll moves (Stage.start name retention discipline spread : Stage κ ν)) :
    let now := after moves (Stage.start name retention discipline spread)
    let departures := Note.departures now.notes
    moves.countP constructs = now.cache.length + departures.length ∧
      (∀ key, Note.follow key now.notes false = some (now.cache.has key)) ∧
      now.tally.get .identityConstruct = moves.countP constructs ∧
      now.tally.get .identityEvict = departures.countP (·.2 = .evicted) ∧
      now.tally.get .identityReclaim = departures.countP (·.2 = .reclaimed) ∧
      now.tally.get .identityHit + now.tally.get .identityMiss = moves.countP looks ∧
      (view.purge now).1 + (now.cache.live now.alive).length = now.cache.length ∧
      (view.purge now).2.cache.table = now.cache.live now.alive ∧
      ∀ entry ∈ (view.purge now).2.cache.table, (view.purge now).2.alive entry.2 = true := by
  intro now departures
  have run := after_run (Stage.start_sound name retention discipline spread) allowed
  obtain ⟨notes, noted, tallied, accounts, counted⟩ := run.reports
  change now.notes = [] ++ notes at noted
  change now.tally = Note.count notes {} at tallied
  rw [List.nil_append] at noted
  subst noted
  have count (counter : Counter) : now.tally.get counter = Note.counted counter now.notes := by
    have zero : ({} : Tally).get counter = 0 := by cases counter <;> rfl
    rw [tallied, Note.get_count, zero, Int.zero_add]
  refine ⟨?_, accounts.follow, ?_, ?_, ?_, ?_, ?_, rfl, ?_⟩
  · rw [← counted.constructions]
    have balance := accounts.balance
    change Note.counted .identityConstruct now.notes + 0 = departures.length + now.cache.length at balance
    omega
  · rw [count, counted.constructions]
  · rw [count, Note.counted_departures .evicted]
    intro note
    cases note with
    | left why key => cases why <;> simp [Note.counter?]
    | _ => simp [Note.counter?]
  · rw [count, Note.counted_departures .reclaimed]
    intro note
    cases note with
    | left why key => cases why <;> simp [Note.counter?]
    | _ => simp [Note.counter?]
  · rw [count, count, ← counted.looks]
    rfl
  · have split := now.cache.table.length_eq_countP_add_countP fun entry => now.alive entry.2
    simp only [List.countP_eq_length_filter, decide_not, Bool.decide_eq_true] at split
    change (now.cache.dead now.alive).length + _ = _
    rw [Cache.dead, List.length_map, Cache.live, Cache.length]
    omega
  · exact fun entry among => alive_of_purged among

end conservation

/-- The constructor for 7 constructs the object of 8, which is let go at once; the object of
    7 is evicted and the dead entry of 8 purged. -/
def nestedRun : List (Move Nat Nat) :=
  [.ask 0 7, .ask 0 8, .ask 0 7, .finish 0 8 80, .drop 80, .get 8, .finish 0 7 70, .evict 7, .purge]

theorem conserved_nestedRun :
    AllowedAll nestedRun (Stage.start "mirrors" .weak (.shared 8) id) ∧
      (after nestedRun (Stage.start "mirrors" .weak (.shared 8) id)).cache.length
        + (Note.departures (after nestedRun (Stage.start "mirrors" .weak (.shared 8) id)).notes).length = 2 :=
  have allowed : AllowedAll nestedRun (Stage.start "mirrors" .weak (.shared 8) id) := by decide
  ⟨allowed, (entries_conserved "mirrors" .weak (.shared 8) id allowed).1.symm⟩

/-! ## One object for each key -/

/-- The move gives its caller the object of the key. -/
inductive Gives (stage : Stage κ ν) (key : κ) (value : ν) : Move κ ν → Prop where
  | found (thread : Nat) : (view.ask thread key stage).1 = .hit value → Gives stage key value (.ask thread key)
  | made (thread : Nat) : Gives stage key value (.finish thread key value)
  | got : (view.get? key stage).1 = some value → Gives stage key value (.get key)

section object

variable {move : Move κ ν} {key : κ} {value : ν}

/-- An object that was given is in the entry of its key. -/
theorem Gives.entry (sound : stage.Sound) (allowed : move.Allowed stage) (given : move.Gives stage key value) :
    (key, value) ∈ (move.apply stage).cache.table := by
  cases given with
  | found thread hit =>
    have stays := (ask_leads sound thread key).stays key value
    obtain ⟨other, among, live, run⟩ | ⟨asked, notes, cache, run, -, -, state⟩ :=
      stage.cache.ask_cases stage.alive thread key
    · simp only [CacheView.ask, view, run, Asked.hit.injEq] at hit
      subst hit
      exact stays among live (by rintro ⟨⟩) (by rintro ⟨⟩)
    · simp only [CacheView.ask, view, run] at hit
      obtain ⟨rfl | rfl, -⟩ | ⟨rfl, -⟩ := state <;> cases hit
  | made thread =>
    have settled := stage.cache.settle_spec (view.hold value stage).alive key value
    exact settled.own (by simp [Stage.alive, view])
  | got found =>
    have stays := (get_leads sound key).stays key value
    obtain ⟨other, among, live, run⟩ | ⟨-, notes, cache, run, -⟩ := stage.cache.get?_cases stage.alive key
    · simp only [CacheView.get?, view, run, Option.some.injEq] at found
      subst found
      exact stays among live (by rintro ⟨⟩) (by rintro ⟨⟩)
    · simp only [CacheView.get?, view, run, reduceCtorEq] at found

/-- Something keeps the object alive, now and after each move of the run. -/
def KeptAlive (value : ν) : List (Move κ ν) → Stage κ ν → Prop
  | [], stage => stage.alive value = true
  | move :: moves, stage => stage.alive value = true ∧ KeptAlive value moves (move.apply stage)

instance decideKeptAlive (value : ν) : (moves : List (Move κ ν)) → (stage : Stage κ ν) →
    Decidable (KeptAlive value moves stage)
  | [], _ => inferInstanceAs (Decidable (_ = true))
  | move :: moves, stage =>
      have := decideKeptAlive value moves (move.apply stage)
      inferInstanceAs (Decidable (_ ∧ _))

theorem KeptAlive.last (kept : KeptAlive value moves stage) : (after moves stage).alive value = true := by
  induction moves generalizing stage with
  | nil => exact kept
  | cons move moves ih => exact ih kept.2

/-- The entry of an object stays as long as the object is kept alive, unless its key is
    evicted or the cache is cleared. -/
theorem entry_stays (sound : stage.Sound) (allowed : AllowedAll moves stage)
    (entry : (key, value) ∈ stage.cache.table) (kept : KeptAlive value moves stage)
    (unevicted : .evict key ∉ moves) (uncleared : .clear ∉ moves) :
    (key, value) ∈ (after moves stage).cache.table := by
  induction moves generalizing stage with
  | nil => exact entry
  | cons move moves ih =>
    have leads := apply_leads sound allowed.1
    rw [List.mem_cons, not_or] at unevicted uncleared
    have stays := leads.stays key value entry kept.1 (Ne.symm unevicted.1) (Ne.symm uncleared.1)
    exact ih leads.sound allowed.2 stays kept.2 unevicted.2 uncleared.2

variable (name : String) (retention : Retention) (discipline : Discipline) (spread : κ → Nat)
  (before since : List (Move κ ν))

/-- An object that a caller was given, and that something has kept alive ever since, is what
    its key gives as long as the key is not evicted and the cache is not cleared.  A lookup
    does not run its constructor. -/
theorem same_object
    (allowed : AllowedAll (before ++ move :: since) (Stage.start name retention discipline spread))
    (given : move.Gives (after before (Stage.start name retention discipline spread)) key value)
    (kept : KeptAlive value since (move.apply (after before (Stage.start name retention discipline spread))))
    (unevicted : .evict key ∉ since) (uncleared : .clear ∉ since) :
    let now := after (before ++ move :: since) (Stage.start name retention discipline spread)
    (view.get? key now).1 = some value ∧
      ∀ thread, ∃ later, ∀ construct, view.lookup thread key construct now = .ok value later := by
  intro now
  obtain ⟨allowedBefore, allowedMove, allowedSince⟩ := allowedAll_append.mp allowed
  have sound := (after_run (Stage.start_sound name retention discipline spread) allowedBefore).sound
  have leads := apply_leads sound allowedMove
  have entry := entry_stays leads.sound allowedSince (given.entry sound allowedMove) kept unevicted uncleared
  have nowSound := (after_run leads.sound allowedSince).sound
  have live := kept.last
  have split : after since (move.apply _) = now := (after_append before (move :: since) _).symm
  rw [split] at entry nowSound live
  refine ⟨?_, fun thread => ⟨_, fun construct => CacheView.lookup_of_live nowSound.unique entry live thread construct⟩⟩
  rw [CacheView.get?_of_live nowSound.unique entry live]

end object

/-- While the caller holds the object of 7, another key is looked up in vain and the dead
    entries are purged. -/
theorem same_object_held :
    let start : Stage Nat Nat := Stage.start "mirrors" (.soft 1) .confined id
    let now := after [.ask 0 7, .finish 0 7 70, .relieve, .ask 0 8, .abandon 0 8, .purge] start
    (view.get? 7 now).1 = some 70 ∧ ∀ thread, ∃ later, ∀ construct, view.lookup thread 7 construct now = .ok 70 later :=
  same_object "mirrors" (.soft 1) .confined id [.ask 0 7] [.relieve, .ask 0 8, .abandon 0 8, .purge]
    (by decide) (.made 0) (by decide) (by decide) (by decide)

end Move

end CatalogReplica.Identity
