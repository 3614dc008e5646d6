import Mathlib.Data.List.Induction
import CatalogReplica.Proofs.Coherence.Memoized

/-!
# What the status of a host says about its past

A log lists what happens to hosts, bounds and gates one after another: deeds, and computations
that begin and end, overlapping in any way.  The status of a host is read off its memos and off
the gates as they are now; it agrees with the log at every point.

* `SlotTable.status_stale`, ...: what the scan over the memos of a table finds.
* `Program.Log`: the logs of computations that take their cell when they begin.
* `Program.history`: the log of a run, entry by entry.
* `Program.status_history`: the status of a host in terms of what was logged.
-/

namespace CatalogReplica.Coherence

variable {ν : Type}

/-! ## The scan over a table -/

namespace SlotTable

variable {table : SlotTable ν} {gates : Gates} {memo : Memo ν}

theorem status_evicted : table.status gates = .evicted ↔ table.evicted = true := by
  unfold status
  split
  · simp [*]
  · split
    · simp [*]
    · split <;> simp [*]

/-- The scan stops at the first memo that is invalid, whichever slot it belongs to. -/
theorem status_stale (alive : table.evicted = false) :
    table.status gates = .stale ↔ ∃ index memo, table.memo? index = some memo ∧ memo.isValid gates = false := by
  have found : (table.kept.any fun memo => !memo.isValid gates) = true
      ↔ ∃ index memo, table.memo? index = some memo ∧ memo.isValid gates = false := by
    simp only [List.any_eq_true, mem_kept, Bool.not_eq_true']
    exact ⟨fun ⟨memo, ⟨index, kept⟩, invalid⟩ => ⟨index, memo, kept, invalid⟩,
      fun ⟨index, memo, kept, invalid⟩ => ⟨memo, ⟨index, kept⟩, invalid⟩⟩
  rw [← found]
  unfold status
  rw [alive]
  split
  · contradiction
  · split
    · simp [*]
    · split <;> simp [*]

theorem status_unpopulated (alive : table.evicted = false) :
    table.status gates = .unpopulated ↔ ∀ index, table.memo? index = none := by
  have empty : table.kept = [] ↔ ∀ index, table.memo? index = none := by
    simp only [List.eq_nil_iff_forall_not_mem, mem_kept, not_exists, Option.eq_none_iff_forall_ne_some]
    exact forall_comm
  rw [← empty]
  unfold status
  rw [alive]
  cases kept : table.kept with
  | nil => simp
  | cons first rest =>
    split
    · contradiction
    · split <;> simp

theorem status_populated (alive : table.evicted = false) (populated : table.status gates ≠ .unpopulated)
    (fresh : table.status gates ≠ .stale) : table.status gates = .populated := by
  cases status : table.status gates with
  | evicted => simp [status_evicted, alive] at status
  | unpopulated => exact absurd status populated
  | stale => exact absurd status fresh
  | populated => rfl

end SlotTable

/-! ## Logs -/

/-- An entry of a log. -/
inductive Event (ν : Type) where
  /-- Something was done. -/
  | deed (deed : Deed)
  /-- A computation has begun. -/
  | began (reading : Reading)
  /-- A computation has ended, and the memo that it leaves is kept. -/
  | ended (finished : Finished ν)

/-- The computation gave a value to keep. -/
def Finished.Cached (finished : Finished ν) : Prop := ∃ value, finished.outcome = .ok (.cached value)

theorem Finished.cached_iff {finished : Finished ν} : finished.Cached ↔ ∃ memo, finished.memo? = some memo := by
  unfold Cached memo?
  cases finished.outcome with
  | error interrupt => simp
  | ok result => cases result <;> simp

theorem Finished.memo?_cell {finished : Finished ν} {memo : Memo ν} (gives : finished.memo? = some memo) :
    memo.cell = finished.cell := by
  unfold memo? at gives
  split at gives
  · cases gives
    rfl
  · cases gives

namespace Engine

variable {events more : List (Event ν)} {engine : Engine ν} {host : Nat} {table : SlotTable ν}

/-- What an entry of a log leaves. -/
def event (engine : Engine ν) : Event ν → Engine ν
  | .deed deed => engine.deed deed
  | .began _ => engine.begun
  | .ended finished => engine.settled finished

/-- What the entries of a log leave. -/
def replay (events : List (Event ν)) : Engine ν := events.foldl event {}

theorem replay_snoc (events : List (Event ν)) (event : Event ν) : replay (events ++ [event]) = (replay events).event event := by
  simp [replay]

/-- The host was marked as evicted while it was there. -/
def Marked (events : List (Event ν)) (host : Nat) : Prop :=
  ∃ before after, events = before ++ .deed (.evict host) :: after ∧ host < (replay before).hosts.size

/-- A computation of the site ended with a value to keep. -/
def Ever (events : List (Event ν)) (site : Site) : Prop :=
  ∃ finished, .ended finished ∈ events ∧ finished.site = site ∧ finished.Cached

/-- The computation is the last one of its site that ended with a value to keep. -/
def Last (events : List (Event ν)) (finished : Finished ν) : Prop :=
  finished.Cached ∧ ∃ before after, events = before ++ .ended finished :: after ∧ ¬ Ever after finished.site

/-! ## Hosts -/

theorem size_event (engine : Engine ν) (event : Event ν) : engine.hosts.size ≤ (engine.event event).hosts.size := by
  cases event with
  | began reading => exact Nat.le_refl _
  | deed deed =>
    cases deed with
    | gates step => exact Nat.le_refl _
    | host slots gates => obtain same | ⟨-, same⟩ := engine.deed_host slots gates <;> simp [Engine.event, same]
    | bind gate => obtain same | ⟨-, same⟩ := engine.deed_bind gate <;> simp [Engine.event, same]
    | evict other => simp [Engine.event, Engine.deed]
  | ended finished =>
    simp only [Engine.event, settled]
    split
    · cases finished.site <;> simp [keep, ended]
    · exact Nat.le_refl _

theorem size_replay (before more : List (Event ν)) : (replay before).hosts.size ≤ (replay (before ++ more)).hosts.size := by
  induction more using List.reverseRecOn with
  | nil => simp
  | append_singleton more event inductionHypothesis =>
    rw [← List.append_assoc, replay_snoc]
    exact Nat.le_trans inductionHypothesis (size_event _ event)

/-- A host is new and not marked, or marked if it was before or is marked now. -/
theorem evicted_event {event : Event ν} (found : (engine.event event).hosts[host]? = some table) :
    (engine.hosts.size = host ∧ table.evicted = false) ∨
      ∃ old, engine.hosts[host]? = some old ∧ (table.evicted = true ↔ old.evicted = true ∨ event = .deed (.evict host)) := by
  -- Only `evict` marks a table, and only `host` makes one; keeping a value leaves the mark.
  cases event with
  | began reading => exact .inr ⟨table, found, by simp⟩
  | deed deed =>
    cases deed with
    | gates step => exact .inr ⟨table, found, by simp⟩
    | bind gate =>
      obtain same | ⟨-, same⟩ := engine.deed_bind gate <;> simp only [Engine.event, same] at found <;>
        exact .inr ⟨table, found, by simp⟩
    | host slots gates =>
      obtain same | ⟨-, same⟩ := engine.deed_host slots gates <;> simp only [Engine.event, same] at found
      · exact .inr ⟨table, found, by simp⟩
      · rw [Array.getElem?_push] at found
        split at found
        next new =>
          cases found
          exact .inl ⟨new.symm, rfl⟩
        next => exact .inr ⟨table, found, by simp⟩
    | evict other =>
      simp only [Engine.event, Engine.deed, Array.getElem?_modify] at found
      split at found
      next here =>
        subst here
        obtain ⟨old, there, rfl⟩ := Option.map_eq_some_iff.mp found
        exact .inr ⟨old, there, by simp⟩
      next other => exact .inr ⟨table, found, by simp [other]⟩
  | ended finished =>
    simp only [Engine.event, settled] at found
    split at found
    · cases place : finished.site with
      | bound id =>
        simp only [place, keep, ended] at found
        exact .inr ⟨table, found, by simp⟩
      | slot other index =>
        simp only [place, keep, ended, Array.getElem?_modify] at found
        split at found
        · obtain ⟨old, there, rfl⟩ := Option.map_eq_some_iff.mp found
          exact .inr ⟨old, there, by simp [SlotTable.keep]⟩
        · exact .inr ⟨table, found, by simp⟩
    · exact .inr ⟨table, found, by simp⟩

theorem marked_lt (marked : Marked events host) : host < (replay events).hosts.size := by
  obtain ⟨before, after, same, there⟩ := marked
  rw [same]
  exact Nat.lt_of_lt_of_le there (size_replay before _)

theorem Marked.append (marked : Marked events host) (more : List (Event ν)) : Marked (events ++ more) host := by
  obtain ⟨before, after, same, there⟩ := marked
  exact ⟨before, after ++ more, by simp [same], there⟩

theorem marked_snoc {event : Event ν} : Marked (events ++ [event]) host
    ↔ Marked events host ∨ event = .deed (.evict host) ∧ host < (replay events).hosts.size := by
  constructor
  · rintro ⟨before, after, same, there⟩
    obtain rfl | ⟨after, last, rfl⟩ := after.eq_nil_or_concat
    · obtain ⟨rfl, last⟩ := List.append_inj' same rfl
      exact .inr ⟨by simpa using last, there⟩
    · rw [List.concat_eq_append, ← List.cons_append, ← List.append_assoc] at same
      exact .inl ⟨before, after, (List.append_inj' same rfl).1, there⟩
  · rintro (marked | ⟨rfl, there⟩)
    · exact marked.append _
    · exact ⟨events, [], rfl, there⟩

/-- A host is evicted just if it was marked. -/
theorem evicted_iff (found : (replay events).hosts[host]? = some table) : table.evicted = true ↔ Marked events host := by
  induction events using List.reverseRecOn generalizing table with
  | nil => cases found
  | append_singleton events event inductionHypothesis =>
    rw [replay_snoc] at found
    rw [marked_snoc]
    obtain ⟨new, unmarked⟩ | ⟨old, there, marks⟩ := evicted_event found
    · -- nobody has marked a host that was not there yet
      have absent : ¬ Marked events host := fun marked => by
        have := marked_lt marked
        omega
      simp only [unmarked, absent, false_or, Bool.false_eq_true, false_iff, not_and]
      omega
    · have known := (Array.getElem?_eq_some_iff.mp there).1
      rw [marks, inductionHypothesis there]
      simp [known]

/-! ## Computations -/

theorem ever_append {site : Site} : Ever (events ++ more) site ↔ Ever events site ∨ Ever more site := by
  simp only [Ever, List.mem_append, or_and_right, exists_or]

theorem ever_snoc {site : Site} {event : Event ν} : Ever (events ++ [event]) site
    ↔ Ever events site ∨ ∃ finished, event = .ended finished ∧ finished.site = site ∧ finished.Cached := by
  rw [ever_append]
  simp only [Ever, List.mem_singleton, eq_comm]

theorem last_snoc {finished : Finished ν} {event : Event ν} : Last (events ++ [event]) finished
    ↔ event = .ended finished ∧ finished.Cached ∨
      Last events finished ∧ ∀ later, event = .ended later → later.site = finished.site → ¬ later.Cached := by
  constructor
  · rintro ⟨cached, before, after, same, last⟩
    obtain rfl | ⟨after, final, rfl⟩ := after.eq_nil_or_concat
    · exact .inl ⟨by simpa using (List.append_inj' same rfl).2, cached⟩
    · rw [List.concat_eq_append, ← List.cons_append, ← List.append_assoc] at same
      obtain ⟨front, one⟩ := List.append_inj' same rfl
      rw [List.concat_eq_append, ever_snoc, not_or] at last
      cases one
      exact .inr ⟨⟨cached, before, after, front, last.1⟩, fun later one here cached => last.2 ⟨later, one, here, cached⟩⟩
  · rintro (⟨rfl, cached⟩ | ⟨⟨cached, before, after, same, last⟩, others⟩)
    · exact ⟨cached, events, [], rfl, fun ⟨_, among, _⟩ => nomatch among⟩
    · refine ⟨cached, before, after ++ [event], by simp [same], ?_⟩
      rw [ever_snoc, not_or]
      exact ⟨last, fun ⟨later, one, here, cached⟩ => others later one here cached⟩

theorem ever_iff_last {site : Site} : Ever events site ↔ ∃ finished, Last events finished ∧ finished.site = site := by
  induction events using List.reverseRecOn with
  | nil =>
    constructor
    · rintro ⟨_, among, _⟩
      cases among
    · rintro ⟨_, ⟨_, before, after, same, _⟩, _⟩
      simp at same
  | append_singleton events event inductionHypothesis =>
    simp only [ever_snoc, last_snoc]
    by_cases replaced : ∃ finished, event = .ended finished ∧ finished.site = site ∧ finished.Cached
    · obtain ⟨finished, rfl, here, cached⟩ := replaced
      exact iff_of_true (.inr ⟨finished, rfl, here, cached⟩) ⟨finished, .inl ⟨rfl, cached⟩, here⟩
    · rw [or_iff_left replaced, inductionHypothesis]
      constructor
      · rintro ⟨finished, last, rfl⟩
        exact ⟨finished, .inr ⟨last, fun later same here cached => replaced ⟨later, same, here, cached⟩⟩, rfl⟩
      · rintro ⟨finished, ⟨same, cached⟩ | ⟨last, -⟩, here⟩
        · exact absurd ⟨finished, same, here, cached⟩ replaced
        · exact ⟨finished, last, here⟩

theorem last?_event (engine : Engine ν) (event : Event ν) (site : Site) :
    (engine.event event).last? site = match event with
      | .ended finished => (if finished.site = site then finished.memo? else none).or (engine.last? site)
      | _ => engine.last? site := by
  cases event with
  | deed deed => exact last?_deed engine deed site
  | began reading => rfl
  | ended finished => exact last?_settled engine finished site

/-- The memo that should be kept is that of the last computation that ended with a value to keep. -/
theorem last?_replay {site : Site} {memo : Memo ν} : (replay events).last? site = some memo
    ↔ ∃ finished, Last events finished ∧ finished.site = site ∧ finished.memo? = some memo := by
  induction events using List.reverseRecOn generalizing memo with
  | nil =>
    constructor
    · rintro ⟨⟩
    · rintro ⟨finished, ⟨-, before, after, same, -⟩, -⟩
      cases List.append_eq_nil_iff.mp same.symm |>.2
  | append_singleton events event inductionHypothesis =>
    rw [replay_snoc, last?_event]
    simp only [last_snoc]
    cases event with
    | deed deed => simpa using inductionHypothesis
    | began reading => simpa using inductionHypothesis
    | ended later =>
      -- a computation replaces what was kept if it is one of this site and its value is to be kept
      by_cases replaces : later.site = site ∧ later.Cached
      · obtain ⟨rfl, cached⟩ := replaces
        obtain ⟨kept, gives⟩ := Finished.cached_iff.mp cached
        simp only [if_true, gives, Option.some_or, Option.some.injEq]
        constructor
        · rintro rfl
          exact ⟨later, .inl ⟨rfl, cached⟩, rfl, gives⟩
        · rintro ⟨finished, ⟨same, -⟩ | ⟨-, others⟩, here, memo⟩
          · cases same
            exact Option.some.inj (gives.symm.trans memo)
          · exact absurd cached (others later rfl here.symm)
      · have skipped : (if later.site = site then later.memo? else none) = none := by
          by_contra kept
          obtain ⟨here, kept⟩ := ite_ne_right_iff.mp kept
          exact replaces ⟨here, Finished.cached_iff.mpr (Option.ne_none_iff_exists'.mp kept)⟩
        simp only [skipped, Option.none_or, inductionHypothesis]
        constructor
        · rintro ⟨finished, last, rfl, memo⟩
          refine ⟨finished, .inr ⟨last, fun other same here cached => ?_⟩, rfl, memo⟩
          cases same
          exact replaces ⟨here, cached⟩
        · rintro ⟨finished, ⟨same, cached⟩ | ⟨last, -⟩, here, memo⟩
          · cases same
            exact absurd ⟨here, cached⟩ replaces
          · exact ⟨finished, last, here, memo⟩

theorem onward_event (engine : Engine ν) (event : Event ν) : engine.gates.Onward (engine.event event).gates := by
  cases event with
  | began reading => exact .refl _
  | ended finished => exact .of_eq fun cell => by rw [Engine.event, gates_settled]
  | deed deed =>
    cases deed with
    | gates step =>
      rw [Engine.event, gates_step]
      exact Yard.onward_step engine.yard step
    | host slots gates => obtain same | ⟨-, same⟩ := engine.deed_host slots gates <;> rw [Engine.event, same] <;> exact .refl _
    | bind gate => obtain same | ⟨-, same⟩ := engine.deed_bind gate <;> rw [Engine.event, same] <;> exact .refl _
    | evict other => exact .refl _

theorem onward_replay (events more : List (Event ν)) : (replay events).gates.Onward (replay (events ++ more)).gates := by
  induction more using List.reverseRecOn with
  | nil => simpa using Gates.Onward.refl _
  | append_singleton more event inductionHypothesis =>
    rw [← List.append_assoc, replay_snoc]
    exact inductionHypothesis.trans (onward_event _ event)

theorem started_event (engine : Engine ν) (event : Event ν) :
    engine.started ≤ (engine.event event).started := by
  cases event with
  | began reading => exact Nat.le_succ _
  | deed deed => exact (engine.leads_deed deed).started
  | ended finished =>
    simp only [Engine.event, settled]
    split
    · exact (leads_keep (engine.ended finished) _ _).started
    · exact Nat.le_refl _

theorem started_replay (events more : List (Event ν)) : (replay events).started ≤ (replay (events ++ more)).started := by
  induction more using List.reverseRecOn with
  | nil => simp
  | append_singleton more event inductionHypothesis =>
    rw [← List.append_assoc, replay_snoc]
    exact Nat.le_trans inductionHypothesis (started_event _ event)

theorem Has.event {site : Site} (has : engine.Has site) (event : Event ν) : (engine.event event).Has site := by
  cases event with
  | began reading => exact has
  | deed deed => exact has.leads (engine.leads_deed deed)
  | ended finished =>
    have there : (engine.ended finished).Has site := has
    simp only [Engine.event, settled]
    split
    · exact there.leads (leads_keep _ _ _)
    · exact there

theorem Has.replay {site : Site} (has : (replay events).Has site) (more : List (Event ν)) :
    (Engine.replay (events ++ more)).Has site := by
  induction more using List.reverseRecOn with
  | nil => simpa using has
  | append_singleton more event inductionHypothesis =>
    rw [← List.append_assoc, replay_snoc]
    exact inductionHypothesis.event event

end Engine

namespace Program

variable {program : Program ν} {events more before : List (Event ν)} {reading : Reading} {finished : Finished ν}
  {site : Site} {engine : Engine ν}

open Engine (replay Marked Ever Last)

/-! ## Logs of a program -/

/-- The computation began in the log, and keeps the cell that was current on its gate at that moment. -/
def Opened (program : Program ν) (events : List (Event ν)) (finished : Finished ν) : Prop :=
  ∃ before reading during, events = before ++ .began reading :: during
    ∧ finished.site = program.site reading ∧ finished.number = (replay before).started
    ∧ finished.cell = program.cell? (replay before) reading

/-- What can come next.  Computations begin where they are in range, and end with any outcome. -/
def Admits (program : Program ν) (events : List (Event ν)) : Event ν → Prop
  | .deed _ => True
  | .began reading => program.InRange (replay events) reading
  | .ended finished => program.Opened events finished

/-- Every entry can come after those before it.  Computations may overlap in any way. -/
def Log (program : Program ν) (events : List (Event ν)) : Prop :=
  ∀ before event, before ++ [event] <+: events → program.Admits before event

theorem log_nil (program : Program ν) : program.Log [] := fun before event front => by simp at front

theorem Log.front (log : program.Log events) (front : before <+: events) : program.Log before :=
  fun earlier event among => log earlier event (among.trans front)

theorem log_snoc {event : Event ν} : program.Log (events ++ [event]) ↔ program.Log events ∧ program.Admits events event := by
  constructor
  · intro log
    exact ⟨log.front (List.prefix_append _ _), log events event List.prefix_rfl⟩
  · rintro ⟨log, admits⟩ before event' front
    obtain same | front := List.prefix_concat_iff.mp front
    · obtain ⟨rfl, one⟩ := List.append_inj' same rfl
      cases one
      exact admits
    · exact log before event' front

/-- What began is there for good. -/
theorem Opened.has (log : program.Log events) (opened : program.Opened events finished) :
    (replay events).Has finished.site := by
  obtain ⟨before, reading, during, rfl, here, -⟩ := opened
  have inRange : program.InRange (replay before) reading := log before (.began reading) ⟨during, by simp⟩
  exact here ▸ inRange.has.replay _

/-- Memos are what the computations of the log left. -/
theorem Log.sound (log : program.Log events) : (replay events).Sound := by
  induction events using List.reverseRecOn with
  | nil => exact program.run_sound []
  | append_singleton events event inductionHypothesis =>
    obtain ⟨earlier, admits⟩ := log_snoc.mp log
    have sound := inductionHypothesis earlier
    rw [Engine.replay_snoc]
    cases event with
    | deed deed => exact sound.deed deed
    | began reading => exact sound.begun
    | ended finished => exact sound.settled (Opened.has earlier admits)

/-- The computation of the site that ended last with a value to keep began after `before`, through the reading. -/
def Latest (program : Program ν) (events : List (Event ν)) (site : Site) (before : List (Event ν)) (reading : Reading) : Prop :=
  ∃ during finished after, events = before ++ .began reading :: during ++ .ended finished :: after
    ∧ finished.number = (replay before).started ∧ program.site reading = site ∧ finished.site = site
    ∧ finished.Cached ∧ ¬ Ever after site

/-- The last computation of the site that ended with a value to keep took a cell that is tripped by now. -/
def Spent (program : Program ν) (events : List (Event ν)) (site : Site) : Prop :=
  ∃ before reading cell, program.Latest events site before reading
    ∧ program.cell? (replay before) reading = some cell ∧ (replay events).gates.isTripped cell = true

/-- Two computations that have the same number are one. -/
theorem began_unique {before' : List (Event ν)} {reading' : Reading} (front : before ++ [.began reading] <+: events)
    (front' : before' ++ [.began reading'] <+: events) (same : (replay before).started = (replay before').started) :
    before = before' ∧ reading = reading' := by
  -- the number of computations has grown from where one of them began to where a later one does
  have differ : ∀ {one two : List (Event ν)} {reading : Reading}, one ++ [.began reading] <+: two →
      (replay one).started < (replay two).started := by
    rintro one _ reading ⟨rest, rfl⟩
    have grown := Engine.started_replay (one ++ [.began reading]) rest
    rw [Engine.replay_snoc] at grown
    exact Nat.lt_of_succ_le grown
  obtain first | first := List.prefix_or_prefix_of_prefix front front'
  · obtain last | inside := List.prefix_concat_iff.mp first
    · obtain ⟨rfl, one⟩ := List.append_inj' last rfl
      cases one
      exact ⟨rfl, rfl⟩
    · exact absurd same (Nat.ne_of_lt (differ inside))
  · obtain last | inside := List.prefix_concat_iff.mp first
    · obtain ⟨rfl, one⟩ := List.append_inj' last rfl
      cases one
      exact ⟨rfl, rfl⟩
    · exact absurd same (Nat.ne_of_gt (differ inside))

theorem Latest.ends {before : List (Event ν)} (log : program.Log events) (latest : program.Latest events site before reading) :
    ∃ finished, Last events finished ∧ finished.site = site ∧ finished.cell = program.cell? (replay before) reading := by
  obtain ⟨during, finished, after, rfl, number, here, there, cached, last⟩ := latest
  obtain ⟨before', reading', during', split, -, number', cell⟩ : program.Opened _ finished :=
    log (before ++ .began reading :: during) (.ended finished) ⟨after, by simp⟩
  have front : before ++ [.began reading] <+: before ++ .began reading :: during := ⟨during, by simp⟩
  have front' : before' ++ [.began reading'] <+: before ++ .began reading :: during := ⟨during', by simp [split]⟩
  obtain ⟨rfl, rfl⟩ := began_unique front front' (number.symm.trans number')
  exact ⟨finished, ⟨cached, before ++ .began reading :: during, after, by simp, there.symm ▸ last⟩, there, cell⟩

theorem latest_of_last (log : program.Log events) (last : Last events finished) :
    ∃ before reading, program.Latest events finished.site before reading
      ∧ finished.cell = program.cell? (replay before) reading := by
  obtain ⟨cached, before, after, rfl, unreplaced⟩ := last
  obtain ⟨start, reading, during, rfl, here, number, cell⟩ : program.Opened before finished :=
    log before (.ended finished) ⟨after, by simp⟩
  exact ⟨start, reading, ⟨during, finished, after, by simp, number, here.symm, rfl, cached, unreplaced⟩, cell⟩

/-- The memo of a slot or bound is invalid just if the cell of the computation that left it is tripped. -/
theorem spent_iff (log : program.Log events) : program.Spent events site
    ↔ ∃ memo, (replay events).memo? site = some memo ∧ memo.isValid (replay events).gates = false := by
  rw [log.sound.kept]
  simp only [Engine.last?_replay]
  constructor
  · rintro ⟨before, reading, cell, latest, taken, tripped⟩
    obtain ⟨finished, last, here, same⟩ := latest.ends log
    obtain ⟨memo, gives⟩ := Finished.cached_iff.mp last.1
    have governed : memo.cell = some cell := (Finished.memo?_cell gives).trans (same.trans taken)
    exact ⟨memo, ⟨finished, last, here, gives⟩, by rw [Memo.isValid_cell governed, tripped]; rfl⟩
  · rintro ⟨memo, ⟨finished, last, rfl, gives⟩, invalid⟩
    obtain ⟨before, reading, latest, same⟩ := latest_of_last log last
    cases governed : memo.cell with
    | none => simp [Memo.isValid, governed] at invalid
    | some cell =>
      rw [Memo.isValid_cell governed, Bool.not_eq_false'] at invalid
      exact ⟨before, reading, cell, latest, by rw [← same, ← Finished.memo?_cell gives, governed], invalid⟩

theorem ever_iff (log : program.Log events) : Ever events site ↔ ∃ memo, (replay events).memo? site = some memo := by
  rw [log.sound.kept, Engine.ever_iff_last]
  simp only [Engine.last?_replay]
  constructor
  · rintro ⟨finished, last, here⟩
    obtain ⟨memo, gives⟩ := Finished.cached_iff.mp last.1
    exact ⟨memo, finished, last, here, gives⟩
  · rintro ⟨memo, finished, last, here, -⟩
    exact ⟨finished, last, here⟩

end Program

/-! ## The log of a run -/

/-- The entries of a computation, given those of its gets. -/
def Course.story (get : Reading → Task (Engine ν) ν) (entries : Reading → Engine ν → List (Event ν)) :
    Course ν → Engine ν → List (Event ν)
  | .done _, _ => []
  | .broken _, _ => []
  | .get reading next, engine =>
      entries reading engine ++ match Task.attempt (get reading) engine with
        | .ok outcome after => (next outcome).story get entries after
        | .error _ _ => []
  | .deed change next, engine => .deed change :: next.story get entries (engine.deed change)

namespace Program

variable {program : Program ν} {events more before : List (Event ν)} {reading : Reading} {site : Site} {engine : Engine ν}

open Engine (replay Marked Ever Last)

open scoped Classical in
/-- The entries of a get: none unless it computes. -/
noncomputable def story (program : Program ν) : (depth : Nat) → Reading → Engine ν → List (Event ν)
  | 0, _, _ => []
  | depth + 1, reading, engine =>
      if program.Computes engine reading then
        let course := program.course reading engine.started
        .began reading :: course.story (program.get depth) (program.story depth) engine.begun
          ++ match Task.attempt (course.follow (program.get depth)) engine.begun with
            | .ok outcome _ =>
                [.ended ⟨program.site reading, engine.started, program.cell? engine reading, outcome⟩]
            | .error _ _ => []
      else []

/-- The log of operations that start from the engine. -/
noncomputable def historyFrom (program : Program ν) : Engine ν → List EngineMove → List (Event ν)
  | _, [] => []
  | engine, .deed deed :: moves => .deed deed :: program.historyFrom (engine.deed deed) moves
  | engine, .get reading depth :: moves =>
      program.story depth reading engine ++ program.historyFrom ((program.get depth reading).exec engine) moves

/-- The log of a run. -/
noncomputable def history (program : Program ν) (moves : List EngineMove) : List (Event ν) := program.historyFrom {} moves

/-- The entries lead a log on to the engine that is left. -/
structure Tells (program : Program ν) (events : List (Event ν)) (after : Engine ν) (entries : List (Event ν)) : Prop where
  log : program.Log (events ++ entries)
  leaves : replay (events ++ entries) = after

end Program

theorem exec_of_attempt {α : Type} {body : Task (Engine ν) α} {engine after : Engine ν} {outcome : Except Interrupt α}
    (ran : Task.attempt body engine = .ok outcome after) : body.exec engine = after := by
  unfold Task.attempt at ran
  unfold Task.exec
  cases ended : body engine <;> rw [ended] at ran <;> cases ran <;> rfl

/-- The entries of a computation tell what following it does, if those of its gets do. -/
theorem Course.story_tells {program : Program ν} {get : Reading → Task (Engine ν) ν}
    {entries : Reading → Engine ν → List (Event ν)}
    (gets : ∀ reading (events : List (Event ν)), program.Log events →
      program.Tells events ((get reading).exec (Engine.replay events)) (entries reading (Engine.replay events)))
    (course : Course ν) (events : List (Event ν)) (log : program.Log events) :
    program.Tells events ((course.follow get).exec (Engine.replay events)) (course.story get entries (Engine.replay events)) := by
  induction course generalizing events with
  | done result => exact ⟨by simpa [Course.story] using log, by simp [Course.story]; rfl⟩
  | broken interrupt => exact ⟨by simpa [Course.story] using log, by simp [Course.story]; rfl⟩
  | deed change next inductionHypothesis =>
    have admits : program.Admits events (.deed change) := trivial
    have onward := inductionHypothesis (events ++ [.deed change]) (Program.log_snoc.mpr ⟨log, admits⟩)
    rw [Engine.replay_snoc] at onward
    have followed : ((Course.deed change next).follow get).exec (Engine.replay events)
        = (next.follow get).exec ((Engine.replay events).deed change) := by
      rw [follow]
      simp only [Task.exec, Task.bind_ok (Task.modify_run _ (Engine.replay events))]
    rw [followed, Course.story]
    exact ⟨List.append_cons .. ▸ onward.log, List.append_cons .. ▸ onward.leaves⟩
  | get reading next inductionHypothesis =>
    have inner := gets reading events log
    -- what the get leaves is where the rest of the course begins, whatever the get gave
    obtain ⟨outcome, after, ran, -⟩ := Task.attempt_run (get reading) (Engine.replay events)
    rw [exec_of_attempt ran] at inner
    have onward := inductionHypothesis outcome _ inner.log
    rw [inner.leaves] at onward
    have followed : ((Course.get reading next).follow get).exec (Engine.replay events) = ((next outcome).follow get).exec after := by
      rw [follow]
      simp only [Task.exec, Task.bind_ok ran]
    rw [followed, Course.story, ran]
    exact ⟨List.append_assoc .. ▸ onward.log, List.append_assoc .. ▸ onward.leaves⟩

namespace Program

variable {program : Program ν} {events more before : List (Event ν)} {reading : Reading} {site : Site} {engine : Engine ν}
  {host : Nat} {table : SlotTable ν}

open Engine (replay Marked Ever Last)

theorem Tells.refl (log : program.Log events) : program.Tells events (replay events) [] :=
  ⟨by simpa using log, by simp⟩

/-- A get that does not compute changes nothing. -/
theorem get_idle (idle : ¬ program.Computes engine reading) (depth : Nat) :
    (program.get depth reading).exec engine = engine := by
  cases depth with
  | zero => rfl
  | succ depth =>
    by_cases inRange : program.InRange engine reading
    · obtain ⟨memo, kept, valid⟩ | ⟨invalid, ⟨fault, refused⟩ | computes⟩ := serves_or_computes inRange
      · exact Task.exec_ok (get_served inRange kept valid)
      · exact Task.exec_error (get_refused inRange invalid refused)
      · exact absurd computes idle
    · exact (get_still inRange depth).exec

/-- The entries of a get tell what it does. -/
theorem story_tells (program : Program ν) (depth : Nat) (reading : Reading) (events : List (Event ν))
    (log : program.Log events) :
    program.Tells events ((program.get depth reading).exec (replay events)) (program.story depth reading (replay events)) := by
  -- On the depth: the story of a course is told one level below.
  induction depth generalizing reading events with
  | zero => exact .refl log
  | succ depth inductionHypothesis =>
    unfold story
    split
    next computes =>
      obtain ⟨outcome, mid, ran, -⟩ := Task.attempt_run
        ((program.course reading (replay events).started).follow (program.get depth)) (replay events).begun
      have began : program.Log (events ++ [.began reading]) := log_snoc.mpr ⟨log, computes.inRange⟩
      have inner := Course.story_tells inductionHypothesis (program.course reading (replay events).started) _ began
      rw [Engine.replay_snoc] at inner
      have left : (program.get (depth + 1) reading).exec (replay events) = mid.settled
          ⟨program.site reading, (replay events).started, program.cell? (replay events) reading, outcome⟩ := by
        unfold Task.exec
        rw [get_computes computes ran]
        cases outcome <;> rfl
      obtain ⟨log, leaves⟩ := inner
      change replay _ = Task.exec _ (replay events).begun at leaves
      rw [exec_of_attempt ran] at leaves
      dsimp only
      rw [left, ran, ← leaves]
      have entries : ∀ course last : List (Event ν), events ++ (.began reading :: course ++ last)
          = events ++ [.began reading] ++ course ++ last := by simp
      constructor
      · rw [entries]
        exact log_snoc.mpr ⟨log, events, reading, _, by simp; rfl, rfl, rfl, rfl⟩
      · rw [entries, Engine.replay_snoc]
        rfl
    next idle =>
      rw [get_idle idle]
      exact .refl log

/-- The log of a run is one, and leads to what the run leaves. -/
theorem history_tells (program : Program ν) (moves : List EngineMove) :
    program.Tells [] (program.run moves) (program.history moves) := by
  have onward : ∀ events, program.Log events →
      program.Tells events (moves.foldl program.move (replay events)) (program.historyFrom (replay events) moves) := by
    induction moves with
    | nil => exact fun events log => .refl log
    | cons move moves inductionHypothesis =>
      intro events log
      cases move with
      | deed deed =>
        have admits : program.Admits events (.deed deed) := trivial
        have rest := inductionHypothesis (events ++ [.deed deed]) (log_snoc.mpr ⟨log, admits⟩)
        rw [Engine.replay_snoc] at rest
        exact ⟨List.append_cons .. ▸ rest.log, List.append_cons .. ▸ rest.leaves⟩
      | get reading depth =>
        have one := program.story_tells depth reading events log
        have rest := inductionHypothesis _ one.log
        rw [one.leaves] at rest
        exact ⟨List.append_assoc .. ▸ rest.log, List.append_assoc .. ▸ rest.leaves⟩
  exact onward [] program.log_nil

/-! ## The status of a host -/

/-- The status of a host that is not marked shows which of its slots were computed and which of those are spent. -/
theorem status_unmarked (log : program.Log events) (found : (replay events).hosts[host]? = some table)
    (unmarked : ¬ Marked events host) :
    (table.status (replay events).gates = .unpopulated ↔ ∀ index, ¬ Ever events (.slot host index))
      ∧ (table.status (replay events).gates = .stale ↔ ∃ index, program.Spent events (.slot host index))
      ∧ (table.status (replay events).gates = .populated
        ↔ (∃ index, Ever events (.slot host index)) ∧ ∀ index, ¬ program.Spent events (.slot host index)) := by
  have alive : table.evicted = false := by
    rw [← Bool.not_eq_true, Engine.evicted_iff found]
    exact unmarked
  have memo : ∀ index, (replay events).memo? (.slot host index) = table.memo? index := by
    intro index
    simp [Engine.memo?, found]
  have blank : table.status (replay events).gates = .unpopulated ↔ ∀ index, ¬ Ever events (.slot host index) := by
    simp only [SlotTable.status_unpopulated alive, ever_iff log, memo, Option.eq_none_iff_forall_ne_some, not_exists, ne_eq]
  have spent : table.status (replay events).gates = .stale ↔ ∃ index, program.Spent events (.slot host index) := by
    simp only [SlotTable.status_stale alive, spent_iff log, memo]
  refine ⟨blank, spent, fun populated => ?_, fun ends => ?_⟩
  · rw [populated] at blank spent
    constructor
    · by_contra never
      cases blank.mpr (not_exists.mp never)
    · intro index old
      cases spent.mpr ⟨index, old⟩
  · obtain ⟨ever, fresh⟩ := ends
    refine SlotTable.status_populated alive (fun unpopulated => ?_) fun stale => ?_
    · obtain ⟨index, computed⟩ := ever
      exact blank.mp unpopulated index computed
    · obtain ⟨index, old⟩ := spent.mp stale
      exact fresh index old

theorem Spent.onward (spent : program.Spent events site) (untouched : ¬ Ever more site) :
    program.Spent (events ++ more) site := by
  obtain ⟨before, reading, cell, ⟨during, finished, after, rfl, number, here, there, cached, last⟩, taken, tripped⟩ := spent
  refine ⟨before, reading, cell, ⟨during, finished, after ++ more, by simp, number, here, there, cached, ?_⟩, taken,
    Engine.onward_replay _ more cell tripped⟩
  rw [Engine.ever_append, not_or]
  exact ⟨last, untouched⟩

/-- At every point of every log of a program, and so in the midst of every run: the status of a host is
    evicted just if the host was marked; otherwise unpopulated just if none of its slots was ever computed to a value
    to keep; otherwise stale just if the last such computation of one of its slots took a cell, when it began, that is
    tripped by now; and otherwise populated.  So evicted is final, no host gets unpopulated again, operations on gates
    alone populate no host, and a stale one gets populated only after every spent slot was computed to a value to keep. -/
theorem status_history (program : Program ν) :
    (∀ moves, replay (program.history moves) = program.run moves
      ∧ ∀ events, events <+: program.history moves → program.Log events)
    ∧ ∀ events, program.Log events → ∀ (host : Nat) (table : SlotTable ν), (replay events).hosts[host]? = some table →
      let status := table.status (replay events).gates
      (status = .evicted ↔ Marked events host)
      ∧ (¬ Marked events host →
        (status = .unpopulated ↔ ∀ index, ¬ Ever events (.slot host index))
        ∧ (status = .stale ↔ ∃ index, program.Spent events (.slot host index))
        ∧ (status = .populated ↔ (∃ index, Ever events (.slot host index)) ∧ ∀ index, ¬ program.Spent events (.slot host index)))
      ∧ ∀ more table', program.Log (events ++ more) → (replay (events ++ more)).hosts[host]? = some table' →
        let later := table'.status (replay (events ++ more)).gates
        (status = .evicted → later = .evicted)
        ∧ (later = .unpopulated → status = .unpopulated)
        ∧ ((∀ event ∈ more, ∃ step, event = .deed (.gates step)) → later = .populated → status = .populated)
        ∧ (status = .stale → later = .populated →
          ∀ index, program.Spent events (.slot host index) → Ever more (.slot host index)) := by
  constructor
  · intro moves
    obtain ⟨log, leaves⟩ := program.history_tells moves
    exact ⟨leaves, fun events front => log.front front⟩
  intro events log host table found status
  have marks : status = .evicted ↔ Marked events host := SlotTable.status_evicted.trans (Engine.evicted_iff found)
  refine ⟨marks, status_unmarked log found, ?_⟩
  intro more table' log' found' later
  have marks' : later = .evicted ↔ Marked (events ++ more) host := SlotTable.status_evicted.trans (Engine.evicted_iff found')
  have unmarked : later ≠ .evicted → ¬ Marked events host ∧ ¬ Marked (events ++ more) host := fun other =>
    ⟨fun marked => other (marks'.mpr (marked.append more)), fun marked => other (marks'.mpr marked)⟩
  refine ⟨fun evicted => marks'.mpr ((marks.mp evicted).append more), fun unpopulated => ?_, fun trips populated => ?_,
    fun _ populated index spent => ?_⟩
  · obtain ⟨before, after⟩ := unmarked (by simp [unpopulated])
    have never := (status_unmarked log' found' after).1.mp unpopulated
    exact (status_unmarked log found before).1.mpr fun index ever => never index (Engine.ever_append.mpr (.inl ever))
  · obtain ⟨before, after⟩ := unmarked (by simp [populated])
    obtain ⟨⟨index, ever⟩, fresh⟩ := (status_unmarked log' found' after).2.2.mp populated
    have untouched : ∀ site, ¬ Ever more site := by
      rintro site ⟨finished, among, -⟩
      obtain ⟨step, same⟩ := trips _ among
      cases same
    exact (status_unmarked log found before).2.2.mpr ⟨⟨index, (Engine.ever_append.mp ever).resolve_right (untouched _)⟩,
      fun index spent => fresh index (spent.onward (untouched _))⟩
  · obtain ⟨-, after⟩ := unmarked (by simp [populated])
    by_contra untouched
    exact ((status_unmarked log' found' after).2.2.mp populated).2 index (spent.onward untouched)

/-- A slot that is computed while its gate is tripped leaves its host stale, and a further trip does not change that. -/
theorem status_history_nestedTrip :
    let moves : List EngineMove :=
      [.deed (.gates .newGate), .deed (.host 1 [0]), .deed (.bind 0), .get (.slot 0 0 .mutator) 2]
    let events := nestedTrip.history moves
    let more : List (Event Nat) := [.deed (.gates (.act (.trip 0)))]
    ∃ table table', (replay events).hosts[0]? = some table ∧ nestedTrip.Log (events ++ more)
      ∧ (replay (events ++ more)).hosts[0]? = some table'
      ∧ table.status (replay events).gates = .stale ∧ (∃ index, nestedTrip.Spent events (.slot 0 index))
      ∧ table'.status (replay (events ++ more)).gates ≠ .unpopulated
      ∧ table'.status (replay (events ++ more)).gates ≠ .populated := by
  intro moves events more
  obtain ⟨runs, states⟩ := status_history nestedTrip
  obtain ⟨same, logs⟩ := runs moves
  have log := logs events List.prefix_rfl
  have log' : nestedTrip.Log (events ++ more) := log_snoc.mpr ⟨log, trivial⟩
  obtain ⟨table, found, stale⟩ : ∃ table, (nestedTrip.run moves).hosts[0]? = some table
      ∧ table.status (nestedTrip.run moves).gates = .stale := ⟨_, rfl, by decide⟩
  rw [← same] at found stale
  have found' : (replay (events ++ more)).hosts[0]? = some table := by
    rw [Engine.replay_snoc]
    exact found
  obtain ⟨marks, unmarked, onward⟩ := states events log 0 table found
  obtain ⟨-, unpopulated, populated, -⟩ := onward more table log' found'
  have alive : ¬ Marked events 0 := fun marked => nomatch stale.symm.trans (marks.mpr marked)
  have spent := (unmarked alive).2.1.mp stale
  refine ⟨table, table, found, log', found', stale, spent, fun other => ?_, fun other => ?_⟩
  · cases stale.symm.trans (unpopulated other)
  · cases stale.symm.trans (populated (by simp [more]) other)

end Program

end CatalogReplica.Coherence
