import CatalogReplica.Proofs.Lifetime.Sweeping

/-!
# Actions that break off

An action may break off, and so may the teardown that runs it.  The release of the guard is
then claimed and never over, its action is gone, and the ledger is as sound as before.

* `Ledger.arming`: any of the actions break off.
* `Guard.met`: what becomes of a guard that a teardown has come to, whether its action breaks
  off or not.
* `Ledger.Meets`: a teardown came to some guards.
* `Ledger.Sound.meets`: then the ledger is as sound as before.
-/

namespace CatalogReplica

/-- What a number has in a table whose values all changed. -/
theorem Numbered.get?_map {α : Type} (table : Numbered α) (f : Nat → α → α) (id : Nat) :
    Numbered.get? (table.map fun entry => (entry.1, f entry.1 entry.2)) id = (table.get? id).map (f id) := by
  induction table with
  | nil => rfl
  | cons entry table inductionHypothesis =>
    unfold Numbered.get? at inductionHypothesis ⊢
    rw [List.map_cons, List.lookup_cons, List.lookup_cons]
    by_cases same : id = entry.1
    · subst same
      simp
    · rw [beq_eq_false_iff_ne.mpr same]
      exact inductionHypothesis

namespace Lifetime

variable {thread : ThreadId}

/-! ## Actions that break off -/

namespace Guard

/-- The guard with an action that breaks off, or does not. -/
def arming (crashes : Bool) (held : Guard) : Guard :=
  { held with action := held.action.map fun action => { action with crashes } }

/-- The action of the guard lets no owners go. -/
def Alone (held : Guard) : Prop := ∀ action ∈ held.action, action.owns = []

/-- The action of the guard breaks off. -/
def faulty (held : Guard) : Bool := held.action.any (·.crashes)

/-- A teardown by the thread runs the action of the guard. -/
def runs (thread : ThreadId) (held : Guard) : Bool := held.releasable thread && held.action.isSome

/-- A teardown by the thread runs the action of the guard and breaks off. -/
def breaks (thread : ThreadId) (held : Guard) : Bool := held.releasable thread && held.faulty

/-- A guard whose release broke off: it is claimed, and never over. -/
def stuck (held : Guard) : Guard :=
  { held with flags := { held.flags with releasing := true }, action := none }

/-- The guard after a teardown by the thread has come to it. -/
def met (thread : ThreadId) (held : Guard) : Guard :=
  if held.breaks thread then held.closed.stuck else held.reached thread

/-- When the owner of the guard goes away, the action runs. -/
structure Exposed (held : Guard) : Prop where
  owned : held.owned = true
  queue : held.queue = none
  unclaimed : held.flags.claimed = false
  acts : held.action.isSome = true

variable {held : Guard}

@[simp] theorem arming_arming (held : Guard) (first second : Bool) :
    (held.arming first).arming second = held.arming second := by
  unfold arming
  rw [Option.map_map]
  rfl

theorem met_of_breaks (broken : held.breaks thread = true) : held.met thread = held.closed.stuck := if_pos broken

theorem met_of_whole (whole : held.breaks thread = false) : held.met thread = held.reached thread :=
  if_neg (ne_true_of_eq_false whole)

theorem releasable_of_breaks (broken : held.breaks thread = true) : held.releasable thread = true :=
  (Bool.and_eq_true_iff.mp broken).1

/-- What a teardown has met it does not release. -/
@[simp] theorem releasable_met (held : Guard) : (held.met thread).releasable thread = false := by
  cases broken : held.breaks thread with
  | true =>
    rw [met_of_breaks broken]
    rfl
  | false =>
    rw [met_of_whole broken]
    exact held.releasable_reached

theorem met_met (held : Guard) : (held.met thread).met thread = held.met thread := by
  have whole : (held.met thread).breaks thread = false := by rw [breaks, releasable_met, Bool.false_and]
  rw [met_of_whole whole]
  cases broken : held.breaks thread with
  | true =>
    rw [met_of_breaks broken]
    rfl
  | false =>
    rw [met_of_whole broken]
    exact held.reached_reached

/-- What is left alone of a guard that a teardown meets, and what is not. -/
structure Meeting (thread : ThreadId) (held held' : Guard) : Prop where
  closing : held'.flags.closing = true
  owned : held'.owned = held.owned
  queue : held'.queue = held.queue
  holders : held'.holders = held.holders
  claimed : held'.flags.claimed = (held.flags.claimed || held.releasable thread)
  action : held'.action = if held.releasable thread then none else held.action
  settled : held'.flags.claimed = true ∨ held'.deferred = true ∧ thread ∈ held'.holders

theorem meeting (thread : ThreadId) (held : Guard) : Meeting thread held (held.met thread) := by
  cases broken : held.breaks thread with
  | true =>
    have free := releasable_of_breaks broken
    rw [met_of_breaks broken]
    exact ⟨rfl, rfl, rfl, rfl, by rw [free, Bool.or_true]; rfl, by rw [free]; rfl, .inl rfl⟩
  | false =>
    rw [met_of_whole broken]
    obtain claimed | ⟨unclaimed, pinned⟩ | free := held.found_cases thread
    · rw [reached_of_claimed claimed]
      exact ⟨rfl, rfl, rfl, rfl, by rw [spared_of_claimed claimed, Bool.or_false]; rfl,
        by rw [spared_of_claimed claimed]; rfl, .inl claimed⟩
    · rw [reached_of_pinned unclaimed pinned]
      exact ⟨rfl, rfl, rfl, rfl, by rw [spared_of_pinned pinned, Bool.or_false]; rfl,
        by rw [spared_of_pinned pinned]; rfl, .inr ⟨rfl, pinned⟩⟩
    · rw [reached_of_releasable free]
      exact ⟨rfl, rfl, rfl, rfl, by rw [free, Bool.or_true]; rfl, by rw [free]; rfl, .inl rfl⟩

end Guard

namespace Ledger

variable {ledger before mid after : Ledger} {id : GuardId} {held : Guard} {visited visited' : List GuardId}

/-- The ledger with actions that break off as given. -/
def arming (crashes : GuardId → Bool) (ledger : Ledger) : Ledger :=
  { ledger with guards := ledger.guards.map fun entry => (entry.1, entry.2.arming (crashes entry.1)) }

/-- The ledger with actions that do not break off. -/
def tame (ledger : Ledger) : Ledger := ledger.arming fun _ => false

theorem guard?_arming (crashes : GuardId → Bool) (ledger : Ledger) (id : GuardId) :
    (ledger.arming crashes).guard? id = (ledger.guard? id).map (·.arming (crashes id)) :=
  Numbered.get?_map ledger.guards (fun id held => held.arming (crashes id)) id

theorem isSome_guard?_arming (crashes : GuardId → Bool) (ledger : Ledger) (id : GuardId) :
    ((ledger.arming crashes).guard? id).isSome = (ledger.guard? id).isSome := by
  rw [guard?_arming, Option.isSome_map]

theorem ids_arming (crashes : GuardId → Bool) (ledger : Ledger) :
    (ledger.arming crashes).guards.ids = ledger.guards.ids := by
  unfold Numbered.ids arming
  rw [List.map_map]
  rfl

@[simp] theorem arming_arming (first second : GuardId → Bool) (ledger : Ledger) :
    (ledger.arming first).arming second = ledger.arming second := by
  unfold arming
  simp only [List.map_map]
  congr 2
  funext entry
  exact Prod.ext rfl (Guard.arming_arming _ _ _)

theorem tame_arming (crashes : GuardId → Bool) (ledger : Ledger) : (ledger.arming crashes).tame = ledger.tame :=
  arming_arming _ _ ledger

/-- A teardown by the thread would run the action of the guard. -/
def runs (thread : ThreadId) (ledger : Ledger) (id : GuardId) : Bool :=
  ((ledger.guard? id).map (·.runs thread)).getD false

/-- A teardown by the thread would run the action of the guard and break off. -/
def breaks (thread : ThreadId) (ledger : Ledger) (id : GuardId) : Bool :=
  ((ledger.guard? id).map (·.breaks thread)).getD false

/-! ## One release -/

/-- The action of a guard is taken, and runs to its end or breaks off. -/
theorem fireBy_halts (drop : GuardId → Task Ledger Unit) (found : ledger.guard? id = some held) (alone : held.Alone)
    (cause : ReleaseCause) :
    ∃ after, fireBy drop id cause ledger = (if held.faulty then .error (.crash none) after else .ok () after) ∧
      Touches id ledger after ∧ after.lifespans = ledger.lifespans ∧
        after.guard? id = some { held with action := none } ∧
          after.causes id = ledger.causes id ++ if held.action.isSome then [cause] else [] := by
  have counted := same_count ledger id cause.counter 1
  have found' : (ledger.count id cause.counter).guard? id = some held := by
    rw [guard?, counted.guards]
    exact found
  have causes' : (ledger.count id cause.counter).causes id = ledger.causes id := by
    rw [causes, counted.log, causes]
  unfold fireBy
  rw [Task.bind_ok (Task.modify_run _ _)]
  generalize ledger.count id cause.counter = mid at counted found' causes'
  rw [Task.bind_ok (Task.get_run mid), Task.bind_ok (Task.lift_run _ mid)]
  have touched := (Touches.of_same id counted).trans
    (Touches.onGuard mid id fun held => { held with action := none })
  have taken := guard?_onGuard_self found' fun held => { held with action := none }
  simp only [takeAction, found', Option.map_some, Option.getD_some, Option.bind_some]
  -- The action is taken before it runs, so it is gone also where it crashes.
  cases act : held.action with
  | none =>
    have whole : held.faulty = false := by rw [Guard.faulty, act, Option.any_none]
    rw [whole]
    exact ⟨_, rfl, touched, counted.lifespans, taken, causes'.trans (List.append_nil _).symm⟩
  | some action =>
    have broken : held.faulty = action.crashes := by rw [Guard.faulty, act, Option.any_some]
    refine ⟨_, ?_, touched.trans (.note _ id held.handle cause), counted.lifespans, taken, ?_⟩
    · dsimp only
      rw [Task.bind_ok (Task.modify_run _ _), alone action act, broken]
      refine (Task.bind_ok rfl).trans ?_
      cases action.crashes <;> rfl
    · rw [causes_note_fired, if_pos rfl]
      exact congrArg (· ++ [cause]) causes'

/-- What a teardown does with a guard that nobody released before and nobody pins. -/
theorem release_halts (found : ledger.guard? id = some held) (alone : held.Alone)
    (unclaimed : held.flags.claimed = false) :
    ∃ after, release id .lifespanEnded ledger = (if held.faulty then .error (.crash none) after else .ok true after) ∧
      Touches id ledger after ∧ after.lifespans = ledger.lifespans ∧
        after.guard? id = some (if held.faulty then held.stuck else held.spent held.link) ∧
          after.causes id = ledger.causes id ++ if held.action.isSome then [.lifespanEnded] else [] := by
  have claimed := guard?_onGuard_self found fun held => { held with flags := { held.flags with releasing := true } }
  obtain ⟨mid, fired, touched, tables, taken, causes⟩ := fireBy_halts dropOwner claimed alone .lifespanEnded
  have touched' := (Touches.onGuard ledger id fun held =>
    { held with flags := { held.flags with releasing := true } }).trans touched
  unfold release
  rw [Task.bind_ok (Task.lift_run _ ledger)]
  simp only [claim, found, unclaimed, Bool.not_false, if_true]
  unfold run runBy
  cases broken : held.faulty with
  | true =>
    have fired := fired.trans (if_pos broken)
    exact ⟨mid, Task.bind_error (Task.bind_error fired), touched', tables, taken, causes⟩
  | false =>
    have fired := fired.trans (if_neg (ne_true_of_eq_false broken))
    refine ⟨mid.conclude id .lifespanEnded, ?_, touched'.trans (.onGuard mid id _), tables,
      guard?_onGuard_self taken _, causes⟩
    rw [Task.bind_run, Task.bind_ok fired]
    rfl

/-! ## The guards that a teardown meets -/

/-- A teardown by the thread came to the guards.  Other guards are as they were. -/
structure Meets (thread : ThreadId) (visited : List GuardId) (before after : Ledger) : Prop where
  guards : ∀ id, after.guard? id
    = if id ∈ visited then (before.guard? id).map (·.met thread) else before.guard? id
  causes : ∀ id, after.causes id
    = before.causes id ++ if id ∈ visited ∧ before.runs thread id = true then [.lifespanEnded] else []
  ids : after.guards.ids = before.guards.ids
  queues : after.queues = before.queues
  next : after.next = before.next

namespace Meets

theorem of_same (same : Same before after) : Meets thread [] before after where
  guards id := by rw [guard?_congr same.guards, if_neg List.not_mem_nil]
  causes id := by rw [causes_congr same.log, if_neg fun among => List.not_mem_nil among.1, List.append_nil]
  ids := by rw [same.guards]
  queues := same.queues
  next := same.next

/-- What holds of no guard that a teardown has met holds later of those that it has not met. -/
theorem unmet (meets : Meets thread visited before mid) {holds : Guard → Bool}
    (none : ∀ held : Guard, holds (held.met thread) = false) (id : GuardId) :
    ((mid.guard? id).map holds).getD false = (((before.guard? id).map holds).getD false && decide (id ∉ visited)) := by
  rw [meets.guards id]
  by_cases among : id ∈ visited
  · simp only [among, if_true, not_true_eq_false, decide_false, Bool.and_false, Option.map_map]
    cases before.guard? id with
    | none => rfl
    | some held => exact none held
  · simp only [among, if_false, not_false_eq_true, decide_true, Bool.and_true]

theorem runs_eq (meets : Meets thread visited before mid) (id : GuardId) :
    mid.runs thread id = (before.runs thread id && decide (id ∉ visited)) :=
  meets.unmet (fun held => by rw [Guard.runs, Guard.releasable_met, Bool.false_and]) id

theorem breaks_eq (meets : Meets thread visited before mid) (id : GuardId) :
    mid.breaks thread id = (before.breaks thread id && decide (id ∉ visited)) :=
  meets.unmet (fun held => by rw [Guard.breaks, Guard.releasable_met, Bool.false_and]) id

theorem trans (first : Meets thread visited before mid) (second : Meets thread visited' mid after) :
    Meets thread (visited ++ visited') before after where
  guards id := by
    rw [second.guards id, first.guards id]
    by_cases among : id ∈ visited <;> by_cases among' : id ∈ visited'
    · -- to meet a guard a second time changes nothing
      simp only [among, among', List.mem_append, if_true, or_self, Option.map_map]
      cases before.guard? id with
      | none => rfl
      | some held => exact congrArg some held.met_met
    all_goals simp [among, among']
  causes id := by
    rw [second.causes id, first.causes id, first.runs_eq id, List.append_assoc]
    by_cases among : id ∈ visited <;> by_cases among' : id ∈ visited' <;> simp [among, among']
  ids := second.ids.trans first.ids
  queues := second.queues.trans first.queues
  next := second.next.trans first.next

/-- What became of the one guard that a teardown came to tells the rest, since no other guard
    changed. -/
theorem single (found : ledger.guard? id = some held) (self : after.guard? id = some (held.met thread))
    (touched : Touches id ledger after)
    (causes : after.causes id = ledger.causes id ++ if held.runs thread then [.lifespanEnded] else []) :
    Meets thread [id] ledger after where
  guards other := by
    by_cases same : other = id
    · subst same
      rw [self, if_pos List.mem_cons_self, found, Option.map_some]
    · rw [touched.others other same, if_neg (by simpa using same)]
  causes other := by
    by_cases same : other = id
    · subst same
      have ran : ledger.runs thread other = held.runs thread := by
        rw [Ledger.runs, found, Option.map_some, Option.getD_some]
      simp only [causes, ran, List.mem_cons_self, true_and]
    · rw [touched.silent other same, if_neg fun among => same (List.mem_singleton.mp among.1), List.append_nil]
  ids := touched.guards
  queues := touched.queues
  next := touched.next

end Meets

/-! ## Sound ledgers -/

namespace Good

variable {loose : List GuardId} {tamed : Ledger}

/-- What is good of a guard whose action does not break off. -/
theorem alone (good : Good thread loose tamed id (held.arming false)) : held.Alone := fun _ among =>
  (good.quiet _ (Option.mem_map_of_mem _ among)).1

theorem untaken (good : Good thread loose tamed id (held.arming false)) (claimed : held.flags.claimed = true) :
    held.action = none :=
  Option.map_eq_none_iff.mp (good.spent claimed)

end Good

theorem Sound.of_tame (sound : Sound thread [] ledger.tame) (found : ledger.guard? id = some held) :
    Good thread [] ledger.tame id (held.arming false) :=
  sound.good id _ (by rw [tame, guard?_arming, found]; rfl)

theorem Meets.causes_of_mem (meets : Meets thread visited before after) (found : before.guard? id = some held)
    (among : id ∈ visited) :
    after.causes id = before.causes id ++ if held.runs thread then [.lifespanEnded] else [] := by
  have ran : before.runs thread id = held.runs thread := by
    rw [Ledger.runs, found, Option.map_some, Option.getD_some]
  simp only [meets.causes id, ran, among, true_and]

/-- Guards that a teardown has met are as good as before. -/
theorem Good.met (good : Good thread [] before.tame id (held.arming false)) (found : before.guard? id = some held)
    (meets : Meets thread visited before after) (among : id ∈ visited) :
    Good thread [] after.tame id ((held.met thread).arming false) where
  quiet action isIts := by
    change action ∈ (held.met thread).action.map _ at isIts
    rw [(held.meeting thread).action] at isIts
    split at isIts
    · cases isIts
    · exact good.quiet action isIts
  spent claimed := by
    change (held.met thread).flags.claimed = true at claimed
    change (held.met thread).action.map _ = none
    rw [(held.meeting thread).claimed, Bool.or_eq_true] at claimed
    rw [(held.meeting thread).action]
    split
    · rfl
    · next spared => exact good.spent (claimed.resolve_right spared)
  once := by
    change (after.causes id).length ≤ 1
    rw [meets.causes_of_mem found among]
    split
    · next ran =>
      have unclaimed := (Guard.releasable_iff.mp (Bool.and_eq_true_iff.mp ran).1).1
      rw [show before.causes id = [] from good.unfired unclaimed]
      exact Nat.le_refl 1
    · rw [List.append_nil]
      exact good.once
  unfired unclaimed := by
    -- the action runs with the claim only
    change (held.met thread).flags.claimed = false at unclaimed
    rw [(held.meeting thread).claimed, Bool.or_eq_false_iff] at unclaimed
    change after.causes id = []
    rw [meets.causes_of_mem found among, show before.causes id = [] from good.unfired unclaimed.1, Guard.runs, unclaimed.2]
    rfl
  unpinned unowned := (held.meeting thread).holders.trans (good.unpinned ((held.meeting thread).owned.symm.trans unowned))
  pinners holder pins := by
    change holder ∈ (held.met thread).holders at pins
    rw [(held.meeting thread).holders] at pins
    exact good.pinners holder pins
  waits _ unclaimed := by
    -- what is not claimed after a teardown has met it is pinned by the thread, and waits for that pin
    obtain ⟨deferred, pins⟩ := (held.meeting thread).settled.resolve_left (ne_true_of_eq_false unclaimed)
    exact .inr ⟨deferred, List.ne_nil_of_mem pins⟩
  deferred _ := (held.meeting thread).closing
  ended _ := (held.meeting thread).closing
  awaited unowned unclaimed := by
    change (held.met thread).flags.claimed = false at unclaimed
    rw [(held.meeting thread).claimed, Bool.or_eq_false_iff] at unclaimed
    rw [show after.tame.queue? = before.tame.queue? from queue?_congr meets.queues]
    change _ ∨ ∃ queue ∈ (held.met thread).queue, _
    rw [(held.meeting thread).queue]
    exact good.awaited ((held.meeting thread).owned.symm.trans unowned) unclaimed.1
  queued queue record isThere within := by
    rw [show after.tame.queue? = before.tame.queue? from queue?_congr meets.queues] at isThere
    obtain ⟨unowned, its, -⟩ := good.queued queue record isThere within
    have meeting := held.meeting thread
    exact ⟨meeting.owned.trans unowned, meeting.queue.trans its, fun _ => meeting.closing⟩
  old := by
    change id < after.next ∧ ∀ queue ∈ (held.met thread).queue, queue < after.next
    rw [meets.next, (held.meeting thread).queue]
    exact good.old

theorem Meets.ids_tame (meets : Meets thread visited before after) : after.tame.guards.ids = before.tame.guards.ids := by
  rw [tame, tame, ids_arming, ids_arming, meets.ids]

theorem Meets.isSome_tame (meets : Meets thread visited before after) (id : GuardId) :
    (after.tame.guard? id).isSome = (before.tame.guard? id).isSome := by
  rw [Bool.eq_iff_iff]
  exact Numbered.isSome_get?.trans (meets.ids_tame ▸ Numbered.isSome_get?.symm)

/-- A ledger of which a teardown has met some guards, and emptied some tables, is as sound as
    before. -/
theorem Sound.meets (sound : Sound thread [] before.tame) (meets : Meets thread visited before after)
    {reached : GuardId → Prop} (cleared : Cleared reached before after) : Sound thread [] after.tame where
  guards := meets.ids_tame ▸ sound.guards
  good id held' there := by
    rw [tame, guard?_arming, meets.guards id] at there
    -- A guard met by the walk has fired; every other is as it was, and so are its causes.
    by_cases among : id ∈ visited
    · rw [if_pos among, Option.map_map] at there
      obtain ⟨held, found, rfl⟩ := Option.map_eq_some_iff.mp there
      exact (sound.of_tame found).met found meets among
    · rw [if_neg among] at there
      obtain ⟨held, found, rfl⟩ := Option.map_eq_some_iff.mp there
      have causes : after.causes id = before.causes id := by
        rw [meets.causes id, if_neg fun ran => among ran.1, List.append_nil]
      exact (sound.of_tame found).transfer causes (.of_eq meets.queues) (Nat.le_of_eq meets.next.symm) fun loose => loose
  unknown id absent := by
    have absent' : before.tame.guard? id = none := by
      rw [← Option.isNone_iff_eq_none, ← Option.not_isSome, ← meets.isSome_tame id, absent]
      rfl
    have none : before.guard? id = none := by
      rw [tame, guard?_arming] at absent'
      exact Option.map_eq_none_iff.mp absent'
    change after.causes id = []
    rw [meets.causes id, show before.causes id = [] from sound.unknown id absent', Ledger.runs, none]
    simp
  loose := nofun
  queues := by
    change after.queues.ids.Nodup ∧ ∀ id ∈ after.queues.ids, id < after.next
    rw [meets.queues, meets.next]
    exact sound.queues
  members queue record isThere := by
    rw [show after.tame.queue? = before.tame.queue? from queue?_congr meets.queues] at isThere
    obtain ⟨once, members⟩ := sound.members queue record isThere
    exact ⟨once, fun id among => (meets.isSome_tame id).trans (members id among)⟩
  lifespans := by
    change ∀ id ∈ after.lifespans.ids, id < after.next
    rw [cleared.ids, meets.next]
    exact sound.lifespans
  registered lifespan scope found id among := by
    -- A table is the old one or has been emptied, and an emptied one lists nothing.
    cases cleared.tables lifespan scope found with
    | inl old => exact (meets.isSome_tame id).trans (sound.registered lifespan scope old id among)
    | inr empty =>
      rw [empty.1] at among
      cases among
  inside lifespan scope found child among := by
    change lifespan < child ∧ child ∈ after.lifespans.ids
    cases cleared.tables lifespan scope found with
    | inl old =>
      rw [cleared.ids]
      exact sound.inside lifespan scope old child among
    | inr empty =>
      rw [empty.2.1] at among
      cases among
  closed lifespan scope found finished := by
    cases cleared.tables lifespan scope found with
    | inl old => exact sound.closed lifespan scope old finished
    | inr empty => exact ⟨empty.1, empty.2.1⟩

end Ledger

end Lifetime

end CatalogReplica
