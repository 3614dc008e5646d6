import CatalogReplica.Proofs.Lifetime.AfterTeardown
import CatalogReplica.Proofs.Lifetime.Enrolment
import CatalogReplica.Proofs.Lifetime.Sweeping

/-!
# Pins hold a release off

A guard that is pinned was not released.  A teardown that comes to it puts the release off, and
the last of the pins that there are then carries it out.  Operations on other guards leave a
guard with an owner as it is, so that nothing else can come between.

* `Ledger.Spares`: the guards with owners are as they were.
* `Operation.Course`: what one operation makes of a guard with an owner.
* `Ledger.Withheld`: no guard that is pinned was released.
* `Operation.pins_balance`: the pins there are, those that ended and those that were taken.
* `Operation.pins_hold_off`: when the release runs that a teardown put off.
-/

namespace CatalogReplica.Lifetime

namespace Ledger

variable {thread : ThreadId} {loose : List GuardId} {may : GuardId → Prop} {before ledger mid after : Ledger}
  {id : GuardId} {held : Guard}

/-- How many pins there are on the guard. -/
def pins (ledger : Ledger) (guard : GuardId) : Nat := ((ledger.guard? guard).map (·.holders.length)).getD 0

theorem pins_eq (found : ledger.guard? id = some held) : ledger.pins id = held.holders.length := by
  rw [pins, found, Option.map_some, Option.getD_some]

/-- No guard that is pinned was released. -/
def Withheld (ledger : Ledger) : Prop :=
  ∀ id held, ledger.guard? id = some held → held.holders ≠ [] → held.flags.claimed = false

/-! ## Guards with owners -/

/-- Guards with owners are as they were, apart from those that may change. -/
def Spares (may : GuardId → Prop) (before after : Ledger) : Prop :=
  ∀ id held, ¬ may id → before.guard? id = some held → held.owned = true → after.guard? id = some held

namespace Spares

theorem of_guards (same : after.guards = before.guards) : Spares may before after := by
  intro id held _ found _
  rw [guard?, same]
  exact found

theorem trans (first : Spares may before mid) (second : Spares may mid after) : Spares may before after :=
  fun id held apart found owned => second id held apart (first id held apart found owned) owned

theorem of_touches (touched : Touches id before after) : Spares (· = id) before after :=
  fun other _ differs found _ => (touched.others other differs).trans found

/-- A guard without an owner changed. -/
theorem of_unowned (found : ledger.guard? id = some held) (unowned : held.owned = false) (f : Guard → Guard) :
    Spares may ledger (ledger.onGuard id f) := by
  intro other held' _ found' owned
  have differs : other ≠ id := by
    rintro rfl
    cases found.symm.trans found'
    cases unowned.symm.trans owned
  rw [guard?_onGuard, if_neg differs]
  exact found'

end Spares

/-- Letting go what nothing holds spares the guards with owners. -/
theorem reapBy_spares (drop : GuardId → Task Ledger Unit) (rounds : Nat) (sound : Sound thread [] ledger) :
    (reapBy drop rounds).Ends ledger fun _ after => Spares may ledger after := by
  induction rounds generalizing ledger with
  | zero => exact .of_guards rfl
  | succ rounds inductionHypothesis =>
    have swept : Leads thread (fun _ => False) (fun _ => False) [] [] ledger ledger.sweepQueues := sound.sweep
    have first : Spares may ledger ledger.sweepQueues := .of_guards rfl
    refine .next (Task.modify_run _ ledger) (.next (Task.get_run _) ?_)
    generalize ledger.sweepQueues = mid at swept first
    cases abandoned : mid.abandoned? with
    | none => exact first
    | some id =>
      obtain ⟨held, found, acts, unowned, -⟩ := abandoned?_spec swept.sound abandoned
      obtain ⟨action, act⟩ := Option.isSome_iff_exists.mp acts
      have taken : Leads thread (fun _ => False) (fun _ => False) [] [] mid _ := swept.sound.abandon abandoned
      refine .next (Task.lift_run _ mid) ?_
      simp only [takeAction, found, Option.bind_some, act]
      rw [((swept.sound.good id held found).quiet action act).1]
      refine .next rfl ((inductionHypothesis taken.sound).weaken fun _ after rest => ?_)
      exact (first.trans (.of_unowned found unowned _)).trans rest

/-- A release ends, and touches its guard only. -/
theorem release_runs (found : ledger.guard? id = some held) (quiet : held.Quiet) (cause : ReleaseCause) :
    ∃ won after, release id cause ledger = .ok won after ∧ Touches id ledger after := by
  cases claimed : held.flags.claimed with
  | true => exact ⟨false, _, release_claimed found claimed cause, .onGuard _ _ _⟩
  | false =>
    obtain ⟨after, ran, touched, -⟩ := release_run found quiet claimed cause
    exact ⟨true, after, ran, touched⟩

/-- The end of an owner spares the guards of other owners. -/
theorem dropOwner_spares (sound : Sound thread [] ledger) (found : ledger.guard? id = some held)
    (owned : held.owned = true) (unpinned : held.holders = []) :
    (dropOwner id).Ends ledger fun _ after => Spares (· = id) ledger after := by
  have good := sound.good id held found
  have disowned : Touches id ledger _ := .onGuard ledger id fun held => { held with owned := false }
  refine .next (Task.get_run ledger) ?_
  cases its : held.queue with
  | none =>
    have found' := guard?_onGuard_self found fun held => { held with owned := false }
    obtain ⟨won, after, ran, touched⟩ := release_runs found' good.quiet .unreachable
    exact (Task.Ends.of_ok (dropWithin_none found owned its good.quiet ran)).mpr (.of_touches (disowned.trans touched))
  | some queue =>
    have entered : Leads thread (fun _ => False) (fun _ => False) [id] [] _ _ := sound.enqueue found owned unpinned its
    have apart : Spares (· = id) ledger
        ((ledger.onGuard id fun held => { held with owned := false }).enqueue id held queue) := by
      have pending : Touches id ledger _ := disowned.trans (.onGuard _ id fun held =>
        { held with flags := { held.flags with pending := true } })
      refine (Spares.of_touches pending).trans (.of_guards ?_)
      unfold Ledger.enqueue
      split <;> rfl
    unfold dropWithin
    refine .next (Task.get_run ledger) ?_
    rw [found]
    simp only [owned, if_true, its]
    exact .next (Task.set_run _ _) ((reapBy_spares _ _ entered.sound).weaken fun _ _ rest => apart.trans rest)

/-- A drain releases guards without owners. -/
theorem drain_spares (sound : Sound thread [] ledger) {queue : QueueId} {record : ReleaseQueue}
    (found : ledger.queue? queue = some record) :
    (drain queue).Ends ledger fun _ after => Spares may ledger after := by
  obtain ⟨after, ran, -, -, others⟩ := drain_sound sound found
  refine (Task.Ends.of_ok ran).mpr fun id held _ there owned => ?_
  refine (others id fun among => ?_).trans there
  have unowned := ((sound.good id held there).queued queue record found among).1
  cases unowned.symm.trans owned

theorem letQueueGo_spares (sound : Sound thread [] ledger) (queue : QueueId) :
    (letQueueGo queue).Ends ledger fun _ after => Spares may ledger after := by
  have fewer : Leads thread (fun _ => False) (fun _ => False) [] [] ledger
      (ledger.onQueue queue fun record => { record with handles := record.handles - 1 }) := sound.handles queue (· - 1)
  exact .next (Task.modify_run _ ledger) (.next (Task.get_run _) (reapBy_spares dropOwner _ fewer.sound))

theorem child_guards (parent : LifespanId) (address : Address) (kind : LifespanKind) (ledger : Ledger) :
    (child parent address kind).Ends ledger fun _ after => after.guards = ledger.guards := by
  refine .next (Task.get_run ledger) ?_
  cases ledger.lifespan? parent with
  | none => exact rfl
  | some scope =>
    dsimp only
    split <;> exact rfl

/-- The guard is put at the end of the table of the lifespan, unless it is in there. -/
def enlist (ledger : Ledger) (id : GuardId) (lifespan : LifespanId) : Ledger :=
  if id ∈ ledger.table lifespan then ledger
  else (ledger.onLifespan lifespan fun scope => { scope with guards := scope.guards ++ [id] }).count id .guardRegistered

theorem enlist_guards (ledger : Ledger) (id : GuardId) (lifespan : LifespanId) :
    (ledger.enlist id lifespan).guards = ledger.guards := by
  unfold enlist
  split
  · rfl
  · exact (same_count _ id _ _).guards

/-- A guard is registered if it was not released and the lifespan has not ended; a refusal changes
    nothing. -/
theorem register_cases (id : GuardId) (lifespan : LifespanId) (ledger : Ledger) :
    (register id lifespan).Ends ledger fun outcome after =>
      match outcome with
      | .error _ => after = ledger
      | .ok _ => (∃ held, ledger.guard? id = some held ∧ held.isReleased = false) ∧ ledger.Standing lifespan ∧
          after = (ledger.enlist id lifespan).onGuard id fun held => { held with link := some lifespan } := by
  refine .next (Task.get_run ledger) ?_
  cases found : ledger.guard? id with
  | none => exact rfl
  | some held =>
    cases there : ledger.lifespan? lifespan with
    | none => exact rfl
    | some scope =>
      dsimp only
      split
      · exact rfl
      · next open' =>
        split
        · exact rfl
        · next standing =>
          refine ⟨⟨held, rfl, Bool.eq_false_iff.mpr open'⟩, ⟨scope, there, Bool.eq_false_iff.mpr standing⟩, ?_⟩
          rw [enlist, table, there]
          rfl

theorem register_spares (id : GuardId) (lifespan : LifespanId) (ledger : Ledger) :
    (register id lifespan).Ends ledger fun _ after => Spares (· = id) ledger after := by
  refine (register_cases id lifespan ledger).weaken fun outcome after ended => ?_
  cases outcome with
  | error interrupt => exact .of_guards (congrArg guards ended)
  | ok value =>
    obtain ⟨-, -, rfl⟩ := ended
    exact (Spares.of_guards (enlist_guards ledger id lifespan)).trans (.of_touches (.onGuard _ id _))

/-- What is done with a guard that is built spares the other ones. -/
theorem build_spares (sound : Sound thread [] ledger) {plan : Guard} (planned : plan.Planned)
    (earlier : ∀ queue ∈ plan.queue, queue < ledger.next) (lifespan : Option LifespanId) :
    (build plan lifespan).Ends ledger fun _ after => Spares may ledger after := by
  have third : Leads thread (fun _ => False) (fun _ => False) [] [] ledger _ := sound.addWithdrawn planned earlier
  obtain ⟨-, unpinned, -, -, owned, quiet⟩ := planned
  have gains := gains_addGuard sound plan
  have known {other : GuardId} {held : Guard} (found : ledger.guard? other = some held) : other ≠ ledger.next := by
    rintro rfl
    cases sound.guard?_next.symm.trans found
  have added : Spares may ledger (ledger.addGuard plan).2 :=
    fun other held _ found _ => (gains.others other (known found)).trans found
  refine .next (Task.lift_run _ ledger) ?_
  cases lifespan with
  | none => exact added
  | some lifespan =>
    refine ((register_cases ledger.next lifespan (ledger.addGuard plan).2).both
      (register_spares ledger.next lifespan (ledger.addGuard plan).2)).attempt.bind ?_ (by rintro _ _ ⟨_, ⟨⟩, _⟩)
    rintro outcome after ⟨_, ⟨⟩, registered, spares⟩
    cases outcome with
    | ok value =>
      exact fun other held apart found owned => spares other held (known found) (added other held apart found owned) owned
    | error interrupt =>
      obtain rfl : after = (ledger.addGuard plan).2 := registered
      have withdrawn := gains_addWithdrawn sound plan
      have dropped := dropOwner_spares third.sound withdrawn.found owned unpinned
      have apart {last : Ledger} (spares : Spares (· = ledger.next) _ last) : Spares may ledger last :=
        fun other held _ found owned =>
          spares other held (known found) ((withdrawn.others other (known found)).trans found) owned
      exact .next (withdraw_added sound quiet) (dropped.bind (fun _ _ => apart) fun _ _ => apart)

/-! ## One pin -/

/-- A pin ends.  Nothing else happens, unless it was the last one and a release was put off. -/
theorem unpin_run (sound : Sound thread [] ledger) (found : ledger.guard? id = some held)
    (unclaimed : held.flags.claimed = false) :
    ∃ after held', unpin thread id ledger = .ok () after ∧ Touches id ledger after ∧
      after.guard? id = some held' ∧ held'.holders = held.holders.erase thread ∧ held'.owned = held.owned ∧
      (held.deferred = false ∨ held.holders.erase thread ≠ [] → held'.flags = held.flags ∧ after.log = ledger.log) := by
  have good := sound.good id held found
  have found' := guard?_onGuard_self found fun held => { held with holders := held.holders.erase thread }
  have touched : Touches id ledger _ := .onGuard ledger id fun held => { held with holders := held.holders.erase thread }
  unfold unpin
  rw [Task.bind_ok (Task.modify_run _ ledger), Task.bind_ok (Task.get_run _), found']
  dsimp only
  split
  next last =>
    -- the last pin on a guard whose release was put off: it is released now
    simp only [Bool.and_eq_true, List.isEmpty_iff] at last
    have found'' := guard?_onGuard_self found' fun held => { held with deferred := false }
    obtain ⟨after, ran, released, -, ⟨link, left⟩, -⟩ := release_run found'' good.quiet unclaimed .lifespanEnded
    refine ⟨after, _, ?_, (touched.trans (.onGuard _ id _)).trans released, left, rfl, rfl, fun more => ?_⟩
    · rw [Task.bind_ok (Task.modify_run _ _), Task.discard_run, ran]
    · rw [last.1, last.2] at more
      cases more with
      | inl early => cases early
      | inr pinned => exact absurd rfl pinned
  next => exact ⟨_, _, rfl, touched, found', rfl, rfl, fun _ => ⟨rfl, rfl⟩⟩

/-- A guard is pinned if it was not released. -/
theorem pin_cases (thread : ThreadId) (found : ledger.guard? id = some held) :
    held.isReleased = true ∧ pin thread id ledger = .error (.fault held.releasedFault) ledger ∨
    held.isReleased = false ∧ pin thread id ledger
      = .ok held.handle (ledger.onGuard id fun held => { held with holders := held.holders ++ [thread] }) := by
  unfold pin
  rw [Task.bind_ok (Task.get_run ledger), handle, found]
  dsimp only
  cases held.isReleased with
  | true => exact .inl ⟨rfl, rfl⟩
  | false => exact .inr ⟨rfl, rfl⟩

theorem register_guard? (guard : GuardId) (lifespan : LifespanId) (ledger : Ledger) (id : GuardId) :
    (register guard lifespan).Ends ledger fun _ after => ∃ link : Guard → Option LifespanId,
      after.guard? id = (ledger.guard? id).map fun held => { held with link := link held } := by
  refine (register_cases guard lifespan ledger).weaken fun outcome after ended => ?_
  cases outcome with
  | error interrupt =>
    obtain rfl : after = ledger := ended
    exact ⟨Guard.link, Option.map_id'.symm⟩
  | ok value =>
    obtain ⟨-, -, rfl⟩ := ended
    rw [guard?_onGuard, guard?, enlist_guards]
    split
    · exact ⟨fun _ => some lifespan, rfl⟩
    · exact ⟨Guard.link, Option.map_id'.symm⟩

theorem deregister_guard? (guard : GuardId) (lifespan : LifespanId) (ledger : Ledger) (id : GuardId) :
    ∃ link : Guard → Option LifespanId, (ledger.deregister guard lifespan).2.guard? id
      = (ledger.guard? id).map fun held => { held with link := link held } := by
  have same := guard?_forget ledger guard id lifespan
  unfold deregister
  dsimp only
  split
  · rw [guard?_onGuard, same]
    split
    · exact ⟨fun _ => none, rfl⟩
    · exact ⟨Guard.link, Option.map_id'.symm⟩
  · exact ⟨Guard.link, same.trans Option.map_id'.symm⟩

end Ledger

namespace Operation

open Ledger (Sound Spares)

variable {thread : ThreadId} {ledger : Ledger} {id : GuardId} {held : Guard} {operation : Operation}

/-- The operation takes a pin on the guard. -/
def takes (thread : ThreadId) (guard : GuardId) (ledger : Ledger) : Operation → Bool
  | .pin id => id == guard && (Ledger.pin thread id ledger matches .ok _ _)
  | _ => false

/-- What one operation makes of a guard with an owner. -/
inductive Course (thread : ThreadId) (ledger : Ledger) (id : GuardId) (held : Guard) : Operation → Guard → Prop where
  /-- It leaves the guard alone, up to the lifespan that the guard knows of. -/
  | spared {operation : Operation} (link : Option LifespanId) : operation ≠ .unpin id →
      operation.takes thread id ledger = false → Course thread ledger id held operation { held with link }
  /-- It pins the guard. -/
  | pinned : held.isReleased = false →
      Course thread ledger id held (.pin id) { held with holders := held.holders ++ [thread] }
  /-- It ends a pin, and maybe releases the guard. -/
  | unpinned {held' : Guard} : thread ∈ held.holders → held'.holders = held.holders.erase thread →
      held'.owned = held.owned → (held'.holders ≠ [] → held'.flags = held.flags) →
      Course thread ledger id held (.unpin id) held'
  /-- It takes the owner of the guard away. -/
  | dropped {held' : Guard} : held.holders = [] → held'.owned = false → Course thread ledger id held (.drop id) held'
  /-- It is a teardown that comes to the guard. -/
  | reached {lifespan : LifespanId} {close : Bool} :
      Course thread ledger id held (.teardown lifespan close) (held.reached thread)

/-- An operation that is about another guard spares the guard. -/
theorem course_of_spares {may : GuardId → Prop} {after : Ledger} (spares : Spares may ledger after) (apart : ¬ may id)
    (found : ledger.guard? id = some held) (owned : held.owned = true) (ends : operation ≠ .unpin id)
    (takes : operation.takes thread id ledger = false) :
    ∃ held', after.guard? id = some held' ∧ Course thread ledger id held operation held' :=
  ⟨held, spares id held apart found owned, .spared held.link ends takes⟩

/-- An operation that is about guards without owners, or about none, spares the guard. -/
theorem course_of_spared {after : Ledger} (spares : Spares (fun _ => False) ledger after)
    (found : ledger.guard? id = some held) (owned : held.owned = true) (ends : operation ≠ .unpin id)
    (takes : operation.takes thread id ledger = false) :
    ∃ held', after.guard? id = some held' ∧ Course thread ledger id held operation held' :=
  course_of_spares spares not_false found owned ends takes

/-- A pin on the guard itself is taken unless the guard was released; a pin on another one spares it. -/
theorem pin_course {guard : GuardId} (allowed : (ledger.guard? guard).isSome) (found : ledger.guard? id = some held)
    (owned : held.owned = true) :
    ∃ held', ((pin guard).apply thread ledger).guard? id = some held' ∧ Course thread ledger id held (.pin guard) held' := by
  by_cases own : guard = id
  · subst own
    obtain ⟨released, ran⟩ | ⟨open', ran⟩ := Ledger.pin_cases thread found
    · have left : (pin guard).apply thread ledger = ledger := Task.exec_error ran
      rw [left]
      exact ⟨held, found, .spared held.link nofun (by simp [takes, ran])⟩
    · have left : (pin guard).apply thread ledger = _ := Task.exec_ok ran
      rw [left]
      exact ⟨_, Ledger.guard?_onGuard_self found _, .pinned open'⟩
  · obtain ⟨other, there⟩ := Option.isSome_iff_exists.mp allowed
    have spares : Spares (· = guard) ledger ((pin guard).apply thread ledger) := by
      obtain ⟨-, ran⟩ | ⟨-, ran⟩ := Ledger.pin_cases thread there
      · rw [show (pin guard).apply thread ledger = ledger from Task.exec_error ran]
        exact .of_guards rfl
      · rw [show (pin guard).apply thread ledger = _ from Task.exec_ok ran]
        exact .of_touches (.onGuard ledger guard _)
    exact course_of_spares spares (Ne.symm own) found owned nofun (by simp [takes, own])

/-- Every operation that is allowed does one of these things with a guard with an owner. -/
theorem apply_course (sound : Sound thread [] ledger) (withheld : ledger.Withheld)
    (allowed : operation.Allowed thread ledger) (found : ledger.guard? id = some held) (owned : held.owned = true) :
    ∃ held', (operation.apply thread ledger).guard? id = some held' ∧ Course thread ledger id held operation held' := by
  have same {after : Ledger} (guards : after.guards = ledger.guards) (ends : operation ≠ .unpin id)
      (takes : operation.takes thread id ledger = false) :
      ∃ held', after.guard? id = some held' ∧ Course thread ledger id held operation held' :=
    course_of_spared (.of_guards guards) found owned ends takes
  cases operation with
  | newLifespan address kind => exact same rfl nofun rfl
  | newQueue => exact same rfl nofun rfl
  | holdQueue queue => exact same rfl nofun rfl
  | child parent address kind =>
    exact same (Ledger.child_guards parent address kind ledger).exec nofun rfl
  | letQueueGo queue =>
    exact course_of_spared (Ledger.letQueueGo_spares sound queue).exec found owned nofun rfl
  | build plan lifespan =>
    have earlier : ∀ queue ∈ plan.queue, queue < ledger.next :=
      fun queue its => sound.queues.2 queue (Numbered.isSome_get?.mp (allowed.2 queue its))
    exact course_of_spared (Ledger.build_spares sound allowed.1 earlier lifespan).exec found owned nofun rfl
  | register guard lifespan =>
    obtain ⟨link, left⟩ := (Ledger.register_guard? guard lifespan ledger id).exec
    rw [found] at left
    exact ⟨_, left, .spared (link held) nofun rfl⟩
  | deregister guard lifespan =>
    obtain ⟨link, left⟩ := Ledger.deregister_guard? guard lifespan ledger id
    rw [found] at left
    exact ⟨_, left, .spared (link held) nofun rfl⟩
  | pin guard =>
    obtain ⟨other, there, -⟩ := allowed
    exact pin_course (Option.isSome_iff_exists.mpr ⟨other, there⟩) found owned
  | unpin guard =>
    -- the end of a pin releases at most the guard itself, and that one was not released before
    obtain ⟨other, there, pinned⟩ := allowed
    have unclaimed := withheld guard other there (List.ne_nil_of_mem pinned)
    obtain ⟨after, held', ran, touched, left, holders, owner, rest⟩ := Ledger.unpin_run sound there unclaimed
    rw [show (unpin guard).apply thread ledger = after from Task.exec_ok ran]
    by_cases own : guard = id
    · subst own
      cases found.symm.trans there
      exact ⟨held', left, .unpinned pinned holders owner fun more => (rest (.inr (holders ▸ more))).1⟩
    · exact course_of_spares (.of_touches touched) (Ne.symm own) found owned (by rintro ⟨⟩; exact own rfl) rfl
  | drop guard =>
    obtain ⟨other, there, owner, unpinned⟩ := allowed
    by_cases own : guard = id
    · subst own
      cases found.symm.trans there
      obtain ⟨after, ran, -, ⟨held', left, unowned⟩, -⟩ := Ledger.dropOwner_sound sound found owned unpinned
      rw [show (drop guard).apply thread ledger = after from Task.exec_ok ran]
      exact ⟨held', left, .dropped unpinned unowned⟩
    · exact course_of_spares (Ledger.dropOwner_spares sound there owner unpinned).exec (Ne.symm own) found owned nofun rfl
  | drain queue =>
    obtain ⟨record, there⟩ := Option.isSome_iff_exists.mp allowed
    exact course_of_spared (Ledger.drain_spares sound there).exec found owned nofun rfl
  | teardown lifespan close =>
    obtain ⟨count, after, turns, ran, -, walks⟩ := Ledger.teardown_walks lifespan close sound
    rw [show (teardown lifespan close).apply thread ledger = after from Task.exec_ok ran, walks.sweeps.guards, found]
    split
    · exact ⟨_, rfl, .reached⟩
    · exact ⟨held, rfl, .spared held.link nofun rfl⟩

end Operation

/-! ## Guards without pins -/

namespace Ledger

variable {thread : ThreadId} {ledger : Ledger} {id : GuardId}

/-- Nobody pins the guard, if it is there. -/
def Unpinned (id : GuardId) (ledger : Ledger) : Prop := ∀ held, ledger.guard? id = some held → held.holders = []

/-- Who pins a guard has not let its owner go. -/
theorem Sound.unpinned_of_unowned {loose : List GuardId} (sound : Sound thread loose ledger)
    (unowned : ¬ ledger.Owned id) : ledger.Unpinned id := by
  intro held found
  refine (sound.good id held found).unpinned ?_
  cases its : held.owned with
  | false => rfl
  | true => exact absurd ⟨held, found, its⟩ unowned

theorem unpinned_iff : ledger.Unpinned id ↔ ledger.pins id = 0 := by
  unfold Unpinned pins
  cases ledger.guard? id <;> simp

theorem Unpinned.onGuard (unpinned : ledger.Unpinned id) (other : GuardId) (f : Guard → Guard)
    (fewer : ∀ held : Guard, (f held).holders.length ≤ held.holders.length) : (ledger.onGuard other f).Unpinned id := by
  intro held' found'
  rw [guard?_onGuard] at found'
  split at found'
  · obtain ⟨held, found, rfl⟩ := Option.map_eq_some_iff.mp found'
    have none := fewer held
    rw [unpinned held found] at none
    exact List.eq_nil_of_length_eq_zero (Nat.le_zero.mp none)
  · exact unpinned held' found'

theorem unpinned_carried (id : GuardId) : TornCarried (fun _ => True) (fun _ _ => True) (Unpinned id) where
  tally _ _ before := before
  busy _ _ before := before
  queues _ _ _ before := before
  owns _ _ _ _ _ _ _ _ _ := trivial
  guard _ other f stays before := before.onGuard other f fun held => (stays held).holders
  disown _ other _ before := before.onGuard other _ fun _ => Nat.le_refl _
  disarm _ other before := before.onGuard other _ fun _ => Nat.le_refl _
  fire _ other _ _ _ _ _ before := before.onGuard other (fun held => { held with action := none }) fun _ => Nat.le_refl _
  yield _ _ _ before := before
  forget _ _ _ _ before := before
  empty _ _ _ _ before := before
  inside _ _ _ _ _ _ _ _ _ := trivial

/-- It does not matter which lifespan the guard knows of. -/
theorem Unpinned.relink {after : Ledger} (unpinned : ledger.Unpinned id) {link : Guard → Option LifespanId}
    (left : after.guard? id = (ledger.guard? id).map fun held => { held with link := link held }) : after.Unpinned id := by
  intro held' found'
  obtain ⟨held, found, rfl⟩ := Option.map_eq_some_iff.mp (left.symm.trans found')
  exact unpinned held found

theorem Unpinned.register (unpinned : ledger.Unpinned id) (guard : GuardId) (lifespan : LifespanId) :
    (register guard lifespan).Ends ledger fun _ after => after.Unpinned id :=
  (register_guard? guard lifespan ledger id).weaken fun _ _ ⟨_, left⟩ => unpinned.relink left

theorem Unpinned.build (unpinned : ledger.Unpinned id) {plan : Guard} (planned : plan.holders = [])
    (lifespan : Option LifespanId) : (build plan lifespan).Ends ledger fun _ after => after.Unpinned id := by
  have added : (ledger.addGuard plan).2.Unpinned id := by
    intro held found
    have found := (Numbered.get?_add ledger.guards ledger.next id plan).symm.trans found
    cases old : ledger.guards.get? id with
    | some held' =>
      rw [old, Option.some_or] at found
      exact unpinned held (old.trans found)
    | none =>
      rw [old, Option.none_or] at found
      split at found
      · cases found
        exact planned
      · cases found
  refine .next (Task.lift_run _ ledger) ?_
  cases lifespan with
  | none => exact added
  | some lifespan =>
    refine (added.register _ lifespan).attempt.bind ?_ (by rintro _ _ ⟨_, ⟨⟩, _⟩)
    rintro outcome after ⟨_, ⟨⟩, registered⟩
    have carried := (unpinned_carried id).toCarried
    cases outcome with
    | ok value => exact registered
    | error interrupt =>
      exact ((carried.withdraw _).bind fun _ => (carried.dropOwner trivial).bind fun _ => .throw interrupt) after registered

end Ledger

namespace Operation

open Ledger (Sound Spares Unpinned)

variable {thread : ThreadId} {ledger : Ledger} {id : GuardId} {operation : Operation} {operations : List Operation}

/-- A guard that nobody pins is pinned by an operation that pins it only. -/
theorem apply_unpinned (allowed : operation.Allowed thread ledger) (unpinned : ledger.Unpinned id)
    (takes : operation.takes thread id ledger = false) : (operation.apply thread ledger).Unpinned id := by
  have carried := Ledger.unpinned_carried id
  -- Only a pin taken on this very guard could pin it, and `takes` says that none is.
  cases operation with
  | newLifespan address kind => exact unpinned
  | newQueue => exact unpinned
  | holdQueue queue => exact unpinned
  | child parent address kind =>
    have guards : (Ledger.child parent address kind).Ends ledger fun _ after => after.guards = ledger.guards :=
      Ledger.child_guards parent address kind ledger
    intro held found
    have guards := guards.exec
    unfold apply Ledger.guard? at found
    rw [guards] at found
    exact unpinned held found
  | letQueueGo queue =>
    have kept : (Ledger.letQueueGo queue).Ends ledger fun _ after => after.Unpinned id :=
      .next (Task.modify_run _ ledger) (.next (Task.get_run _)
        (carried.toCarried.reapBy (fun _ allowed => carried.toCarried.dropOwner allowed) _ _ unpinned))
    exact kept.exec
  | build plan lifespan => exact (unpinned.build allowed.1.2.1 lifespan).exec
  | register guard lifespan => exact (unpinned.register guard lifespan).exec
  | deregister guard lifespan =>
    obtain ⟨link, left⟩ := Ledger.deregister_guard? guard lifespan ledger id
    exact unpinned.relink left
  | pin guard =>
    obtain ⟨held, there, -⟩ := allowed
    obtain ⟨-, ran⟩ | ⟨-, ran⟩ := Ledger.pin_cases thread there
    · rw [show (pin guard).apply thread ledger = ledger from Task.exec_error ran]
      exact unpinned
    · have differs : id ≠ guard := by
        rintro rfl
        simp [Operation.takes, ran] at takes
      rw [show (pin guard).apply thread ledger = _ from Task.exec_ok ran]
      intro held' found'
      rw [Ledger.guard?_onGuard, if_neg differs] at found'
      exact unpinned held' found'
  | unpin guard => exact (carried.toCarried.unpin thread guard ledger unpinned).exec
  | drop guard => exact (carried.toCarried.dropOwner trivial ledger unpinned).exec
  | drain queue => exact (carried.toCarried.drain queue ledger unpinned).exec
  | teardown lifespan close => exact (carried.teardown thread trivial ledger unpinned).exec

/-! ## Pins and releases -/

/-- No pin is taken on a guard without an owner. -/
theorem takes_of_unowned (allowed : operation.Allowed thread ledger) (unowned : ¬ ledger.Owned id) :
    operation.takes thread id ledger = false := by
  cases operation with
  | pin guard =>
    have differs : guard ≠ id := by
      rintro rfl
      exact unowned allowed
    simp [Operation.takes, differs]
  | _ => rfl

/-- No pin is taken on a guard that a teardown has reached. -/
theorem takes_of_closing (closing : ledger.Closing id) (operation : Operation) :
    operation.takes thread id ledger = false := by
  cases operation with
  | pin guard =>
    by_cases own : guard = id
    · subst own
      obtain ⟨held, -, -, refused⟩ := Ledger.refused_of_closing closing
      simp [Operation.takes, refused thread]
    · simp [Operation.takes, own]
  | _ => rfl

/-- A guard is pinned once more, or once less, or as often as before. -/
theorem pins_apply (sound : Sound thread [] ledger) (withheld : ledger.Withheld)
    (allowed : operation.Allowed thread ledger) (id : GuardId) :
    (operation.apply thread ledger).pins id + (if operation = .unpin id then 1 else 0)
      = ledger.pins id + (operation.takes thread id ledger).toNat := by
  -- An owned guard goes one of the ways of its course; the pins balance in each.
  by_cases owned : ledger.Owned id
  · obtain ⟨held, found, owned⟩ := owned
    obtain ⟨held', found', course⟩ := apply_course sound withheld allowed found owned
    rw [Ledger.pins_eq found, Ledger.pins_eq found']
    cases course with
    | spared link ends takes => rw [if_neg ends, takes]; rfl
    | pinned open' =>
      obtain ⟨released, -⟩ | ⟨-, ran⟩ := Ledger.pin_cases thread found
      · cases open'.symm.trans released
      · simp [Operation.takes, ran]
    | unpinned pinned holders =>
      have one := List.length_erase_of_mem pinned
      have some := List.length_pos_of_mem pinned
      rw [if_pos rfl, holders, one]
      change _ = held.holders.length + 0
      omega
    | dropped unpinned unowned =>
      have none := ((apply_sound sound allowed).sound.good id held' found').unpinned unowned
      rw [unpinned, none]
      rfl
    | reached =>
      obtain claimed | ⟨unclaimed, pinned⟩ | free := held.found_cases thread
      · rw [Guard.reached_of_claimed claimed]; rfl
      · rw [Guard.reached_of_pinned unclaimed pinned]; rfl
      · rw [Guard.reached_of_releasable free]; rfl
  · -- a guard without an owner is not pinned, and takes no pin
    have unpinned := sound.unpinned_of_unowned owned
    have takes := takes_of_unowned allowed owned
    have ends : operation ≠ .unpin id := by
      rintro rfl
      obtain ⟨held, found, pinned⟩ := allowed
      rw [unpinned held found] at pinned
      cases pinned
    have after := apply_unpinned allowed unpinned takes
    rw [Ledger.unpinned_iff] at unpinned after
    rw [unpinned, after, takes, if_neg ends]
    rfl

/-- No operation releases a guard that stays pinned. -/
theorem apply_withheld (sound : Sound thread [] ledger) (withheld : ledger.Withheld)
    (allowed : operation.Allowed thread ledger) : (operation.apply thread ledger).Withheld := by
  intro id held' found' pinned
  have leads := apply_sound sound allowed
  have owned' : held'.owned = true := by
    cases its : held'.owned with
    | true => rfl
    | false => exact absurd ((leads.sound.good id held' found').unpinned its) pinned
  have known : ledger.Owned id := by
    by_contra unowned
    exact pinned (apply_unpinned allowed (sound.unpinned_of_unowned unowned) (takes_of_unowned allowed unowned)
      held' found')
  obtain ⟨held, found, owned⟩ := known
  obtain ⟨held'', found'', course⟩ := apply_course sound withheld allowed found owned
  cases found'.symm.trans found''
  cases course with
  | spared link => exact withheld id held found pinned
  | pinned open' =>
    rw [Guard.isReleased, Bool.or_eq_false_iff] at open'
    exact open'.1
  | unpinned among holders owner flags =>
    rw [flags pinned]
    exact withheld id held found (List.ne_nil_of_mem among)
  | dropped _ unowned => cases unowned.symm.trans owned'
  | reached =>
    -- a teardown claims what is not pinned by this thread, and nobody else pins
    obtain claimed | ⟨unclaimed, mine⟩ | free := held.found_cases thread
    · rw [Guard.reached_of_claimed claimed] at pinned ⊢
      exact withheld id held found pinned
    · rw [Guard.reached_of_pinned unclaimed mine]
      exact unclaimed
    · rw [Guard.reached_of_releasable free] at pinned
      obtain ⟨holder, among⟩ := List.exists_mem_of_ne_nil _ pinned
      have mine := (sound.good id held found).pinners holder among
      exact absurd (mine ▸ among) (Guard.releasable_iff.mp free).2

/-! ## Runs -/

/-- How many pins on the guard the operations of a run took. -/
def taken (thread : ThreadId) (guard : GuardId) : List Operation → Ledger → Nat
  | [], _ => 0
  | operation :: operations, ledger =>
      (operation.takes thread guard ledger).toNat + taken thread guard operations (operation.apply thread ledger)

/-- Pins are taken and end, and no guard is released that stays pinned. -/
theorem pins_balance (sound : Sound thread [] ledger) (withheld : ledger.Withheld)
    (allowed : AllowedAll thread operations ledger) (id : GuardId) :
    (after thread operations ledger).Withheld ∧
      (after thread operations ledger).pins id + operations.count (.unpin id)
        = ledger.pins id + taken thread id operations ledger := by
  induction operations generalizing ledger with
  | nil => exact ⟨withheld, rfl⟩
  | cons operation operations inductionHypothesis =>
    have step := pins_apply sound withheld allowed.1 id
    obtain ⟨withheld', balance⟩ := inductionHypothesis (apply_sound sound allowed.1).sound
      (apply_withheld sound withheld allowed.1) allowed.2
    refine ⟨withheld', ?_⟩
    rw [after, taken, List.count_cons]
    simp only [beq_iff_eq]
    omega

/-- A teardown rejects every pin from then on. -/
theorem taken_of_closing (sound : Sound thread [] ledger) (allowed : AllowedAll thread operations ledger)
    (closing : ledger.Closing id) : taken thread id operations ledger = 0 := by
  induction operations generalizing ledger with
  | nil => rfl
  | cons operation operations inductionHypothesis =>
    have leads := apply_sound sound allowed.1
    rw [taken, takes_of_closing closing, inductionHypothesis leads.sound allowed.2 (leads.onward.closing closing)]
    rfl

/-- The action of a guard that is pinned has not run. -/
theorem unfired_of_pinned (sound : Sound thread [] ledger) (withheld : ledger.Withheld) (pinned : 0 < ledger.pins id) :
    ∃ held, ledger.guard? id = some held ∧ thread ∈ held.holders ∧ held.flags.claimed = false ∧ ledger.causes id = [] := by
  cases found : ledger.guard? id with
  | none => simp [Ledger.pins, found] at pinned
  | some held =>
    rw [Ledger.pins_eq found] at pinned
    have good := sound.good id held found
    have some := List.ne_nil_of_length_pos pinned
    obtain ⟨holder, among⟩ := List.exists_mem_of_ne_nil _ some
    have unclaimed := withheld id held found some
    exact ⟨held, rfl, good.pinners holder among ▸ among, unclaimed, good.unfired unclaimed⟩

/-- A teardown that finds a guard pinned does not release it, and does not count it. -/
theorem teardown_passes_over (sound : Sound thread [] ledger) (withheld : ledger.Withheld)
    (pinned : 0 < ledger.pins id) (lifespan : LifespanId) (close : Bool) :
    ∃ (released : List GuardId) (last : Ledger), Ledger.teardown thread lifespan close ledger = .ok released.length last ∧
      released.Nodup ∧
      (∀ other, other ∈ released ↔ ¬ ledger.Claimed other ∧ last.Claimed other) ∧ id ∉ released ∧
      last.causes id = [] ∧ last.pins id = ledger.pins id := by
  obtain ⟨count, last, turns, ran, sound', walks⟩ := Ledger.teardown_walks lifespan close sound
  have left : (teardown lifespan close).apply thread ledger = last := Task.exec_ok ran
  have allowed : (teardown lifespan close).Allowed thread ledger := trivial
  have withheld' := apply_withheld sound withheld allowed
  have same := pins_apply sound withheld allowed id
  rw [left] at withheld' same
  have pins : last.pins id = ledger.pins id := by simpa [Operation.takes] using same
  obtain ⟨held, found, -, unclaimed, unfired⟩ := unfired_of_pinned sound' withheld' (pins ▸ pinned)
  refine ⟨_, last, walks.sweeps.count ▸ ran, Ledger.nodup_releases _ _ _, fun _ => walks.sweeps.mem_releases_iff,
    fun among => ?_, unfired, pins⟩
  obtain ⟨held', found', claimed⟩ := (walks.sweeps.mem_releases_iff.mp among).2
  cases found.symm.trans found'
  cases unclaimed.symm.trans claimed

/-- A pin that ends where no teardown has come runs nothing, and leaves room for another one. -/
theorem unpin_unreached (sound : Sound thread [] ledger) (withheld : ledger.Withheld) (pinned : 0 < ledger.pins id)
    (unreached : ¬ ledger.Closing id) :
    ∃ last address later, Ledger.unpin thread id ledger = .ok () last ∧ last.log = ledger.log ∧ last.causes id = [] ∧
      Ledger.pin thread id last = .ok address later := by
  obtain ⟨held, found, mine, unclaimed, unfired⟩ := unfired_of_pinned sound withheld pinned
  obtain ⟨last, held', ran, -, found', -, -, rest⟩ := Ledger.unpin_run sound found unclaimed
  have closing : held.flags.closing = false := by
    cases closing : held.flags.closing with
    | false => rfl
    | true => exact absurd ⟨held, found, closing⟩ unreached
  have early : held.deferred = false := by
    cases deferred : held.deferred with
    | false => rfl
    | true => exact ((sound.good id held found).deferred deferred).symm.trans closing
  obtain ⟨flags, log⟩ := rest (.inl early)
  have open' : held'.isReleased = false := by rw [Guard.isReleased, flags, unclaimed, closing]; rfl
  obtain ⟨released, -⟩ | ⟨-, pin⟩ := Ledger.pin_cases thread found'
  · cases open'.symm.trans released
  · exact ⟨last, _, _, ran, log, by rw [Ledger.causes_congr log, unfired], pin⟩

theorem withheld_empty : Ledger.Withheld {} := fun _ _ found => by cases found

section hold

variable {guard : GuardId}

/-- What a teardown put off is done with the last of the pins that there were. -/
theorem caught_up {before rest : List Operation} {lifespan : LifespanId} {close : Bool}
    (allowed : AllowedAll thread (before ++ .teardown lifespan close :: rest) {})
    (holds : (after thread before {}).Holds lifespan guard) (pinned : 0 < (after thread before {}).pins guard) :
    let now := after thread (before ++ .teardown lifespan close :: rest) {}
    now.pins guard + rest.count (.unpin guard) = (after thread before {}).pins guard ∧
      ∀ plan, Built thread (before ++ .teardown lifespan close :: rest) guard plan → plan.action.isSome = true →
        now.causes guard = if now.pins guard = 0 then [.lifespanEnded] else [] := by
  intro now
  have within := within allowed
  obtain ⟨earlier, here, later⟩ := allowedAll_append.mp allowed
  have withheld := (pins_balance (sound_empty thread) withheld_empty earlier guard).1
  obtain ⟨released, last, ran, -, -, -, unfired, pins⟩ := teardown_passes_over within.sound withheld pinned lifespan close
  have left : (teardown lifespan close).apply thread (after thread before {}) = last := Task.exec_ok ran
  have sound := (apply_sound within.sound here).sound
  have closing : last.Closing guard := by
    obtain ⟨count, last', ran', torn⟩ := Ledger.teardown_sound lifespan close within.sound
    cases ran.symm.trans ran'
    exact torn.closing guard holds
  rw [left] at sound later
  have reached : now = after thread rest last := by
    change after thread (before ++ _) {} = _
    rw [after_append, after, left]
  obtain ⟨withheld', balance⟩ := pins_balance sound (left ▸ apply_withheld within.sound withheld here) later guard
  have leads := after_sound sound later
  rw [← reached] at withheld' balance leads
  rw [taken_of_closing sound later closing, Nat.add_zero, pins] at balance
  refine ⟨balance, fun plan built acts => ?_⟩
  split
  next none =>
    obtain ⟨armed, held, found, -⟩ := acts_of_built allowed built acts
    obtain ⟨held', found', reached⟩ := leads.onward.closing closing
    cases found.symm.trans found'
    -- a guard that a teardown has reached and nobody pins is released already
    have claimed : held.flags.claimed = true := by
      cases claimed : held.flags.claimed with
      | true => rfl
      | false =>
        have waits := ((leads.sound.good guard held found).waits reached claimed).resolve_left List.not_mem_nil
        rw [Ledger.pins_eq found] at none
        exact absurd (List.eq_nil_of_length_eq_zero none) waits.2
    -- its action has run once, and since the teardown for no other cause than that one
    have once := once_of_claimed armed ⟨held, found, claimed⟩
    obtain ⟨new, grown, -, native, -⟩ := leads.onward.grown guard
    rw [unfired, List.nil_append] at grown
    rw [grown] at once ⊢
    obtain ⟨cause, rfl⟩ := List.length_eq_one_iff.mp once
    rw [native closing cause List.mem_cons_self]
  next some =>
    obtain ⟨held, -, -, -, none⟩ := unfired_of_pinned leads.sound withheld' (Nat.pos_of_ne_zero some)
    exact none

/-- In every run of one thread the pins on a guard are those that were taken less those that
    ended, and as long as there is one the action of the guard does not run.  A teardown that
    finds the guard pinned releases others and counts those; from then on the guard gives no
    handle and takes no pin, and its action runs, once and because the lifespan ended, when the
    last of the pins that there were ends, and not before.  If no teardown came to the guard, a
    pin that ends runs nothing, and the guard can be pinned again. -/
theorem pins_hold_off (thread : ThreadId) (operations : List Operation) (allowed : AllowedAll thread operations {})
    (guard : GuardId) :
    let now := after thread operations {}
    now.pins guard + operations.count (.unpin guard) = taken thread guard operations {} ∧
    (0 < now.pins guard → now.causes guard = [] ∧
      ∀ lifespan close, ∃ (released : List GuardId) (last : Ledger),
        Ledger.teardown thread lifespan close now = .ok released.length last ∧ released.Nodup ∧
          (∀ other, other ∈ released ↔ ¬ now.Claimed other ∧ last.Claimed other) ∧ guard ∉ released ∧
          last.causes guard = [] ∧ last.pins guard = now.pins guard) ∧
    (∀ before lifespan close rest, operations = before ++ .teardown lifespan close :: rest →
      (after thread before {}).Holds lifespan guard → 0 < (after thread before {}).pins guard →
        (∃ held, now.guard? guard = some held ∧ held.releasedFault.kind = .released ∧
          now.handle guard = .error (.fault held.releasedFault) ∧
          Ledger.pin thread guard now = .error (.fault held.releasedFault) now) ∧
        now.pins guard + rest.count (.unpin guard) = (after thread before {}).pins guard ∧
        ∀ plan, Built thread operations guard plan → plan.action.isSome = true →
          now.causes guard = if now.pins guard = 0 then [.lifespanEnded] else []) ∧
    (¬ TornDown thread operations {} guard → 0 < now.pins guard →
      ∃ last address later, Ledger.unpin thread guard now = .ok () last ∧ last.log = now.log ∧
        last.causes guard = [] ∧ Ledger.pin thread guard last = .ok address later) := by
  intro now
  have leads := after_sound (sound_empty thread) allowed
  obtain ⟨withheld, balance⟩ := pins_balance (sound_empty thread) withheld_empty allowed guard
  refine ⟨?_, fun pinned => ⟨?_, teardown_passes_over leads.sound withheld pinned⟩, ?_, fun spared pinned => ?_⟩
  · have none : ({} : Ledger).pins guard = 0 := rfl
    rwa [none, Nat.zero_add] at balance
  · obtain ⟨-, -, -, -, unfired⟩ := unfired_of_pinned leads.sound withheld pinned
    exact unfired
  · intro before lifespan close rest split holds pinned
    refine ⟨?_, ?_⟩
    · obtain ⟨held, found, handle, pin⟩ := Ledger.refused_of_closing
        (closing_of_tornDown allowed ⟨before, lifespan, close, rest, split, holds⟩)
      exact ⟨held, found, rfl, handle, pin thread⟩
    · subst split
      exact caught_up allowed holds pinned
  · refine unpin_unreached leads.sound withheld pinned fun closing => ?_
    obtain ⟨held, found, -⟩ | torn := leads.onward.closes guard closing
    · cases found
    · exact spared torn

end hold

/-- A guard of two lifespans is pinned twice; one lifespan ends before the first pin does, the
    other one is reset between the two. -/
def pinnedTwice : List Operation :=
  [.newLifespan .null .memory, .newLifespan .null .owner, .build { handle := .null, action := some {} } (some 0),
    .register 2 1, .pin 2, .pin 2, .teardown 0 true, .unpin 2, .teardown 1 false, .unpin 2, .drop 2]

theorem pins_hold_off_pinnedTwice :
    AllowedAll 0 pinnedTwice {} ∧ (after 0 pinnedTwice {}).pins 2 + 2 = taken 0 2 pinnedTwice {} ∧
      (after 0 (pinnedTwice.take 8) {}).causes 2 = [] ∧ (after 0 pinnedTwice {}).causes 2 = [.lifespanEnded] := by
  have allowed : AllowedAll 0 pinnedTwice {} := by decide +kernel
  have earlier : AllowedAll 0 (pinnedTwice.take 8) {} := by decide +kernel
  obtain ⟨balance, -, torn, -⟩ := pins_hold_off 0 pinnedTwice allowed 2
  have once := (torn (pinnedTwice.take 6) 0 true (pinnedTwice.drop 7) rfl (.here rfl (by decide +kernel))
    (by decide +kernel)).2.2 { handle := .null, action := some {} } ?_ rfl
  · exact ⟨allowed, balance, ((pins_hold_off 0 (pinnedTwice.take 8) earlier 2).2.1 (by decide +kernel)).1,
      once.trans (if_pos (by decide +kernel))⟩
  · exact ⟨pinnedTwice.take 2, some 0, pinnedTwice.drop 3, _, rfl, rfl⟩

end Operation

end CatalogReplica.Lifetime
