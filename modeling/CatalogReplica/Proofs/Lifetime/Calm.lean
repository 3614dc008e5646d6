import CatalogReplica.Proofs.Lifetime.Enrolment

/-!
# Guards that someone owns are released by teardowns only

Pins come and go, owners go away, guards are built and queues are drained: whatever of that
happens, no guard is released that still has its owner and was not released before.

* `Ledger.Calm`: nothing with an owner was released.
* `Ledger.dropOwner_calm`, `Ledger.drain_calm`, `Ledger.unpin_calm`, ...: one operation.
-/

namespace CatalogReplica.Lifetime.Ledger

variable {thread : ThreadId} {before ledger after last : Ledger} {id : GuardId} {held : Guard}

/-- What is owned and released was owned and released before. -/
def Calm (before after : Ledger) : Prop :=
  ∀ id held', after.guard? id = some held' → held'.owned = true → held'.isReleased = true →
    ∃ held, before.guard? id = some held ∧ held.owned = true ∧ held.isReleased = true

namespace Calm

theorem refl (ledger : Ledger) : ledger.Calm ledger := fun _ held found owned released => ⟨held, found, owned, released⟩

theorem trans (first : before.Calm after) (second : after.Calm last) : before.Calm last := by
  intro id held'' found owned released
  obtain ⟨held', mid, owned', released'⟩ := second id held'' found owned released
  exact first id held' mid owned' released'

theorem of_guards (same : after.guards = before.guards) : before.Calm after := by
  intro id held found owned released
  refine ⟨held, ?_, owned, released⟩
  rwa [guard?, same, ← guard?] at found

theorem disarms (disarms : Disarms before after) : before.Calm after := by
  intro id held' found owned released
  obtain ⟨held, was, flags, owns⟩ := disarms.guards id held' found
  refine ⟨held, was, owns.symm.trans owned, ?_⟩
  rwa [Guard.isReleased, flags] at released

/-- One guard changed, and was not released meanwhile. -/
theorem onGuard (ledger : Ledger) (id : GuardId) (f : Guard → Guard) (same : ∀ held, (f held).flags = held.flags)
    (fewer : ∀ held, (f held).owned = true → held.owned = true) : ledger.Calm (ledger.onGuard id f) := by
  intro other held' found owned released
  rw [guard?_onGuard] at found
  split at found
  · obtain ⟨held, was, rfl⟩ := Option.map_eq_some_iff.mp found
    refine ⟨held, was, fewer held owned, ?_⟩
    rwa [Guard.isReleased, same] at released
  · exact ⟨held', found, owned, released⟩

/-- Only one guard changed, and whatever became of it does not count. -/
theorem of_others (id : GuardId) (others : ∀ other, other ≠ id → after.guard? other = before.guard? other)
    (self : ∀ held', after.guard? id = some held' → held'.owned = true → held'.isReleased = true →
      ∃ held, before.guard? id = some held ∧ held.owned = true ∧ held.isReleased = true) : before.Calm after := by
  intro other held' found owned released
  by_cases same : other = id
  · subst same
    exact self held' found owned released
  · exact ⟨held', (others other same).symm.trans found, owned, released⟩

end Calm

theorem released_iff : ledger.Released id ↔ ∃ held, ledger.guard? id = some held ∧ held.isReleased = true := by
  constructor
  · rintro (⟨held, found, flag⟩ | ⟨held, found, flag⟩) <;> exact ⟨held, found, by simp [Guard.isReleased, flag]⟩
  · rintro ⟨held, found, released⟩
    obtain flag | flag := Bool.or_eq_true_iff.mp released
    · exact .inl ⟨held, found, flag⟩
    · exact .inr ⟨held, found, flag⟩

/-- A guard that still has its owner can still be used. -/
theorem Calm.usable (calm : before.Calm after) (found : after.guard? id = some held) (owned : held.owned = true)
    (usable : ¬ before.Released id) : ¬ after.Released id := by
  rintro released
  obtain ⟨held', found', released⟩ := released_iff.mp released
  cases found.symm.trans found'
  obtain ⟨held, was, -, released⟩ := calm id _ found owned released
  exact usable (released_iff.mpr ⟨held, was, released⟩)

/-! ## Owners and queues -/

theorem guard?_enqueue (ledger : Ledger) (id : GuardId) (held : Guard) (queue : QueueId) (other : GuardId) :
    (ledger.enqueue id held queue).guard? other
      = (ledger.onGuard id fun held => { held with flags := { held.flags with pending := true } }).guard? other := by
  unfold Ledger.enqueue
  split <;> rfl

/-- The owner of a guard with a queue goes away. -/
theorem dropOwner_calm (sound : Sound thread [] ledger) (found : ledger.guard? id = some held)
    (owned : held.owned = true) (unpinned : held.holders = []) (queued : held.queue.isSome = true) :
    (dropOwner id).Ends ledger fun _ after => ledger.Calm after := by
  obtain ⟨queue, its⟩ := Option.isSome_iff_exists.mp queued
  refine (dropOwner_disarms sound found owned unpinned its).weaken fun _ after disarmed => .trans ?_ (.disarms disarmed)
  refine .of_others id (fun other differs => ?_) fun held' there owns => ?_
  · rw [guard?_enqueue, guard?_onGuard, if_neg differs, guard?_onGuard, if_neg differs]
  · rw [guard?_enqueue, guard?_onGuard_self (guard?_onGuard_self found _)] at there
    cases there
    cases owns

/-- A queue is drained: its guards have no owners. -/
theorem drain_calm (sound : Sound thread [] ledger) (queue : QueueId) :
    (drain queue).Ends ledger fun _ after => ledger.Calm after := by
  cases found : ledger.queue? queue with
  | some record =>
    obtain ⟨after, ran, leads, -, others⟩ := drain_sound sound found
    refine (Task.Ends.of_ok ran).mpr fun id held' there owned released => ?_
    by_cases among : id ∈ record.guards
    · obtain ⟨held, was⟩ := Option.isSome_iff_exists.mp ((sound.members queue record found).2 id among)
      obtain ⟨held'', there', -, -, -, unowned⟩ := leads.onward.kept id held was
      cases there.symm.trans there'
      rw [unowned ((sound.good id held was).queued queue record found among).1] at owned
      cases owned
    · exact ⟨held', (others id among).symm.trans there, owned, released⟩
  | none =>
    refine .next (Task.get_run ledger) ?_
    rw [found]
    refine .next (Task.modify_run _ ledger) ?_
    have ran : holding [] (Task.sum (fun id => Bool.toNat <$> release id .unreachable) [])
        (ledger.onQueue queue fun queue => { queue with guards := [] }) = .ok 0 _ := holding_run rfl
    exact (Task.Ends.of_ok ran).mpr (.of_guards rfl)

/-- A queue is let go. -/
theorem letQueueGo_calm (sound : Sound thread [] ledger) (queue : QueueId) :
    (letQueueGo queue).Ends ledger fun _ after => ledger.Calm after := by
  have let' : Sound thread [] (ledger.onQueue queue fun queue => { queue with handles := queue.handles - 1 }) :=
    (sound.handles queue (· - 1) : Leads thread (fun _ => True) (fun _ => True) [] [] ledger _).sound
  refine .next (Task.modify_run _ ledger) (.next (Task.get_run _) ?_)
  refine (reapBy_disarms _ _ fun id held found => (let'.good id held found).quiet).weaken fun _ after disarmed => ?_
  have same : ledger.Calm (ledger.onQueue queue fun queue => { queue with handles := queue.handles - 1 }) := .of_guards rfl
  exact same.trans (.disarms disarmed)

/-! ## Pins -/

/-- A guard is pinned, if it was not released. -/
theorem pin_calm (thread : ThreadId) (id : GuardId) (ledger : Ledger) :
    (pin thread id).Ends ledger fun outcome after =>
      ledger.Calm after ∧ ∀ address, outcome = .ok address → ¬ after.Released id := by
  refine .next (Task.get_run ledger) ?_
  cases handle : ledger.handle id with
  | error interrupt => exact ⟨.refl ledger, nofun⟩
  | ok address =>
    have usable : ¬ ledger.Released id := fun released => by
      obtain ⟨held, found, released⟩ := released_iff.mp released
      rw [Ledger.handle, found] at handle
      dsimp only at handle
      rw [if_pos released] at handle
      cases handle
    have calm : ledger.Calm (ledger.onGuard id fun held => { held with holders := held.holders ++ [thread] }) :=
      .onGuard ledger id _ (fun _ => rfl) fun _ owned => owned
    refine .next rfl (.next (Task.modify_run _ ledger) ⟨calm, fun _ _ released => usable ?_⟩)
    obtain ⟨held', found', released⟩ := released_iff.mp released
    rw [guard?_onGuard, if_pos rfl] at found'
    obtain ⟨held, found, rfl⟩ := Option.map_eq_some_iff.mp found'
    exact released_iff.mpr ⟨held, found, released⟩

/-- A release changes one guard. -/
theorem release_touches (found : ledger.guard? id = some held) (quiet : held.Quiet) (cause : ReleaseCause) :
    (release id cause).Ends ledger fun _ after => Touches id ledger after := by
  cases claimed : held.flags.claimed with
  | true => exact (Task.Ends.of_ok (release_claimed found claimed cause)).mpr (.onGuard ledger id _)
  | false =>
    obtain ⟨after, ran, touched, -⟩ := release_run found quiet claimed cause
    exact (Task.Ends.of_ok ran).mpr touched

/-- A pin ends.  A release that it catches up on was put off by a teardown. -/
theorem unpin_calm (sound : Sound thread [] ledger) (found : ledger.guard? id = some held)
    (pinned : thread ∈ held.holders) : (unpin thread id).Ends ledger fun _ after => ledger.Calm after := by
  have good := sound.good id held found
  have owned := good.owned_of_mem pinned
  have fewer := Calm.onGuard ledger id (fun held => { held with holders := held.holders.erase thread }) (fun _ => rfl)
    fun _ owned => owned
  refine .next (Task.modify_run _ ledger) (.next (Task.get_run _) ?_)
  have found' := guard?_onGuard_self found fun held => { held with holders := held.holders.erase thread }
  rw [found']
  dsimp only
  split
  · next last =>
    have deferred : held.deferred = true := (Bool.and_eq_true_iff.mp last).2
    refine .next (Task.modify_run _ _) (.discard ((release_touches (guard?_onGuard_self found' _) good.quiet _).weaken ?_))
    intro _ after touched
    refine .of_others id (fun other differs => ?_) fun held' _ _ _ => ⟨held, found, owned, ?_⟩
    · rw [touched.others other differs, guard?_onGuard, if_neg differs, guard?_onGuard, if_neg differs]
    · rw [Guard.isReleased, good.deferred deferred, Bool.or_true]
  · exact fewer

/-! ## Construction -/

/-- A guard is registered to a lifespan, or refused. -/
theorem register_calm (id : GuardId) (lifespan : LifespanId) (ledger : Ledger) :
    (register id lifespan).Ends ledger fun _ after => ledger.Calm after := by
  refine .next (Task.get_run ledger) ?_
  cases ledger.guard? id with
  | none => exact .refl ledger
  | some held =>
    cases ledger.lifespan? lifespan with
    | none => exact .refl ledger
    | some scope =>
      have linked {table : Ledger} (same : table.guards = ledger.guards) :
          ledger.Calm (table.onGuard id fun held => { held with link := some lifespan }) :=
        Calm.trans (.of_guards same) (.onGuard table id _ (fun _ => rfl) fun _ owned => owned)
      dsimp only
      split
      · exact .refl ledger
      · split
        · exact .refl ledger
        · split
          · exact linked rfl
          · exact linked (same_count _ id .guardRegistered 1).guards

/-- A guard is built and registered to a lifespan.  If it is refused, it has no owner any more. -/
theorem build_calm {plan : Guard} (sound : Sound thread [] ledger) (planned : plan.Planned)
    (earlier : ∀ queue ∈ plan.queue, queue < ledger.next) (queued : plan.queue.isSome = true) (lifespan : LifespanId) :
    (build plan (some lifespan)).Ends ledger fun _ after => ledger.Calm after := by
  have added : Leads thread (fun _ => False) (fun _ => False) [] [] ledger _ := sound.addGuard planned earlier
  have third : Leads thread (· = .unreachable) (fun _ => False) [] [] ledger _ := sound.addWithdrawn planned earlier
  obtain ⟨flags, unpinned, -, -, owned, quiet⟩ := planned
  have gains := gains_addGuard sound plan
  have gained : ledger.Calm (ledger.addGuard plan).2 := by
    refine .of_others _ gains.others fun held' there _ released => ?_
    cases gains.found.symm.trans there
    simp [Guard.isReleased, Flags.claimed, flags] at released
  refine .next (Task.lift_run _ ledger) ?_
  have registers : (register ledger.next lifespan).Ends (ledger.addGuard plan).2 fun outcome after =>
      Leads thread (fun _ => False) (fun _ => False) [] [] (ledger.addGuard plan).2 after ∧
        (outcome ≠ .ok () → after = (ledger.addGuard plan).2) := register_sound added.sound gains.found owned lifespan
  -- A refused registration changes nothing, and the guard is withdrawn and dropped at once.
  refine ((register_calm ledger.next lifespan _).both registers).attempt.bind ?_ (by rintro _ _ ⟨_, ⟨⟩, _⟩)
  rintro outcome after ⟨_, ⟨⟩, registered, -, refused⟩
  cases outcome with
  | ok value => exact gained.trans registered
  | error interrupt =>
    obtain rfl := refused (by rintro ⟨⟩)
    have withdrawn := gains_addWithdrawn sound plan
    obtain ⟨last, ran, fourth, ⟨held, there, unowned⟩, -⟩ := dropOwner_sound third.sound withdrawn.found owned unpinned
    have dropped := dropOwner_calm third.sound withdrawn.found owned unpinned queued
    rw [Task.Ends.of_ok ran] at dropped
    refine .next (withdraw_added sound quiet) (.next ran fun id held' found owns released => ?_)
    by_cases same : id = ledger.next
    · subst same
      cases found.symm.trans there
      rw [unowned] at owns
      cases owns
    · obtain ⟨held, was, owned, released⟩ := dropped id held' found owns released
      exact ⟨held, (withdrawn.others id same).symm.trans was, owned, released⟩

end CatalogReplica.Lifetime.Ledger
