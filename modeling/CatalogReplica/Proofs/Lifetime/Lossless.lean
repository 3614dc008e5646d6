import CatalogReplica.Proofs.Lifetime.Calm

/-!
# Ledgers that lose no guard

As long as someone outside holds the queue that all guards leave their releases to, no guard is
lost: one that was not released has its action still, and an owner that goes away only leaves
its guard to the queue.

* `Ledger.Relies`: all guards leave their releases to a queue that is held.
* `Ledger.Lossless`: besides, every guard that was not released has its action.
* `Ledger.Lossless.onward`: what operations on sound ledgers do loses nothing.
* `Ledger.Lossless.dropOwner_run`: the end of an owner, exactly.
-/

namespace CatalogReplica.Lifetime

/-- A guard whose owner left its release to a queue. -/
def Guard.orphaned (held : Guard) : Guard :=
  { held with owned := false, flags := { held.flags with pending := true } }

namespace Ledger

variable {thread : ThreadId} {allowed : ReleaseCause → Prop} {reach may : GuardId → Prop} {queue : QueueId}
  {ledger before after : Ledger} {id : GuardId} {held : Guard}

/-! ## The queue -/

/-- Someone outside holds the queue, and all guards leave their releases to it. -/
structure Relies (queue : QueueId) (ledger : Ledger) : Prop where
  engaged : ledger.Engaged queue
  left : ∀ id held, ledger.guard? id = some held → held.queue = some queue

namespace Relies

theorem congr (relies : ledger.Relies queue) (queues : after.queues = ledger.queues) (guards : after.guards = ledger.guards) :
    after.Relies queue := by
  obtain ⟨engaged, left⟩ := relies
  unfold Engaged queue? at engaged
  unfold guard? at left
  refine ⟨?_, ?_⟩
  · unfold Engaged queue?
    rwa [queues]
  · unfold guard?
    rwa [guards]

theorem onGuard (relies : ledger.Relies queue) (id : GuardId) {f : Guard → Guard}
    (same : ∀ held : Guard, (f held).queue = held.queue) : (ledger.onGuard id f).Relies queue := by
  refine ⟨relies.engaged, fun other held' found => ?_⟩
  rw [guard?_onGuard] at found
  split at found
  · obtain ⟨held, was, rfl⟩ := Option.map_eq_some_iff.mp found
    exact (same held).trans (relies.left other held was)
  · exact relies.left other held' found

end Relies

theorem relies_carried (queue : QueueId) : TornCarried (fun _ => True) (fun _ _ => True) (Relies queue) where
  tally _ _ relies := relies.congr rfl rfl
  busy _ _ relies := relies.congr rfl rfl
  queues _ _ engaged relies := ⟨engaged queue relies.engaged, relies.left⟩
  owns _ _ _ _ _ _ _ _ _ := trivial
  guard _ id _ stays relies := relies.onGuard id fun held => (stays held).queue
  disown _ id _ relies := relies.onGuard id fun _ => rfl
  disarm _ id relies := relies.onGuard id fun _ => rfl
  fire ledger id _ _ _ _ _ relies := (relies.onGuard id fun _ => rfl : (ledger.disarmed id).Relies queue).congr rfl rfl
  yield _ _ _ relies := relies.congr rfl rfl
  forget _ _ _ _ relies := relies.congr rfl rfl
  empty _ _ _ _ relies := relies.congr rfl rfl
  inside _ _ _ _ _ _ _ _ _ := trivial

/-! ## Nothing is lost -/

/-- All guards leave their releases to a queue that is held, and one whose release is open has
    its action. -/
structure Lossless (queue : QueueId) (ledger : Ledger) : Prop extends Relies queue ledger where
  armed : ∀ id held, ledger.guard? id = some held → held.flags.claimed = false → held.action.isSome = true

/-- A guard whose owner went away waits in the queue for its release. -/
theorem Relies.queued (relies : ledger.Relies queue) (sound : Sound thread [] ledger)
    (found : ledger.guard? id = some held) (unowned : held.owned = false) (unclaimed : held.flags.claimed = false) :
    ∃ record, ledger.queue? queue = some record ∧ id ∈ record.guards := by
  obtain ⟨record, there, -⟩ := relies.engaged
  obtain ⟨one, its, among⟩ := ((sound.good id held found).awaited unowned unclaimed).resolve_left List.not_mem_nil
  obtain rfl := Option.some.inj ((relies.left id held found).symm.trans its)
  exact ⟨record, there, among record there⟩

namespace Lossless

theorem congr (lossless : ledger.Lossless queue) (queues : after.queues = ledger.queues) (guards : after.guards = ledger.guards) :
    after.Lossless queue := by
  refine { lossless.toRelies.congr queues guards with armed := fun id held found => lossless.armed id held ?_ }
  rwa [guard?, guards] at found

/-- A queue changes, and is held as often as before. -/
theorem onQueue (lossless : ledger.Lossless queue) {f : ReleaseQueue → ReleaseQueue}
    (handles : ∀ record, ledger.queue? queue = some record → (f record).handles = record.handles) :
    (ledger.onQueue queue f).Lossless queue := by
  obtain ⟨record, found, engaged⟩ := lossless.engaged
  refine ⟨⟨⟨f record, ?_, ?_⟩, lossless.left⟩, lossless.armed⟩
  · rw [queue?_onQueue, if_pos rfl, found, Option.map_some]
  · rwa [handles record found]

theorem acts (lossless : ledger.Lossless queue) (found : ledger.guard? id = some held)
    (unclaimed : held.flags.claimed = false) : Acts [] ledger id :=
  ⟨held, found, .inr (.inl ⟨unclaimed, lossless.armed id held found unclaimed⟩)⟩

/-- Where the queue is held, a guard whose action can run or ran is not lost. -/
theorem of_acts (relies : ledger.Relies queue) (sound : Sound thread [] ledger)
    (acts : ∀ id held, ledger.guard? id = some held → held.flags.claimed = false → Acts [] ledger id) :
    ledger.Lossless queue := by
  refine { relies with armed := fun id held found unclaimed => ?_ }
  obtain ⟨held', found', state⟩ := acts id held found unclaimed
  obtain rfl := Option.some.inj (found.symm.trans found')
  obtain ⟨claimed, -⟩ | ⟨-, acts⟩ | lost := state
  · rw [unclaimed] at claimed
    cases claimed
  · exact acts
  · -- a guard that lost its owner is in the queue
    obtain ⟨record, there, among⟩ := relies.queued sound found lost.unowned unclaimed
    exact absurd among (lost.queues queue record there)

/-- What operations do to guards loses none, if the queue is held afterwards. -/
theorem onward (lossless : before.Lossless queue) (relies : after.Relies queue) (sound : Sound thread [] after)
    (onward : Onward allowed reach [] [] before after) (known : ∀ id, (after.guard? id).isSome = true →
      (before.guard? id).isSome = true ∨ after.Claimed id ∨ Acts [] after id) : after.Lossless queue := by
  refine of_acts relies sound fun id held' found' unclaimed' => ?_
  obtain old | ⟨held'', found'', claimed⟩ | acts := known id (by rw [found', Option.isSome_some])
  · obtain ⟨held, found⟩ := Option.isSome_iff_exists.mp old
    obtain ⟨held'', found'', -, claims, -⟩ := onward.kept id held found
    obtain rfl := Option.some.inj (found'.symm.trans found'')
    refine onward.acts id (lossless.acts found ?_)
    cases claimed : held.flags.claimed with
    | false => rfl
    | true => exact (claims claimed).symm.trans unclaimed'
  · obtain rfl := Option.some.inj (found'.symm.trans found'')
    rw [unclaimed'] at claimed
    cases claimed
  · exact acts

theorem proceeds (lossless : before.Lossless queue) (relies : after.Relies queue)
    (proceeds : Proceeds thread allowed may before after) : after.Lossless queue :=
  lossless.onward relies proceeds.sound proceeds.onward fun id there => by
    have among : id ∈ after.guards.ids := Numbered.isSome_get?.mp there
    rw [proceeds.steady.guards] at among
    exact .inl (Numbered.isSome_get?.mpr among)

/-- Nothing is let go that someone might still release. -/
theorem abandoned? (lossless : ledger.Lossless queue) (sound : Sound thread [] ledger) : ledger.abandoned? = none := by
  cases abandoned : ledger.abandoned? with
  | none => rfl
  | some id =>
    obtain ⟨held, found, acts, unowned, -, queues⟩ := abandoned?_spec sound abandoned
    have unclaimed : held.flags.claimed = false := by
      cases claimed : held.flags.claimed with
      | false => rfl
      | true =>
        rw [(sound.good id held found).spent claimed] at acts
        cases acts
    obtain ⟨record, there, among⟩ := lossless.toRelies.queued sound found unowned unclaimed
    exact absurd among (queues queue record there)

theorem onGuard (lossless : ledger.Lossless queue) (id : GuardId) {f : Guard → Guard}
    (queues : ∀ held : Guard, (f held).queue = held.queue)
    (open' : ∀ held : Guard, (f held).flags.claimed = false → held.flags.claimed = false ∧ (f held).action = held.action) :
    (ledger.onGuard id f).Lossless queue := by
  refine { lossless.toRelies.onGuard id queues with armed := fun other held' found unclaimed => ?_ }
  rw [guard?_onGuard] at found
  split at found
  · obtain ⟨held, was, rfl⟩ := Option.map_eq_some_iff.mp found
    obtain ⟨unclaimed, same⟩ := open' held unclaimed
    exact same ▸ lossless.armed other held was unclaimed
  · exact lossless.armed other held' found unclaimed

/-- A pin changes no release. -/
theorem pin (lossless : ledger.Lossless queue) (thread : ThreadId) (id : GuardId) :
    (Ledger.pin thread id).Ends ledger fun _ after => after.Lossless queue := by
  refine .next (Task.get_run ledger) ?_
  cases ledger.handle id with
  | error interrupt => exact lossless
  | ok handle =>
    refine .next (Task.pure_run handle ledger) (.next (Task.modify_run _ ledger) ?_)
    exact lossless.onGuard id (fun _ => rfl) fun _ unclaimed => ⟨unclaimed, rfl⟩

theorem sweepQueues (lossless : ledger.Lossless queue) : ledger.sweepQueues.Lossless queue :=
  ⟨⟨lossless.engaged.sweepQueues, lossless.left⟩, lossless.armed⟩

/-- Letting go what nothing refers to takes no action away. -/
theorem reapBy_run (lossless : ledger.Lossless queue) (sound : Sound thread [] ledger) (drop : GuardId → Task Ledger Unit)
    (rounds : Nat) : reapBy drop (rounds + 1) ledger = .ok () ledger.sweepQueues := by
  have swept : Sound thread [] ledger.sweepQueues :=
    (sound.sweep : Leads thread (fun _ => True) (fun _ => True) [] [] ledger _).sound
  unfold reapBy
  rw [Task.bind_ok (Task.modify_run _ ledger), Task.bind_ok (Task.get_run _), lossless.sweepQueues.abandoned? swept]
  rfl

end Lossless

/-! ## Owners -/

theorem guard?_orphaned (found : ledger.guard? id = some held) (queue : QueueId) (other : GuardId) :
    ((ledger.onGuard id fun held => { held with owned := false }).enqueue id held queue).guard? other
      = if other = id then some held.orphaned else ledger.guard? other := by
  rw [guard?_enqueue, guard?_onGuard, guard?_onGuard]
  split
  · next same =>
    rw [same, found]
    rfl
  · rfl

/-- An owner that goes away leaves the release of its guard to the queue, and does nothing else. -/
theorem Lossless.dropOwner_run (lossless : ledger.Lossless queue) (sound : Sound thread [] ledger)
    (found : ledger.guard? id = some held) (owned : held.owned = true) (unpinned : held.holders = []) :
    ∃ after, dropOwner id ledger = .ok () after ∧ after.Lossless queue ∧
      (∀ other, after.guard? other = if other = id then some held.orphaned else ledger.guard? other) ∧
      after.lifespans = ledger.lifespans ∧ after.log = ledger.log := by
  have its := lossless.left id held found
  have entered : Leads thread (fun _ => True) (fun _ => True) [id] [] _ _ := sound.enqueue found owned unpinned its
  have guards := guard?_orphaned found queue
  have relies : Relies queue ((ledger.onGuard id fun held => { held with owned := false }).enqueue id held queue) :=
    (relies_carried queue).toCarried.enqueue ((relies_carried queue).disown ledger id trivial lossless.toRelies) id held queue
  have same : ((ledger.onGuard id fun held => { held with owned := false }).enqueue id held queue).lifespans
      = ledger.lifespans ∧
      ((ledger.onGuard id fun held => { held with owned := false }).enqueue id held queue).log = ledger.log := by
    unfold Ledger.enqueue
    split <;> exact ⟨rfl, rfl⟩
  have waits : Lossless queue ((ledger.onGuard id fun held => { held with owned := false }).enqueue id held queue) := by
    refine { relies with armed := fun other held' found' unclaimed => ?_ }
    rw [guards] at found'
    split at found'
    · obtain rfl := Option.some.inj found'
      exact lossless.armed id held found unclaimed
    · exact lossless.armed other held' found' unclaimed
  refine ⟨_, ?_, waits.sweepQueues, guards, same⟩
  refine (Task.bind_ok (Task.get_run ledger)).trans ?_
  unfold dropWithin
  rw [Task.bind_ok (Task.get_run ledger), found]
  simp only [owned, if_true, its]
  rw [Task.bind_ok (Task.set_run _ _)]
  exact waits.reapBy_run entered.sound _ _

/-! ## Operations -/

theorem Sound.tally {loose : List GuardId} (sound : Sound thread loose ledger) (tally : Tally) :
    Sound thread loose { ledger with tally } := by
  have same : Leads thread (fun _ => False) (fun _ => False) loose loose ledger { ledger with tally } :=
    sound.same ⟨rfl, rfl, rfl, rfl, rfl⟩
  exact same.sound

/-- What leads to a sound ledger with the same guards loses none of them, if the queue is held
    throughout. -/
theorem Lossless.ends {α : Type} {body : Task Ledger α} (lossless : ledger.Lossless queue)
    (ends : body.Ends ledger fun _ after => Proceeds thread allowed may ledger after) (keeps : body.Keeps (Relies queue)) :
    body.Ends ledger fun _ after => after.Lossless queue :=
  (ends.both (keeps ledger lossless.toRelies)).weaken fun _ _ ended => lossless.proceeds ended.2 ended.1

section operations

variable (lossless : ledger.Lossless queue) (sound : Sound thread [] ledger)

include lossless sound

theorem Lossless.unpin (found : ledger.guard? id = some held) (pinned : thread ∈ held.holders) :
    (Ledger.unpin thread id).Ends ledger fun _ after => after.Lossless queue :=
  lossless.ends ((unpin_proceeds sound found pinned).weaken fun _ _ ended => ended.1)
    ((relies_carried queue).toCarried.unpin thread id)

theorem Lossless.drain : (Ledger.drain queue).Ends ledger fun _ after => after.Lossless queue :=
  lossless.ends (drain_proceeds sound queue) ((relies_carried queue).toCarried.drain queue)

theorem Lossless.teardown (lifespan : LifespanId) (close : Bool) :
    (Ledger.teardown thread lifespan close).Ends ledger fun _ after => after.Lossless queue :=
  lossless.ends ((teardown_proceeds sound lifespan close).weaken fun _ _ ended => ended.2.1)
    ((relies_carried queue).teardown thread trivial)

end operations

theorem relies_register (id : GuardId) (lifespan : LifespanId) : (register id lifespan).Keeps (Relies queue) := by
  intro ledger relies
  refine .next (Task.get_run ledger) ?_
  cases ledger.guard? id with
  | none => exact relies
  | some held =>
    cases ledger.lifespan? lifespan with
    | none => exact relies
    | some scope =>
      dsimp only
      split
      · exact relies
      · split
        · exact relies
        · split
          · exact relies.onGuard id fun _ => rfl
          · have entered : Relies queue (ledger.onLifespan lifespan fun scope =>
                { scope with guards := scope.guards ++ [id] }) := relies.congr rfl rfl
            have counted := (relies_carried queue).toCarried.count entered id .guardRegistered 1
            exact counted.onGuard id fun _ => rfl

theorem relies_build {plan : Guard} (its : plan.queue = some queue) (lifespan : LifespanId) :
    (build plan (some lifespan)).Keeps (Relies queue) := by
  have carried := (relies_carried queue).toCarried
  refine .bind (.lift fun ledger relies => ⟨relies.engaged, fun id held found => ?_⟩) fun id => ?_
  · have found : (ledger.guards.add ledger.next plan).get? id = some held := found
    rw [Numbered.get?_add] at found
    cases old : ledger.guards.get? id with
    | some held' =>
      rw [old, Option.some_or] at found
      exact Option.some.inj found ▸ relies.left id held' old
    | none =>
      rw [old, Option.none_or] at found
      split at found
      · exact Option.some.inj found ▸ its
      · cases found
  · refine .bind (.attempt (relies_register id lifespan)) fun outcome => ?_
    cases outcome with
    | ok _ => exact .pure _
    | error interrupt =>
      exact .bind (Carried.withdraw carried id) fun _ => .bind (carried.dropOwner trivial) fun _ => .throw interrupt

/-- A guard that is built has an action, or is refused and counts as released. -/
theorem build_lossless {plan : Guard} (lossless : ledger.Lossless queue) (sound : Sound thread [] ledger)
    (planned : plan.Planned) (its : plan.queue = some queue) (acts : plan.action.isSome = true)
    (earlier : queue < ledger.next) (lifespan : LifespanId) :
    (build plan (some lifespan)).Ends ledger fun _ after => after.Lossless queue := by
  have earlier : ∀ one ∈ plan.queue, one < ledger.next := by
    rintro one isQueue
    obtain rfl := Option.some.inj (its.symm.trans isQueue)
    exact earlier
  have relies := relies_build its lifespan ledger lossless.toRelies
  refine (((build_leads sound planned earlier (some lifespan)).both (build_proceeds sound planned earlier lifespan)).both
    relies).weaken fun outcome after ended => ?_
  obtain ⟨⟨⟨leads, new⟩, builds, -⟩, relies⟩ := ended
  refine lossless.onward relies leads.sound leads.onward fun id there => ?_
  have among : id ∈ after.guards.ids := Numbered.isSome_get?.mp there
  rw [builds.steady.guards, (gains_addGuard sound plan).guards] at among
  obtain old | isNew := List.mem_append.mp among
  · exact .inl (Numbered.isSome_get?.mpr old)
  · obtain rfl := List.mem_singleton.mp isNew
    refine .inr ?_
    cases outcome with
    | error interrupt => exact .inl new.1
    | ok id =>
      obtain ⟨rfl, given, -⟩ := new
      exact .inr (given acts)

end Ledger

end CatalogReplica.Lifetime
