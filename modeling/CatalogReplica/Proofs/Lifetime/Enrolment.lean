import CatalogReplica.Proofs.Lifetime.Carrying
import CatalogReplica.Proofs.Lifetime.Registration

/-!
# Guards stay in their tables

A guard that was entered in the table of a lifespan is in it until it is released, so that
a teardown of the lifespan comes to it.  What is done with one guard leaves the owners and
the pins of other guards alone.

* `Ledger.Enrolls`: a guard is in the table of a lifespan, unless it was released.
* `Ledger.Steady`: no guard is new, and guards keep their owners.
* `Ledger.Proceeds`: what operations on sound ledgers do, with both.
-/

namespace CatalogReplica.Lifetime.Ledger

/-- The guard can no longer be used. -/
def Released (ledger : Ledger) (id : GuardId) : Prop := ledger.Claimed id ∨ ledger.Closing id

/-- The guard is in the table of the lifespan, unless it was released. -/
def Enrolls (ledger : Ledger) (lifespan : LifespanId) (id : GuardId) : Prop :=
  ledger.Released id ∨ ∃ scope, ledger.lifespan? lifespan = some scope ∧ id ∈ scope.guards

variable {thread : ThreadId} {allowed allowed' : ReleaseCause → Prop} {may : GuardId → Prop}
  {base before ledger after last : Ledger} {id : GuardId}

theorem Closing.onGuard (closing : ledger.Closing id) (other : GuardId) (f : Guard → Guard)
    (keeps : ∀ held : Guard, held.flags.closing = true → (f held).flags.closing = true) :
    (ledger.onGuard other f).Closing id := by
  obtain ⟨held, found, flag⟩ := closing
  rw [Option.mem_def] at found
  by_cases same : id = other
  · subst same
    exact ⟨f held, guard?_onGuard_self found f, keeps held flag⟩
  · exact ⟨held, by rw [guard?_onGuard, if_neg same]; exact found, flag⟩

theorem Enrolls.onGuard {lifespan : LifespanId} (enrolls : ledger.Enrolls lifespan id) (other : GuardId)
    (f : Guard → Guard) (claimed : ∀ held : Guard, held.flags.claimed = true → (f held).flags.claimed = true)
    (closing : ∀ held : Guard, held.flags.closing = true → (f held).flags.closing = true) :
    (ledger.onGuard other f).Enrolls lifespan id := by
  obtain (release | reached) | listed := enrolls
  · exact .inl (.inl (release.onGuard other f claimed))
  · exact .inl (.inr (reached.onGuard other f closing))
  · exact .inr listed

/-- A guard leaves a table when its release was claimed. -/
theorem Enrolls.forget {lifespan other : LifespanId} {guard : GuardId} (enrolls : ledger.Enrolls lifespan id)
    (claimed : ledger.Claimed guard) :
    (ledger.onLifespan other fun scope => { scope with guards := scope.guards.erase guard }).Enrolls lifespan id := by
  obtain released | ⟨scope, found, among⟩ := enrolls
  · exact .inl released
  · by_cases same : id = guard
    · subst same
      exact .inl (.inl claimed)
    · refine .inr ?_
      rw [lifespan?_onLifespan, found]
      split
      · exact ⟨_, rfl, (List.mem_erase_of_ne same).mpr among⟩
      · exact ⟨scope, rfl, among⟩

theorem enrolls_carried (base : Ledger) :
    Carried (fun _ => True) fun ledger => ∀ lifespan id, base.Enrolls lifespan id → ledger.Enrolls lifespan id where
  tally _ _ before := before
  busy _ _ before := before
  queues _ _ _ before := before
  owns _ _ _ _ _ _ _ _ _ := trivial
  guard _ other f stays before lifespan id enrolls :=
    (before lifespan id enrolls).onGuard other f (fun held => (stays held).claimed) fun held => (stays held).closing
  disown _ other _ before lifespan id enrolls :=
    (before lifespan id enrolls).onGuard other _ (fun _ flag => flag) fun _ flag => flag
  disarm _ other before lifespan id enrolls :=
    (before lifespan id enrolls).onGuard other _ (fun _ flag => flag) fun _ flag => flag
  fire _ other _ _ _ _ _ before lifespan id enrolls :=
    (before lifespan id enrolls).onGuard other (fun held => { held with action := none }) (fun _ flag => flag)
      fun _ flag => flag
  yield _ _ _ before := before
  forget _ _ _ claimed before lifespan id enrolls := (before lifespan id enrolls).forget claimed

/-! ## Owners and pins -/

/-- Since an earlier ledger, no guard is new, and guards other than the given ones have their
    owners still, and no further pins. -/
structure Steady (may : GuardId → Prop) (base ledger : Ledger) : Prop where
  next : base.next ≤ ledger.next
  guards : ledger.guards.ids = base.guards.ids
  alone : ∀ id held action, ledger.guard? id = some held → held.action = some action → action.owns = []
  spared : ∀ id held, ¬ may id → base.guard? id = some held → ∃ held', ledger.guard? id = some held' ∧
    held'.owned = held.owned ∧ held'.holders.length ≤ held.holders.length

theorem Sound.alone {loose : List GuardId} (sound : Sound thread loose ledger) (id : GuardId) (held : Guard)
    (action : Action) (found : ledger.guard? id = some held) (its : held.action = some action) : action.owns = [] :=
  ((sound.good id held found).quiet action its).1

theorem Steady.refl (alone : ∀ id held action, ledger.guard? id = some held → held.action = some action →
    action.owns = []) : Steady may ledger ledger :=
  ⟨Nat.le_refl _, rfl, alone, fun _ held _ found => ⟨held, found, rfl, Nat.le_refl _⟩⟩

theorem Sound.steady {loose : List GuardId} (sound : Sound thread loose ledger) : Steady may ledger ledger :=
  .refl sound.alone

theorem Steady.onGuard (steady : Steady may base ledger) (id : GuardId) (f : Guard → Guard)
    (action : ∀ held : Guard, (f held).action = held.action ∨ (f held).action = none)
    (spares : ¬ may id → ∀ held : Guard, (f held).owned = held.owned ∧ (f held).holders.length ≤ held.holders.length) :
    Steady may base (ledger.onGuard id f) := by
  refine ⟨steady.next, (ids_onGuard ledger id f).trans steady.guards, fun other held' act found its => ?_,
    fun other held apart found => ?_⟩
  · rw [guard?_onGuard] at found
    split at found
    · obtain ⟨held, there, rfl⟩ := Option.map_eq_some_iff.mp found
      obtain same | gone := action held
      · exact steady.alone other held act there (same ▸ its)
      · rw [gone] at its
        cases its
    · exact steady.alone other held' act found its
  · obtain ⟨held', there, owned, pins⟩ := steady.spared other held apart found
    rw [guard?_onGuard]
    split
    · next same =>
      subst same
      obtain ⟨owned', pins'⟩ := spares apart held'
      exact ⟨f held', by rw [there]; rfl, owned'.trans owned, Nat.le_trans pins' pins⟩
    · exact ⟨held', there, owned, pins⟩

theorem Steady.congr (steady : Steady may base ledger) (guards : after.guards = ledger.guards)
    (next : after.next = ledger.next) : Steady may base after := by
  have found : after.guard? = ledger.guard? := by
    funext id
    rw [guard?, guards, guard?]
  exact ⟨next ▸ steady.next, guards ▸ steady.guards, found ▸ steady.alone, found ▸ steady.spared⟩

theorem Steady.weaken {may' : GuardId → Prop} (steady : Steady may base ledger) (more : ∀ id, may id → may' id) :
    Steady may' base ledger :=
  ⟨steady.next, steady.guards, steady.alone, fun id held apart => steady.spared id held fun its => apart (more id its)⟩

theorem steady_carried (may : GuardId → Prop) (base : Ledger) :
    TornCarried may (fun _ _ => True) (Steady may base) where
  tally _ _ before := before.congr rfl rfl
  busy _ _ before := before.congr rfl rfl
  queues _ _ _ before := before.congr rfl rfl
  owns ledger id held action before found its owner among := by
    rw [before.alone id held action found its] at among
    cases among
  guard _ id f stays before :=
    before.onGuard id f (fun held => .inl (stays held).action) fun _ held => ⟨(stays held).owned, (stays held).holders⟩
  disown _ id allowed before := before.onGuard id _ (fun _ => .inl rfl) fun apart => absurd allowed apart
  disarm _ id before := before.onGuard id _ (fun _ => .inr rfl) fun _ _ => ⟨rfl, Nat.le_refl _⟩
  fire ledger id _ _ _ _ _ before := by
    have disarmed : Steady may base (ledger.disarmed id) :=
      before.onGuard id _ (fun _ => .inr rfl) fun _ _ => ⟨rfl, Nat.le_refl _⟩
    exact disarmed.congr rfl rfl
  yield _ _ _ before := before.congr rfl rfl
  forget _ _ _ _ before := before.congr rfl rfl
  empty _ _ _ _ before := before.congr rfl rfl
  inside _ _ _ _ _ _ _ _ _ := trivial

/-- What two descriptions keep of a ledger, both keep. -/
theorem Carried.both {holds holds' : Ledger → Prop} (carried : Carried may holds)
    (carried' : Carried (fun _ => True) holds') : Carried may fun ledger => holds ledger ∧ holds' ledger where
  tally ledger tally before := ⟨carried.tally ledger tally before.1, carried'.tally ledger tally before.2⟩
  busy ledger busy before := ⟨carried.busy ledger busy before.1, carried'.busy ledger busy before.2⟩
  queues ledger queues engaged before :=
    ⟨carried.queues ledger queues engaged before.1, carried'.queues ledger queues engaged before.2⟩
  owns ledger id held action before := carried.owns ledger id held action before.1
  guard ledger id f stays before := ⟨carried.guard ledger id f stays before.1, carried'.guard ledger id f stays before.2⟩
  disown ledger id allowed before :=
    ⟨carried.disown ledger id allowed before.1, carried'.disown ledger id trivial before.2⟩
  disarm ledger id before := ⟨carried.disarm ledger id before.1, carried'.disarm ledger id before.2⟩
  fire ledger id held action cause found its before :=
    ⟨carried.fire ledger id held action cause found its before.1,
      carried'.fire ledger id held action cause found its before.2⟩
  yield ledger id handle before := ⟨carried.yield ledger id handle before.1, carried'.yield ledger id handle before.2⟩
  forget ledger id lifespan claimed before :=
    ⟨carried.forget ledger id lifespan claimed before.1, carried'.forget ledger id lifespan claimed before.2⟩

/-! ## Operations -/

/-- What an operation leads to: actions run with the given causes, the given guards may lose
    their owners, and guards stay in their tables. -/
structure Proceeds (thread : ThreadId) (allowed : ReleaseCause → Prop) (may : GuardId → Prop)
    (before after : Ledger) : Prop extends Leads thread allowed (fun _ => True) [] [] before after where
  steady : Steady may before after
  enrolls : ∀ lifespan id, before.Enrolls lifespan id → after.Enrolls lifespan id

theorem Proceeds.refl (sound : Sound thread [] ledger) : Proceeds thread allowed may ledger ledger :=
  ⟨sound.stay, sound.steady, fun _ _ enrolls => enrolls⟩

theorem Proceeds.trans (first : Proceeds thread allowed may before after)
    (second : Proceeds thread allowed may after last) : Proceeds thread allowed may before last where
  toLeads := first.toLeads.trans second.toLeads
  steady := by
    refine ⟨Nat.le_trans first.steady.next second.steady.next, second.steady.guards.trans first.steady.guards,
      second.steady.alone, fun id held apart found => ?_⟩
    obtain ⟨mid, there, owned, pins⟩ := first.steady.spared id held apart found
    obtain ⟨held', there', owned', pins'⟩ := second.steady.spared id mid apart there
    exact ⟨held', there', owned'.trans owned, Nat.le_trans pins' pins⟩
  enrolls lifespan id enrolls := second.enrolls lifespan id (first.enrolls lifespan id enrolls)

theorem Proceeds.weaken (proceeds : Proceeds thread allowed may before after)
    (causes : ∀ cause, allowed cause → allowed' cause) : Proceeds thread allowed' may before after :=
  ⟨proceeds.toLeads.weaken causes fun _ reach => reach, proceeds.steady, proceeds.enrolls⟩

/-- An operation that keeps whatever its changes keep, and leads to a sound ledger. -/
theorem Proceeds.of_carried {α : Type} {body : Task Ledger α} {reach : GuardId → Prop}
    (sound : Sound thread [] ledger)
    (leads : body.Ends ledger fun _ after => Leads thread allowed reach [] [] ledger after)
    (keeps : ∀ {holds : Ledger → Prop}, Carried may holds → body.Keeps holds) :
    body.Ends ledger fun _ after => Proceeds thread allowed may ledger after := by
  have carried := (steady_carried may ledger).toCarried.both (enrolls_carried ledger)
  have kept := keeps carried ledger ⟨sound.steady, fun _ _ enrolls => enrolls⟩
  refine (leads.both kept).weaken fun _ after ended => ?_
  exact ⟨ended.1.weaken (fun _ its => its) fun _ _ => trivial, ended.2.1, ended.2.2⟩

/-- Queues may go and change, apart from what is in them. -/
theorem Sound.requeue (sound : Sound thread [] ledger) {queues : Numbered ReleaseQueue}
    (kept : KeepsQueues ledger { ledger with queues })
    (once : queues.ids.Nodup ∧ ∀ id ∈ queues.ids, id < ledger.next) :
    Proceeds thread allowed may ledger { ledger with queues } :=
  ⟨sound.keepQueues kept (Nat.le_refl _) once, (sound.steady).congr rfl rfl, fun _ _ enrolls => enrolls⟩

/-- A queue is changed, and not what is in it. -/
theorem Sound.onQueue (sound : Sound thread [] ledger) {queue : QueueId} {f : ReleaseQueue → ReleaseQueue}
    (same : ∀ record, ledger.queue? queue = some record → (f record).guards = record.guards) :
    Proceeds thread allowed may ledger (ledger.onQueue queue f) := by
  refine sound.requeue (fun other record found => ?_) ?_
  · have changed := (queue?_onQueue ledger queue other f).symm.trans found
    split at changed
    · next its =>
      subst its
      obtain ⟨record', there, rfl⟩ := Option.map_eq_some_iff.mp changed
      exact .inl ⟨record', there, (same record' there).symm⟩
    · exact .inl ⟨record, changed, rfl⟩
  · have ids := ids_onQueue ledger queue f
    exact ids ▸ sound.queues

theorem Sound.sameLedger (sound : Sound thread [] ledger) (same : Same ledger after) :
    Proceeds thread allowed may ledger after := by
  refine ⟨sound.same same, sound.steady.congr same.guards same.next, fun lifespan id enrolls => ?_⟩
  have guards : after.guard? = ledger.guard? := by
    funext id
    rw [guard?, same.guards, guard?]
  unfold Enrolls Released Claimed Closing lifespan? at enrolls ⊢
  rwa [guards, same.lifespans]

/-- The owner of a guard with a queue goes away: no action runs. -/
theorem dropOwner_proceeds {held : Guard} (sound : Sound thread [] ledger) (found : ledger.guard? id = some held)
    (owned : held.owned = true) (unpinned : held.holders = []) (queued : held.queue.isSome = true) :
    (dropOwner id).Ends ledger fun _ after => Proceeds thread (fun _ => False) (· = id) ledger after := by
  have first : Leads thread (fun _ => False) (fun _ => False) [] [id] ledger _ := sound.disown found owned unpinned
  obtain ⟨after, ran, second⟩ : ∃ after, dropOwner id ledger = .ok () after ∧
      Leads thread (fun _ => False) (fun _ => False) [id] [] (ledger.onGuard id fun held => { held with owned := false })
        after := dropOwner_queued sound found owned unpinned queued
  have leads : (dropOwner id).Ends ledger fun _ after =>
      Leads thread (fun _ => False) (fun _ => False) [] [] ledger after :=
    (Task.Ends.of_ok ran).mpr (first.trans second)
  exact Proceeds.of_carried sound leads fun carried => carried.dropOwner rfl

/-- A queue is drained, if it is there. -/
theorem drain_proceeds (sound : Sound thread [] ledger) (queue : QueueId) :
    (drain queue).Ends ledger fun _ after => Proceeds thread (· = .unreachable) (fun _ => False) ledger after := by
  have leads : (drain queue).Ends ledger fun _ after =>
      Leads thread (· = .unreachable) (fun _ => True) [] [] ledger after := by
    cases found : ledger.queue? queue with
    | some record =>
      obtain ⟨after, ran, leads, -⟩ := drain_sound sound found
      exact (Task.Ends.of_ok ran).mpr (leads.weaken (fun _ its => its) fun _ => False.elim)
    | none =>
      refine .next (Task.get_run ledger) ?_
      rw [found]
      refine .next (Task.modify_run _ ledger) ?_
      have emptied : Proceeds thread (· = .unreachable) (fun _ => False) ledger
          (ledger.onQueue queue fun queue => { queue with guards := [] }) :=
        sound.onQueue fun record there => by rw [found] at there; cases there
      have ran : holding [] (Task.sum (fun id => Bool.toNat <$> release id .unreachable) [])
          (ledger.onQueue queue fun queue => { queue with guards := [] }) = .ok 0 _ := holding_run rfl
      exact (Task.Ends.of_ok ran).mpr (emptied.trans (emptied.sound.sameLedger ⟨rfl, rfl, rfl, rfl, rfl⟩)).toLeads
  exact Proceeds.of_carried sound leads fun carried => carried.drain queue

/-- A queue is let go: guards that only it held are lost, and no action runs. -/
theorem letQueueGo_proceeds (sound : Sound thread [] ledger) (queue : QueueId) :
    (letQueueGo queue).Ends ledger fun _ after => Proceeds thread (fun _ => False) (fun _ => False) ledger after := by
  have first : Proceeds thread (fun _ => False) (fun _ => False) ledger
      (ledger.onQueue queue fun record => { record with handles := record.handles - 1 }) :=
    sound.onQueue fun _ _ => rfl
  refine .next (Task.modify_run _ ledger) ?_
  have leads : reap.Ends (ledger.onQueue queue fun record => { record with handles := record.handles - 1 }) fun _ after =>
      Leads thread (fun _ => False) (fun _ => True) [] []
        (ledger.onQueue queue fun record => { record with handles := record.handles - 1 }) after := by
    refine .next (Task.get_run _) ?_
    obtain ⟨after, ran, second⟩ := reapBy_sound dropOwner _ first.sound
    exact (Task.Ends.of_ok ran).mpr second
  refine (Proceeds.of_carried first.sound leads fun carried => .bind .get fun _ => ?_).weaken
    fun _ after second => first.trans second
  exact carried.reapBy (fun _ allowed => carried.dropOwner allowed) _

/-- A pin ends.  There is one pin less on the guard, and as many as before on others. -/
theorem unpin_proceeds {held : Guard} (sound : Sound thread [] ledger) (found : ledger.guard? id = some held)
    (pinned : thread ∈ held.holders) :
    (unpin thread id).Ends ledger fun _ after =>
      Proceeds thread (· = .lifespanEnded) (fun _ => False) ledger after ∧
        ∀ held', after.guard? id = some held' → held'.holders.length < held.holders.length := by
  have proceeds : (unpin thread id).Ends ledger fun _ after =>
      Proceeds thread (· = .lifespanEnded) (fun _ => False) ledger after :=
    Proceeds.of_carried sound (unpin_sound sound ⟨held, found, pinned⟩) fun carried => carried.unpin thread id
  -- the ledger to compare with is the one without the pin
  have without : Steady (fun _ => False) ledger
      (ledger.onGuard id fun held => { held with holders := held.holders.erase thread }) :=
    sound.steady.onGuard id _ (fun _ => .inl rfl) fun _ _ => ⟨rfl, (List.erase_sublist).length_le⟩
  have fewer := (steady_carried (fun _ => False) _).toCarried.unpin_ends thread id (Steady.refl without.alone)
  refine (proceeds.both fewer).weaken fun _ after ended => ⟨ended.1, fun held' there => ?_⟩
  obtain ⟨held'', there', -, pins⟩ := ended.2.spared id _ not_false (guard?_onGuard_self found _)
  rw [there] at there'
  cases there'
  have one := List.length_erase_of_mem pinned
  have some := List.length_pos_of_mem pinned
  dsimp only at pins
  omega

/-- A guard is pinned, unless it was released. -/
theorem pin_proceeds {held : Guard} (sound : Sound thread [] ledger) (found : ledger.guard? id = some held)
    (owned : held.owned = true) :
    (pin thread id).Ends ledger fun outcome after =>
      match outcome with
      | .error _ => after = ledger
      | .ok _ => Proceeds thread (fun _ => False) (· = id) ledger after ∧
          after.guard? id = some { held with holders := held.holders ++ [thread] } := by
  have leads := pin_sound sound ⟨held, found, owned⟩
  unfold pin Task.Ends at leads ⊢
  rw [Task.bind_ok (Task.get_run ledger)] at leads ⊢
  cases handle : ledger.handle id with
  | error interrupt => rfl
  | ok address =>
    rw [handle] at leads
    refine ⟨⟨leads.weaken (fun _ => False.elim) fun _ _ => trivial, ?_, ?_⟩, guard?_onGuard_self found _⟩
    · exact sound.steady.onGuard id _ (fun _ => .inl rfl) fun apart => absurd rfl apart
    · exact fun lifespan other enrolls => enrolls.onGuard id _ (fun _ flag => flag) fun _ flag => flag

theorem Sound.newLifespan (sound : Sound thread [] ledger) (address : Address) (kind : LifespanKind) :
    Proceeds thread allowed may ledger (ledger.addLifespan address kind).2 := by
  refine ⟨sound.addLifespan address kind, ⟨Nat.le_succ _, rfl, sound.alone, fun _ held _ there =>
    ⟨held, there, rfl, Nat.le_refl _⟩⟩, fun lifespan id enrolls => enrolls.imp (fun released => released) ?_⟩
  rintro ⟨scope, found, among⟩
  refine ⟨scope, ?_, among⟩
  exact (Numbered.get?_add ledger.lifespans ledger.next lifespan _).trans
    (by rw [show ledger.lifespans.get? lifespan = some scope from found]; rfl)

/-! ## Construction -/

/-- A guard learns of the lifespan in whose table it is. -/
theorem Steady.link {table : Ledger} {lifespan : LifespanId} (steady : Steady (fun _ => False) ledger table)
    (enrolls : ∀ lifespan id, ledger.Enrolls lifespan id → table.Enrolls lifespan id) (own : table.Enrolls lifespan id) :
    let after := table.onGuard id fun held => { held with link := some lifespan }
    Steady (fun _ => False) ledger after ∧
      (∀ lifespan id, ledger.Enrolls lifespan id → after.Enrolls lifespan id) ∧ after.Enrolls lifespan id := by
  have keeps {scope : LifespanId} {other : GuardId} (enrolls : table.Enrolls scope other) :
      (table.onGuard id fun held => { held with link := some lifespan }).Enrolls scope other :=
    enrolls.onGuard id _ (fun _ flag => flag) fun _ flag => flag
  exact ⟨steady.onGuard id _ (fun _ => .inl rfl) fun _ _ => ⟨rfl, Nat.le_refl _⟩,
    fun scope other its => keeps (enrolls scope other its), keeps own⟩

/-- A guard is entered in the table of a lifespan, and counted; every other guard stays where it was. -/
theorem enrolls_enter {lifespan : LifespanId} {scope : Lifespan} (there : ledger.lifespan? lifespan = some scope) :
    let after := Ledger.count (ledger.onLifespan lifespan fun scope => { scope with guards := scope.guards ++ [id] })
      id .guardRegistered 1
    (∀ lifespan id, ledger.Enrolls lifespan id → after.Enrolls lifespan id) ∧ after.Enrolls lifespan id := by
  intro after
  have same := same_count (ledger.onLifespan lifespan fun scope => { scope with guards := scope.guards ++ [id] })
    id .guardRegistered 1
  have guards : after.guard? = ledger.guard? := by
    funext other
    rw [guard?, same.guards]
    rfl
  have tables (other : LifespanId) := congrArg (Numbered.get? · other) same.lifespans
  constructor
  · intro other guard its
    unfold Enrolls Released Claimed Closing at its ⊢
    rw [guards]
    refine its.imp_right ?_
    rintro ⟨scope, found, among⟩
    rw [lifespan?, tables other, ← lifespan?, lifespan?_onLifespan, found]
    split
    · exact ⟨_, rfl, List.mem_append_left _ among⟩
    · exact ⟨scope, rfl, among⟩
  · refine .inr ⟨{ scope with guards := scope.guards ++ [id] }, ?_,
      List.mem_append_right scope.guards (List.mem_singleton.mpr rfl)⟩
    rw [lifespan?, tables lifespan, ← lifespan?, lifespan?_onLifespan, if_pos rfl, there]
    rfl

/-- A guard that is registered is in the table, and the guards that were enrolled still are. -/
theorem register_enrolls {held : Guard} (sound : Sound thread [] ledger) (found : ledger.guard? id = some held)
    (lifespan : LifespanId) :
    (register id lifespan).Ends ledger fun outcome after => outcome = .ok () →
      Steady (fun _ => False) ledger after ∧ (∀ lifespan id, ledger.Enrolls lifespan id → after.Enrolls lifespan id) ∧
        after.Enrolls lifespan id := by
  refine .next (Task.get_run ledger) ?_
  rw [found]
  cases there : ledger.lifespan? lifespan with
  | none => exact fun broken => by cases broken
  | some scope =>
    dsimp only
    split
    · exact fun broken => by cases broken
    · split
      · exact fun broken => by cases broken
      · intro _
        split
        · next among => exact sound.steady.link (fun _ _ its => its) (.inr ⟨scope, there, among⟩)
        · have same := same_count (ledger.onLifespan lifespan fun scope => { scope with guards := scope.guards ++ [id] })
            id .guardRegistered 1
          obtain ⟨enrolls, own⟩ := @enrolls_enter _ id _ _ there
          exact (sound.steady.congr same.guards same.next).link enrolls own

/-- A guard that is registered enters the table; one that is refused changes nothing. -/
theorem register_proceeds {held : Guard} (sound : Sound thread [] ledger) (found : ledger.guard? id = some held)
    (owned : held.owned = true) (lifespan : LifespanId) :
    (register id lifespan).Ends ledger fun outcome after =>
      match outcome with
      | .error _ => after = ledger
      | .ok _ => Proceeds thread (fun _ => False) (fun _ => False) ledger after ∧ after.Enrolls lifespan id := by
  have leads : (register id lifespan).Ends ledger fun outcome after =>
      Leads thread (fun _ => False) (fun _ => False) [] [] ledger after ∧ (outcome ≠ .ok () → after = ledger) :=
    register_sound sound found owned lifespan
  refine (leads.both (register_enrolls sound found lifespan)).weaken ?_
  rintro outcome after ⟨⟨leads, refused⟩, entered⟩
  cases outcome with
  | error interrupt => exact refused (by rintro ⟨⟩)
  | ok value =>
    obtain ⟨steady, enrolls, own⟩ := entered rfl
    exact ⟨⟨leads.weaken (fun _ its => its) fun _ _ => trivial, steady, enrolls⟩, own⟩

/-- One guard is built and registered to a lifespan: it enters the table, or is withdrawn. -/
structure Builds (thread : ThreadId) (plan : Guard) (lifespan : LifespanId) (before after : Ledger) : Prop
    extends Leads thread (· = .unreachable) (fun _ => False) [] [] before after where
  steady : Steady (· = before.next) (before.addGuard plan).2 after
  enrolls : ∀ lifespan id, before.Enrolls lifespan id → after.Enrolls lifespan id
  own : after.Enrolls lifespan before.next

theorem build_proceeds {plan : Guard} (sound : Sound thread [] ledger) (planned : plan.Planned)
    (earlier : ∀ queue ∈ plan.queue, queue < ledger.next) (lifespan : LifespanId) :
    (build plan (some lifespan)).Ends ledger fun outcome after => Builds thread plan lifespan ledger after ∧
      ∀ id, outcome = .ok id → id = ledger.next ∧ ∃ held, after.guard? id = some held ∧ held.owned = true ∧
        held.holders = [] ∧ held.queue = plan.queue := by
  have leads := build_leads sound planned earlier (some lifespan)
  have added : Leads thread (fun _ => False) (fun _ => False) [] [] ledger _ := sound.addGuard planned earlier
  obtain ⟨flags, unpinned, -, -, owned, quiet⟩ := planned
  have gains := gains_addGuard sound plan
  have enrolls (scope : LifespanId) (id : GuardId) (before : ledger.Enrolls scope id) :
      (ledger.addGuard plan).2.Enrolls scope id :=
    before.imp_left fun released => released.imp added.onward.claimed added.onward.closing
  have tables : (build plan (some lifespan)).Ends ledger fun outcome after =>
      Steady (· = ledger.next) (ledger.addGuard plan).2 after ∧
        (∀ scope id, ledger.Enrolls scope id → after.Enrolls scope id) ∧
        ∀ id, outcome = .ok id → after.Enrolls lifespan ledger.next ∧
          Steady (fun _ => False) (ledger.addGuard plan).2 after := by
    refine .next (Task.lift_run _ ledger) ?_
    refine (register_proceeds added.sound gains.found owned lifespan).attempt.bind ?_ (by rintro _ _ ⟨_, ⟨⟩, _⟩)
    rintro outcome after ⟨_, ⟨⟩, registered⟩
    -- A refused guard is withdrawn and dropped, which touches no guard but the new one.
    cases outcome with
    | ok value =>
      obtain ⟨proceeds, own⟩ := registered
      exact ⟨proceeds.steady.weaken fun _ => False.elim,
        fun scope id before => proceeds.enrolls scope id (enrolls scope id before), fun _ _ => ⟨own, proceeds.steady⟩⟩
    | error interrupt =>
      obtain rfl := registered
      refine .next (withdraw_run gains.found quiet) ?_
      have carried := (steady_carried (· = ledger.next) (ledger.addGuard plan).2).toCarried.both
        (enrolls_carried (ledger.addGuard plan).2)
      have withdrawn := carried.disarm _ ledger.next (carried.guard _ ledger.next (fun held =>
        { held with flags := { held.flags with releasing := true, released := true } })
        (fun held => ⟨rfl, rfl, rfl, rfl, Nat.le_refl _, fun _ => rfl, fun flag => flag⟩)
        ⟨added.sound.steady, fun _ _ its => its⟩)
      refine ((carried.dropOwner rfl) _ withdrawn).bind (fun _ last kept => ?_) fun _ last kept => ?_
      · exact ⟨kept.1, fun scope id before => kept.2 scope id (enrolls scope id before), by rintro _ ⟨⟩⟩
      · exact ⟨kept.1, fun scope id before => kept.2 scope id (enrolls scope id before), by rintro _ ⟨⟩⟩
  refine (leads.both tables).weaken ?_
  rintro outcome after ⟨⟨leads, ended⟩, steady, enrolls, entered⟩
  cases outcome with
  | error interrupt => exact ⟨⟨leads, steady, enrolls, .inl (.inl ended.1)⟩, by rintro _ ⟨⟩⟩
  | ok id =>
    obtain ⟨rfl, -, held, found, queue⟩ := ended
    obtain ⟨own, spares⟩ := entered _ rfl
    refine ⟨⟨leads, steady, enrolls, own⟩, ?_⟩
    rintro _ ⟨⟩
    obtain ⟨held', found', owned', pins⟩ := spares.spared _ plan not_false gains.found
    rw [found] at found'
    cases found'
    rw [unpinned] at pins
    exact ⟨rfl, held, found, owned'.trans owned, List.eq_nil_of_length_eq_zero (Nat.le_zero.mp pins), queue⟩

/-! ## Teardowns -/

/-- A teardown of a lifespan comes to the guards in its table, so that it has none left that
    was not released. -/
theorem teardown_proceeds (sound : Sound thread [] ledger) (lifespan : LifespanId) (close : Bool) :
    (teardown thread lifespan close).Ends ledger fun outcome after => (∃ count, outcome = .ok count) ∧
      Proceeds thread (· = .lifespanEnded) (fun _ => False) ledger after ∧
        ∀ id, after.Enrolls lifespan id → after.Released id := by
  obtain ⟨count, after, ran, torn⟩ := teardown_sound lifespan close sound
  have steady : (teardown thread lifespan close).Ends ledger fun _ after => Steady (fun _ => False) ledger after :=
    (steady_carried (fun _ => False) ledger).teardown thread trivial ledger sound.steady
  rw [Task.Ends.of_ok ran] at steady ⊢
  refine ⟨⟨count, rfl⟩, ⟨torn.leads.weaken (fun _ its => its) fun _ _ => trivial, steady, fun other id enrolls => ?_⟩,
    fun id enrolls => ?_⟩
  · obtain before | ⟨scope, found, among⟩ := enrolls
    · exact .inl (before.imp torn.leads.onward.claimed torn.leads.onward.closing)
    · obtain ⟨scope', found'⟩ := lifespan?_of_ids torn.cleared.ids found
      obtain same | ⟨-, -, reached⟩ := torn.cleared.tables other scope' found'
      · cases found.symm.trans same
        exact .inr ⟨scope, found', among⟩
      · exact .inl (.inr (reached id (.here found among)))
  · obtain released | ⟨scope, found, among⟩ := enrolls
    · exact released
    · obtain same | ⟨empty, -⟩ := torn.cleared.tables lifespan scope found
      · exact .inr (torn.closing id (.here same among))
      · rw [empty] at among
        cases among

end CatalogReplica.Lifetime.Ledger
