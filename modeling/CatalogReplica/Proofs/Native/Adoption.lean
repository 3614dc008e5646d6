import CatalogReplica.Proofs.Lifetime.Lossless
import CatalogReplica.Proofs.Native.References
import CatalogReplica.Proofs.Native.Scopes

/-!
# Native descriptors are taken over

A native descriptor is built for the scope that is current, whose lifespan the session
keeps.  While its columns are read it is pinned, and nothing owns it yet.

* `World.currentLifespan_tracked`: the session has the lifespan of the current scope.
* `World.adopt_tracked`: a native descriptor is taken over.
* `World.Watched`, `World.watched_carried`: no guard is lost meanwhile.
* `World.read_watched`: reads keep guards where their scopes find them, and lose none.
-/

namespace CatalogReplica.Catalog.World

open Lifetime (Guard GuardId Ledger LifespanId ReleaseCause ThreadId)
open Identity (Cache CacheView)

variable {allowed : ReleaseCause → Prop} {base world after : World} {got : List ThingId}

/-! ## Lifespans of the session -/

/-- The session has other lifespans, and those that it had. -/
theorem Tracked.relist (tracked : Tracked allowed base got world) {session : Session} (its : world.session = some session)
    (notes : List (Identity.Note Address)) {cache : Cache Address LifespanId} (unique : cache.Unique)
    (keeps : ∀ entry ∈ session.lifespans.table, entry ∈ cache.table) :
    Tracked allowed base got (lifespanView.store notes cache world) := by
  have now : (lifespanView.store notes cache world).session = some { session with lifespans := cache } := by
    simp [CacheView.store, lifespanView, note, its]
  refine tracked.move (fun _ => rfl) rfl rfl ⟨rfl, rfl, rfl, rfl, rfl⟩ rfl rfl (by rw [now, its]; rfl) rfl ?_ ?_
  · rintro _ there
    rw [now] at there
    cases there
    exact unique
  · rintro address guard (released | ⟨other, lifespan, there, among, enrolls⟩)
    · exact .inl released
    · rw [its] at there
      cases there
      exact .inr ⟨_, lifespan, now, keeps _ among, enrolls⟩

theorem Tracked.inSession (tracked : Tracked allowed base got world) (session : base.session.isSome = true) :
    ∃ session, world.session = some session := by
  have same := congrArg Option.isSome tracked.mutator
  rw [Option.isSome_map, Option.isSome_map] at same
  exact Option.isSome_iff_exists.mp (same.trans session)

/-- The session looks for the lifespan of a scope, which leads to the guards of the scope. -/
theorem Tracked.find (tracked : Tracked allowed base got world) (inSession : base.session.isSome = true)
    (address : Address) : Tracked allowed base got (lifespanView.get? address world).2 ∧
      ∀ guard, world.Enrolled address guard → world.ledger.Released guard ∨ ∃ lifespan,
        (lifespanView.get? address world).1 = some lifespan ∧ world.ledger.Enrolls lifespan guard := by
  obtain ⟨session, its⟩ := tracked.inSession inSession
  have unique := tracked.unique session its
  unfold CacheView.get?
  rw [get_lifespanView its]
  obtain ⟨lifespan, among, -, run⟩ | ⟨dead, notes, cache, run, trimmed, -⟩ :=
    session.lifespans.get?_cases (lifespanView.alive world) address
  · rw [run]
    refine ⟨tracked.relist its [.hit] unique fun _ among => among, fun guard => ?_⟩
    rintro (released | ⟨_, lifespan', there, among', enrolls⟩)
    · exact .inl released
    · cases its.symm.trans there
      obtain rfl := unique.eq among among'
      exact .inr ⟨lifespan, rfl, enrolls⟩
  · rw [run]
    refine ⟨tracked.relist its notes ((trimmed unique).unique unique) fun entry among =>
      (trimmed unique).live entry among rfl, fun guard => ?_⟩
    rintro (released | ⟨_, lifespan', there, among', -⟩)
    · exact .inl released
    · cases its.symm.trans there
      cases dead unique lifespan' among'

/-- The session has the lifespan of the current scope. -/
theorem currentLifespan_tracked (tracked : Tracked allowed base got world) (inSession : base.session.isSome = true) :
    currentLifespan.Ends world fun outcome after => Tracked allowed base got after ∧
      ∀ lifespan, outcome = .ok lifespan → ∃ session, after.session = some session ∧
        (after.provider.scope.1, lifespan) ∈ session.lifespans.table := by
  obtain ⟨session, its⟩ := tracked.inSession inSession
  have unique := tracked.unique session its
  have get := get_lifespanView its
  have now (notes : List (Identity.Note Address)) {last : World} {session : Session} (its : last.session = some session)
      (cache : Cache Address LifespanId) :
      (lifespanView.store notes cache last).session = some { session with lifespans := cache } := by
    simp [CacheView.store, lifespanView, note, its]
  refine .next (Task.get_run world) ?_
  rcases here : world.provider.scope with ⟨address, kind⟩
  -- a lifespan is constructed only where the session has none
  let mid (_ : Except Interrupt LifespanId) (last : World) : Prop :=
    Tracked allowed base got last ∧ last.provider.scope = (address, kind) ∧
      ∃ session, last.session = some session ∧ ∀ entry ∈ session.lifespans.table, entry.1 ≠ address
  have built (notes : List (Identity.Note Address)) (cache : Cache Address LifespanId)
      (table : cache.table = ((lifespanView.get world).erase address).table)
      (trimmed : (lifespanView.get world).Unique → Cache.Trimmed (lifespanView.alive world) (lifespanView.get world) cache) :
      (World.onLedger <| Task.lift fun ledger => ledger.addLifespan address kind).Ends
        (lifespanView.store notes cache world) mid := by
    rw [get] at trimmed table
    have listed := tracked.relist its notes ((trimmed unique).unique unique) fun entry among =>
      (trimmed unique).live entry among rfl
    have added : Ledger.Proceeds mutatorThread allowed (fun _ => False) (lifespanView.store notes cache world).ledger _ :=
      listed.sound.newLifespan address kind
    refine ⟨listed.setLedger added fun _ _ _ => not_false, ?_, _, now notes its cache, fun entry among => ?_⟩
    · exact (scope_notice _ _).trans here
    · rw [table] at among
      exact (Cache.mem_erase.mp among).2
  refine CacheView.lookup_ends (fun lifespan among _ => ?_) (fun interrupt notes cache _ trimmed => ?_)
    (fun notes cache _ table trimmed _ => built notes cache table trimmed) ?_ ?_
  · rw [get] at among ⊢
    refine ⟨tracked.relist its [.hit] unique fun _ among => among, ?_⟩
    rintro _ ⟨⟩
    refine ⟨_, now [.hit] its session.lifespans, ?_⟩
    change (world.provider.scope.1, lifespan) ∈ _
    rw [here]
    exact among
  · rw [get] at trimmed
    exact ⟨tracked.relist its notes ((trimmed unique).unique unique) fun entry among =>
      (trimmed unique).live entry among rfl, by rintro _ ⟨⟩⟩
  · rintro lifespan last ⟨kept, scope, session', its', absent⟩
    have settled := session'.lifespans.settle_spec (lifespanView.alive last) address lifespan
    unfold CacheView.settle
    rw [get_lifespanView its']
    generalize session'.lifespans.settle (lifespanView.alive last) address lifespan = result at settled
    refine ⟨kept.relist its' result.2.1 (settled.unique (kept.unique session' its')) fun entry among =>
      settled.live entry among (absent entry among) rfl, ?_⟩
    rintro _ ⟨⟩
    refine ⟨_, now result.2.1 its' result.2.2, ?_⟩
    change (last.provider.scope.1, lifespan) ∈ _
    rw [scope]
    exact settled.own rfl
  · rintro interrupt last ⟨kept, -, session', its', -⟩
    refine ⟨?_, by rintro _ ⟨⟩⟩
    unfold CacheView.abandon
    rw [get_lifespanView its']
    have listed : Tracked allowed base got (lifespanView.store [] (session'.lifespans.abandon address) last) :=
      kept.relist its' [] (kept.unique session' its') fun _ among => among
    exact listed.congr (fun _ => rfl) rfl rfl ⟨rfl, rfl, rfl, rfl, rfl⟩ rfl rfl rfl rfl

/-- What lifespans have nothing to do with is kept when the lifespan of the current scope is
    looked for. -/
theorem currentLifespan_keeps {holds : World → Prop}
    (store : ∀ {world} notes cache, holds world → holds (lifespanView.store notes cache world))
    (made : ∀ {world} address kind, holds world → holds (setLedger (world.ledger.addLifespan address kind).2 world)) :
    currentLifespan.Keeps holds := by
  intro world before
  refine .next (Task.get_run world) ?_
  rcases world.provider.scope with ⟨address, kind⟩
  have asked : holds (lifespanView.ask mutatorThread address world).2 := store _ _ before
  change (lifespanView.lookup mutatorThread address _).Ends world _
  unfold Task.Ends CacheView.lookup
  cases run : lifespanView.ask mutatorThread address world with | mk asks after =>
  rw [run] at asked
  cases asks with
  | build => exact store _ _ (made address kind asked)
  | _ => exact asked

/-! ## Guards that are not lost -/

/-- The catalog holds the queue to which all guards leave their releases, and no guard is lost. -/
abbrev Lossless (world : World) : Prop := world.ledger.Lossless world.queue

/-- Since an earlier state nothing that someone owns was released, and no guard was lost. -/
structure Mild (before after : World) : Prop where
  calm : before.ledger.Calm after.ledger
  lossless : before.Lossless → after.Lossless

namespace Mild

theorem refl (world : World) : Mild world world := ⟨.refl _, fun lossless => lossless⟩

theorem trans {last : World} (first : Mild world after) (second : Mild after last) : Mild world last :=
  ⟨first.calm.trans second.calm, fun lossless => second.lossless (first.lossless lossless)⟩

/-- Neither guards nor queues changed. -/
theorem congr (mild : Mild base world) (guards : after.ledger.guards = world.ledger.guards)
    (queues : after.ledger.queues = world.ledger.queues) (queue : after.queue = world.queue) : Mild base after := by
  refine mild.trans ⟨.of_guards guards, fun lossless => ?_⟩
  rw [Lossless, queue]
  exact lossless.congr queues guards

end Mild

/-! ## A guard that no thing owns yet -/

/-- The guard has an owner that is no thing yet, and these pins. -/
structure Loose (guard : GuardId) (pins : List ThreadId) (world : World) : Prop where
  there : ∃ held, world.ledger.guard? guard = some held ∧ held.owned = true ∧ held.holders = pins ∧
    held.queue.isSome = true
  apart : ∀ id, world.guardOf id ≠ some guard

/-- What is tracked while nothing is given and any causes are allowed. -/
abbrev Followed (base : World) (got : List ThingId) (world : World) : Prop := Tracked (fun _ => True) base got world

/-- What is followed while no guard is lost. -/
structure Watched (base : World) (got : List ThingId) (world : World) : Prop where
  followed : Followed base got world
  lossless : base.Lossless → world.Lossless

theorem Watched.congr {got' : List ThingId} (watched : Watched base got world) (followed : Followed base got' after)
    (guards : after.ledger.guards = world.ledger.guards) (queues : after.ledger.queues = world.ledger.queues)
    (queue : after.queue = world.queue) : Watched base got' after := by
  refine ⟨followed, fun before => ?_⟩
  rw [Lossless, queue]
  exact (watched.lossless before).congr queues guards

theorem followed_of_watched {α : Type} {refs : α → List ThingId} {outcome : Except Interrupt α}
    (watched : After (Watched base) refs got outcome world) : After (Followed base) refs got outcome world := by
  cases outcome <;> exact watched.followed

/-- When a thing goes its guard is left to the queue, and nothing else happens to guards. -/
theorem Lossless.gone {id : ThingId} {thing : Thing} (lossless : world.Lossless) (followed : Followed base got world)
    (found : world.thing? id = some thing) (unreferenced : world.referenced id = false) :
    let after := dropGuard thing { world with heap := world.heap.erase id }
    after.Lossless ∧ (∀ guard, after.ledger.guard? guard = if world.guardOf id = some guard then
      (world.ledger.guard? guard).map Lifetime.Guard.orphaned else world.ledger.guard? guard) ∧
      after.ledger.lifespans = world.ledger.lifespans ∧ after.ledger.log = world.ledger.log := by
  have own : world.guardOf id = thing.guard? := by rw [guardOf, found, Option.bind_some]
  rw [own]
  unfold dropGuard
  cases its : thing.guard? with
  | none => exact ⟨lossless, fun guard => by rw [if_neg (by simp)], rfl, rfl⟩
  | some guard =>
    obtain ⟨-, held, there, owned, -⟩ := followed.owners id guard (own.trans its)
    obtain ⟨ledger, run, waits, guards, lifespans, log⟩ :=
      lossless.dropOwner_run followed.sound there owned (followed.unpinned (own.trans its) there unreferenced)
    have dropped : (onLedger (Ledger.dropOwner guard)).Ends { world with heap := world.heap.erase id } fun _ after =>
        after.ledger = ledger ∧ after.queue = world.queue := onLedger_ends_as ((Task.Ends.of_ok run).mpr ⟨rfl, rfl⟩)
    obtain ⟨isLedger, queue⟩ := dropped.exec
    refine ⟨?_, fun other => ?_, by rw [isLedger, lifespans], by rw [isLedger, log]⟩
    · rw [World.Lossless, queue, isLedger]
      exact waits
    · rw [isLedger, guards]
      by_cases same : other = guard
      · rw [if_pos same, if_pos (by rw [same]), same, there, Option.map_some]
      · rw [if_neg same, if_neg (by simpa using Ne.symm same)]

theorem watched_carried (base : World) : Carried (Watched base) := by
  have carried := tracked_carried (fun _ => True) base
  exact {
    perm := fun same watched => watched.congr (carried.perm same watched.followed) rfl rfl rfl
    less := fun watched => watched.congr (carried.less watched.followed) rfl rfl rfl
    aside := fun aside watched => by
      have same {β : Type} (part : World → β) := congrArg part aside.native
      exact watched.congr (carried.aside aside watched.followed) (same (·.ledger.guards) :) (same (·.ledger.queues) :)
        (same (·.queue) :)
    hold := fun id watched => watched.congr (carried.hold id watched.followed) rfl rfl rfl
    unhold := fun watched => watched.congr (carried.unhold watched.followed) rfl rfl rfl
    add := fun unguarded watched => watched.congr (carried.add unguarded watched.followed) rfl rfl rfl
    gone := fun found unreferenced watched => ⟨carried.gone found unreferenced watched.followed, fun before =>
      ((watched.lossless before).gone watched.followed found unreferenced).1⟩ }

variable {guard : GuardId} {lifespan : LifespanId} {address : Address}

theorem nativePlan_planned (address : Address) (queue : Lifetime.QueueId) : (nativePlan address queue).Planned :=
  ⟨rfl, rfl, rfl, rfl, rfl, by rintro _ ⟨⟩; exact ⟨rfl, rfl⟩⟩

/-- A guard is built for the current scope, and was not released yet. -/
theorem build_tracked (followed : Followed base got world)
    (current : ∃ session, world.session = some session ∧
      (world.provider.scope.1, lifespan) ∈ session.lifespans.table) :
    (onLedger (Ledger.build (nativePlan address world.queue) (some lifespan))).Ends world fun outcome after =>
      Followed base got after ∧ Mild world after ∧
        ∀ guard, outcome = .ok guard → Loose guard [] after ∧ ¬ after.ledger.Released guard := by
  have planned := nativePlan_planned address world.queue
  have earlier : ∀ queue ∈ (nativePlan address world.queue).queue, queue < world.ledger.next := by
    rintro _ ⟨⟩
    exact followed.queue
  have builds := ((Ledger.build_proceeds followed.sound planned earlier lifespan).both
    (Ledger.build_calm followed.sound planned earlier rfl lifespan)).both
    (.given fun lossless : world.Lossless =>
      Ledger.build_lossless lossless followed.sound planned rfl rfl followed.queue lifespan)
  refine onLedger_ends_as (builds.weaken fun outcome ledger ended => ?_)
  obtain ⟨⟨⟨built, given⟩, calm⟩, lossless⟩ := ended
  have gains := Ledger.gains_addGuard followed.sound (nativePlan address world.queue)
  -- The guard built has a number of its own, so no thing has it and none before it is affected.
  have old (guard : GuardId) (held : Guard) (found : world.ledger.guard? guard = some held) :
      guard ≠ world.ledger.next := by
    rintro rfl
    rw [followed.sound.guard?_next] at found
    cases found
  refine ⟨followed.advance (built.toLeads.weaken (fun _ _ => trivial) fun _ _ => trivial)
    (Nat.le_trans (Nat.le_succ _) built.steady.next) (fun id guard held _ found => ?_) (fun _ _ => Nat.le_refl _)
    built.enrolls fun guard there => ?_, ⟨calm, lossless⟩, fun guard isGiven => ?_⟩
  · obtain ⟨held', found', owned, pins⟩ := built.steady.spared guard held (old guard held found)
      ((gains.others guard (old guard held found)).trans found)
    exact ⟨held', found', owned, Nat.add_le_add_right pins _⟩
  · by_cases new : guard = world.ledger.next
    · subst new
      obtain ⟨session, its, among⟩ := current
      exact .inr (.inr ⟨session, lifespan, its, among, built.own⟩)
    · have among : guard ∈ ledger.guards.ids := Numbered.isSome_get?.mp there
      rw [built.steady.guards] at among
      have known : ((world.ledger.addGuard (nativePlan address world.queue)).2.guard? guard).isSome = true :=
        Numbered.isSome_get?.mpr among
      rw [gains.others guard new] at known
      exact .inl known
  · obtain ⟨rfl, held, found, owned, unpinned, queue⟩ := given guard isGiven
    refine ⟨⟨⟨held, found, owned, unpinned, by rw [queue]; rfl⟩, fun id its => ?_⟩, ?_⟩
    · obtain ⟨-, held', found', -⟩ := followed.owners id _ its
      exact old _ held' found' rfl
    · refine calm.usable found owned fun released => ?_
      obtain ⟨held', found', -⟩ := Ledger.released_iff.mp released
      exact old _ held' found' rfl

/-- The guard is pinned, unless it was released. -/
theorem pin_loose (followed : Followed base got world) (loose : Loose guard [] world) :
    (onLedger (Ledger.pin mutatorThread guard)).Ends world fun outcome after =>
      Followed base got after ∧ Mild world after ∧
        match outcome with
        | .ok _ => Loose guard [mutatorThread] after ∧ ¬ after.ledger.Released guard
        | .error _ => Loose guard [] after := by
  obtain ⟨held, found, owned, unpinned, queued⟩ := loose.there
  refine onLedger_ends_as ((((Ledger.pin_proceeds followed.sound found owned).both
    (Ledger.pin_calm mutatorThread guard world.ledger)).both (.given fun lossless : world.Lossless =>
      lossless.pin mutatorThread guard)).weaken fun outcome ledger ended => ?_)
  obtain ⟨⟨ended, calm, usable⟩, lossless⟩ := ended
  cases outcome with
  | error interrupt =>
    obtain rfl := ended
    have nothing : Ledger.Proceeds mutatorThread (fun _ => True) (fun _ => False) world.ledger world.ledger :=
      .refl followed.sound
    have same : Followed base got (World.setLedger world.ledger world) := followed.setLedger nothing fun _ _ _ => not_false
    exact ⟨same, ⟨calm, lossless⟩, ⟨held, found, owned, unpinned, queued⟩, loose.apart⟩
  | ok address =>
    obtain ⟨proceeds, found'⟩ := ended
    refine ⟨followed.setLedger (proceeds.weaken fun _ => False.elim) fun id other its same => ?_, ⟨calm, lossless⟩,
      ⟨⟨_, found', owned, by rw [unpinned]; rfl, queued⟩, loose.apart⟩, usable address rfl⟩
    exact loose.apart id (same ▸ its)

/-- The pin ends. -/
theorem unpin_loose (followed : Followed base got world) (loose : Loose guard [mutatorThread] world) :
    (onLedger (Ledger.unpin mutatorThread guard)).Ends world fun _ after =>
      Followed base got after ∧ Mild world after ∧ Loose guard [] after := by
  obtain ⟨held, found, owned, pins, queued⟩ := loose.there
  have pinned : mutatorThread ∈ held.holders := by
    rw [pins]
    exact List.mem_cons_self
  have proceeds := Ledger.unpin_proceeds followed.sound found pinned
  have ends := (proceeds.both (Ledger.unpin_calm followed.sound found pinned)).both
    (.given fun lossless : world.Lossless => lossless.unpin followed.sound found pinned)
  refine onLedger_ends_as (ends.weaken fun _ ledger ended => ?_)
  obtain ⟨⟨⟨proceeds, fewer⟩, calm⟩, lossless⟩ := ended
  obtain ⟨held', found', owned', -⟩ := proceeds.steady.spared guard held not_false found
  obtain ⟨held'', found'', queue, -⟩ := proceeds.onward.kept guard held found
  cases found'.symm.trans found''
  have unpinned := fewer held' found'
  rw [pins] at unpinned
  exact ⟨followed.setLedger (proceeds.weaken fun _ _ => trivial) fun _ _ _ => not_false, ⟨calm, lossless⟩,
    ⟨held', found', owned'.trans owned, List.eq_nil_of_length_eq_zero (Nat.lt_one_iff.mp unpinned), queue ▸ queued⟩, loose.apart⟩

/-- A native descriptor is taken over, and its guard is for the thing to own.  If it is, no
    teardown released it meanwhile. -/
theorem adopt_tracked (followed : Followed base got world) (inSession : base.session.isSome = true) (address : Address) :
    (adopt address).Ends world fun outcome after => Followed base got after ∧ Mild world after ∧
      ∀ thing, outcome = .ok thing → ∃ guard, thing.guard? = some guard ∧ Loose guard [] after ∧
        ¬ after.ledger.Released guard := by
  have unguarded : currentLifespan.Keeps (Mild world) :=
    currentLifespan_keeps (fun _ _ mild => mild.congr rfl rfl rfl) fun _ _ mild => mild.congr rfl rfl rfl
  refine ((currentLifespan_tracked followed inSession).both (unguarded world (.refl _))).bind ?_ fun _ _ ended =>
    ⟨ended.1.1, ended.2, nofun⟩
  rintro lifespan mid ⟨⟨followed, current⟩, mild⟩
  refine .next (Task.get_run mid) ((build_tracked followed (current lifespan rfl)).bind ?_ fun _ _ ended =>
    ⟨ended.1, mild.trans ended.2.1, nofun⟩)
  rintro guard built ⟨followed, mild', given⟩
  have loose := (given guard rfl).1
  have mild := mild.trans mild'
  -- the columns are read under a pin, which ends whether they can be read or not
  have reads : (do
      discard (onLedger (Ledger.pin mutatorThread guard))
      Task.ensuring (readNative address) (Task.exec (onLedger (Ledger.unpin mutatorThread guard)))
      : Task World (Oid × Int32 × List Oid)).Ends built fun outcome after => Followed base got after ∧
        Mild world after ∧ Loose guard [] after ∧
          ∀ contents, outcome = .ok contents → ¬ after.ledger.Released guard := by
    have pins : (discard (onLedger (Ledger.pin mutatorThread guard)) : Task World PUnit).Ends built fun outcome after =>
        Followed base got after ∧ Mild built after ∧ match outcome with
          | .ok _ => Loose guard [mutatorThread] after ∧ ¬ after.ledger.Released guard
          | .error _ => Loose guard [] after := by
      have pins := pin_loose followed loose
      unfold Task.Ends at pins ⊢
      rw [Task.discard_run]
      cases ran : onLedger (Ledger.pin mutatorThread guard) built <;> rw [ran] at pins <;> exact pins
    refine pins.bind (fun _ pinned ended => ?_) fun _ _ ended => ⟨ended.1, mild.trans ended.2.1, ended.2.2, nofun⟩
    obtain ⟨followed, mild', loose, usable⟩ := ended
    have same : (readNative address).Keeps fun after => after = pinned := keeps_readNative address
    refine .ensuring ((same pinned rfl).weaken fun _ after same => ?_)
    subst same
    obtain ⟨followed, mild'', loose⟩ := (unpin_loose followed loose).exec
    obtain ⟨held, found, owned, -⟩ := loose.there
    exact ⟨followed, (mild.trans mild').trans mild'', loose, fun _ _ => mild''.calm.usable found owned usable⟩
  refine reads.attempt.bind ?_ fun _ _ ⟨_, broken, _⟩ => by cases broken
  rintro contents read ⟨_, ⟨⟩, followed, mild, loose, usable⟩
  cases contents with
  | ok contents => exact ⟨followed, mild, by rintro _ ⟨⟩; exact ⟨guard, rfl, loose, usable _ rfl⟩⟩
  | error interrupt =>
    obtain ⟨held, found, owned, unpinned, queued⟩ := loose.there
    have drops : (Ledger.dropOwner guard).Ends read.ledger fun _ after => read.Lossless → after.Lossless read.queue := by
      refine .given fun lossless => ?_
      obtain ⟨_, run, waits, -⟩ := lossless.dropOwner_run followed.sound found owned unpinned
      exact (Task.Ends.of_ok run).mpr waits
    have dropped := (followed.onLedger (Ledger.dropOwner_proceeds followed.sound found owned unpinned queued)
      (fun _ => False.elim) fun id other its same => loose.apart id (same ▸ its)).both
        (onLedger_ends_as ((drops.both (Ledger.dropOwner_calm followed.sound found owned unpinned queued)).weaken
          fun _ _ ended => ⟨ended.2, ended.1⟩) :
          (onLedger (Ledger.dropOwner guard)).Ends read fun _ after => Mild read after)
    exact dropped.bind (fun _ _ ended => ⟨ended.1, mild.trans ended.2, nofun⟩) fun _ _ ended =>
      ⟨ended.1, mild.trans ended.2, nofun⟩

/-- A thing is added that owns a guard. -/
theorem Tracked.own {thing : Thing} (followed : Followed base got world) (its : thing.guard? = some guard)
    (loose : Loose guard [] world) : Followed base (world.nextThing :: got) (world.add thing).2 := by
  obtain ⟨held, found, owned, unpinned, queued⟩ := loose.there
  have guards {id : ThingId} {other : GuardId} (its' : (world.add thing).2.guardOf id = some other) :
      world.guardOf id = some other ∨ id = world.nextThing ∧ other = guard := by
    refine (guardOf_add world thing id its').imp_right fun ⟨here, other⟩ => ⟨here, ?_⟩
    exact Option.some.inj (other.symm.trans its)
  refine ⟨followed.sound, followed.queue, fun id other its => ?_, fun one two other first second => ?_, fun id => ?_,
    followed.unique, followed.scope, followed.mutator, followed.numbers, followed.onward, followed.enrolled, followed.built⟩
  · obtain before | ⟨rfl, rfl⟩ := guards its
    · obtain ⟨below, there⟩ := followed.owners id other before
      exact ⟨Nat.lt_succ_of_lt below, there⟩
    · exact ⟨Nat.lt_succ_self _, held, found, owned, queued⟩
  · -- Two things with one guard: the new thing's guard is loose, so no older thing has it.
    obtain before | ⟨rfl, rfl⟩ := guards first <;> obtain before' | ⟨rfl, same⟩ := guards second
    · exact followed.apart one two other before before'
    · exact absurd (same ▸ before) (loose.apart one)
    · exact absurd before' (loose.apart two)
    · rfl
  · have pins : (world.add thing).2.pinsOn id ≤ world.pinsOn id := by
      cases its : (world.add thing).2.guardOf id with
      | none =>
        rw [pinsOn, its]
        exact Nat.zero_le _
      | some other =>
        rw [pinsOn, its]
        change ((world.ledger.guard? other).map _).getD 0 ≤ _
        obtain before | ⟨-, rfl⟩ := guards its
        · rw [pinsOn, before]
          exact Nat.le_refl _
        · rw [found, Option.map_some, Option.getD_some, unpinned]
          exact Nat.zero_le _
    have before := followed.pins id
    change _ ≤ (world.nextThing :: world.held).count id
    rw [List.count_cons, List.count_cons]
    omega

/-! ## Columns of interned record types -/

theorem construct_watched (inSession : base.session.isSome = true) (address : Address) :
    Gives (Watched base) (construct (adopt address)) fun id => [id] := by
  intro got world watched
  have later {after : World} (mild : Mild world after) (before : base.Lossless) : after.Lossless :=
    mild.lossless (watched.lossless before)
  refine (adopt_tracked watched.followed inSession address).bind (fun thing after ended => ?_) fun _ _ ended =>
    ⟨ended.1, later ended.2.1⟩
  obtain ⟨guard, its, loose, -⟩ := ended.2.2 thing rfl
  have lossless : base.Lossless → after.Lossless := later ended.2.1
  exact ⟨ended.1.own its loose, lossless⟩

theorem nativeDescriptor_watched (inSession : base.session.isSome = true) (address : Address) :
    Gives (Watched base) (nativeDescriptor address) fun id => [id] := by
  refine .get_bind fun state => ?_
  have looks : Gives (Watched base) (descriptorView.lookup mutatorThread address (construct (adopt address)))
      fun id => [id] :=
    (watched_carried base).lookupIn (fun _ => rfl) (fun _ => rfl)
      (fun notes cache watched => watched.congr
        (watched.followed.congr (fun _ => rfl) rfl rfl ⟨rfl, rfl, rfl, rfl, rfl⟩ rfl rfl rfl rfl) rfl rfl rfl)
      (fun cache watched => watched.congr
        (watched.followed.congr (fun _ => rfl) rfl rfl ⟨rfl, rfl, rfl, rfl, rfl⟩ rfl rfl rfl rfl) rfl rfl rfl)
      mutatorThread address (construct_watched inSession address)
  intro got world watched
  refine looks.next watched fun id after watched => ?_
  split
  · refine .next (Task.modify_run _ after) ?_
    exact Watched.congr watched
      (watched.followed.congr (fun _ => rfl) rfl rfl ⟨rfl, rfl, rfl, rfl, rfl⟩ rfl rfl rfl rfl) rfl rfl rfl
  · exact watched

theorem scope_lookupRecord (typmod : Int32) (provider : Provider) :
    (Provider.lookupRecord typmod).Ends provider fun _ after => after.scope = provider.scope := by
  refine .next (Task.get_run provider) ?_
  cases provider.serve .record () with
  | error fault => exact rfl
  | ok _ =>
    refine .next rfl ?_
    split
    · exact rfl
    · split <;> exact rfl

theorem recordDescriptor_watched (inSession : base.session.isSome = true) (typmod : Int32) :
    Gives (Watched base) (recordDescriptor typmod) fun computed => computed.value.refs := by
  refine Gives.requireOpen.bind fun _ got world watched => ?_
  have looks : (onProvider (Provider.lookupRecord typmod)).Ends world fun _ after => Watched base got after := by
    refine onProvider_ends ((scope_lookupRecord typmod world.provider).weaken fun _ provider same => ?_)
    exact watched.congr
      (watched.followed.congr (fun _ => rfl) rfl rfl ⟨rfl, rfl, rfl, rfl, rfl⟩ rfl same rfl rfl) rfl rfl rfl
  refine looks.bind (fun found after watched => ?_) fun _ _ watched => watched
  cases found with
  | none => exact watched
  | some address => exact (nativeDescriptor_watched inSession address).next watched fun id last watched => watched

/-! ## Reads -/

theorem read_watched (id : ThingId) (access : Coherence.Access) (accessor : Accessor)
    (inSession : access = .mutator → base.session.isSome = true) (watched : Watched base got world) :
    (accessor.read id access).Ends world (After (Watched base) Reading.refs got) := by
  have carried := watched_carried base
  by_cases record : accessor = .typeDescriptor
  · subst record
    refine (carried.typeDescriptor_ends access (fun _ => watched) (fun _ _ _ => watched) (fun _ => watched)
      fun entity found interned computed => ?_).bind (fun value after watched => watched) fun _ _ watched => watched
    have isMutator : access = .mutator := by
      cases access with
      | mutator => rfl
      | reader => simp [computes, Coherence.SlotSpec.refusal, Catalog.typeDescriptor] at computed
    exact recordDescriptor_watched (inSession isMutator) entity.key.sub got world watched
  · exact carried.read access record got world watched

end CatalogReplica.Catalog.World
