import CatalogReplica.Proofs.Catalog.Upkeep
import CatalogReplica.Proofs.Catalog.Waiting
import CatalogReplica.Proofs.Lifetime.Owning
import CatalogReplica.Proofs.Native.Orphaning

/-!
# What becomes of native descriptors

Every guard in use belongs to a living thing.  A thing that goes leaves its guard to the queue, so that a native
descriptor that nothing refers to has its release queued or done.

* `World.Housed`: every guard in use belongs to a thing.
* `World.Bequeaths`, `World.Custody`: things keep their guards until they go.
* `World.custody_carried`, `World.nativeDescriptor_custody`, `World.read_custody`: lookups and reads.
* `Operation.apply_bequeaths`, `Operation.after_custody`: every operation, and every run.
-/

namespace CatalogReplica.Catalog

open Coherence (Access Computed)
open Identity (CacheView)
open Lifetime (Guard GuardId Ledger)

namespace World

variable {α : Type} {base world after : World} {got got' : List ThingId} {thing : Thing} {mine : GuardId → Prop}

/-- Every guard in use belongs to a thing. -/
def Housed (world : World) : Prop := world.ledger.UsedWithin fun guard => ∃ id, world.guardOf id = some guard

/-- The guard has no owner any more. -/
def Forsaken (world : World) (guard : GuardId) : Prop :=
  ∃ held, world.ledger.guard? guard = some held ∧ held.owned = false

/-- Things keep their guards until they go, and new guards have their actions. -/
structure Bequeaths (before after : World) : Prop where
  housed : before.Housed → after.Housed
  parted : before.Lossless → ∀ id guard, before.guardOf id = some guard →
    after.guardOf id = some guard ∨ after.Forsaken guard
  armed : before.Lossless → ∀ id guard, after.guardOf id = some guard →
    before.guardOf id = some guard ∨ Ledger.Acts [] after.ledger guard

/-- Things have the guards that they had, and no others came into use. -/
theorem Bequeaths.still (guards : ∀ id, after.guardOf id = world.guardOf id)
    (used : world.Housed → after.ledger.UsedWithin fun guard => ∃ id, world.guardOf id = some guard) :
    Bequeaths world after where
  housed housed := (used housed).weaken fun guard its => by simpa only [guards] using its
  parted _ id guard own := .inl ((guards id).trans own)
  armed _ id guard own := .inl ((guards id).symm.trans own)

theorem Bequeaths.of_stays (stays : Stays world after)
    (used : world.Housed → after.ledger.UsedWithin fun guard => ∃ id, world.guardOf id = some guard) :
    Bequeaths world after :=
  .still (fun id => by rw [guardOf, stays.thing?, guardOf]) used

theorem onLedger_used {body : Task Ledger α} (keeps : body.Keeps (Ledger.UsedWithin mine)) :
    (onLedger body).Keeps (·.ledger.UsedWithin mine) := fun _ used => onLedger_ends_as (keeps _ used)

/-- What brings no guard into use. -/
theorem Bequeaths.onLedger {body : Task Ledger α} (keeps : ∀ mine, body.Keeps (Ledger.UsedWithin mine)) :
    (World.onLedger body).Ends world fun _ after => Bequeaths world after :=
  ((Stays.onLedger body world).both (.given fun housed : world.Housed => onLedger_used (keeps _) world housed)).weaken
    fun _ _ ended => .of_stays ended.1 ended.2

theorem Forsaken.onward {allowed : Lifetime.ReleaseCause → Prop} {reach : GuardId → Prop} {guard : GuardId}
    (forsaken : world.Forsaken guard) (onward : Ledger.Onward allowed reach [] [] world.ledger after.ledger) :
    after.Forsaken guard := by
  obtain ⟨held, found, unowned⟩ := forsaken
  obtain ⟨held', found', -, -, -, stays⟩ := onward.kept guard held found
  exact ⟨held', found', stays unowned⟩

/-- What is watched while things keep their guards until they go. -/
structure Custody (base : World) (got : List ThingId) (world : World) : Prop extends
  Watched base got world, Bequeaths base world

namespace Custody

theorem self (custody : Custody base got world) : Watched world got world :=
  ⟨custody.followed.self, fun lossless => lossless⟩

theorem trans (custody : Custody base got world) (later : Custody world got' after) : Custody base got' after where
  followed := custody.followed.trans later.followed
  lossless lossless := later.lossless (custody.lossless lossless)
  housed housed := later.housed (custody.housed housed)
  parted lossless id guard own := by
    obtain still | forsaken := custody.parted lossless id guard own
    · exact later.parted (custody.lossless lossless) id guard still
    · exact .inr (forsaken.onward later.followed.onward)
  armed lossless id guard own := by
    obtain was | acts := later.armed (custody.lossless lossless) id guard own
    · exact (custody.armed lossless id guard was).imp_right (later.followed.onward.acts guard)
    · exact .inr acts

theorem next (custody : Custody base got world) (watched : Watched world got' after)
    (guards : ∀ id, after.guardOf id = world.guardOf id)
    (used : world.Housed → after.ledger.UsedWithin fun guard => ∃ id, world.guardOf id = some guard) :
    Custody base got' after :=
  custody.trans { watched, Bequeaths.still guards used with }

end Custody

/-! ## Things that go -/

theorem dropGuard_used (within : world.ledger.UsedWithin fun guard => mine guard ∨ thing.guard? = some guard) :
    (dropGuard thing world).ledger.UsedWithin mine := by
  unfold dropGuard
  cases its : thing.guard? with
  | none => exact within.weaken fun guard among => among.resolve_right (by simp [its])
  | some guard =>
    have within : world.ledger.UsedWithin fun other => mine other ∨ other = guard :=
      within.weaken fun other => Or.imp_right fun same => Option.some.inj (same.symm.trans its)
    have drops : (onLedger (Ledger.dropOwner guard)).Ends world fun _ after => after.ledger.UsedWithin mine :=
      onLedger_ends_as (Ledger.dropOwner_used within)
    exact drops.exec

/-- A thing goes, and its guard loses its owner. -/
theorem Watched.bequeaths {id : ThingId} (watched : Watched world got world) (found : world.thing? id = some thing)
    (unreferenced : world.referenced id = false) :
    Bequeaths world (dropGuard thing { world with heap := world.heap.erase id }) := by
  refine ⟨fun housed => dropGuard_used (housed.weaken ?_), fun lossless other guard own => ?_, fun _ other guard own => .inl ?_⟩
  · rintro guard ⟨other, own⟩
    by_cases same : other = id
    · right
      rw [← own, same, guardOf, found, Option.bind_some]
    · exact .inl ⟨other, by rw [guardOf_gone, if_neg same, own]⟩
  · by_cases same : other = id
    · subst same
      obtain ⟨-, held, there, -⟩ := watched.followed.owners other guard own
      refine .inr ⟨held.orphaned, ?_, rfl⟩
      rw [(lossless.gone watched.followed found unreferenced).2.1, if_pos own, there, Option.map_some]
    · exact .inl (by rw [guardOf_gone, if_neg same, own])
  · rw [guardOf_gone] at own
    split at own
    · cases own
    · exact own

theorem custody_carried (base : World) : Carried (Custody base) where
  perm same custody := custody.next ((watched_carried _).perm same custody.self) (fun _ => rfl) fun used => used
  less custody := custody.next ((watched_carried _).less custody.self) (fun _ => rfl) fun used => used
  aside aside custody := custody.next ((watched_carried _).aside aside custody.self) aside.guards fun used =>
    used.congr (congrArg (·.ledger.guards) aside.native)
  hold id custody := custody.next ((watched_carried _).hold id custody.self) (fun _ => rfl) fun used => used
  unhold custody := custody.next ((watched_carried _).unhold custody.self) (fun _ => rfl) fun used => used
  add unguarded custody := custody.next ((watched_carried _).add unguarded custody.self)
    (guardOf_add_plain _ unguarded) fun used => used
  gone found unreferenced custody := custody.trans
    { (watched_carried _).gone found unreferenced custody.self, custody.self.bequeaths found unreferenced with }

/-! ## Signals -/

/-- What leaves things alone and brings no guard into use. -/
theorem Custody.stays {body : Task World α} (custody : Custody base got world)
    (watches : body.Ends world (After (Watched world) (fun _ => []) got))
    (stays : body.Ends world fun _ after => Stays world after) (used : ∀ mine, body.Keeps (·.ledger.UsedWithin mine)) :
    body.Ends world (After (Custody base) (fun _ => []) got) := by
  refine ((watches.both stays).both (.given fun housed : world.Housed => used _ world housed)).weaken fun outcome after ended => ?_
  obtain ⟨⟨watched, stays⟩, used⟩ := ended
  have bequeaths : Bequeaths world after := .of_stays stays used
  cases outcome <;> exact custody.trans { watched, bequeaths with }

/-- A scope that is torn down brings no guard into use. -/
theorem teardown_used (address : Address) (deleted : Bool) : (teardown address deleted).Keeps (·.ledger.UsedWithin mine) := by
  refine Task.Keeps.bind (.lift fun world used => ?_) fun lifespan => ?_
  · cases deleted with
    | false =>
      obtain ⟨_, _, same⟩ := find_stored address world
      exact same ▸ used.congr rfl
    | true =>
      obtain ⟨_, _, same⟩ := forget_stored address world
      exact same ▸ used.congr rfl
  · cases lifespan with
    | none => exact .pure 0
    | some lifespan => exact onLedger_used ((Ledger.usedWithin_carried mine).teardown mutatorThread trivial)

theorem teardown_custody (inSession : base.session.isSome = true) (address : Address) (deleted : Bool) :
    Minds (Custody base) (teardown address deleted) := by
  intro got world custody
  obtain ⟨session, its⟩ := custody.followed.inSession inSession
  exact custody.stays (teardown_watched (its ▸ rfl) address deleted got world custody.self)
    (stays_teardown address deleted world) fun _ => teardown_used address deleted

theorem drain_custody (base : World) : Minds (Custody base) drain := fun got world custody =>
  custody.stays (drain_watched world got world custody.self) (stays_drain world) fun mine =>
    .bind .get fun _ _ used => onLedger_ends_as ((Ledger.usedWithin_carried mine).toCarried.drain _ _ used)

theorem dispatch_custody (signals : List Signal) (inSession : base.session.isSome = true) :
    Minds (Custody base) (dispatch signals) :=
  (custody_carried base).dispatch (teardown_custody inSession) (drain_custody base) signals

/-! ## Native descriptors -/

theorem currentLifespan_used : currentLifespan.Keeps (·.ledger.UsedWithin mine) :=
  currentLifespan_keeps (fun _ _ used => used.congr rfl) fun _ _ used => used.congr rfl

/-- Only a native descriptor that is taken over brings a guard into use, its own. -/
theorem adopt_used (address : Address) (used : world.ledger.UsedWithin mine) :
    (adopt address).Ends world fun outcome after => after.ledger.UsedWithin fun guard =>
      mine guard ∨ ∃ thing, outcome = .ok thing ∧ thing.guard? = some guard := by
  -- A failure hands no thing on, so what is used is already accounted for.
  have failed {interrupt : Interrupt} {after : World} (used : after.ledger.UsedWithin mine) :
      after.ledger.UsedWithin fun guard => mine guard ∨
        ∃ thing, (.error interrupt : Except Interrupt Thing) = .ok thing ∧ thing.guard? = some guard :=
    used.weaken fun _ => .inl
  refine (currentLifespan_used world used).bind (fun lifespan mid used => ?_) fun _ _ => failed
  have builds (plan : Guard) : (onLedger (Ledger.build plan (some lifespan))).Ends mid fun outcome after =>
      after.ledger.UsedWithin fun guard => mine guard ∨ outcome = .ok guard := onLedger_ends_as (Ledger.build_used used plan lifespan)
  refine .next (Task.get_run mid) ((builds _).bind (fun guard built used => ?_) fun _ _ used =>
    failed (used.weaken fun _ => (Or.resolve_right · nofun)))
  -- From here on the guard just built is one more that may be used, until a thing owns it.
  have used : built.ledger.UsedWithin fun other => mine other ∨ other = guard :=
    used.weaken fun other => Or.imp_right fun same => (Except.ok.inj same).symm
  have reads : (do
      discard (onLedger (Ledger.pin mutatorThread guard))
      Task.ensuring (readNative address) (Task.exec (onLedger (Ledger.unpin mutatorThread guard)))
      : Task World (Oid × Int32 × List Oid)).Keeps (·.ledger.UsedWithin fun other => mine other ∨ other = guard) :=
    .bind (Task.Keeps.discard (onLedger_used (Ledger.pin_used mutatorThread guard))) fun _ =>
      Task.Keeps.ensuring (keeps_readNative address) fun _ used =>
        (onLedger_used ((Ledger.usedWithin_carried _).toCarried.unpin mutatorThread guard) _ used).exec
  refine (reads built used).attempt.bind ?_ fun _ _ ended => by cases ended.choose_spec.1
  rintro contents read ⟨_, ⟨⟩, used⟩
  cases contents with
  | ok contents =>
    refine used.weaken fun other => Or.imp_right ?_
    rintro rfl
    exact ⟨_, rfl, rfl⟩
  | error interrupt =>
    -- The read failed: the guard has no owner, and dropping it leaves only what was used before.
    have drops : (onLedger (Ledger.dropOwner guard)).Ends read fun _ after => after.ledger.UsedWithin mine :=
      onLedger_ends_as (Ledger.dropOwner_used used)
    exact drops.bind (fun _ _ => failed) fun _ _ => failed

/-- A native descriptor is taken over, and has the guard that is new. -/
theorem construct_custody (custody : Custody base got world) (inSession : base.session.isSome = true)
    (fresh : world.thing? world.nextThing = none) (address : Address) :
    (construct (adopt address)).Ends world (After (Custody base) (fun id => [id]) got) := by
  obtain ⟨session, its⟩ := custody.followed.inSession inSession
  have takes := ((adopt_tracked custody.self.followed (its ▸ rfl) address).both (Touches.adopts address world)).both
    (.given fun housed : world.Housed => adopt_used address housed)
  have guards {after : World} (stays : Stays world after) (id : ThingId) : after.guardOf id = world.guardOf id := by
    rw [guardOf, stays.thing?, guardOf]
  refine takes.bind (fun thing after ended => ?_) fun interrupt after ended => ?_
  · obtain ⟨⟨⟨followed, mild, given⟩, stays, -⟩, used⟩ := ended
    obtain ⟨guard, own, loose, usable⟩ := given thing rfl
    -- The thing added takes a number that was free, so no other thing changes its guard.
    have kept {id : ThingId} {other : GuardId} (its : world.guardOf id = some other) :
        (after.add thing).2.guardOf id = some other := by
      rw [← guards stays] at its
      obtain ⟨found, there, owns⟩ := Option.bind_eq_some_iff.mp its
      rw [guardOf, thing?_add, there]
      exact owns
    have new : (after.add thing).2.guardOf after.nextThing = some guard := by
      rw [guardOf, thing?_add, stays.thing?, stays.nextThing, fresh, if_pos rfl]
      exact own
    have unclaimed {held : Guard} (found : after.ledger.guard? guard = some held) : held.flags.claimed = false := by
      -- A claimed guard counts as released, and the new thing's guard is still usable.
      cases claimed : held.flags.claimed with
      | false => rfl
      | true => exact absurd (Ledger.released_iff.mpr ⟨held, found, by simp [Guard.isReleased, claimed]⟩) usable
    refine custody.trans {
      followed := followed.own own loose
      lossless := mild.lossless
      housed := fun housed => ?_
      parted := fun _ id other its => .inl (kept its)
      armed := fun lossless id other its => ?_ }
    · refine (used housed).weaken fun other => ?_
      rintro (⟨id, its⟩ | ⟨_, ⟨⟩, owns⟩)
      · exact ⟨id, kept its⟩
      · exact ⟨after.nextThing, new.trans (own.symm.trans owns)⟩
    · obtain was | ⟨-, owns⟩ := guardOf_add after thing id its
      · exact .inl ((guards stays id).symm.trans was)
      · obtain rfl := Option.some.inj (own.symm.trans owns)
        obtain ⟨held, found, -⟩ := loose.there
        exact .inr ((mild.lossless lossless).acts found (unclaimed found))
  · obtain ⟨⟨⟨followed, mild, -⟩, stays, -⟩, used⟩ := ended
    exact custody.next ⟨followed, mild.lossless⟩ (guards stays) fun housed => (used housed).weaken fun _ =>
      (Or.resolve_right · (by rintro ⟨_, ⟨⟩, -⟩))

/-- Caches, rows and counters change. -/
theorem Custody.beside (custody : Custody base got world) (caches : Caches) (tally : Tally) (provider : Provider)
    (scope : provider.scope = world.provider.scope) :
    Custody base got { world with caches, provider, ledger := { world.ledger with tally } } := by
  refine custody.next (custody.self.congr ?_ rfl rfl rfl) (fun _ => rfl) fun used => used.congr rfl
  exact custody.self.followed.congr (fun _ => rfl) rfl rfl ⟨rfl, rfl, rfl, rfl, rfl⟩ rfl scope rfl rfl

/-- A native descriptor is looked up, and taken over if it is not there. -/
theorem nativeDescriptor_custody (custody : Custody base got world) (inSession : base.session.isSome = true)
    (fresh : world.thing? world.nextThing = none) (address : Address) :
    (nativeDescriptor address).Ends world (After (Custody base) (fun id => [id]) got) := by
  have looks : (descriptorView.lookup mutatorThread address (construct (adopt address))).Ends world
      (After (Custody base) (fun id => [id]) got) := by
    refine @CacheView.lookup_ends _ _ _ _ _ _ _ _ _ (After (Custody base) (fun id => [id]) got) _ (fun value _ _ => ?_)
      (fun interrupt notes cache _ _ => ?_) (fun notes cache _ _ _ _ => ?_) (fun value last custody => ?_)
      (fun interrupt last custody => ?_)
    · have found : Custody base got (descriptorView.store [.hit] (descriptorView.get world) world) :=
        custody.beside _ _ _ rfl
      exact (custody_carried base).hold value found
    · exact custody.beside _ _ _ rfl
    · have asked : Custody base got (descriptorView.store notes cache world) := custody.beside _ _ _ rfl
      exact construct_custody asked inSession fresh address
    · unfold CacheView.settle
      exact (custody_carried base).reap _ (Custody.beside custody _ _ _ rfl)
    · exact Custody.beside custody _ _ _ rfl
  refine .next (Task.get_run world) (looks.bind (fun id after custody => ?_) fun _ _ custody => custody)
  split
  · exact .next (Task.modify_run _ after) (Custody.beside custody after.caches _ _ rfl)
  · exact custody

theorem recordDescriptor_custody (custody : Custody base got world) (inSession : base.session.isSome = true)
    (fresh : world.thing? world.nextThing = none) (typmod : Int32) :
    (recordDescriptor typmod).Ends world (After (Custody base) (fun computed => computed.value.refs) got) := by
  have looks : (onProvider (Provider.lookupRecord typmod)).Ends world fun _ after =>
      Custody base got after ∧ after.thing? after.nextThing = none :=
    onProvider_ends ((scope_lookupRecord typmod world.provider).weaken fun _ provider same =>
      ⟨custody.beside world.caches _ _ same, fresh⟩)
  have opens : requireOpen.Ends world fun _ after => after = world := by
    refine .next (Task.get_run world) ?_
    split <;> exact rfl
  refine opens.bind ?_ ?_
  · rintro _ _ rfl
    refine looks.bind (fun found after ended => ?_) fun _ _ ended => ended.1
    cases found with
    | none => exact ended.1
    | some address =>
      exact (nativeDescriptor_custody ended.1 inSession ended.2 address).bind (fun _ _ custody => custody) fun _ _ custody => custody
  · rintro _ _ rfl
    exact custody

/-! ## Reads -/

theorem read_custody (id : ThingId) (access : Access) (accessor : Accessor)
    (inSession : access = .mutator → base.session.isSome = true) (fresh : world.thing? world.nextThing = none)
    (custody : Custody base got world) : (accessor.read id access).Ends world (After (Custody base) Reading.refs got) := by
  have carried := custody_carried base
  by_cases record : accessor = .typeDescriptor
  · subst record
    refine (carried.typeDescriptor_ends access (fun _ => custody) (fun _ _ _ => custody) (fun _ => custody)
      fun entity found interned computed => ?_).bind (fun value after custody => custody) fun _ _ custody => custody
    have isMutator : access = .mutator := by
      cases access with
      | mutator => rfl
      | reader => simp [computes, Coherence.SlotSpec.refusal, Catalog.typeDescriptor] at computed
    exact recordDescriptor_custody custody (inSession isMutator) fresh entity.key.sub
  · exact carried.read access record got world custody

end World

namespace Operation

open World (Bequeaths Custody Followed Forsaken Housed Tidy Watched custody_carried mutatorThread)

variable {world : World} {operation : Operation} {operations earlier later : List Operation} {config : Config} {id : ThingId} {guard : GuardId}

/-- Every operation that leaves the catalog there lets things keep their guards until they go. -/
theorem apply_bequeaths (allowed : operation.Allowed world) (followed : Followed world [] world) (tidy : Tidy [] world)
    (opened : (operation.apply world).isOpen = true) : Bequeaths world (operation.apply world) := by
  have carried := custody_carried world
  have same : Bequeaths world world := .still (fun _ => rfl) fun used => used
  have watched {got : List ThingId} (followed : Followed world got world) : Custody world got world :=
    { (⟨followed, fun lossless => lossless⟩ : Watched world got world), same with }
  have custody := watched followed
  have plain (ends : operation.task.Ends world fun _ after => Bequeaths world after) :
      Bequeaths world (operation.apply world) := ends.exec
  have gives {α : Type} {body : Task World α} {refs : α → List ThingId} (ends : body.Ends world (World.After (Custody world) refs [])) :
      body.Ends world fun _ after => Bequeaths world after :=
    ends.weaken fun outcome after kept => by cases outcome <;> exact kept.toBequeaths
  have provided {α : Type} (body : Task Provider α) : (World.onProvider body).Ends world fun _ after => Bequeaths world after :=
    World.onProvider_ends (by unfold Task.Ends; cases body world.provider <;> exact .still (fun _ => rfl) fun used => used)
  -- Closing matters here only when it does nothing, since the world is still open afterwards.
  have closed {after : World} (guards : ∀ id, after.guardOf id = world.guardOf id)
      (used : world.Housed → after.ledger.UsedWithin fun guard => ∃ id, world.guardOf id = some guard)
      (opened : (World.closeIfUnheld after).isOpen = true) : Bequeaths world (World.closeIfUnheld after) := by
    cases there : after.isOpen with
    | false =>
      rw [World.closeIfUnheld_closed there] at opened
      cases opened
    | true =>
      unfold World.closeIfUnheld
      rw [there]
      exact .still guards used
  cases operation with
  | put plan => exact plain (.discard (provided _))
  | remove key => exact plain (.discard (provided _))
  | putEncoding info => exact plain (provided _)
  | intern typmod types => exact plain (.discard (provided _))
  | setScope address kind => exact plain (provided _)
  | openSession =>
    exact plain (openSession_ends (.still (fun _ => rfl) fun used => used) fun _ _ _ _ =>
      .still (fun _ => rfl) fun used => used)
  | closeSession =>
    have closes : Operation.closeSession.task.Ends world fun _ after => after.isOpen = true → Bequeaths world after :=
      closeSession_ends (fun _ _ => same) fun session _ => closed (fun _ => rfl) fun used => used
    exact closes.exec opened
  | dropCatalog => exact closed (fun _ => rfl) (fun used => used) opened
  | lookup target => exact plain (.discard (gives (carried.target target [] world custody)))
  | read id field access =>
    -- The next number is above everything alive, so nothing has it yet.
    have fresh : world.thing? world.nextThing = none := by
      cases there : world.thing? world.nextThing with
      | none => rfl
      | some thing => exact absurd (tidy.below _ (Numbered.isSome_get?.mp (World.alive_iff.mpr ⟨thing, there⟩))) (Nat.lt_irrefl _)
    exact plain (read_ends same fun accessor _ => gives (World.read_custody id access accessor allowed.2 fresh custody))
  | drop id => exact (carried.release (watched (drop_frees followed allowed))).toBequeaths
  | trip id => exact plain (trip_ends same fun _ _ => .still (fun _ => rfl) fun used => used)
  | pin id =>
    exact plain (pin_ends same (fun guard _ => Bequeaths.onLedger fun _ => Lifetime.Ledger.pin_used mutatorThread guard)
      (fun _ after pinned => ⟨pinned.housed, pinned.parted, pinned.armed⟩) fun _ _ pinned => pinned)
  | unpin id =>
    refine plain (unpin_ends same (fun guard its => (unpin_frees followed its allowed).both (Bequeaths.onLedger fun mine =>
      (Lifetime.Ledger.usedWithin_carried mine).toCarried.unpin mutatorThread guard)) (fun after ended => ?_)
      fun _ _ ended => ended.2)
    have freed : Custody world [id] after := { (⟨ended.1.1, ended.1.2.lossless⟩ : Watched world [id] after), ended.2 with }
    exact (carried.release freed).toBequeaths
  | dispatch signals => exact plain (.discard (gives (World.dispatch_custody signals allowed [] world custody)))
  | drain => exact plain (.discard (gives (World.drain_custody world [] world custody)))
  | purge => exact plain (.discard (.lift (carried.purge custody).toBequeaths))
  | relieve => exact plain (.discard (.lift (carried.relieve custody).toBequeaths))
  | lifespan address =>
    obtain ⟨_, _, same⟩ := World.find_stored address world
    exact .of_stays (World.stays_find address world) fun used => used.congr (congrArg (·.ledger.guards) same)
  | currentLifespan =>
    exact plain (.discard (((World.stays_currentLifespan world).both (.given fun housed : world.Housed =>
      World.currentLifespan_used world housed)).weaken fun _ _ ended => .of_stays ended.1 ended.2))

/-! ## Runs -/

/-- A catalog that a run led to, and that lost no guard as long as it is there. -/
structure Intact (config : Config) (world : World) : Prop where
  reached : Reached config world
  lossless : world.isOpen = true → world.Lossless

theorem intact_start (config : Config) : Intact config (World.start config) := ⟨.start, fun _ => lossless_start config⟩

namespace Intact

variable (intact : Intact config world) (allowed : operation.Allowed world)

include allowed

/-- A catalog that is gone stays gone. -/
theorem open_before (opened : (operation.apply world).isOpen = true) : world.isOpen = true := by
  cases was : world.isOpen with
  | true => rfl
  | false =>
    rw [apply_closed allowed was] at opened
    cases opened

include intact

theorem step : Intact config (operation.apply world) :=
  ⟨intact.reached.step operation allowed, fun opened => apply_lossless allowed intact.reached.settled.followed
    (intact.lossless (open_before allowed opened)) opened⟩

theorem bequeaths (opened : (operation.apply world).isOpen = true) : Bequeaths world (operation.apply world) :=
  apply_bequeaths allowed intact.reached.settled.followed intact.reached.tidy opened

/-- Guards that can be told apart from lost ones stay so. -/
theorem acts (acts : Lifetime.Ledger.Acts [] world.ledger guard) : Lifetime.Ledger.Acts [] (operation.apply world).ledger guard :=
  (apply_succeeds allowed intact.reached.settled).onward.acts guard acts

end Intact

theorem after_intact (allowed : AllowedAll operations (World.start config)) : Intact config (after operations (World.start config)) :=
  after_keeps (fun _ _ allowed intact => intact.step allowed) allowed (intact_start config)

/-- In a catalog that is there, every guard in use belongs to a thing, and guards of things have their actions or
    had them run. -/
theorem after_custody (allowed : AllowedAll operations (World.start config))
    (opened : (after operations (World.start config)).isOpen = true) :
    (after operations (World.start config)).Housed ∧ ∀ id guard,
      (after operations (World.start config)).guardOf id = some guard →
        Lifetime.Ledger.Acts [] (after operations (World.start config)).ledger guard := by
  let kept (world : World) : Prop := Intact config world ∧ (world.isOpen = true → world.Housed ∧ ∀ id guard,
    world.guardOf id = some guard → Lifetime.Ledger.Acts [] world.ledger guard)
  have step (operation : Operation) (world : World) (allowed : operation.Allowed world) (before : kept world) :
      kept (operation.apply world) := by
    refine ⟨before.1.step allowed, fun opened => ?_⟩
    have open' := Intact.open_before allowed opened
    have bequeaths := before.1.bequeaths allowed opened
    obtain ⟨housed, armed⟩ := before.2 open'
    refine ⟨bequeaths.housed housed, fun id guard own => ?_⟩
    obtain was | acts := bequeaths.armed (before.1.lossless open') id guard own
    · exact before.1.acts allowed (armed id guard was)
    · exact acts
  have start : kept (World.start config) :=
    ⟨intact_start config, fun _ => ⟨fun _ _ found => (by cases found), fun _ _ own => (by cases own)⟩⟩
  exact (after_keeps step allowed start).2 opened

/-- A thing keeps its guard until it goes, and then the guard has no owner any more.  Its action runs once at most,
    and is not lost. -/
theorem after_bequeaths (allowed : AllowedAll (earlier ++ later) (World.start config))
    (opened : (after (earlier ++ later) (World.start config)).isOpen = true)
    (own : (after earlier (World.start config)).guardOf id = some guard) :
    ((after (earlier ++ later) (World.start config)).guardOf id = some guard ∨
      (after (earlier ++ later) (World.start config)).Forsaken guard) ∧
        Lifetime.Ledger.Acts [] (after (earlier ++ later) (World.start config)).ledger guard := by
  let kept (world : World) : Prop := Intact config world ∧ (world.isOpen = true →
    (world.guardOf id = some guard ∨ world.Forsaken guard) ∧ Lifetime.Ledger.Acts [] world.ledger guard)
  have step (operation : Operation) (world : World) (allowed : operation.Allowed world) (before : kept world) :
      kept (operation.apply world) := by
    refine ⟨before.1.step allowed, fun opened => ?_⟩
    have open' := Intact.open_before allowed opened
    obtain ⟨still | forsaken, acts⟩ := before.2 open'
    · exact ⟨(before.1.bequeaths allowed opened).parted (before.1.lossless open') id guard still, before.1.acts allowed acts⟩
    · have onward := (apply_succeeds allowed before.1.reached.settled).onward
      exact ⟨.inr (forsaken.onward onward), onward.acts guard acts⟩
  obtain ⟨first, second⟩ := allowedAll_append.mp allowed
  rw [after_append] at opened ⊢
  have start : kept (after earlier (World.start config)) :=
    ⟨after_intact first, fun opened => ⟨.inl own, (after_custody first opened).2 id guard own⟩⟩
  exact (after_keeps step second start).2 opened

end Operation

end CatalogReplica.Catalog
