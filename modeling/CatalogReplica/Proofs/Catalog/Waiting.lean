import CatalogReplica.Proofs.Catalog.Resting
import CatalogReplica.Proofs.Identity.Dismissing
import CatalogReplica.Proofs.Native.ScopeEnds

/-!
# Releases wait in the queue

As long as a catalog is there it holds its queue.  Native descriptors that nothing refers to
leave their releases to it, and none of them is lost.

* `World.teardown_run`: the teardown of a scope is that of the lifespan that the session has for it.
* `World.dispatch_watched`: a burst loses no guard.
* `Operation.apply_lossless`, `Operation.after_lossless`: every operation, and every run.
-/

namespace CatalogReplica.Catalog

open Lifetime (Ledger LifespanId)
open Identity (Cache CacheView)

/-- What a session has for scopes once it was told that one was reset or deleted. -/
def Session.told (session : Session) (address : Address) (deleted : Bool) : Session :=
  if deleted then { session with lifespans := session.lifespans.dismiss address } else session

namespace World

variable {α : Type} {base world after : World} {got : List ThingId} {session : Session}

/-! ## Bursts -/

/-- The session looks for the lifespan of a scope. -/
theorem find_lifespan (its : world.session = some session) (address : Address) :
    ∃ tally, lifespanView.get? address world
      = (session.lifespans.find? address, { world with ledger := { world.ledger with tally } }) := by
  have stored (notes : List (Identity.Note Address)) : lifespanView.store notes session.lifespans world
      = { world with ledger := { world.ledger with tally := Identity.Note.count notes world.ledger.tally } } := by
    simp [CacheView.store, lifespanView, note, its]
  unfold CacheView.get? Cache.get?
  rw [get_lifespanView its]
  cases session.lifespans.find? address with
  | none => exact ⟨_, congrArg (Prod.mk _) (stored [.miss])⟩
  | some lifespan => exact ⟨_, congrArg (Prod.mk _) (stored [.hit])⟩

/-- The session forgets the lifespan of a scope. -/
theorem forget_lifespan (its : world.session = some session) (address : Address) :
    ∃ tally, lifespanView.evict address world = (session.lifespans.find? address,
      { world with ledger := { world.ledger with tally }, session := some (session.told address true) }) := by
  obtain ⟨notes, run⟩ := session.lifespans.evict_run (show ∀ lifespan ∈ session.lifespans.soft,
    lifespanView.alive world lifespan = true from fun _ _ => rfl) address
  have always (found : Option LifespanId) : found.filter (lifespanView.alive world) = found := by
    cases found <;> rfl
  refine ⟨Identity.Note.count notes world.ledger.tally, ?_⟩
  unfold CacheView.evict
  rw [get_lifespanView its, run, always]
  cases session.lifespans.find? address <;> simp [CacheView.store, lifespanView, note, its, Session.told]

/-- A scope is torn down with the lifespan that the session has for it. -/
theorem teardown_run (its : world.session = some session) (address : Address) (deleted : Bool) :
    ∃ tally, teardown address deleted world
      = (match session.lifespans.find? address with
        | none => return 0
        | some lifespan => onLedger (Ledger.teardown mutatorThread lifespan deleted) : Task World Nat)
          { world with ledger := { world.ledger with tally }, session := some (session.told address deleted) } := by
  unfold teardown
  rw [Task.bind_ok (Task.lift_run _ world)]
  cases deleted with
  | false =>
    obtain ⟨tally, run⟩ := find_lifespan its address
    refine ⟨tally, ?_⟩
    simp only [Bool.false_eq_true, if_false]
    rewrite [run, show session.told address false = session from rfl, ← its]
    cases session.lifespans.find? address <;> rfl
  | true =>
    obtain ⟨tally, run⟩ := forget_lifespan its address
    refine ⟨tally, ?_⟩
    simp only [if_true]
    rewrite [run]
    cases session.lifespans.find? address <;> rfl

theorem teardown_lossless (sound : world.ledger.Sound mutatorThread []) (lossless : world.Lossless)
    (inSession : world.session.isSome = true) (address : Address) (deleted : Bool) :
    (teardown address deleted).Ends world fun _ after => after.Lossless := by
  obtain ⟨session, its⟩ := Option.isSome_iff_exists.mp inSession
  obtain ⟨tally, run⟩ := teardown_run its address deleted
  have counted : Ledger.Lossless world.queue { world.ledger with tally } := lossless.congr rfl rfl
  have still : Ledger.Sound mutatorThread [] { world.ledger with tally } := sound.tally tally
  refine .of_run run ?_
  cases session.lifespans.find? address with
  | none => exact counted
  | some lifespan => exact onLedger_ends_as (counted.teardown still lifespan deleted)

theorem teardown_watched (inSession : base.session.isSome = true) (address : Address) (deleted : Bool) :
    Minds (Watched base) (teardown address deleted) := by
  intro got world watched
  obtain ⟨session, its⟩ := watched.followed.inSession inSession
  have inSession : world.session.isSome = true := its ▸ rfl
  have tears := (teardown_tracked watched.followed.self inSession address deleted).both
    (.given fun lossless : world.Lossless => teardown_lossless watched.followed.sound lossless inSession address deleted)
  refine tears.weaken fun outcome after ended => ?_
  have later : Watched base got after := ⟨watched.followed.trans (ended.1.2.1.weaken fun _ _ => trivial), fun before =>
    ended.2 (watched.lossless before)⟩
  cases outcome <;> exact later

theorem drain_watched (base : World) : Minds (Watched base) drain := by
  intro got world watched
  have drains : drain.Ends world fun _ after => world.Lossless → after.Lossless := by
    refine .next (Task.get_run world) (.given fun lossless => onLedger_ends_as ?_)
    exact lossless.drain watched.followed.sound
  refine ((followed_drain base got world watched.followed).both drains).weaken fun outcome after ended => ?_
  cases outcome <;> exact ⟨ended.1, fun before => ended.2 (watched.lossless before)⟩

/-- A burst loses no guard. -/
theorem dispatch_watched (signals : List Signal) (inSession : base.session.isSome = true) :
    Minds (Watched base) (dispatch signals) :=
  (watched_carried base).dispatch (teardown_watched inSession) (drain_watched base) signals

/-- The catalog holds its queue until it is gone. -/
theorem closeIfUnheld_lossless (lossless : world.Lossless) (opened : (closeIfUnheld world).isOpen = true) :
    (closeIfUnheld world).Lossless := by
  cases there : world.isOpen with
  | false =>
    rw [closeIfUnheld_closed there] at opened
    cases opened
  | true =>
    unfold closeIfUnheld
    rwa [there]

end World

namespace Operation

open World (Watched Followed After watched_carried mutatorThread)

variable {world : World} {operation : Operation}

/-- Every operation that leaves the catalog there loses no guard. -/
theorem apply_lossless (allowed : operation.Allowed world) (followed : Followed world [] world) (lossless : world.Lossless)
    (opened : (operation.apply world).isOpen = true) : (operation.apply world).Lossless := by
  have carried := watched_carried world
  have watched : Watched world [] world := ⟨followed, fun lossless => lossless⟩
  have plain (ends : operation.task.Ends world fun _ after => after.Lossless) : (operation.apply world).Lossless :=
    ends.exec
  -- A task that loses no wake-up gives the world on as it found it, whatever the outcome.
  have gives {α : Type} {body : Task World α} {refs : α → List ThingId} (ends : body.Ends world (After (Watched world) refs [])) :
      body.Ends world fun _ after => after.Lossless :=
    ends.weaken fun outcome after kept => by cases outcome <;> exact kept.lossless lossless
  have provided {α : Type} (body : Task Provider α) : (World.onProvider body).Ends world fun _ after => after.Lossless :=
    World.onProvider_ends (by unfold Task.Ends; cases body world.provider <;> exact lossless)
  cases operation with
  | put plan => exact plain (.discard (provided _))
  | remove key => exact plain (.discard (provided _))
  | putEncoding info => exact plain (provided _)
  | intern typmod types => exact plain (.discard (provided _))
  | setScope address kind => exact plain (provided _)
  | openSession =>
    refine plain (openSession_ends lossless fun queue bound found isBound => lossless.onQueue fun record there => ?_)
    cases found.symm.trans there
    have same := queue.bind_handles world.nextMutator
    rwa [isBound] at same
  | closeSession =>
    have closes : Operation.closeSession.task.Ends world fun _ after => after.isOpen = true → after.Lossless :=
      closeSession_ends (fun _ _ => lossless) fun session _ =>
        World.closeIfUnheld_lossless (lossless.onQueue fun record _ => record.unbind_handles session.mutator)
    exact closes.exec opened
  | dropCatalog => exact World.closeIfUnheld_lossless lossless opened
  | lookup target => exact plain (.discard (gives (carried.target target [] world watched)))
  | read id field access =>
    exact plain (read_ends lossless fun accessor _ => gives (World.read_watched id access accessor allowed.2 watched))
  | drop id => exact (carried.release ⟨drop_frees followed allowed, fun lossless => lossless⟩).lossless lossless
  | trip id => exact plain (trip_ends lossless fun _ _ => lossless)
  | pin id =>
    have pins (guard : Lifetime.GuardId) : (World.onLedger (Ledger.pin mutatorThread guard)).Ends world fun _ after =>
        after.Lossless := World.onLedger_ends_as (lossless.pin mutatorThread guard)
    exact plain (pin_ends lossless (fun guard _ => pins guard) (fun _ _ lossless => lossless) fun _ _ lossless => lossless)
  | unpin id =>
    refine plain (unpin_ends lossless (fun guard its => unpin_frees followed its allowed) (fun after freed => ?_)
      fun _ _ freed => freed.2.lossless lossless)
    have freed : Watched world [id] after := ⟨freed.1, freed.2.lossless⟩
    exact (carried.release freed).lossless lossless
  | dispatch signals => exact plain (.discard (gives (World.dispatch_watched signals allowed [] world watched)))
  | drain => exact plain (.discard (gives (World.drain_watched world [] world watched)))
  | purge => exact plain (.discard (.lift ((carried.purge watched).lossless lossless)))
  | relieve => exact plain (.discard (.lift ((carried.relieve watched).lossless lossless)))
  | lifespan address =>
    obtain ⟨session, its⟩ := Option.isSome_iff_exists.mp allowed
    obtain ⟨tally, run⟩ := World.find_lifespan its address
    refine plain (.discard (.lift ?_))
    rw [run]
    exact lossless.congr rfl rfl
  | currentLifespan =>
    have kept : World.currentLifespan.Keeps World.Lossless :=
      World.currentLifespan_keeps (fun _ _ lossless => lossless.congr rfl rfl) fun _ _ lossless => lossless.congr rfl rfl
    exact plain (.discard (kept world lossless))

/-! ## Runs -/

theorem lossless_start (config : Config) : (World.start config).Lossless :=
  ⟨⟨⟨{}, rfl, by decide⟩, fun _ _ found => (by cases found)⟩, fun _ _ found => (by cases found)⟩

/-- Whatever ran, a catalog that is there lost no guard. -/
theorem after_lossless {config : Config} {operations : List Operation} (allowed : AllowedAll operations (World.start config))
    (opened : (after operations (World.start config)).isOpen = true) : (after operations (World.start config)).Lossless := by
  let kept (world : World) : Prop := World.Settled world ∧ (world.isOpen = true → world.Lossless)
  have step (operation : Operation) (world : World) (allowed : operation.Allowed world) (before : kept world) :
      kept (operation.apply world) := by
    refine ⟨(apply_succeeds allowed before.1).settled, fun opened => ?_⟩
    refine apply_lossless allowed before.1.followed (before.2 ?_) opened
    -- a catalog that is gone stays gone
    cases was : world.isOpen with
    | true => rfl
    | false =>
      rw [apply_closed allowed was] at opened
      cases opened
  exact (after_keeps step allowed ⟨World.settled_start config, fun _ => lossless_start config⟩).2 opened

end Operation

end CatalogReplica.Catalog
