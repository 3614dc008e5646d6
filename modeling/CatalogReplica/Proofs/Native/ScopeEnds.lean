import CatalogReplica.Proofs.Lifetime.Runs
import CatalogReplica.Proofs.Native.ScopeSignals

/-!
# Descriptors go with their scopes

When a session delivers a burst that tells that a scope was reset or deleted, every native
descriptor is released that was built for the scope in the session.  Nobody can pin it any
more, and no reference on it is given back.

Descriptors that were built for the scope in an earlier session of the catalog are not
found: the lifespans that they are registered to went with that session.

* `World.Settled`: what holds between operations.
* `Operation.apply_succeeds`: what one operation leads to.
* `Operation.released_with_scope`: the result.
* `Operation.earlier_session_missed`: a descriptor of an earlier session.
-/

namespace CatalogReplica.Catalog

open Lifetime (Guard GuardId Ledger LifespanId)

namespace World

/-- Things own their guards and are held as often as they are pinned, and sessions have had
    other numbers than those that are to come. -/
structure Settled (world : World) : Prop where
  followed : Followed world [] world
  earlier : ∀ session, world.session = some session → session.mutator < world.nextMutator

/-- One operation later: as long as the session is the same one, it finds the guards that it
    found, and those that were built. -/
structure Succeeds (before after : World) : Prop where
  settled : Settled after
  numbers : before.nextMutator ≤ after.nextMutator
  onward : Ledger.Onward (fun _ => True) (fun _ => True) [] [] before.ledger after.ledger
  kept : ∀ mutator, after.session.map (·.mutator) = some mutator → mutator < before.nextMutator →
    before.session.map (·.mutator) = some mutator ∧
      ∀ address guard, before.Enrolled address guard → after.Enrolled address guard
  built : ∀ guard, before.ledger.guard? guard = none → (after.ledger.guard? guard).isSome = true →
    after.Enrolled before.provider.scope.1 guard

variable {base world after : World} {got : List ThingId} {id : ThingId}

theorem Settled.succeeds (settled : Settled world) (followed : Followed world [] after) : Succeeds world after where
  settled := by
    refine ⟨followed.self, fun session its => ?_⟩
    have same := followed.mutator
    rw [its, Option.map_some] at same
    obtain ⟨session', its', number⟩ := Option.map_eq_some_iff.mp same.symm
    rw [followed.numbers, ← number]
    exact settled.earlier session' its'
  numbers := Nat.le_of_eq followed.numbers.symm
  onward := followed.onward
  kept mutator its _ := ⟨followed.mutator.symm.trans its, followed.enrolled⟩
  built := followed.built

/-- Sessions come and go, and scopes are entered; things and guards are the same ones. -/
theorem Tracked.renew (followed : Followed base got world) (guards : ∀ id, after.guardOf id = world.guardOf id)
    (held : after.held = world.held) (nextThing : after.nextThing = world.nextThing) (queue : after.queue = world.queue)
    (proceeds : Ledger.Proceeds mutatorThread (fun _ => True) (fun _ => False) world.ledger after.ledger)
    (unique : ∀ session, after.session = some session → session.lifespans.Unique) : Followed after got after := by
  have moved := followed.setLedger proceeds fun _ _ _ => not_false
  refine ⟨moved.sound, queue ▸ moved.queue, fun id guard its => ?_, fun one two guard first second => ?_, fun id => ?_,
    unique, rfl, rfl, rfl, .refl _ _ _ _, fun _ _ enrolled => enrolled, fun guard unknown there => ?_⟩
  · rw [guards] at its
    exact nextThing ▸ moved.owners id guard its
  · rw [guards] at first second
    exact moved.apart one two guard first second
  · have pins := moved.pins id
    rw [pinsOn] at pins ⊢
    rw [guards, held]
    exact pins
  · rw [unknown] at there
    cases there

theorem settled_start (config : Config) : Settled (World.start config) := by
  have sound : Ledger.Sound mutatorThread [] ({} : Ledger).addQueue.2 := by
    have leads : Ledger.Leads mutatorThread (fun _ => False) (fun _ => False) [] [] {} ({} : Ledger).addQueue.2 :=
      (Lifetime.Operation.sound_empty mutatorThread).addQueue
    exact leads.sound
  refine ⟨⟨sound, Nat.zero_lt_one, nofun, nofun, fun _ => Nat.le_refl _, nofun, rfl, rfl, rfl, .refl _ _ _ _,
    fun _ _ enrolled => enrolled, nofun⟩, nofun⟩

/-! ## The catalog and its sessions -/

theorem closeIfUnheld_followed (followed : Followed base got world) : Followed base got (closeIfUnheld world) := by
  have carried := tracked_carried (fun _ => True) base
  unfold closeIfUnheld
  split
  · exact followed
  · have blank : Followed base got { world with caches := .blank world.config } :=
      followed.congr (fun _ => rfl) rfl rfl ⟨rfl, rfl, rfl, rfl, rfl⟩ rfl rfl rfl rfl
    have reaped := carried.reap world.heap.ids blank
    exact (reaped.onLedger (Ledger.letQueueGo_proceeds reaped.sound world.queue) (fun _ => False.elim)
      fun _ _ _ => not_false).exec

/-- A session leaves the queue. -/
theorem unbind_proceeds (followed : Followed base got world) (mutator : Nat) :
    Ledger.Proceeds mutatorThread (fun _ => True) (fun _ => False) world.ledger
      (world.ledger.onQueue world.queue fun queue => (queue.unbind mutator).2) :=
  followed.sound.onQueue fun record _ => record.unbind_guards mutator

/-- The session goes, and the catalog is not closed yet. -/
theorem unbind_followed (followed : Followed base got world) (mutator : Nat) :
    let left : World := { world with
      ledger := world.ledger.onQueue world.queue fun queue => (queue.unbind mutator).2, session := none }
    Followed left got left :=
  followed.renew (fun _ => rfl) rfl rfl rfl (unbind_proceeds followed mutator) nofun

/-- The session is closed, and with it go its lifespans. -/
theorem closeSession_succeeds (settled : Settled world) : Succeeds world (closeSession world) := by
  have closes : Operation.closeSession.task.Ends world fun _ after => Succeeds world after := by
    refine Operation.closeSession_ends (fun _ => settled.succeeds settled.followed) fun session _ => ?_
    have unbound := unbind_proceeds settled.followed session.mutator
    have closed := closeIfUnheld_followed (unbind_followed settled.followed session.mutator)
    have none : (closeIfUnheld _).session = none := Option.map_eq_none_iff.mp closed.mutator
    refine ⟨⟨closed.self, fun session there => ?_⟩, Nat.le_of_eq closed.numbers.symm, unbound.onward.trans closed.onward,
      fun mutator there => ?_, fun guard unknown there => closed.built guard unknown there⟩
    · cases none.symm.trans there
    · rw [none] at there
      cases there
  exact closes.exec

/-- A session is opened with a number that no session had. -/
theorem openSession_succeeds (settled : Settled world) :
    openSession.Ends world fun _ after => Succeeds world after := by
  have followed := settled.followed
  have numbered : Succeeds world { world with nextMutator := world.nextMutator + 1 } := by
    refine ⟨⟨followed.renew (fun _ => rfl) rfl rfl rfl (.refl followed.sound) followed.unique, fun session its =>
      Nat.lt_succ_of_lt (settled.earlier session its)⟩, Nat.le_succ _, .refl _ _ _ _, fun mutator its _ =>
      ⟨its, fun address guard enrolled => ?_⟩, fun guard unknown there => ?_⟩
    · exact enrolled.congr rfl (fun _ _ enrolls => enrolls) fun released => released
    · cases unknown ▸ there
  refine Operation.openSession_ends numbered fun queue bound found isBound => ?_
  have binds : Ledger.Proceeds mutatorThread (fun _ => True) (fun _ => False) world.ledger
      (world.ledger.onQueue world.queue fun _ => bound) := by
    refine followed.sound.onQueue fun record there => ?_
    cases found.symm.trans there
    have same := queue.bind_guards world.nextMutator
    rwa [isBound] at same
  have opened : Followed _ [] ({ world with
      nextMutator := world.nextMutator + 1, ledger := world.ledger.onQueue world.queue fun _ => bound
      session := some (.blank world.nextMutator) } : World) :=
    followed.renew (fun _ => rfl) rfl rfl rfl binds (by rintro _ ⟨⟩; exact List.nodup_nil)
  refine ⟨⟨opened, ?_⟩, Nat.le_succ _, binds.onward, fun mutator its less => ?_, fun guard unknown there => ?_⟩
  · rintro _ ⟨⟩
    exact Nat.lt_succ_self _
  · cases its
    exact absurd less (Nat.lt_irrefl _)
  · cases unknown ▸ there

end World

namespace Operation

open World (Followed Succeeds Settled Told Gives After tracked_carried mutatorThread)

variable {world : World}

/-! ## One operation -/

/-- What a provider does leaves native resources alone. -/
theorem onProvider_followed {α : Type} {body : Task Provider α} (followed : Followed world [] world)
    (same : body.Ends world.provider fun _ provider => provider.scope = world.provider.scope) :
    (World.onProvider body).Ends world fun _ after => Followed world [] after :=
  World.onProvider_ends (same.weaken fun _ _ scope =>
    followed.congr (fun _ => rfl) rfl rfl ⟨rfl, rfl, rfl, rfl, rfl⟩ rfl scope rfl rfl)

/-- What gives things keeps guards where their scopes find them, whatever becomes of the things. -/
theorem gives_followed {α : Type} {body : Task World α} {refs : α → List ThingId}
    (ends : body.Ends world (After (Followed world) refs [])) : body.Ends world fun _ after => Followed world [] after := by
  refine ends.weaken fun outcome after kept => ?_
  cases outcome with
  | error interrupt => exact kept
  | ok value => exact (tracked_carried (fun _ => True) world).lessAll (refs value) kept

/-- Once its guard is pinned, the thing is held once more for the pin. -/
theorem pin_holds (followed : Followed world [] world) {id : ThingId} {guard : GuardId} (its : world.guardOf id = some guard) :
    (World.onLedger (Ledger.pin mutatorThread guard)).Ends world fun outcome after =>
      match outcome with
      | .ok _ => Followed world [] (World.hold id after)
      | .error _ => Followed world [] after := by
  obtain ⟨-, held, found, owned, -⟩ := followed.owners id guard its
  refine World.onLedger_ends_as ((Ledger.pin_proceeds followed.sound found owned).weaken fun outcome ledger pinned => ?_)
  -- A pin taken holds the thing once more; a refused one leaves the ledger as it was.
  cases outcome with
  | ok address =>
    obtain ⟨proceeds, found'⟩ := pinned
    have more : Followed world [id] (World.hold id world) := (tracked_carried (fun _ => True) world).hold id followed
    have wide : Ledger.Proceeds mutatorThread (fun _ => True) (· = guard) world.ledger ledger :=
      proceeds.weaken fun _ => False.elim
    have after : Followed world [] (World.setLedger ledger (World.hold id world)) := by
      refine more.advance wide.toLeads wide.steady.next (fun other guard' held' its' there => ?_)
        (fun _ _ => Nat.zero_le _) wide.enrolls fun guard' there => .inl ?_
      · by_cases same : guard' = guard
        · -- the guard has one holder more, and so has the thing
          subst same
          obtain rfl := followed.apart other id guard' its' its
          cases found.symm.trans there
          refine ⟨_, found', rfl, ?_⟩
          simp
        · obtain ⟨held'', there', owned', fewer⟩ := wide.steady.spared guard' held' same there
          exact ⟨held'', there', owned', Nat.le_trans fewer (Nat.le_add_right _ _)⟩
      · have among := Numbered.isSome_get?.mp there
        rw [wide.steady.guards] at among
        exact Numbered.isSome_get?.mpr among
    exact after
  | error interrupt =>
    obtain rfl := pinned
    have nothing : Ledger.Proceeds mutatorThread (fun _ => True) (fun _ => False) world.ledger world.ledger :=
      .refl followed.sound
    exact followed.setLedger nothing fun _ _ _ => not_false

theorem pin_followed (followed : Followed world [] world) (id : ThingId) :
    (Operation.pin id).task.Ends world fun _ after => Followed world [] after :=
  pin_ends followed (fun _ its => pin_holds followed its) (fun _ _ kept => kept) fun _ _ kept => kept

/-- A pin ends, and the thing is held once more than it is needed for pins. -/
theorem unpin_frees (followed : Followed world [] world) {id : ThingId} {guard : GuardId}
    (its : world.guardOf id = some guard) (pinned : 0 < world.pinsOn id) :
    (World.onLedger (Ledger.unpin mutatorThread guard)).Ends world fun _ after =>
      Followed world [id] after ∧ World.Mild world after := by
  obtain ⟨-, held, found, -⟩ := followed.owners id guard its
  rw [World.pinsOn, its, Option.bind_some, found, Option.map_some, Option.getD_some] at pinned
  have holder : mutatorThread ∈ held.holders := by
    obtain ⟨thread, among⟩ := List.exists_mem_of_length_pos pinned
    rwa [(followed.sound.good guard held found).pinners thread among] at among
  have unpins := ((Ledger.unpin_proceeds followed.sound found holder).both
    (Ledger.unpin_calm followed.sound found holder)).both
    (.given fun lossless : world.Lossless => lossless.unpin followed.sound found holder)
  refine World.onLedger_ends_as (unpins.weaken fun _ ledger ended => ?_)
  obtain ⟨⟨⟨proceeds, fewer⟩, calm⟩, lossless⟩ := ended
  have wide : Ledger.Proceeds mutatorThread (fun _ => True) (fun _ => False) world.ledger ledger :=
    proceeds.weaken fun _ _ => trivial
  refine ⟨followed.advance wide.toLeads wide.steady.next (fun other guard' held' its' there => ?_)
    (fun other unguarded => ?_) wide.enrolls fun guard' there => .inl ?_, ⟨calm, lossless⟩⟩
  · obtain ⟨held'', there', owned', fewer'⟩ := wide.steady.spared guard' held' not_false there
    refine ⟨held'', there', owned', ?_⟩
    rw [List.count_singleton]
    -- The one holder less stands for the hold given back; no other thing's guard loses any.
    by_cases same : other = id
    · subst same
      obtain rfl : guard' = guard := Option.some.inj (its'.symm.trans its)
      cases found.symm.trans there
      have := fewer held'' there'
      simp
      omega
    · simpa [Ne.symm same] using fewer'
  · rw [List.count_singleton]
    have differs : id ≠ other := by
      rintro rfl
      cases unguarded.symm.trans its
    simp [differs]
  · have among := Numbered.isSome_get?.mp there
    rw [wide.steady.guards] at among
    exact Numbered.isSome_get?.mpr among

theorem unpin_followed (followed : Followed world [] world) {id : ThingId} (pinned : 0 < world.pinsOn id) :
    (Operation.unpin id).task.Ends world fun _ after => Followed world [] after := by
  have carried := tracked_carried (fun _ => True) world
  exact unpin_ends followed (fun guard its => unpin_frees followed its pinned) (fun _ freed => carried.release freed.1)
    fun _ _ freed => carried.less freed.1

/-- A thing that is held more often than pins need it can be let go. -/
theorem drop_frees (followed : Followed world [] world) {id : ThingId} (spare : world.pinsOn id < world.held.count id) :
    Followed world [id] world := by
  refine { followed with pins := fun other => ?_ }
  have pins := followed.pins other
  rw [List.count_singleton]
  by_cases same : id = other
  · subst same
    simpa using Nat.succ_le_of_lt spare
  · simpa [same] using pins

/-- Every operation that is allowed leaves guards where their scopes find them. -/
theorem apply_succeeds {operation : Operation} (allowed : operation.Allowed world) (settled : Settled world) :
    Succeeds world (operation.apply world) := by
  have followed := settled.followed
  have carried := tracked_carried (fun _ => True) world
  -- all but a few leave the session and the scope alone
  have plain (ends : operation.task.Ends world fun _ after => Followed world [] after) :
      Succeeds world (operation.apply world) := settled.succeeds ends.exec
  cases operation with
  | put plan =>
    refine plain (.discard (onProvider_followed followed ?_))
    refine (World.onMemory_ends _ _).bind (fun _ after same => ?_) fun _ after ⟨_, same⟩ => by rw [same]
    obtain ⟨memory, rfl⟩ := same
    exact .next (Task.modify_run _ _) rfl
  | remove key => exact plain (.discard (onProvider_followed followed rfl))
  | putEncoding info => exact plain (onProvider_followed followed rfl)
  | intern typmod types =>
    refine plain (.discard (onProvider_followed followed ?_))
    refine (World.onMemory_ends _ _).bind (fun _ after same => ?_) fun _ after ⟨_, same⟩ => by rw [same]
    obtain ⟨memory, rfl⟩ := same
    exact .next (Task.modify_run _ _) rfl
  | setScope address kind =>
    have entered : Succeeds world { world with provider := { world.provider with scope := (address, kind) } } := by
      refine ⟨⟨followed.renew (fun _ => rfl) rfl rfl rfl (.refl followed.sound) followed.unique, settled.earlier⟩,
        Nat.le_refl _, .refl _ _ _ _, fun mutator its _ => ⟨its, fun address guard enrolled => ?_⟩,
        fun guard unknown there => ?_⟩
      · exact enrolled.congr rfl (fun _ _ enrolls => enrolls) fun released => released
      · cases unknown ▸ there
    exact entered
  | openSession => exact (World.openSession_succeeds settled).exec
  | closeSession => exact World.closeSession_succeeds settled
  | dropCatalog =>
    have dropped : Followed world [] { world with catalogHeld := false } :=
      followed.congr (fun _ => rfl) rfl rfl ⟨rfl, rfl, rfl, rfl, rfl⟩ rfl rfl rfl rfl
    exact plain (World.closeIfUnheld_followed dropped)
  | lookup target => exact plain (.discard (gives_followed (carried.target target [] world followed)))
  | read id field access =>
    have watched : World.Watched world [] world := ⟨followed, fun lossless => lossless⟩
    exact plain (read_ends followed fun accessor _ => gives_followed
      ((World.read_watched id access accessor allowed.2 watched).weaken fun _ _ => World.followed_of_watched))
  | drop id => exact plain (carried.release (drop_frees followed allowed))
  | trip id =>
    exact plain (trip_ends followed fun _ _ =>
      followed.congr (fun _ => rfl) rfl rfl ⟨rfl, rfl, rfl, rfl, rfl⟩ rfl rfl rfl rfl)
  | pin id => exact plain (pin_followed followed id)
  | unpin id => exact plain (unpin_followed followed allowed)
  | dispatch signals =>
    exact plain (.discard ((World.dispatch_tracked signals followed allowed).weaken fun _ _ ended => ended.1))
  | drain => exact plain (.discard (gives_followed (World.followed_drain world [] world followed)))
  | purge => exact plain (.discard (.lift (carried.purge followed)))
  | relieve => exact plain (.discard (.lift (carried.relieve followed)))
  | lifespan address => exact plain (.discard (.lift (followed.find allowed address).1))
  | currentLifespan =>
    exact plain (.discard ((World.currentLifespan_tracked followed allowed).weaken fun _ _ ended => ended.1))

/-! ## Runs -/

/-- The run built the guard in a session, for a scope. -/
def BuiltIn (operations : List Operation) (start : World) (mutator : Nat) (address : Address) (guard : GuardId) : Prop :=
  ∃ before operation rest, operations = before ++ operation :: rest ∧
    (after before start).session.map (·.mutator) = some mutator ∧ (after before start).provider.scope.1 = address ∧
    (after before start).ledger.guard? guard = none ∧
    ((operation.apply (after before start)).ledger.guard? guard).isSome = true

/-- Nobody can pin the guard any more, and if its action ran since an earlier state, it was
    told that its scope ended. -/
def GoneWithScope (before world : World) (guard : GuardId) : Prop :=
  (∃ held, world.ledger.guard? guard = some held ∧ held.isReleased = true ∧ held.releasedFault.kind = .released ∧
    ∀ thread, Ledger.pin thread guard world.ledger = .error (.fault held.releasedFault) world.ledger) ∧
  ∃ since, world.ledger.causes guard = before.ledger.causes guard ++ since ∧ ∀ cause ∈ since, cause = .lifespanEnded

theorem gone_of_told {base : World} {guard : GuardId} (told : Told base world guard) : GoneWithScope base world guard := by
  refine ⟨?_, told.2⟩
  obtain ⟨held, found, flag⟩ | ⟨held, found, flag⟩ := told.1 <;>
  · have released : held.isReleased = true := by simp [Guard.isReleased, flag]
    refine ⟨held, found, released, rfl, fun thread => ?_⟩
    unfold Ledger.pin
    rw [Task.bind_ok (Task.get_run _), Ledger.handle, show world.ledger.guard? guard = some held from found]
    simp only [released, if_true]
    rfl

theorem after_settled {config : Config} {operations : List Operation} (allowed : AllowedAll operations (World.start config)) :
    Settled (after operations (World.start config)) :=
  after_keeps (fun _ _ allowed settled => (apply_succeeds allowed settled).settled) allowed (World.settled_start config)

theorem Reached.settled {config : Config} (reached : Reached config world) : Settled world := by
  induction reached with
  | start => exact World.settled_start config
  | step operation _ allowed settled => exact (apply_succeeds allowed settled).settled
  | served provider _ settled =>
    exact ⟨settled.followed.renew (fun _ => rfl) rfl rfl rfl (.refl settled.followed.sound) settled.followed.unique,
      settled.earlier⟩

/-- A session finds the guards that were built in it. -/
theorem enrolled_of_built {config : Config} {operations : List Operation} {mutator : Nat} {address : Address}
    {guard : GuardId} (allowed : AllowedAll operations (World.start config))
    (built : BuiltIn operations (World.start config) mutator address guard)
    (session : (after operations (World.start config)).session.map (·.mutator) = some mutator) :
    (after operations (World.start config)).Enrolled address guard := by
  obtain ⟨before, operation, rest, rfl, its, scope, unknown, there⟩ := built
  obtain ⟨allowed, next, later⟩ := allowedAll_append.mp allowed
  rw [after_append] at session ⊢
  have settled := after_settled allowed
  have built := apply_succeeds next settled
  -- numbers of sessions do not come back
  have less : mutator < (after before (World.start config)).nextMutator := by
    obtain ⟨current, found, rfl⟩ := Option.map_eq_some_iff.mp its
    exact settled.earlier current found
  suffices kept : Settled (after rest (operation.apply (after before (World.start config)))) ∧
      mutator < (after rest (operation.apply (after before (World.start config)))).nextMutator ∧
      ((after rest (operation.apply (after before (World.start config)))).session.map (·.mutator) = some mutator →
        (after rest (operation.apply (after before (World.start config)))).Enrolled address guard) from kept.2.2 session
  refine @after_keeps (fun world => Settled world ∧ mutator < world.nextMutator ∧
    (world.session.map (·.mutator) = some mutator → world.Enrolled address guard))
    (fun operation world allowed ⟨settled, less, finds⟩ => ?_) rest _ later ⟨built.settled,
      Nat.lt_of_lt_of_le less built.numbers, fun _ => scope ▸ built.built guard unknown there⟩
  have step := apply_succeeds allowed settled
  refine ⟨step.settled, Nat.lt_of_lt_of_le less step.numbers, fun session => ?_⟩
  obtain ⟨same, kept⟩ := step.kept mutator session less
  exact kept address guard (finds same)

/-- After any run in which a session delivers a burst that tells that a scope was reset or
    deleted, every native descriptor that was built for the scope in the session is released
    and takes no pins, and no reference on it is given back from the burst on. -/
theorem released_with_scope (config : Config) (operations rest : List Operation) (signals : List Signal)
    (allowed : AllowedAll (operations ++ .dispatch signals :: rest) (World.start config))
    (mutator : Nat) (session : (after operations (World.start config)).session.map (·.mutator) = some mutator)
    (address : Address) (deleted : Bool) (signalled : .scope address deleted ∈ signals)
    (guard : GuardId) (built : BuiltIn operations (World.start config) mutator address guard) :
    GoneWithScope (after operations (World.start config))
      (after (operations ++ .dispatch signals :: rest) (World.start config)) guard := by
  obtain ⟨allowed, next, later⟩ := allowedAll_append.mp allowed
  have settled := after_settled allowed
  have enrolled := enrolled_of_built allowed built session
  rw [after_append]
  generalize after operations (World.start config) = world at *
  have burst : Told world ((Operation.dispatch signals).apply world) guard :=
    (Task.Ends.discard ((World.dispatch_tracked signals settled.followed next).weaken fun _ _ ended =>
      ended.2 address deleted signalled guard enrolled)).exec
  refine gone_of_told (@after_keeps (fun last => Settled last ∧ Told world last guard)
    (fun operation last allowed ⟨settled, told⟩ => ?_) rest _ later ⟨(apply_succeeds next settled).settled, burst⟩).2
  have step := apply_succeeds allowed settled
  exact ⟨step.settled, told.onward step.onward⟩

/-- The columns of a record type are read. -/
def readRecord : List Operation := [
  .openSession, .intern 7 [⟨23⟩], .lookup (.type recordType 7), .read 0 "descriptor" .mutator]

theorem built_readRecord : BuiltIn readRecord (World.start {}) 1 ⟨0x10⟩ 2 :=
  ⟨readRecord.take 3, .read 0 "descriptor" .mutator, [], rfl, by decide +kernel, by decide +kernel,
    by decide +kernel, by decide +kernel⟩

/-- The scope is reset, and the descriptor is let go afterwards. -/
theorem released_with_scope_readRecord :
    AllowedAll (readRecord ++ .dispatch [.scope ⟨0x10⟩ false] :: [.drop 1, .drain]) (World.start {}) ∧
    GoneWithScope (after readRecord (World.start {}))
      (after (readRecord ++ .dispatch [.scope ⟨0x10⟩ false] :: [.drop 1, .drain]) (World.start {})) 2 :=
  have allowed : AllowedAll (readRecord ++ .dispatch [.scope ⟨0x10⟩ false] :: [.drop 1, .drain]) (World.start {}) := by
    decide +kernel
  ⟨allowed, released_with_scope {} readRecord [.drop 1, .drain] [.scope ⟨0x10⟩ false] allowed 1 (by decide +kernel)
    ⟨0x10⟩ false (List.mem_singleton_self _) 2 built_readRecord⟩

/-- The session is closed, and another one is opened. -/
def readThenReopened : List Operation := readRecord ++ [.closeSession, .openSession]

/-- A descriptor that was built in an earlier session is not released with its scope. -/
theorem earlier_session_missed :
    ¬ ∀ (config : Config) (operations rest : List Operation) (signals : List Signal),
      AllowedAll (operations ++ .dispatch signals :: rest) (World.start config) →
      ∀ address deleted, .scope address deleted ∈ signals → ∀ guard,
        (∃ mutator, BuiltIn operations (World.start config) mutator address guard) →
        (∃ held, (after operations (World.start config)).ledger.guard? guard = some held ∧ held.isReleased = false) →
        GoneWithScope (after operations (World.start config))
          (after (operations ++ .dispatch signals :: rest) (World.start config)) guard := by
  intro claimed
  obtain ⟨before, operation, rest, split, its, scope, unknown, there⟩ := built_readRecord
  have missed := claimed {} readThenReopened [] [.scope ⟨0x10⟩ false] (by decide +kernel) ⟨0x10⟩ false
    (List.mem_singleton_self _) 2
    ⟨1, before, operation, rest ++ [.closeSession, .openSession], by simp [readThenReopened, split], its, scope,
      unknown, there⟩
    ⟨_, Option.eq_some_of_isSome (by decide +kernel), by decide +kernel⟩
  obtain ⟨held, found, released, -⟩ := missed.1
  have live : ((after (readThenReopened ++ [.dispatch [.scope ⟨0x10⟩ false]]) (World.start {})).ledger.guard? 2).any
      (·.isReleased) = false := by decide +kernel
  rw [show (after (readThenReopened ++ [.dispatch [.scope ⟨0x10⟩ false]]) (World.start {})).ledger.guard? 2 = some held
    from found, Option.any_some, released] at live
  cases live

end Operation

end CatalogReplica.Catalog
