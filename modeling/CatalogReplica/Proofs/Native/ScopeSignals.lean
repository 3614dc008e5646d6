import CatalogReplica.Proofs.Native.Adoption

/-!
# The end of a scope

When a burst tells that a scope was reset or deleted, all guards that the session finds
through the scope are released, and their actions are told that the scope ended.

* `World.teardowns_collectAll`: a burst tears down the scopes that it tells of.
* `World.teardown_tracked`: one scope is torn down.
* `World.dispatch_tracked`: a burst is delivered.
-/

namespace CatalogReplica.Catalog

open Lifetime (Guard GuardId Ledger LifespanId ReleaseCause)
open Identity (Cache CacheView)

/-- The scope that the signal tells of, and whether it was deleted. -/
def Signal.scope? : Signal → Option (Address × Bool)
  | .scope address deleted => some (address, deleted)
  | _ => none

namespace World

variable {α : Type} {allowed : ReleaseCause → Prop} {base world after : World} {got : List ThingId}
  {state : Cascade × World}

/-! ## Collecting -/

theorem foldl_teardowns {f : Cascade × World → α → Cascade × World} (list : List α)
    (step : ∀ state one, (f state one).1.teardowns = state.1.teardowns) :
    (list.foldl f state).1.teardowns = state.1.teardowns := by
  induction list generalizing state with
  | nil => rfl
  | cons one list ih => exact ih.trans (step state one)

theorem teardowns_evict (cascade : Cascade) (key : EntityKey) : (cascade.evict key).teardowns = cascade.teardowns := by
  unfold Cascade.evict
  split <;> rfl

theorem teardowns_tripThing (id : ThingId) (state : Cascade × World) :
    (tripThing id state).1.teardowns = state.1.teardowns := by
  obtain ⟨cascade, world⟩ := state
  unfold tripThing
  dsimp only
  split <;> rfl

theorem teardowns_invalidateAlone (change : Change) (id : ThingId) (state : Cascade × World) :
    (invalidateAlone change id state).1.teardowns = state.1.teardowns := by
  have tripped := teardowns_tripThing id state
  unfold invalidateAlone
  dsimp only
  split
  · exact (teardowns_evict _ _).trans tripped
  · exact tripped

theorem teardowns_invalidateTypes (oids : List Oid) (cascade : Cascade) (world : World) :
    (invalidateTypes oids (cascade, world)).1.teardowns = cascade.teardowns := by
  induction oids generalizing cascade world with
  | nil => rfl
  | cons oid oids ih =>
    unfold invalidateTypes
    exact (ih _ _).trans (foldl_teardowns _ fun state id => teardowns_invalidateAlone .updated id state)

theorem teardowns_invalidateRoutines (oids : List Oid) (cascade : Cascade) (world : World) :
    (invalidateRoutines oids (cascade, world)).1.teardowns = cascade.teardowns := by
  unfold invalidateRoutines
  exact foldl_teardowns _ fun state id => teardowns_invalidateAlone .updated id state

theorem teardowns_invalidate (change : Change) (id : ThingId) (state : Cascade × World) :
    (invalidate change id state).1.teardowns = state.1.teardowns := by
  have tripped := teardowns_tripThing id state
  unfold invalidate
  split
  · rfl
  · next entity _ =>
    split
    · have types := (teardowns_invalidateTypes entity.ties.types (tripThing id state).1
        (onThing id (Thing.onTies Ties.withoutTypes) (tripThing id state).2)).trans tripped
      dsimp only
      split
      · exact types
      · -- the attributes go with the relation
        refine Eq.trans ?_ ((teardowns_evict _ entity.key).trans types)
        generalize (Cascade.evict _ entity.key) = cascade
        induction entity.ties.attributes generalizing cascade with
        | nil => rfl
        | cons attnum attnums ih => exact (ih _).trans (teardowns_evict cascade _)
    · have routines := (teardowns_invalidateRoutines entity.ties.routines (tripThing id state).1
        (onThing id (Thing.onTies Ties.withoutRoutines) (tripThing id state).2)).trans tripped
      dsimp only
      split
      · exact routines
      · exact (teardowns_evict _ _).trans routines
    · exact teardowns_invalidateAlone change id state

theorem teardowns_collectRow (kind : EntityClass) (object : Oid) (change : Change) (state : Cascade × World) :
    (collectRow kind object change state).1.teardowns = state.1.teardowns := by
  unfold collectRow
  exact foldl_teardowns _ fun state id => teardowns_invalidate _ id state

theorem teardowns_collect (signal : Signal) (state : Cascade × World) :
    (collect signal state).1.teardowns = state.1.teardowns ++ signal.scope?.toList := by
  cases signal with
  | row classOid object change =>
    unfold collect
    dsimp only
    split
    · rw [teardowns_collectRow]
      exact (List.append_nil _).symm
    · exact (List.append_nil _).symm
  | scope address deleted => rfl
  | all =>
    unfold collect
    rw [foldl_teardowns _ fun state kind => teardowns_collectRow kind _ .updated state]
    exact (List.append_nil _).symm

/-- A burst tears down the scopes that it tells of, in order. -/
theorem teardowns_collectAll (signals : List Signal) (world : World) :
    (collectAll signals world).1.teardowns = signals.filterMap Signal.scope? := by
  suffices all : ∀ state : Cascade × World, (signals.foldl
      (fun state signal => collect signal (state.1, count .dispatchSignal state.2)) state).1.teardowns
        = state.1.teardowns ++ signals.filterMap Signal.scope? from all ({}, world)
  induction signals with
  | nil => exact fun _ => (List.append_nil _).symm
  | cons signal signals ih =>
    intro state
    refine (ih _).trans ?_
    rw [teardowns_collect, List.append_assoc]
    cases its : signal.scope? <;> simp [its]

/-! ## Teardowns -/

variable {session : Session} {address : Address} {found : Option LifespanId} {notes : List (Identity.Note Address)}
  {cache : Cache Address LifespanId}

/-- The lifespan that the session has for the scope is torn down.  Whether the session keeps it
    or not, the scope leads to no guards any more that were not released. -/
theorem Tracked.tearDown (tracked : Tracked (· = .lifespanEnded) base got world) (its : world.session = some session)
    (unique : cache.Unique)
    (finds : ∀ lifespan, (address, lifespan) ∈ session.lifespans.table → found = some lifespan)
    (keeps : ∀ entry ∈ session.lifespans.table, entry.1 ≠ address → entry ∈ cache.table) (deleted : Bool) :
    (found.elim (pure 0) fun lifespan => World.onLedger (Ledger.teardown mutatorThread lifespan deleted)).Ends
      (lifespanView.store notes cache world) fun outcome after => (∃ count, outcome = .ok count) ∧
        Tracked (· = .lifespanEnded) base got after ∧
          ∀ guard, world.Enrolled address guard → after.ledger.Released guard := by
  have now : (lifespanView.store notes cache world).session = some { session with lifespans := cache } := by
    simp [CacheView.store, lifespanView, note, its]
  have first : Ledger.Proceeds mutatorThread (· = .lifespanEnded) (fun _ => False) world.ledger
      (lifespanView.store notes cache world).ledger := tracked.sound.sameLedger ⟨rfl, rfl, rfl, rfl, rfl⟩
  have unlisted {last : World} (same : last.session = some { session with lifespans := cache }) :
      last.session.map (·.mutator) = world.session.map (·.mutator) ∧
        ∀ session, last.session = some session → session.lifespans.Unique := by
    refine ⟨by rw [same, its]; rfl, fun _ there => ?_⟩
    cases same.symm.trans there
    exact unique
  -- Without a lifespan of this address nothing is enrolled there; with one the teardown releases all it lists.
  cases isFound : found with
  | none =>
    have absent (lifespan : LifespanId) : (address, lifespan) ∉ session.lifespans.table := fun among => by
      cases isFound.symm.trans (finds lifespan among)
    refine ⟨⟨0, rfl⟩, ?_, fun guard enrolled => ?_⟩
    · refine tracked.move (fun _ => rfl) rfl rfl ⟨rfl, rfl, rfl, rfl, rfl⟩ rfl rfl (unlisted now).1 rfl (unlisted now).2 ?_
      rintro other guard (released | ⟨_, lifespan, there, among, enrolls⟩)
      · exact .inl released
      · cases its.symm.trans there
        refine .inr ⟨_, lifespan, now, keeps _ among ?_, enrolls⟩
        rintro rfl
        exact absent lifespan among
    · obtain released | ⟨_, lifespan, there, among, -⟩ := enrolled
      · exact released
      · cases its.symm.trans there
        exact absurd among (absent lifespan)
  | some lifespan =>
    refine onLedger_ends_as ((Ledger.teardown_proceeds first.sound lifespan deleted).weaken fun outcome ledger ended => ?_)
    obtain ⟨ok, torn, empty⟩ := ended
    have proceeds := first.trans torn
    have through {other : LifespanId} (among : (address, other) ∈ session.lifespans.table) : other = lifespan :=
      Option.some.inj ((finds other among).symm.trans isFound)
    refine ⟨ok, ?_, fun guard enrolled => ?_⟩
    · have released := tracked.setLedger proceeds fun _ _ _ => not_false
      refine released.move (fun _ => rfl) rfl rfl ⟨rfl, rfl, rfl, rfl, rfl⟩ rfl ?_ (unlisted now).1 rfl (unlisted now).2 ?_
      · rfl
      · rintro other guard (still | ⟨_, lifespan', there, among, enrolls⟩)
        · exact .inl still
        · cases its.symm.trans there
          by_cases same : other = address
          · subst same
            exact .inl (empty guard (through among ▸ enrolls))
          · exact .inr ⟨_, lifespan', now, keeps _ among same, enrolls⟩
    · obtain still | ⟨_, other, there, among, enrolls⟩ := enrolled
      · exact still.imp proceeds.onward.claimed proceeds.onward.closing
      · cases its.symm.trans there
        exact empty guard (proceeds.enrolls _ _ (through among ▸ enrolls))

/-- A scope is torn down: the guards that the session finds through it are released. -/
theorem teardown_tracked (tracked : Tracked (· = .lifespanEnded) base got world) (inSession : base.session.isSome = true)
    (address : Address) (deleted : Bool) :
    (teardown address deleted).Ends world fun outcome after => (∃ count, outcome = .ok count) ∧
      Tracked (· = .lifespanEnded) base got after ∧
        ∀ guard, world.Enrolled address guard → after.ledger.Released guard := by
  obtain ⟨session, its⟩ := tracked.inSession inSession
  have unique := tracked.unique session its
  unfold teardown
  refine .next (Task.lift_run _ world) ?_
  cases deleted with
  | false =>
    simp only [Bool.false_eq_true, if_false]
    unfold CacheView.get?
    rw [get_lifespanView its]
    obtain ⟨lifespan, among, -, run⟩ | ⟨dead, notes, cache, run, trimmed, -⟩ :=
      session.lifespans.get?_cases (lifespanView.alive world) address <;> rw [run]
    · have finds (other : LifespanId) (among' : (address, other) ∈ session.lifespans.table) :
          some lifespan = some other := congrArg some (unique.eq among among')
      exact tracked.tearDown its unique finds (fun _ among _ => among) false
    · have trimmed := trimmed unique
      have finds (other : LifespanId) (among : (address, other) ∈ session.lifespans.table) : none = some other := by
        cases dead unique other among
      exact tracked.tearDown its (trimmed.unique unique) finds (fun entry among _ => trimmed.live entry among rfl) false
  | true =>
    simp only [if_true]
    obtain ⟨found, notes, cache, run, table, -, -⟩ :=
      session.lifespans.evict_cases (lifespanView.alive world) address
    have left : lifespanView.evict address world = (found, lifespanView.store notes cache world) := by
      rw [CacheView.evict, get_lifespanView its, run]
      cases found <;> rfl
    have fewer : cache.Unique := by
      unfold Cache.Unique
      rw [table]
      exact List.Sublist.nodup (List.filter_sublist.map _) unique
    have finds (lifespan : LifespanId) (among : (address, lifespan) ∈ session.lifespans.table) : found = some lifespan := by
      have live : lifespanView.alive world lifespan = true := rfl
      have evicted := Cache.evict_of_live unique among live
      rwa [run] at evicted
    have keeps (entry : Address × LifespanId) (among : entry ∈ session.lifespans.table) (differs : entry.1 ≠ address) :
        entry ∈ cache.table := by
      rw [table]
      exact Cache.mem_erase.mpr ⟨among, differs⟩
    have torn : Task.Ends _ (lifespanView.store notes cache world) _ := tracked.tearDown its fewer finds keeps true
    rw [left]
    cases found <;> exact torn

/-- Scopes are torn down in order, and none of the teardowns is interrupted. -/
theorem teardowns_tracked (teardowns : List (Address × Bool)) (tracked : Tracked (· = .lifespanEnded) world got world)
    (inSession : world.session.isSome = true) :
    (Task.sum (fun entry => teardown entry.1 entry.2) teardowns).Ends world fun outcome after =>
      (∃ count, outcome = .ok count) ∧ Tracked (· = .lifespanEnded) world got after ∧
        ∀ entry ∈ teardowns, ∀ guard, world.Enrolled entry.1 guard → after.ledger.Released guard := by
  induction teardowns generalizing world with
  | nil => exact ⟨⟨0, rfl⟩, tracked, nofun⟩
  | cons entry teardowns ih =>
    refine (teardown_tracked tracked inSession entry.1 entry.2).bind ?_ ?_
    · rintro count mid ⟨-, first, closed⟩
      have later : mid.session.isSome = true := by
        obtain ⟨session, its⟩ := first.inSession inSession
        rw [its]
        rfl
      refine (ih first.self later).bind (fun others after ended => ?_) fun _ _ ⟨⟨_, broken⟩, _⟩ => by cases broken
      obtain ⟨-, second, closed'⟩ := ended
      refine ⟨⟨_, rfl⟩, first.trans second, fun other among guard enrolled => ?_⟩
      obtain rfl | later := List.mem_cons.mp among
      · exact (closed guard enrolled).imp second.onward.claimed second.onward.closing
      · exact closed' other later guard (first.enrolled _ guard enrolled)
    · rintro _ _ ⟨⟨_, broken⟩, -⟩
      cases broken

/-! ## Bursts -/

/-- The guard was released, and if its action ran since an earlier state, it was told that its
    scope ended. -/
def Told (base world : World) (guard : GuardId) : Prop :=
  world.ledger.Released guard ∧ ∃ since, world.ledger.causes guard = base.ledger.causes guard ++ since ∧
    ∀ cause ∈ since, cause = .lifespanEnded

theorem Told.onward {guard : GuardId} (told : Told base world guard)
    (onward : Ledger.Onward allowed (fun _ => True) [] [] world.ledger after.ledger) : Told base after guard := by
  obtain ⟨released, since, grown, native⟩ := told
  obtain ⟨new, grown', -, closing, claimed⟩ := onward.grown guard
  refine ⟨released.imp onward.claimed onward.closing, since ++ new, by rw [grown', grown, List.append_assoc],
    fun cause among => ?_⟩
  obtain before | later := List.mem_append.mp among
  · exact native cause before
  · obtain claims | closes := released
    · rw [claimed claims] at later
      cases later
    · exact closing closes cause later

theorem followed_drain (base : World) : Minds (Followed base) drain := by
  intro got world followed
  refine .next (Task.get_run world) ?_
  have drained := followed.onLedger (Ledger.drain_proceeds followed.sound world.queue) (fun _ _ => trivial)
    fun _ _ _ => not_false
  refine drained.weaken fun outcome after followed => ?_
  cases outcome <;> exact followed

/-- A burst is delivered: what the session finds through the scopes that the burst tells of is
    released, and is told so. -/
theorem dispatch_tracked (signals : List Signal) (followed : Followed world [] world)
    (inSession : world.session.isSome = true) :
    (dispatch signals).Ends world fun _ after => Followed world [] after ∧
      ∀ address deleted, .scope address deleted ∈ signals → ∀ guard, world.Enrolled address guard →
        Told world after guard := by
  refine .next (Task.lift_run _ world) ?_
  -- before the teardowns no action runs, and after them the guards of the scopes are released
  let mid (torn : World) : Prop := Followed world [] torn ∧
    ∀ address deleted, .scope address deleted ∈ signals → ∀ guard, world.Enrolled address guard → Told world torn guard
  let later (got : List ThingId) (last : World) : Prop := ∃ torn, mid torn ∧ Followed torn got last
  have quiet := tracked_carried (fun _ => False) world
  have loud : Carried later := by
    have carried (torn : World) := tracked_carried (fun _ => True) torn
    exact {
      perm := fun same ⟨torn, its, followed⟩ => ⟨torn, its, (carried torn).perm same followed⟩
      less := fun ⟨torn, its, followed⟩ => ⟨torn, its, (carried torn).less followed⟩
      aside := fun aside ⟨torn, its, followed⟩ => ⟨torn, its, (carried torn).aside aside followed⟩
      hold := fun id ⟨torn, its, followed⟩ => ⟨torn, its, (carried torn).hold id followed⟩
      unhold := fun ⟨torn, its, followed⟩ => ⟨torn, its, (carried torn).unhold followed⟩
      add := fun unguarded ⟨torn, its, followed⟩ => ⟨torn, its, (carried torn).add unguarded followed⟩
      gone := fun found alone ⟨torn, its, followed⟩ => ⟨torn, its, (carried torn).gone found alone followed⟩ }
  have drains : Minds later drain := fun got last ⟨torn, its, followed⟩ =>
    (followed_drain torn got last followed).weaken fun outcome _ followed => by
      cases outcome <;> exact ⟨torn, its, followed⟩
  have start : Tracked (fun _ => False) world [] (collectAll signals world).2 := quiet.collectAll signals followed.self
  have ends := quiet.commit loud drains (collectAll signals world).1 start fun last before => ?_
  · refine ends.weaken fun outcome after ended => ?_
    have ended : later [] after := by cases outcome <;> exact ended
    obtain ⟨torn, ⟨followed, told⟩, rest⟩ := ended
    exact ⟨followed.trans rest, fun address deleted signalled guard enrolled =>
      (told address deleted signalled guard enrolled).onward rest.onward⟩
  · have there : last.session.isSome = true := by
      obtain ⟨session, its⟩ := before.inSession inSession
      rw [its]
      rfl
    refine (teardowns_tracked _ before.self there).weaken fun outcome torn ended => ?_
    obtain ⟨-, tracked, released⟩ := ended
    have whole : Tracked (· = .lifespanEnded) world [] torn := (before.weaken fun _ => False.elim).trans tracked
    have done : later [] torn := by
      refine ⟨torn, ⟨whole.weaken fun _ _ => trivial, fun address deleted signalled guard enrolled => ⟨?_, ?_⟩⟩, whole.self⟩
      · refine released (address, deleted) ?_ guard (before.enrolled address guard enrolled)
        rw [teardowns_collectAll]
        exact List.mem_filterMap.mpr ⟨_, signalled, rfl⟩
      · obtain ⟨since, grown, causes, -⟩ := whole.onward.grown guard
        exact ⟨since, grown, causes⟩
    cases outcome <;> exact done

end World

end CatalogReplica.Catalog
