import CatalogReplica.Proofs.Lifetime.Records

/-!
# What all operations keep

The operations on a ledger are made of few changes.  Whatever these keep, a release keeps,
the end of an owner, a drain and a teardown.

* `Guard.Stays`: what most changes of a guard leave alone.
* `Ledger.Engaged`: someone outside holds a queue.
* `Ledger.Carried`: what the changes keep, apart from those of a teardown.
* `Ledger.Carried.dropOwner`, `Ledger.Carried.drain`, `Ledger.TornCarried.teardown`: the
  operations keep it.
-/

namespace CatalogReplica.Lifetime

/-- The same resource with the same action and owner and no more pins; what was claimed or
    closing is so still. -/
structure Guard.Stays (before after : Guard) : Prop where
  handle : after.handle = before.handle
  queue : after.queue = before.queue
  action : after.action = before.action
  owned : after.owned = before.owned
  holders : after.holders.length ≤ before.holders.length
  claimed : before.flags.claimed = true → after.flags.claimed = true
  closing : before.flags.closing = true → after.flags.closing = true

namespace Ledger

/-- A guard without its action. -/
def disarmed (ledger : Ledger) (id : GuardId) : Ledger :=
  ledger.onGuard id fun held => { held with action := none }

/-! ## Queues -/

/-- Someone outside the ledger holds the queue. -/
def Engaged (queue : QueueId) (ledger : Ledger) : Prop :=
  ∃ record, ledger.queue? queue = some record ∧ record.handles ≠ 0

/-- A queue whose guards change is held as before. -/
theorem Engaged.onQueue {queue : QueueId} {ledger : Ledger} (engaged : ledger.Engaged queue) (other : QueueId)
    {f : ReleaseQueue → ReleaseQueue} (same : ∀ record, (f record).handles = record.handles) :
    (ledger.onQueue other f).Engaged queue := by
  obtain ⟨record, found, handles⟩ := engaged
  unfold Engaged
  rw [queue?_onQueue]
  split
  · exact ⟨f record, by rw [found, Option.map_some], by rwa [same]⟩
  · exact ⟨record, found, handles⟩

/-- A queue that is held outside is not swept. -/
theorem Engaged.sweepQueues {queue : QueueId} {ledger : Ledger} (engaged : ledger.Engaged queue) :
    ledger.sweepQueues.Engaged queue := by
  obtain ⟨record, found, handles⟩ := engaged
  refine ⟨record, ?_, handles⟩
  obtain ⟨before, later, split, none⟩ := List.lookup_eq_some_iff.mp found
  have kept : ledger.queueHeld queue record = true := by
    rw [queueHeld, bne_iff_ne.mpr handles, Bool.true_or]
  unfold queue? Ledger.sweepQueues Numbered.get?
  refine List.lookup_eq_some_iff.mpr ⟨before.filter fun entry => ledger.queueHeld entry.1 entry.2,
    later.filter fun entry => ledger.queueHeld entry.1 entry.2, ?_, fun entry among => ?_⟩
  · dsimp only
    rw [split, List.filter_append]
    exact congrArg _ (List.filter_cons_of_pos kept)
  · exact none entry (List.mem_filter.mp among).1

/-! ## Changes -/

/-- What the changes keep that operations on guards are made of.  Owners go away as far as
    they may, and queues that someone outside holds stay. -/
structure Carried (may : GuardId → Prop) (holds : Ledger → Prop) : Prop where
  tally : ∀ ledger tally, holds ledger → holds { ledger with tally }
  busy : ∀ ledger busy, holds ledger → holds { ledger with busy }
  queues : ∀ ledger queues, (∀ queue, ledger.Engaged queue → Engaged queue { ledger with queues }) →
    holds ledger → holds { ledger with queues }
  /-- Actions let owners go that may go. -/
  owns : ∀ ledger id held action, holds ledger → ledger.guard? id = some held →
    held.action = some action → ∀ owner ∈ action.owns, may owner
  guard : ∀ ledger id f, (∀ held : Guard, held.Stays (f held)) → holds ledger →
    holds (ledger.onGuard id f)
  disown : ∀ ledger id, may id → holds ledger →
    holds (ledger.onGuard id fun held => { held with owned := false })
  disarm : ∀ ledger id, holds ledger → holds (ledger.disarmed id)
  fire : ∀ ledger id held action cause, ledger.guard? id = some held → held.action = some action →
    holds ledger → holds ((ledger.disarmed id).note (.fired id held.handle cause))
  yield : ∀ ledger id handle, holds ledger → holds (ledger.note (.yielded id handle))
  /-- A guard leaves a table once its release is claimed. -/
  forget : ∀ ledger id lifespan, ledger.Claimed id → holds ledger →
    holds (ledger.onLifespan lifespan fun scope => { scope with guards := scope.guards.erase id })

theorem Claimed.onGuard {ledger : Ledger} {id : GuardId} (claimed : ledger.Claimed id) (other : GuardId)
    (f : Guard → Guard) (keeps : ∀ held : Guard, held.flags.claimed = true → (f held).flags.claimed = true) :
    (ledger.onGuard other f).Claimed id := by
  obtain ⟨held, found, flag⟩ := claimed
  rw [Option.mem_def] at found
  by_cases same : id = other
  · subst same
    exact ⟨f held, guard?_onGuard_self found f, keeps held flag⟩
  · exact ⟨held, by rw [guard?_onGuard, if_neg same]; exact found, flag⟩

namespace Carried

variable {may : GuardId → Prop} {holds : Ledger → Prop} {id : GuardId}

/-- A claimed release stays claimed meanwhile. -/
theorem claimed (carried : Carried may holds) (id : GuardId) :
    Carried may fun ledger => holds ledger ∧ ledger.Claimed id where
  tally ledger tally before := ⟨carried.tally ledger tally before.1, before.2⟩
  busy ledger busy before := ⟨carried.busy ledger busy before.1, before.2⟩
  queues ledger queues engaged before := ⟨carried.queues ledger queues engaged before.1, before.2⟩
  owns ledger id held action before := carried.owns ledger id held action before.1
  guard ledger other f stays before :=
    ⟨carried.guard ledger other f stays before.1, before.2.onGuard other f fun held => (stays held).claimed⟩
  disown ledger other allowed before :=
    ⟨carried.disown ledger other allowed before.1, before.2.onGuard other _ fun _ flag => flag⟩
  disarm ledger other before :=
    ⟨carried.disarm ledger other before.1, before.2.onGuard other _ fun _ flag => flag⟩
  fire ledger other held action cause found act before :=
    ⟨carried.fire ledger other held action cause found act before.1,
      before.2.onGuard other (fun held => { held with action := none }) fun _ flag => flag⟩
  yield ledger other handle before := ⟨carried.yield ledger other handle before.1, before.2⟩
  forget ledger other lifespan release before := ⟨carried.forget ledger other lifespan release before.1, before.2⟩

variable (carried : Carried may holds) {drop : GuardId → Task Ledger Unit}

include carried

theorem count {ledger : Ledger} (before : holds ledger) (id : GuardId) (counter : Counter) (n : Int) :
    holds (ledger.count id counter n) := by
  unfold Ledger.count
  split
  · exact carried.tally ledger _ before
  · exact before

theorem holding {α : Type} {body : Task Ledger α} (keeps : body.Keeps holds) (guards : List GuardId) :
    (Ledger.holding guards body).Keeps holds := by
  intro ledger before
  refine .next (Task.get_run ledger) (.next (Task.modify_run _ ledger) (.ensuring ?_))
  exact (keeps _ (carried.busy ledger _ before)).weaken fun _ after holds => carried.busy after _ holds

/-! ## Releases -/

theorem claim (id : GuardId) (ledger : Ledger) (before : holds ledger) : holds (ledger.claim id).2 := by
  unfold Ledger.claim
  cases ledger.guard? id with
  | none => exact before
  | some held =>
    refine carried.guard ledger id _ (fun held => ⟨rfl, rfl, rfl, rfl, Nat.le_refl _, ?_, fun flag => flag⟩) before
    intro _
    rfl

/-- The action of a guard runs, if it still has one. -/
theorem fireBy (drops : ∀ id, may id → (drop id).Keeps holds) (id : GuardId) (cause : ReleaseCause) :
    (Ledger.fireBy drop id cause).Keeps holds := by
  intro ledger before
  refine .next (Task.modify_run _ ledger) ?_
  have counted := carried.count before id cause.counter 1
  generalize ledger.count id cause.counter = mid at counted
  refine .next (Task.get_run mid) (.next (Task.lift_run _ mid) ?_)
  simp only [takeAction]
  cases found : mid.guard? id with
  | none => exact carried.disarm mid id counted
  | some held =>
    simp only [Option.bind_some, Option.map_some, Option.getD_some]
    cases act : held.action with
    | none => exact carried.disarm mid id counted
    | some action =>
      have fired := carried.fire mid id held action cause found act counted
      refine .next (Task.modify_run _ _) ((Task.Keeps.bind (.forM fun owner among => ?_) fun _ => ?_) _ fired)
      · exact drops owner (carried.owns mid id held action counted found act owner among)
      · split
        · exact .throw _
        · exact .pure _

/-- A release that was claimed is over: the guard leaves the table it is in. -/
theorem conclude {ledger : Ledger} (before : holds ledger) (release : ledger.Claimed id) (cause : ReleaseCause) :
    holds (ledger.conclude id cause) := by
  have finished (after : Ledger) (holds' : holds after) :
      holds (after.onGuard id fun held => { held with flags := { held.flags with released := true } }) := by
    refine carried.guard after id _ (fun held => ⟨rfl, rfl, rfl, rfl, Nat.le_refl _, fun _ => ?_, fun flag => flag⟩) holds'
    exact Bool.or_true _
  unfold Ledger.conclude
  cases cause with
  | lifespanEnded => exact finished ledger before
  | unreachable =>
    refine finished _ ?_
    have unlinked : holds (ledger.onGuard id fun held => { held with link := none }) :=
      carried.guard ledger id _ (fun held => ⟨rfl, rfl, rfl, rfl, Nat.le_refl _, fun flag => flag, fun flag => flag⟩) before
    have stillClaimed := release.onGuard id (fun held => { held with link := none }) fun _ flag => flag
    dsimp only
    cases (ledger.guard? id).bind (·.link) with
    | none => exact unlinked
    | some lifespan =>
      simp only [Ledger.forget]
      split
      · exact unlinked
      · split
        · exact carried.count (carried.forget _ id lifespan stillClaimed unlinked) id _ _
        · exact unlinked

theorem runBy (drops : ∀ id, may id → ∀ other, (drop id).Keeps fun ledger => holds ledger ∧ ledger.Claimed other)
    (id : GuardId) (cause : ReleaseCause) :
    (Ledger.runBy drop id cause).Keeps fun ledger => holds ledger ∧ ledger.Claimed id := by
  refine .bind ((carried.claimed id).fireBy (fun other allowed => drops other allowed id) id cause) fun _ => .modify ?_
  intro ledger before
  exact (carried.claimed id).conclude before before.2 cause

/-! ## Owners -/

theorem enqueue {ledger : Ledger} (before : holds ledger) (id : GuardId) (held : Guard) (queue : QueueId) :
    holds (ledger.enqueue id held queue) := by
  have pending : holds (ledger.onGuard id fun held =>
      { held with flags := { held.flags with pending := true } }) :=
    carried.guard ledger id _
      (fun held => ⟨rfl, rfl, rfl, rfl, Nat.le_refl _, fun flag => flag, fun flag => flag⟩) before
  unfold Ledger.enqueue
  split
  · exact pending
  · exact carried.queues _ _ (fun _ engaged => engaged.onQueue queue fun _ => rfl) pending

theorem reapBy (drops : ∀ id, may id → (drop id).Keeps holds) (rounds : Nat) :
    (Ledger.reapBy drop rounds).Keeps holds := by
  induction rounds with
  | zero => exact .pure _
  | succ rounds ih =>
    intro ledger before
    refine .next (Task.modify_run _ ledger) (.next (Task.get_run _) ?_)
    have swept : holds ledger.sweepQueues := carried.queues ledger _ (fun _ engaged => engaged.sweepQueues) before
    cases abandoned : ledger.sweepQueues.abandoned? with
    | none => exact swept
    | some id =>
      dsimp only
      refine .next (Task.lift_run _ _) ?_
      have disarmed := carried.disarm _ id swept
      simp only [takeAction]
      cases act : (ledger.sweepQueues.guard? id).bind (·.action) with
      | none => exact disarmed
      | some action =>
        obtain ⟨held, found, act⟩ := Option.bind_eq_some_iff.mp act
        exact (Task.Keeps.bind (.forM fun owner among =>
          drops owner (carried.owns _ id held action swept found act owner among)) fun _ => ih) _ disarmed

/-- What holds once the owner is gone holds when those are gone that its action lets go.  What is kept varies
    for these, since a release keeps its claim. -/
theorem dropWithin_ends {depth : Nat} {ledger : Ledger}
    (drops : ∀ {holds : Ledger → Prop}, Carried may holds → ∀ id, may id → (Ledger.dropWithin depth id).Keeps holds)
    (gone : ∀ held, ledger.guard? id = some held → held.owned = true →
      holds (ledger.onGuard id fun held => { held with owned := false }))
    (unowned : (∀ held, ledger.guard? id = some held → held.owned = false) → holds ledger) :
    (Ledger.dropWithin (depth + 1) id).Ends ledger fun _ after => holds after := by
  refine .next (Task.get_run ledger) ?_
  cases found : ledger.guard? id with
  | none => exact unowned fun held there => by cases found.symm.trans there
  | some held =>
    dsimp only
    split
    · next owned =>
      have disowned := gone held found owned
      split
      · refine .next (Task.set_run _ _) ?_
        exact carried.reapBy (drops carried) _ _ (carried.enqueue disowned id held _)
      · refine .next (Task.set_run _ _) ?_
        have claims := carried.claim id _ disowned
        split
        · have release : ((ledger.onGuard id fun held => { held with owned := false }).claim id).2.Claimed id := by
            have found' := guard?_onGuard_self found fun held => { held with owned := false }
            simp only [Ledger.claim, found']
            exact ⟨_, guard?_onGuard_self found' _, rfl⟩
          exact (carried.runBy (fun other may' one => drops (carried.claimed one) other may') id _ _
            ⟨claims, release⟩).weaken fun _ _ after => after.1
        · exact claims
    · next other =>
      refine unowned fun held' there => ?_
      rw [← Option.some.inj (found.symm.trans there)]
      exact Bool.not_eq_true _ ▸ other

omit carried in
/-- The owner goes away, and so do those that its action lets go.  The induction is on the
    depth. -/
theorem dropWithin (depth : Nat) : ∀ {holds : Ledger → Prop}, Carried may holds → ∀ id, may id →
    (Ledger.dropWithin depth id).Keeps holds := by
  induction depth with
  | zero => exact fun _ _ _ => .pure _
  | succ depth ih =>
    intro holds carried id allowed ledger before
    exact carried.dropWithin_ends ih (fun _ _ _ => carried.disown ledger id allowed before) fun _ => before

theorem dropOwner (allowed : may id) : (Ledger.dropOwner id).Keeps holds := by
  intro ledger before
  exact .next (Task.get_run ledger) (dropWithin _ carried id allowed ledger before)

/-- What holds once the owner is gone holds when its end is over. -/
theorem dropOwner_ends {ledger : Ledger}
    (gone : ∀ held, ledger.guard? id = some held → held.owned = true →
      holds (ledger.onGuard id fun held => { held with owned := false }))
    (unowned : (∀ held, ledger.guard? id = some held → held.owned = false) → holds ledger) :
    (Ledger.dropOwner id).Ends ledger fun _ after => holds after :=
  .next (Task.get_run ledger) (carried.dropWithin_ends (dropWithin _) gone unowned)

theorem run (id : GuardId) (cause : ReleaseCause) :
    (Ledger.run id cause).Keeps fun ledger => holds ledger ∧ ledger.Claimed id :=
  carried.runBy (fun _ allowed other => (carried.claimed other).dropOwner allowed) id cause

theorem release (id : GuardId) (cause : ReleaseCause) : (Ledger.release id cause).Keeps holds := by
  intro ledger before
  refine .next (Task.lift_run _ ledger) ?_
  have claims := carried.claim id ledger before
  cases found : ledger.guard? id with
  | none =>
    simp only [Ledger.claim, found] at claims ⊢
    exact before
  | some held =>
    have release : (ledger.claim id).2.Claimed id := by
      simp only [Ledger.claim, found]
      exact ⟨_, guard?_onGuard_self found _, rfl⟩
    split
    · exact ((carried.run id cause).bind fun _ => .pure _) _ ⟨claims, release⟩ |>.weaken fun _ _ after => after.1
    · exact claims

/-! ## Drains and pins -/

theorem drain (queue : QueueId) : (Ledger.drain queue).Keeps holds := by
  intro ledger before
  refine .next (Task.get_run ledger) (.next (Task.modify_run _ ledger) ?_)
  have emptied : holds (ledger.onQueue queue fun queue => { queue with guards := [] }) :=
    carried.queues ledger _ (fun _ engaged => engaged.onQueue queue fun _ => rfl) before
  refine carried.holding (.sum fun id _ => ?_) _ _ emptied
  exact (carried.release id .unreachable).map _

/-- What holds with the pin gone holds after the release that it may have put off. -/
theorem unpin_ends {ledger : Ledger} (thread : ThreadId) (id : GuardId)
    (fewer : holds (ledger.onGuard id fun held => { held with holders := held.holders.erase thread })) :
    (Ledger.unpin thread id).Ends ledger fun _ after => holds after := by
  refine .next (Task.modify_run _ ledger) (.next (Task.get_run _) ?_)
  generalize ledger.onGuard id _ = mid at fewer
  cases mid.guard? id with
  | none => exact fewer
  | some held =>
    dsimp only
    split
    · refine .next (Task.modify_run _ mid) ?_
      have undeferred : holds (mid.onGuard id fun held => { held with deferred := false }) :=
        carried.guard mid id _
          (fun held => ⟨rfl, rfl, rfl, rfl, Nat.le_refl _, fun flag => flag, fun flag => flag⟩) fewer
      exact (carried.release id .lifespanEnded).discard _ undeferred
    · exact fewer

theorem unpin (thread : ThreadId) (id : GuardId) : (Ledger.unpin thread id).Keeps holds := by
  intro ledger before
  exact carried.unpin_ends thread id (carried.guard ledger id _
    (fun held => ⟨rfl, rfl, rfl, rfl, (List.erase_sublist).length_le, fun flag => flag, fun flag => flag⟩) before)

omit carried in
/-- Where owners may go away, a guard may be withdrawn. -/
theorem withdraw (carried : Carried (fun _ => True) holds) (id : GuardId) : (Ledger.withdraw id).Keeps holds := by
  refine .bind (.modify fun ledger before => ?_) fun _ => .bind (.lift fun ledger before => carried.disarm ledger id before)
    fun taken => ?_
  · exact carried.guard ledger id _
      (fun held => ⟨rfl, rfl, rfl, rfl, Nat.le_refl _, fun _ => rfl, fun flag => flag⟩) before
  · cases taken with
    | none => exact .pure _
    | some action => exact .forM fun _ _ => carried.dropOwner trivial

/-! ## Teardowns -/

theorem releaseByLifespan (thread : ThreadId) (id : GuardId) :
    (Ledger.releaseByLifespan thread id).Keeps holds := by
  intro ledger before
  refine .next (Task.modify_run _ ledger) (.next (Task.get_run _) ?_)
  have closing : holds (ledger.onGuard id fun held =>
      { held with flags := { held.flags with closing := true } }) :=
    carried.guard ledger id _
      (fun held => ⟨rfl, rfl, rfl, rfl, Nat.le_refl _, fun flag => flag, fun _ => rfl⟩) before
  generalize ledger.onGuard id _ = mid at closing
  cases found : mid.guard? id with
  | none => exact closing
  | some held =>
    dsimp only
    split
    · next release =>
      have ran : (Ledger.run id .unreachable).Keeps fun ledger => holds ledger ∧ ledger.Claimed id :=
        carried.run id .unreachable
      split
      · exact ((ran.bind fun _ => .pure _) mid ⟨closing, held, found, release⟩).weaken fun _ _ after => after.1
      · exact closing
    · split
      · exact carried.guard mid id _
          (fun held => ⟨rfl, rfl, rfl, rfl, Nat.le_refl _, fun flag => flag, fun flag => flag⟩) closing
      · refine (Task.Keeps.bind (.forM fun holder _ => ?_) fun _ => carried.release id .lifespanEnded) mid closing
        exact .bind (.modify fun ledger before => carried.yield ledger id held.handle before) fun _ =>
          carried.unpin holder id

theorem releaseAll (thread : ThreadId) (guards : List GuardId) :
    (Ledger.releaseAll thread guards).Keeps holds :=
  .sum fun id _ => .bind (.modify fun _ before => carried.count before id _ _) fun _ =>
    (carried.releaseByLifespan thread id).map _

end Carried

/-- What a teardown of the lifespans that are torn down keeps, too. -/
structure TornCarried (may : GuardId → Prop) (torn : LifespanId → Bool → Prop) (holds : Ledger → Prop) : Prop
    extends Carried may holds where
  empty : ∀ ledger lifespan close, torn lifespan close → holds ledger →
    holds (ledger.onLifespan lifespan fun scope => { scope with ended := close, guards := [], children := [] })
  inside : ∀ ledger lifespan close scope, torn lifespan close → holds ledger →
    ledger.lifespan? lifespan = some scope → ∀ child ∈ scope.children, torn child true

namespace TornCarried

variable {may : GuardId → Prop} {torn : LifespanId → Bool → Prop} {holds : Ledger → Prop}

theorem teardownWithin (carried : TornCarried may torn holds) (thread : ThreadId) (depth : Nat) :
    ∀ {lifespan close}, torn lifespan close → (Ledger.teardownWithin thread depth lifespan close).Keeps holds := by
  induction depth with
  | zero => exact fun _ => .pure _
  | succ depth ih =>
    intro lifespan close reached ledger before
    refine .next (Task.get_run ledger) ?_
    cases found : ledger.lifespan? lifespan with
    | none => exact before
    | some scope =>
      dsimp only
      split
      · exact before
      · refine .next (Task.modify_run _ ledger) ?_
        refine carried.toCarried.holding (.bind (.sum fun child among => ?_) fun _ =>
          .bind (carried.releaseAll thread _) fun _ => .pure _) _ _ (carried.empty ledger lifespan close reached before)
        exact ih (carried.inside ledger lifespan close scope reached before found child among)

theorem teardown (carried : TornCarried may torn holds) (thread : ThreadId) {lifespan : LifespanId} {close : Bool}
    (reached : torn lifespan close) : (Ledger.teardown thread lifespan close).Keeps holds := by
  intro ledger before
  exact .next (Task.get_run ledger) (carried.teardownWithin thread _ reached ledger before)

end TornCarried

end Ledger

end CatalogReplica.Lifetime
