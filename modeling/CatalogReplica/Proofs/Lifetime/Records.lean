import CatalogReplica.Proofs.Lifetime.Operations

/-!
# What a release changes

* `Ledger.Same`: nothing changed but counters and what operations go through.
* `Ledger.Touches`: one guard changed; tables may have lost it and nothing else.
* `Ledger.release_run`: what a release does to a guard whose action neither breaks off
  nor lets owners go.
-/

namespace CatalogReplica.Lifetime

/-- A guard after its release. -/
def Guard.spent (held : Guard) (link : Option LifespanId) : Guard :=
  { held with
    flags := { held.flags with releasing := true, released := true }, action := none, link }

/-- The action of the guard neither breaks off nor lets owners go. -/
def Guard.Quiet (held : Guard) : Prop :=
  ∀ action ∈ held.action, action.owns = [] ∧ action.crashes = false

namespace ReleaseQueue

variable (queue : ReleaseQueue) (mutator : Nat)

@[simp] theorem bind_guards : (queue.bind mutator).2.guards = queue.guards := by
  unfold bind
  split <;> rfl

@[simp] theorem bind_handles : (queue.bind mutator).2.handles = queue.handles := by
  unfold bind
  split <;> rfl

@[simp] theorem unbind_guards : (queue.unbind mutator).2.guards = queue.guards := by
  unfold unbind
  split <;> rfl

@[simp] theorem unbind_handles : (queue.unbind mutator).2.handles = queue.handles := by
  unfold unbind
  split <;> rfl

end ReleaseQueue

namespace Ledger

/-! ## Look-ups -/

theorem guard?_onGuard (ledger : Ledger) (id other : GuardId) (f : Guard → Guard) :
    (ledger.onGuard id f).guard? other
      = if other = id then (ledger.guard? other).map f else ledger.guard? other :=
  Numbered.get?_update ledger.guards id other f

theorem lifespan?_onLifespan (ledger : Ledger) (id other : LifespanId) (f : Lifespan → Lifespan) :
    (ledger.onLifespan id f).lifespan? other
      = if other = id then (ledger.lifespan? other).map f else ledger.lifespan? other :=
  Numbered.get?_update ledger.lifespans id other f

theorem ids_onGuard (ledger : Ledger) (id : GuardId) (f : Guard → Guard) :
    (ledger.onGuard id f).guards.ids = ledger.guards.ids := by
  unfold onGuard
  exact Numbered.ids_update ledger.guards id f

theorem ids_onQueue (ledger : Ledger) (id : QueueId) (f : ReleaseQueue → ReleaseQueue) :
    (ledger.onQueue id f).queues.ids = ledger.queues.ids := by
  unfold onQueue
  exact Numbered.ids_update ledger.queues id f

theorem ids_onLifespan (ledger : Ledger) (id : LifespanId) (f : Lifespan → Lifespan) :
    (ledger.onLifespan id f).lifespans.ids = ledger.lifespans.ids := by
  unfold onLifespan
  exact Numbered.ids_update ledger.lifespans id f

theorem queue?_onQueue (ledger : Ledger) (id other : QueueId) (f : ReleaseQueue → ReleaseQueue) :
    (ledger.onQueue id f).queue? other
      = if other = id then (ledger.queue? other).map f else ledger.queue? other :=
  Numbered.get?_update ledger.queues id other f

/-- A guard that is changed is found changed. -/
theorem guard?_onGuard_self {ledger : Ledger} {id : GuardId} {held : Guard}
    (found : ledger.guard? id = some held) (f : Guard → Guard) :
    (ledger.onGuard id f).guard? id = some (f held) := by
  rw [guard?_onGuard, if_pos rfl, found, Option.map_some]

theorem causes_note_fired (ledger : Ledger) (id other : GuardId) (handle : Address)
    (cause : ReleaseCause) :
    (ledger.note (.fired id handle cause)).causes other
      = ledger.causes other ++ if id = other then [cause] else [] := by
  unfold causes note
  rw [List.filterMap_append]
  by_cases same : id = other <;> simp [same]

/-! ## Counters -/

/-- The ledgers differ at most in their counters and in what operations go through. -/
structure Same (before after : Ledger) : Prop where
  guards : after.guards = before.guards
  lifespans : after.lifespans = before.lifespans
  queues : after.queues = before.queues
  next : after.next = before.next
  log : after.log = before.log

theorem same_count (ledger : Ledger) (id : GuardId) (counter : Counter) (n : Int) :
    Same ledger (ledger.count id counter n) := by
  unfold count
  split <;> exact ⟨rfl, rfl, rfl, rfl, rfl⟩

/-! ## One guard -/

/-- Nothing changed but one guard, its causes, and tables that may have lost it. -/
structure Touches (id : GuardId) (before after : Ledger) : Prop where
  /-- The guards are the same ones. -/
  guards : after.guards.ids = before.guards.ids
  /-- Other guards are as they were. -/
  others : ∀ other, other ≠ id → after.guard? other = before.guard? other
  /-- Nothing happened to them. -/
  silent : ∀ other, other ≠ id → after.causes other = before.causes other
  /-- Queues are as they were. -/
  queues : after.queues = before.queues
  /-- No number was handed out. -/
  next : after.next = before.next
  /-- The lifespans are the same ones. -/
  ids : after.lifespans.ids = before.lifespans.ids
  /-- Their tables have not grown. -/
  thinned : ∀ lifespan scope', after.lifespan? lifespan = some scope' →
    ∃ scope, before.lifespan? lifespan = some scope ∧ scope'.guards ⊆ scope.guards ∧
      scope'.children = scope.children ∧ scope'.ended = scope.ended

namespace Touches

variable {id : GuardId} {before after last : Ledger}

theorem trans (first : Touches id before after) (second : Touches id after last) :
    Touches id before last where
  guards := second.guards.trans first.guards
  others other differs := (second.others other differs).trans (first.others other differs)
  silent other differs := (second.silent other differs).trans (first.silent other differs)
  queues := second.queues.trans first.queues
  next := second.next.trans first.next
  ids := second.ids.trans first.ids
  thinned := by
    intro lifespan scope' found'
    obtain ⟨mid, foundMid, fewer, children, ended⟩ := second.thinned lifespan scope' found'
    obtain ⟨scope, found, fewer', children', ended'⟩ := first.thinned lifespan mid foundMid
    exact ⟨scope, found, List.Subset.trans fewer fewer', children.trans children',
      ended.trans ended'⟩

theorem of_same (id : GuardId) (same : Same before after) : Touches id before after where
  guards := by rw [same.guards]
  others other _ := by rw [guard?, same.guards, guard?]
  silent other _ := by rw [causes, same.log, causes]
  queues := same.queues
  next := same.next
  ids := by rw [same.lifespans]
  thinned lifespan scope' found' := by
    rw [lifespan?, same.lifespans] at found'
    exact ⟨scope', found', List.Subset.refl _, rfl, rfl⟩

theorem onGuard (ledger : Ledger) (id : GuardId) (f : Guard → Guard) :
    Touches id ledger (ledger.onGuard id f) where
  guards := ids_onGuard ledger id f
  others other differs := by rw [guard?_onGuard, if_neg differs]
  silent _ _ := rfl
  queues := rfl
  next := rfl
  ids := rfl
  thinned _ scope' found' := ⟨scope', found', List.Subset.refl _, rfl, rfl⟩

theorem note (ledger : Ledger) (id : GuardId) (handle : Address) (cause : ReleaseCause) :
    Touches id ledger (ledger.note (.fired id handle cause)) where
  guards := rfl
  others _ _ := rfl
  silent other differs := by
    rw [causes_note_fired, if_neg (Ne.symm differs), List.append_nil]
  queues := rfl
  next := rfl
  ids := rfl
  thinned _ scope' found' := ⟨scope', found', List.Subset.refl _, rfl, rfl⟩

end Touches

/-- Taking a guard out of a table leaves everything else alone, and all guards. -/
theorem touches_forget (ledger : Ledger) (id : GuardId) (lifespan : LifespanId) :
    Touches id ledger (ledger.forget id lifespan).2 := by
  unfold forget
  cases found : ledger.lifespan? lifespan with
  | none => exact .of_same id ⟨rfl, rfl, rfl, rfl, rfl⟩
  | some scope =>
    dsimp only
    split
    · refine Touches.trans ?_ (.of_same id (same_count _ _ _ _))
      refine ⟨rfl, fun _ _ => rfl, fun _ _ => rfl, rfl, rfl, ids_onLifespan _ _ _, ?_⟩
      intro other scope' found'
      rw [lifespan?_onLifespan] at found'
      split at found'
      · next same =>
        subst same
        rw [found, Option.map_some, Option.some.injEq] at found'
        subst found'
        exact ⟨scope, found, List.erase_subset, rfl, rfl⟩
      · exact ⟨scope', found', List.Subset.refl _, rfl, rfl⟩
    · exact .of_same id ⟨rfl, rfl, rfl, rfl, rfl⟩

theorem guard?_forget (ledger : Ledger) (id other : GuardId) (lifespan : LifespanId) :
    (ledger.forget id lifespan).2.guard? other = ledger.guard? other := by
  unfold forget
  split
  · rfl
  · split
    · rw [guard?, (same_count _ _ _ _).guards]
      rfl
    · rfl

theorem causes_forget (ledger : Ledger) (id other : GuardId) (lifespan : LifespanId) :
    (ledger.forget id lifespan).2.causes other = ledger.causes other := by
  unfold forget
  split
  · rfl
  · split
    · rw [causes, (same_count _ _ _ _).log]
      rfl
    · rfl

/-! ## Releases -/

variable {ledger : Ledger} {id : GuardId} {held : Guard}

/-- The first part of a release takes the action and notes that it ran, if there is one. -/
theorem fireBy_run (drop : GuardId → Task Ledger Unit) (found : ledger.guard? id = some held)
    (quiet : held.Quiet) (cause : ReleaseCause) :
    ∃ after, fireBy drop id cause ledger = .ok () after ∧ Touches id ledger after ∧
      after.lifespans = ledger.lifespans ∧ after.guard? id = some { held with action := none } ∧
      after.causes id = ledger.causes id ++ if held.action.isSome then [cause] else [] := by
  have counted := same_count ledger id cause.counter 1
  have found' : (ledger.count id cause.counter).guard? id = some held := by
    rw [guard?, counted.guards]
    exact found
  have causes' : (ledger.count id cause.counter).causes id = ledger.causes id := by
    rw [causes, counted.log, causes]
  unfold fireBy
  rw [Task.bind_ok (Task.modify_run _ _)]
  generalize ledger.count id cause.counter = mid at counted found' causes'
  rw [Task.bind_ok (Task.get_run mid), Task.bind_ok (Task.lift_run _ mid)]
  have touched := (Touches.of_same id counted).trans
    (Touches.onGuard mid id fun held => { held with action := none })
  have taken := guard?_onGuard_self found' fun held => { held with action := none }
  simp only [takeAction, found', Option.map_some, Option.getD_some, Option.bind_some]
  -- The action has been taken out by the time it runs.
  cases act : held.action with
  | none =>
    refine ⟨_, rfl, touched, counted.lifespans, taken, ?_⟩
    simp only [Option.isSome_none, Bool.false_eq_true, if_false, List.append_nil]
    exact causes'
  | some action =>
    obtain ⟨alone, whole⟩ := quiet action act
    refine ⟨_, ?_, touched.trans (.note _ id held.handle cause), counted.lifespans, taken, ?_⟩
    · dsimp only
      rw [Task.bind_ok (Task.modify_run _ _), alone, whole]
      rfl
    · rw [causes_note_fired, if_pos rfl]
      exact congrArg (· ++ [cause]) causes'

/-- The last part of a release marks the guard released. -/
theorem conclude_run (found : ledger.guard? id = some held) (cause : ReleaseCause) :
    Touches id ledger (ledger.conclude id cause) ∧
      (cause = .lifespanEnded → (ledger.conclude id cause).lifespans = ledger.lifespans) ∧
      (ledger.conclude id cause).causes id = ledger.causes id ∧
      ∃ link, (ledger.conclude id cause).guard? id
        = some { held with flags := { held.flags with released := true }, link } := by
  unfold conclude
  cases cause with
  | lifespanEnded =>
    exact ⟨.onGuard _ _ _, fun _ => rfl, rfl, held.link, guard?_onGuard_self found _⟩
  | unreachable =>
    have unlinked := guard?_onGuard_self found fun held => { held with link := none }
    have touched := Touches.onGuard ledger id fun held => { held with link := none }
    simp only [found, Option.bind_some]
    cases held.link with
    | none =>
      exact ⟨touched.trans (.onGuard _ _ _), fun _ => rfl, rfl, none,
        guard?_onGuard_self unlinked _⟩
    | some lifespan =>
      dsimp only
      refine ⟨(touched.trans (touches_forget _ id lifespan)).trans (.onGuard _ _ _),
        nofun, ?_, none, ?_⟩
      · exact causes_forget _ id id lifespan
      · rw [← guard?_forget _ id id lifespan] at unlinked
        exact guard?_onGuard_self unlinked _

/-- A guard that was not claimed is released: its action runs, if it has one. -/
theorem release_run (found : ledger.guard? id = some held) (quiet : held.Quiet)
    (unclaimed : held.flags.claimed = false) (cause : ReleaseCause) :
    ∃ after, release id cause ledger = .ok true after ∧ Touches id ledger after ∧
      (cause = .lifespanEnded → after.lifespans = ledger.lifespans) ∧
      (∃ link, after.guard? id = some (held.spent link)) ∧
      after.causes id = ledger.causes id ++ if held.action.isSome then [cause] else [] := by
  have claimed := guard?_onGuard_self found fun held =>
    { held with flags := { held.flags with releasing := true } }
  obtain ⟨mid, fired, touched, tables, taken, causes'⟩ := fireBy_run dropOwner claimed quiet cause
  obtain ⟨concluded, tables', causes'', link, finished⟩ := conclude_run taken cause
  refine ⟨mid.conclude id cause, ?_, ?_, fun ended => (tables' ended).trans tables, ⟨link, finished⟩,
    causes''.trans causes'⟩
  · unfold release
    rw [Task.bind_ok (Task.lift_run _ ledger)]
    simp only [claim, found, unclaimed, Bool.not_false, if_true]
    unfold run runBy
    rw [Task.bind_run, Task.bind_ok fired]
    rfl
  · exact ((Touches.onGuard ledger id _).trans touched).trans concluded

/-- A guard that was claimed is not released again. -/
theorem release_claimed (found : ledger.guard? id = some held) (claimed : held.flags.claimed = true)
    (cause : ReleaseCause) :
    release id cause ledger = .ok false (ledger.onGuard id fun held =>
      { held with flags := { held.flags with releasing := true } }) := by
  unfold release
  rw [Task.bind_ok (Task.lift_run _ ledger)]
  simp only [claim, found, claimed, Bool.not_true]
  rfl

end Ledger

end CatalogReplica.Lifetime
