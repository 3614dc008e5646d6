import CatalogReplica.Lifetime.Ledger

/-!
# Runs over guards on one thread

A run is a list of operations that one thread carries out on a ledger, in any order and
as often as it likes.  `Operation.Allowed` is what whoever calls an operation must have
in hand: an owner to register, pin or drop a guard, a pin to end one, a queue to drain
it.  An owner is not dropped while it is pinned, and release actions neither break off
nor let owners go.

* `Ledger.causes`: the causes with which the action of a guard ran.
* `Ledger.Holds`: what tearing a lifespan down reaches.
* `Operation.after`: what a run leaves.
-/

namespace CatalogReplica.Lifetime

/-- A guard as it is built: nothing happened to it, and its action, if it has one,
    neither breaks off nor lets owners go. -/
def Guard.Planned (plan : Guard) : Prop :=
  plan.flags = {} ∧ plan.holders = [] ∧ plan.deferred = false ∧ plan.link = none ∧
    plan.owned = true ∧ ∀ action ∈ plan.action, action.owns = [] ∧ action.crashes = false

instance (plan : Guard) : Decidable plan.Planned :=
  inferInstanceAs (Decidable (_ ∧ _ ∧ _ ∧ _ ∧ _ ∧ _))

namespace Ledger

/-- The causes with which the action of a guard ran, in order. -/
def causes (ledger : Ledger) (guard : GuardId) : List ReleaseCause :=
  ledger.log.filterMap fun happening =>
    match happening with
    | .fired id _ cause => if id = guard then some cause else none
    | .yielded _ _ => none

/-- The owner of the guard is still there. -/
def Owned (ledger : Ledger) (guard : GuardId) : Prop :=
  ∃ held ∈ ledger.guard? guard, held.owned = true

/-- The release of the guard was claimed. -/
def Claimed (ledger : Ledger) (guard : GuardId) : Prop :=
  ∃ held ∈ ledger.guard? guard, held.flags.claimed = true

/-- A teardown has reached the guard. -/
def Closing (ledger : Ledger) (guard : GuardId) : Prop :=
  ∃ held ∈ ledger.guard? guard, held.flags.closing = true

/-- The guard is in the table of the lifespan or of one below it. -/
inductive Holds (ledger : Ledger) : LifespanId → GuardId → Prop where
  /-- It is in the table. -/
  | here {lifespan guard scope} : ledger.lifespan? lifespan = some scope → guard ∈ scope.guards →
      Holds ledger lifespan guard
  /-- It is in a table below. -/
  | inside {lifespan guard scope child} : ledger.lifespan? lifespan = some scope →
      child ∈ scope.children → Holds ledger child guard → Holds ledger lifespan guard

end Ledger

/-- One operation. -/
inductive Operation where
  /-- Makes a lifespan that is inside no other one. -/
  | newLifespan (address : Address) (kind : LifespanKind)
  /-- Makes a lifespan inside another one. -/
  | child (parent : LifespanId) (address : Address) (kind : LifespanKind)
  /-- Makes a queue. -/
  | newQueue
  /-- Holds a queue once more. -/
  | holdQueue (queue : QueueId)
  /-- Holds a queue once less. -/
  | letQueueGo (queue : QueueId)
  /-- Builds a guard, registered to a lifespan if one is given. -/
  | build (plan : Guard) (lifespan : Option LifespanId)
  /-- Registers a guard to a lifespan. -/
  | register (guard : GuardId) (lifespan : LifespanId)
  /-- Takes a guard out of the table of a lifespan. -/
  | deregister (guard : GuardId) (lifespan : LifespanId)
  /-- Pins a guard. -/
  | pin (guard : GuardId)
  /-- Ends a pin of a guard. -/
  | unpin (guard : GuardId)
  /-- The owner of a guard goes away. -/
  | drop (guard : GuardId)
  /-- Drains a queue. -/
  | drain (queue : QueueId)
  /-- Tears a lifespan down; with `close` it is ended, without it is reset. -/
  | teardown (lifespan : LifespanId) (close : Bool)
  deriving DecidableEq

namespace Operation

/-- What the thread must have in hand to carry out the operation. -/
def Allowed (thread : ThreadId) (ledger : Ledger) : Operation → Prop
  | .build plan _ => plan.Planned ∧ ∀ queue ∈ plan.queue, (ledger.queue? queue).isSome
  | .register guard _ | .deregister guard _ | .pin guard => ledger.Owned guard
  | .unpin guard => ∃ held ∈ ledger.guard? guard, thread ∈ held.holders
  | .drop guard => ∃ held ∈ ledger.guard? guard, held.owned = true ∧ held.holders = []
  | .drain queue => (ledger.queue? queue).isSome
  | .newLifespan _ _ | .child _ _ _ | .newQueue | .holdQueue _ | .letQueueGo _ | .teardown _ _ => True

instance (thread : ThreadId) (ledger : Ledger) :
    (operation : Operation) → Decidable (operation.Allowed thread ledger)
  | .build plan _ =>
      inferInstanceAs (Decidable (plan.Planned ∧ ∀ queue ∈ plan.queue, (ledger.queue? queue).isSome))
  | .register guard _ | .deregister guard _ | .pin guard =>
      inferInstanceAs (Decidable (∃ held ∈ ledger.guard? guard, held.owned = true))
  | .unpin guard => inferInstanceAs (Decidable (∃ held ∈ ledger.guard? guard, thread ∈ held.holders))
  | .drop guard =>
      inferInstanceAs (Decidable (∃ held ∈ ledger.guard? guard, held.owned = true ∧ held.holders = []))
  | .drain queue => inferInstanceAs (Decidable (ledger.queue? queue).isSome)
  | .newLifespan _ _ | .child _ _ _ | .newQueue | .holdQueue _ | .letQueueGo _ | .teardown _ _ =>
      .isTrue trivial

/-- What the operation leaves. -/
def apply (thread : ThreadId) (ledger : Ledger) : Operation → Ledger
  | .newLifespan address kind => (ledger.addLifespan address kind).2
  | .child parent address kind => Task.exec (Ledger.child parent address kind) ledger
  | .newQueue => ledger.addQueue.2
  | .holdQueue queue => ledger.holdQueue queue
  | .letQueueGo queue => Task.exec (Ledger.letQueueGo queue) ledger
  | .build plan lifespan => Task.exec (Ledger.build plan lifespan) ledger
  | .register guard lifespan => Task.exec (Ledger.register guard lifespan) ledger
  | .deregister guard lifespan => (ledger.deregister guard lifespan).2
  | .pin guard => Task.exec (Ledger.pin thread guard) ledger
  | .unpin guard => Task.exec (Ledger.unpin thread guard) ledger
  | .drop guard => Task.exec (Ledger.dropOwner guard) ledger
  | .drain queue => Task.exec (Ledger.drain queue) ledger
  | .teardown lifespan close => Task.exec (Ledger.teardown thread lifespan close) ledger

/-- What a run leaves. -/
def after (thread : ThreadId) : List Operation → Ledger → Ledger
  | [], ledger => ledger
  | operation :: operations, ledger => after thread operations (operation.apply thread ledger)

/-- Each operation of the run is allowed when its turn comes. -/
def AllowedAll (thread : ThreadId) : List Operation → Ledger → Prop
  | [], _ => True
  | operation :: operations, ledger =>
      operation.Allowed thread ledger ∧ AllowedAll thread operations (operation.apply thread ledger)

instance decideAllowedAll (thread : ThreadId) :
    (operations : List Operation) → (ledger : Ledger) → Decidable (AllowedAll thread operations ledger)
  | [], _ => .isTrue trivial
  | operation :: operations, ledger =>
      have := decideAllowedAll thread operations (operation.apply thread ledger)
      inferInstanceAs (Decidable (_ ∧ _))

theorem after_append (thread : ThreadId) (first second : List Operation) (ledger : Ledger) :
    after thread (first ++ second) ledger = after thread second (after thread first ledger) := by
  induction first generalizing ledger with
  | nil => rfl
  | cons operation first inductionHypothesis => exact inductionHypothesis _

theorem allowedAll_append {thread : ThreadId} {first second : List Operation} {ledger : Ledger} :
    AllowedAll thread (first ++ second) ledger ↔
      AllowedAll thread first ledger ∧ AllowedAll thread second (after thread first ledger) := by
  induction first generalizing ledger with
  | nil => simp [AllowedAll, after]
  | cons operation first inductionHypothesis =>
    simp only [List.cons_append, AllowedAll, after, inductionHypothesis, and_assoc]

end Operation

end CatalogReplica.Lifetime
