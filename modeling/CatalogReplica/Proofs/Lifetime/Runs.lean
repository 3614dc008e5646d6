import CatalogReplica.Proofs.Lifetime.Registration

/-!
# Runs

Every operation that is allowed keeps the ledger sound, and so does every run.  Only the
teardown of a lifespan that holds a guard reaches the guard.

* `Operation.apply_sound`: one operation.
* `Operation.after_sound`: a run.
-/

namespace CatalogReplica.Lifetime.Operation

open Ledger (Sound Leads)

variable {thread : ThreadId} {ledger : Ledger}

/-- The guards that the operation, being a teardown, reaches. -/
def Reaches (ledger : Ledger) : Operation → GuardId → Prop
  | .teardown lifespan _ => ledger.Holds lifespan
  | _ => fun _ => False

/-- The cause with which the operation runs actions, if it does. -/
def cause : Operation → ReleaseCause
  | .teardown _ _ | .unpin _ => .lifespanEnded
  | _ => .unreachable

/-- What a run does to a guard with teardowns: one of a lifespan that held it. -/
def TornDown (thread : ThreadId) (operations : List Operation) (ledger : Ledger) (guard : GuardId) :
    Prop :=
  ∃ before lifespan close rest, operations = before ++ .teardown lifespan close :: rest ∧
    (after thread before ledger).Holds lifespan guard

/-- An operation that is allowed leads from a sound ledger to a sound one. -/
theorem apply_sound (sound : Sound thread [] ledger) {operation : Operation}
    (allowed : operation.Allowed thread ledger) :
    Leads thread (· = operation.cause) (operation.Reaches ledger) [] [] ledger
      (operation.apply thread ledger) := by
  -- Most operations release nothing, whatever the cause they would give.
  have quiet : ∀ {before after : Ledger} {loose loose' : List GuardId} {reach : GuardId → Prop}
      {cause : ReleaseCause},
      Leads thread (fun _ => False) (fun _ => False) loose loose' before after →
        Leads thread (· = cause) reach loose loose' before after :=
    fun leads => leads.weaken (fun _ => False.elim) fun _ => False.elim
  cases operation with
  | newLifespan address kind => exact sound.addLifespan address kind
  | child parent address kind => exact (Ledger.child_sound sound parent address kind).exec
  | newQueue => exact sound.addQueue
  | holdQueue queue => exact sound.handles queue (· + 1)
  | letQueueGo queue =>
    have first : Leads thread (· = .unreachable) (fun _ => False) [] [] ledger
        (ledger.onQueue queue fun record => { record with handles := record.handles - 1 }) :=
      sound.handles queue (· - 1)
    obtain ⟨after, ran, second⟩ := Ledger.reapBy_sound Ledger.dropOwner _ first.sound
    have left : (letQueueGo queue).apply thread ledger = after :=
      Task.exec_ok ((Task.bind_ok (Task.modify_run _ ledger)).trans
        ((Task.bind_ok (Task.get_run _)).trans ran))
    rw [left]
    exact first.trans second
  | build plan lifespan =>
    exact ((Ledger.build_sound sound allowed.1 allowed.2 lifespan).weaken fun _ _ ends => ends.1).exec
  | register guard lifespan =>
    obtain ⟨held, found, owned⟩ := allowed
    exact ((Ledger.register_sound sound found owned lifespan).weaken fun _ _ ends => ends.1).exec
  | deregister guard lifespan =>
    obtain ⟨held, found, -⟩ := allowed
    exact Ledger.deregister_sound sound found lifespan
  | pin guard => exact quiet (Ledger.pin_sound sound allowed).exec
  | unpin guard => exact (Ledger.unpin_sound sound allowed).exec
  | drop guard =>
    obtain ⟨held, found, owned, unpinned⟩ := allowed
    obtain ⟨after, ran, leads, -⟩ := Ledger.dropOwner_sound sound found owned unpinned
    rw [show (drop guard).apply thread ledger = after from Task.exec_ok ran]
    exact leads
  | drain queue =>
    obtain ⟨record, found⟩ := Option.isSome_iff_exists.mp allowed
    obtain ⟨after, ran, leads, -⟩ := Ledger.drain_sound sound found
    rw [show (drain queue).apply thread ledger = after from Task.exec_ok ran]
    exact leads
  | teardown lifespan close =>
    obtain ⟨count, after, ran, torn⟩ := Ledger.teardown_sound lifespan close sound
    rw [show (teardown lifespan close).apply thread ledger = after from Task.exec_ok ran]
    exact torn.leads

/-- A run that is allowed leads from a sound ledger to a sound one, and its teardowns are
    the only ones that reach guards. -/
theorem after_sound {operations : List Operation} (sound : Sound thread [] ledger)
    (allowed : AllowedAll thread operations ledger) :
    Leads thread (fun _ => True) (TornDown thread operations ledger) [] [] ledger
      (after thread operations ledger) := by
  induction operations generalizing ledger with
  | nil => exact sound.stay
  | cons operation operations inductionHypothesis =>
    have first := apply_sound sound allowed.1
    have rest := inductionHypothesis first.sound allowed.2
    refine .trans (first.weaken (fun _ _ => trivial) fun guard reached => ?_)
      (rest.weaken (fun _ _ => trivial) fun guard reached => ?_)
    · cases operation with
      | teardown lifespan close => exact ⟨[], lifespan, close, operations, rfl, reached⟩
      | _ => exact reached.elim
    · obtain ⟨before, lifespan, close, later, rfl, holds⟩ := reached
      exact ⟨operation :: before, lifespan, close, later, rfl, holds⟩

theorem sound_empty (thread : ThreadId) : Sound thread [] {} where
  guards := List.nodup_nil
  good _ _ found := by cases found
  unknown _ _ := rfl
  loose _ among := by cases among
  queues := ⟨List.nodup_nil, fun _ among => by cases among⟩
  members _ _ found := by cases found
  lifespans _ among := by cases among
  registered _ _ found := by cases found
  inside _ _ found := by cases found
  closed _ _ found := by cases found

end CatalogReplica.Lifetime.Operation
