import CatalogReplica.Proofs.Lifetime.ExactlyOnce

/-!
# After a teardown

Once a lifespan that holds a guard has been torn down, its native memory is gone.  Nothing
gets at the resource any more, and the action of the guard, if it has yet to run, is told
so.

* `Operation.nothing_after_teardown`: this, and that only teardowns make it so.
-/

namespace CatalogReplica.Lifetime

namespace Ledger

variable {thread : ThreadId} {loose : List GuardId} {ledger : Ledger} {id : GuardId}

/-- A guard that a teardown has reached gives no handle and takes no pin. -/
theorem refused_of_closing (closing : ledger.Closing id) :
    ∃ held, ledger.guard? id = some held ∧
      ledger.handle id = .error (.fault held.releasedFault) ∧
      ∀ thread, pin thread id ledger = .error (.fault held.releasedFault) ledger := by
  obtain ⟨held, found, reached⟩ := closing
  have refused : ledger.handle id = .error (.fault held.releasedFault) := by
    unfold handle
    rw [found]
    simp only [Guard.isReleased, reached, Bool.or_true, if_true]
  refine ⟨held, found, refused, fun thread => ?_⟩
  unfold pin
  rw [Task.bind_ok (Task.get_run ledger), refused]
  rfl

/-- An action that no teardown was the cause of ran because the owner was gone. -/
theorem Sound.unreachable (sound : Sound thread loose ledger) (unreached : ¬ ledger.Closing id)
    {cause : ReleaseCause} (ran : cause ∈ ledger.causes id) : cause = .unreachable := by
  cases cause with
  | unreachable => rfl
  | lifespanEnded =>
    cases found : ledger.guard? id with
    | some held => exact absurd ⟨held, found, (sound.good id held found).ended ran⟩ unreached
    | none =>
      rw [sound.unknown id found] at ran
      cases ran

end Ledger

namespace Operation

/-- After any run of one thread in which a lifespan that held the guard was torn down, the
    guard gives no handle and takes no pin, and its action ran since the teardown, if at
    all, with the cause that the lifespan ended.  If no lifespan that held the guard was
    torn down, its action ran, if at all, because the owner was gone. -/
theorem nothing_after_teardown (thread : ThreadId) (operations : List Operation)
    (allowed : AllowedAll thread operations {}) (guard : GuardId) :
    (∀ before lifespan close rest, operations = before ++ .teardown lifespan close :: rest →
      (after thread before {}).Holds lifespan guard →
        (∃ held, (after thread operations {}).guard? guard = some held ∧
          held.releasedFault.kind = .released ∧
          (after thread operations {}).handle guard = .error (.fault held.releasedFault) ∧
          Ledger.pin thread guard (after thread operations {})
            = .error (.fault held.releasedFault) (after thread operations {})) ∧
        ∃ since, (after thread operations {}).causes guard
            = (after thread before {}).causes guard ++ since ∧
          ∀ cause ∈ since, cause = .lifespanEnded) ∧
    (¬ TornDown thread operations {} guard →
      ∀ cause ∈ (after thread operations {}).causes guard, cause = .unreachable) := by
  constructor
  · intro before lifespan close rest split holds
    constructor
    · obtain ⟨held, found, handle, pin⟩ := Ledger.refused_of_closing
        (closing_of_tornDown allowed ⟨before, lifespan, close, rest, split, holds⟩)
      exact ⟨held, found, rfl, handle, pin thread⟩
    · subst split
      have within := within allowed
      obtain ⟨count, last, ran, torn⟩ := Ledger.teardown_sound lifespan close within.sound
      have left : (teardown lifespan close).apply thread (after thread before {}) = last :=
        Task.exec_ok ran
      have onward := within.leads.onward
      rw [left] at onward
      -- What runs in the teardown is told that the lifespan ended; later the guard is closing.
      obtain ⟨during, grown, native, -, -⟩ := torn.leads.onward.grown guard
      obtain ⟨later, grown', -, native', -⟩ := onward.grown guard
      refine ⟨during ++ later, by rw [grown', grown, List.append_assoc], fun cause among => ?_⟩
      exact (List.mem_append.mp among).elim (native cause) (native' (torn.closing guard holds) cause)
  · intro spared cause ran
    have leads := after_sound (sound_empty thread) allowed
    refine leads.sound.unreachable (fun closing => ?_) ran
    cases leads.onward.closes guard closing with
    | inl before =>
      obtain ⟨held, found, -⟩ := before
      cases found
    | inr torn => exact spared torn

/-- A pinned guard is in the table of a lifespan that is reset, and unpinned later. -/
def pinnedThenReset : List Operation :=
  [.newLifespan .null .owner, .build { handle := .null, action := some {} } (some 0), .pin 1,
    .teardown 0 false, .unpin 1, .drop 1]

theorem nothing_after_pinnedThenReset :
    AllowedAll 0 pinnedThenReset {} ∧
      (∃ since, (after 0 pinnedThenReset {}).causes 1
          = (after 0 (pinnedThenReset.take 3) {}).causes 1 ++ since ∧
        ∀ cause ∈ since, cause = .lifespanEnded) := by
  have allowed : AllowedAll 0 pinnedThenReset {} := by decide +kernel
  refine ⟨allowed, ((nothing_after_teardown 0 pinnedThenReset allowed 1).1
    (pinnedThenReset.take 3) 0 false [.unpin 1, .drop 1] rfl ?_).2⟩
  exact .here rfl (by decide +kernel)

end Operation

end CatalogReplica.Lifetime
