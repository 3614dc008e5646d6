/-!
# Taking turns

Several parties act on one state, and a schedule says whose turn it is.  A party that cannot
move in its turn passes.

* `Turns.play` follows a schedule.
* `Turns.play_keeps`: what one step keeps, a schedule keeps.
-/

namespace CatalogReplica.Turns

variable {σ : Type} {step : σ → Nat → Option σ} {state : σ}

/-- Follows a schedule, passing over parties that cannot move. -/
def play (step : σ → Nat → Option σ) (state : σ) : List Nat → σ
  | [] => state
  | mover :: schedule => play step ((step state mover).getD state) schedule

theorem play_append (first second : List Nat) : play step state (first ++ second) = play step (play step state first) second := by
  induction first generalizing state with
  | nil => rfl
  | cons mover first inductionHypothesis => exact inductionHypothesis

/-- What one step keeps, a schedule keeps. -/
theorem play_keeps (holds : σ → Prop)
    (kept : ∀ state mover next, holds state → step state mover = some next → holds next) (before : holds state)
    (schedule : List Nat) : holds (play step state schedule) := by
  induction schedule generalizing state with
  | nil => exact before
  | cons mover schedule inductionHypothesis =>
    unfold play
    cases moved : step state mover with
    | none => exact inductionHypothesis before
    | some next => exact inductionHypothesis (kept state mover next before moved)

end CatalogReplica.Turns
