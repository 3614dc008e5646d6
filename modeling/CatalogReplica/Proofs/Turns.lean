import CatalogReplica.Turns
import Mathlib.Algebra.Order.BigOperators.Group.List
import Mathlib.Algebra.Order.Ring.Nat

/-!
# Coming to an end in turns

Parties that take turns, of which one can always move, come to an end as long as each of them gets
its turns.  How much they still have to do is often the sum of what each of them has to do.

* `Turns.Advancing.rounds`: after enough rounds nothing is left to be done.
* `Turns.total` adds up what the parties weigh, each by its phase.
* `Turns.total_set`: what the move of one party changes.
-/

namespace CatalogReplica.Turns

section advancing

variable {σ : Type} {step : σ → Nat → Option σ} {state : σ}

/-- Every step leaves less to be done, and while anything is left, some party can move. -/
structure Advancing (step : σ → Nat → Option σ) (parties : Nat) (holds : σ → Prop) (effort : σ → Nat) : Prop where
  keeps : ∀ state mover next, holds state → step state mover = some next → holds next
  lessens : ∀ state mover next, holds state → step state mover = some next → effort next < effort state
  movable : ∀ state, holds state → effort state ≠ 0 → ∃ mover, mover < parties ∧ (step state mover).isSome

namespace Advancing

variable {parties : Nat} {holds : σ → Prop} {effort : σ → Nat}

theorem play_le (advancing : Advancing step parties holds effort) (before : holds state) (schedule : List Nat) :
    effort (play step state schedule) ≤ effort state :=
  (play_keeps (fun now => holds now ∧ effort now ≤ effort state)
    (fun now mover next kept moved => ⟨advancing.keeps now mover next kept.1 moved,
      Nat.le_trans (Nat.le_of_lt (advancing.lessens now mover next kept.1 moved)) kept.2⟩)
    ⟨before, Nat.le_refl _⟩ schedule).2

/-- As soon as one party of a schedule can move, the schedule leaves less to be done. -/
theorem play_lt (advancing : Advancing step parties holds effort) (before : holds state) {schedule : List Nat} {mover : Nat}
    (among : mover ∈ schedule) (movable : (step state mover).isSome) : effort (play step state schedule) < effort state := by
  induction schedule with
  | nil => cases among
  | cons first rest inductionHypothesis =>
    unfold play
    cases moved : step state first with
    | some next =>
      have after := advancing.keeps state first next before moved
      exact Nat.lt_of_le_of_lt (advancing.play_le after rest) (advancing.lessens state first next before moved)
    | none =>
      cases List.mem_cons.mp among with
      | inl same =>
        subst same
        rw [moved] at movable
        cases movable
      | inr later => exact inductionHypothesis later

/-- A round leaves less to be done, while anything is. -/
theorem round (advancing : Advancing step parties holds effort) (before : holds state) {round : List Nat}
    (all : ∀ party, party < parties → party ∈ round) : effort (play step state round) ≤ effort state - 1 := by
  by_cases nothing : effort state = 0
  · have most := advancing.play_le before round
    omega
  · obtain ⟨mover, inside, movable⟩ := advancing.movable state before nothing
    have less := advancing.play_lt before (all mover inside) movable
    omega

/-- Rounds in which all parties have turns, in any order, come to an end. -/
theorem rounds (advancing : Advancing step parties holds effort) (before : holds state) (rounds : List (List Nat))
    (all : ∀ round ∈ rounds, ∀ party, party < parties → party ∈ round) :
    effort (play step state rounds.flatten) ≤ effort state - rounds.length := by
  induction rounds generalizing state with
  | nil => exact Nat.le_refl _
  | cons round rounds inductionHypothesis =>
    have first := advancing.round before (all round List.mem_cons_self)
    have rest := inductionHypothesis (play_keeps holds advancing.keeps before round) fun later among =>
      all later (List.mem_cons_of_mem _ among)
    rw [List.flatten_cons, play_append, List.length_cons]
    omega

end Advancing

end advancing

section phases

variable {φ : Type} {phases : Array φ} {party : Nat} {old : φ}

theorem getElem?_set_self (here : phases[party]? = some old) (new : φ) :
    (phases.setIfInBounds party new)[party]? = some new := by
  rw [Array.getElem?_setIfInBounds, if_pos rfl, if_pos (Array.getElem?_eq_some_iff.mp here).1]

theorem getElem?_set_of_ne {other : Nat} (differs : other ≠ party) (new : φ) :
    (phases.setIfInBounds party new)[other]? = phases[other]? := by
  rw [Array.getElem?_setIfInBounds, if_neg (Ne.symm differs)]

/-- The sum of what the parties weigh, each by its phase. -/
def total (phases : Array φ) (weigh : φ → Nat) : Nat := (phases.toList.map weigh).sum

theorem sum_set (weigh : φ → Nat) {list : List φ} {place : Nat} (here : list[place]? = some old) (new : φ) :
    ((list.set place new).map weigh).sum + weigh old = (list.map weigh).sum + weigh new := by
  induction list generalizing place with
  | nil => cases here
  | cons first rest inductionHypothesis =>
    cases place with
    | zero =>
      cases here
      simp only [List.set_cons_zero, List.map_cons, List.sum_cons]
      omega
    | succ place =>
      have later : ((rest.set place new).map weigh).sum + weigh old = _ := inductionHypothesis here
      simp only [List.set_cons_succ, List.map_cons, List.sum_cons]
      omega

/-- A party that moves weighs in its new phase instead of its old one. -/
theorem total_set (here : phases[party]? = some old) (new : φ) (weigh : φ → Nat) :
    total (phases.setIfInBounds party new) weigh + weigh old = total phases weigh + weigh new := by
  have listed : phases.toList[party]? = some old := by rwa [Array.getElem?_toList]
  unfold total
  rw [Array.toList_setIfInBounds]
  exact sum_set weigh listed new

/-- Parties that all weigh the same. -/
theorem total_eq {weigh : φ → Nat} {each : Nat}
    (all : ∀ (party : Nat) (phase : φ), phases[party]? = some phase → weigh phase = each) :
    total phases weigh = each * phases.size := by
  have same : ∀ weight ∈ phases.toList.map weigh, weight = each := by
    intro weight among
    obtain ⟨phase, listed, rfl⟩ := List.mem_map.mp among
    obtain ⟨party, here⟩ := List.getElem?_of_mem listed
    exact all party phase (by rwa [Array.getElem?_toList] at here)
  unfold total
  rw [List.sum_eq_card_nsmul _ _ same, List.length_map, Array.length_toList, Nat.nsmul_eq_mul, Nat.mul_comm]

/-- Parties that all weigh the same, but for one. -/
theorem total_others {weigh : φ → Nat} {each : Nat} (here : phases[party]? = some old)
    (others : ∀ (other : Nat) (phase : φ), other ≠ party → phases[other]? = some phase → weigh phase = each) :
    total phases weigh + each = each * phases.size + weigh old := by
  have weights : (phases.map weigh)[party]? = some (weigh old) := by rw [Array.getElem?_map, here]; rfl
  have moved := total_set weights each id
  have same : total ((phases.map weigh).setIfInBounds party each) id = each * phases.size := by
    refine (total_eq fun other weight there => ?_).trans (by rw [Array.size_setIfInBounds, Array.size_map])
    by_cases isParty : other = party
    · subst isParty
      exact (Option.some.inj ((getElem?_set_self weights each).symm.trans there)).symm
    · rw [getElem?_set_of_ne isParty, Array.getElem?_map] at there
      obtain ⟨phase, found, rfl⟩ := Option.map_eq_some_iff.mp there
      exact others other phase isParty found
  have mapped : total (phases.map weigh) id = total phases weigh := by
    unfold total
    rw [Array.toList_map, List.map_id]
  rw [same, mapped] at moved
  exact moved.symm

theorem total_add (phases : Array φ) (one two : φ → Nat) :
    total phases one + total phases two = total phases fun phase => one phase + two phase := by
  unfold total
  rw [List.sum_map_add]

theorem total_eq_zero {weigh : φ → Nat} :
    total phases weigh = 0 ↔ ∀ (party : Nat) (phase : φ), phases[party]? = some phase → weigh phase = 0 := by
  refine ⟨fun nothing party phase here => ?_, fun nothing => (total_eq nothing).trans (Nat.zero_mul _)⟩
  refine List.sum_eq_zero_iff_forall_eq_nat.mp nothing _ (List.mem_map_of_mem ?_)
  exact Array.mem_toList_iff.mpr (Array.mem_of_getElem? here)

/-- No more than so much for each party. -/
theorem total_le {weigh : φ → Nat} {most : Nat} (each : ∀ phase, weigh phase ≤ most) :
    total phases weigh ≤ most * phases.size := by
  have light : ∀ weight ∈ phases.toList.map weigh, weight ≤ most := by
    intro weight among
    obtain ⟨phase, -, rfl⟩ := List.mem_map.mp among
    exact each phase
  have bound := List.sum_le_card_nsmul _ most light
  rwa [List.length_map, Array.length_toList, Nat.nsmul_eq_mul, Nat.mul_comm] at bound

end phases

end CatalogReplica.Turns
