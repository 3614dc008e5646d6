import CatalogReplica.Task

/-!
# Planned computations

A plan says what the successive runs of a computation do.  The `n`-th run takes
the `n`-th entry, later ones the last; the plan without entries gives zero, and
keeps it.
-/

namespace CatalogReplica.Coherence

/-- How a planned run ends. -/
inductive PlanEnd where
  | crash (note : String)
  | fail (kind : FaultKind) (message : String)
  | transient (value : Int)
  | cached (value : Int)
  deriving DecidableEq, Inhabited, Repr

/-- What one planned run does: it reads other computations, trips gates, and
    ends. -/
structure PlanEntry (ρ γ : Type) where
  reads : List ρ := []
  trips : List γ := []
  access : Bool := false
  finish : PlanEnd := .cached 0
  deriving Inhabited, Repr

/-- The entries of successive runs. -/
abbrev Plan (ρ γ : Type) := List (PlanEntry ρ γ)

namespace Plan

variable {ρ γ : Type}

/-- The entry of the run number `n`, counted from zero. -/
def entry : Plan ρ γ → Nat → PlanEntry ρ γ
  | [], _ => {}
  | [last], _ => last
  | first :: _ :: _, 0 => first
  | _ :: second :: rest, n + 1 => entry (second :: rest) n

end Plan

/-- A note that the plan words. -/
def PlanEnd.note (text : String) : Option String := some ("plan:" ++ text)

end CatalogReplica.Coherence
