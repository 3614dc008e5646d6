import CatalogReplica.Text.Structured

/-!
# Dependents

A set of the keys of objects that depend on another one, kept in ascending
order.  `Dependents.take` empties the set and gives what was in it.
-/

namespace CatalogReplica.Catalog

/-- A set of keys without repetition, in ascending order. -/
structure Dependents (κ : Type) where
  keys : List κ := []
  deriving DecidableEq, Inhabited, Repr

namespace Dependents

variable {κ : Type} [DecidableEq κ]

/-- Puts a key before the first one that is not below it. -/
def insertSorted (below : κ → κ → Bool) (key : κ) : List κ → List κ
  | [] => [key]
  | k :: keys => if below k key then k :: insertSorted below key keys else key :: k :: keys

/-- Adds a key; tells whether it was new. -/
def insert (below : κ → κ → Bool) (set : Dependents κ) (key : κ) : Bool × Dependents κ :=
  if key ∈ set.keys then (false, set) else (true, ⟨insertSorted below key set.keys⟩)

/-- Whether the key is in the set. -/
def contains (set : Dependents κ) (key : κ) : Bool := key ∈ set.keys

omit [DecidableEq κ] in
/-- Empties the set and gives what was in it. -/
def take (set : Dependents κ) : List κ × Dependents κ := (set.keys, {})

end Dependents

end CatalogReplica.Catalog
