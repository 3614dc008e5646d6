import CatalogReplica.Catalog.Dependents

/-!
# Runs over a set of dependents

Scripts add keys to one set, look at it and empty it.  `run` gives an answer for
each step, with the size of the set after it.
-/

namespace CatalogReplica.Catalog.DependentsScript

inductive Step where
  | insert (key : UInt64)
  | contains (key : UInt64)
  | take
  | snapshot
  deriving Inhabited

inductive Answer where
  | truth (value : Bool)
  | keys (keys : List UInt64)
  deriving Inhabited

def step (set : Dependents UInt64) : Step → Answer × Dependents UInt64
  | .insert key =>
      let (new, set) := set.insert (fun a b => decide (a < b)) key
      (.truth new, set)
  | .contains key => (.truth (set.contains key), set)
  | .take =>
      let (keys, set) := set.take
      (.keys keys, set)
  | .snapshot => (.keys set.keys, set)

/-- An answer and how many keys there are after the step. -/
structure Report where
  answer : Answer
  size : Nat

/-- Carries out the steps in order. -/
def run : Dependents UInt64 → List Step → List Report
  | _, [] => []
  | set, s :: steps =>
      let (answer, set) := step set s
      ⟨answer, set.keys.length⟩ :: run set steps

end CatalogReplica.Catalog.DependentsScript
