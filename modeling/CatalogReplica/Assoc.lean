/-!
# Association tables

A table holds values under keys, each key once.  `Assoc.set` replaces what a key
stood for, `Assoc.erase` forgets it.
-/

namespace CatalogReplica

/-- Values under keys. -/
abbrev Assoc (κ α : Type) := List (κ × α)

namespace Assoc

variable {κ α : Type} [DecidableEq κ]

/-- What the key stands for. -/
def get? (table : Assoc κ α) (key : κ) : Option α := table.lookup key

def erase (table : Assoc κ α) (key : κ) : Assoc κ α := table.filter fun entry => entry.1 != key

/-- Keeps a value under a key, in place of what the key stood for. -/
def set (table : Assoc κ α) (key : κ) (value : α) : Assoc κ α := (key, value) :: table.erase key

/-- Forgetting a key leaves the other keys alone. -/
theorem get?_erase (table : Assoc κ α) (key other : κ) :
    (table.erase key).get? other = if other = key then none else table.get? other := by
  induction table with
  | nil => simp [erase, get?]
  | cons entry table ih =>
    obtain ⟨k, value⟩ := entry
    simp only [erase, get?] at ih ⊢
    by_cases hk : k = key <;> by_cases ho : other = k
    · subst hk ho
      simpa using ih
    · subst hk
      have skip : (other == k) = false := by simpa using ho
      simpa [List.lookup_cons, skip, ho] using ih
    · subst ho
      simp [hk]
    · have skip : (other == k) = false := by simpa using ho
      simpa [List.lookup_cons, skip, hk] using ih

/-- A value shows at its own key alone. -/
theorem get?_set (table : Assoc κ α) (key other : κ) (value : α) :
    (table.set key value).get? other = if other = key then some value else table.get? other := by
  by_cases h : other = key
  · subst h
    simp [set, get?]
  · have skip : (other == key) = false := by simpa using h
    have rest := get?_erase table key other
    simp only [get?, h, if_false] at rest
    simp [set, get?, List.lookup_cons, skip, h, rest]

end Assoc

end CatalogReplica
