import CatalogReplica.Assoc

/-!
# Name tables

Scripted runs keep what they make under names.  `Names.sorted` lists a table by
name.
-/

namespace CatalogReplica

/-- Values under names. -/
abbrev Names (α : Type) := Assoc String α

/-- The table in the order of its names. -/
def Names.sorted {α : Type} (names : Names α) : Names α :=
  names.mergeSort fun a b => !decide (b.1 < a.1)

end CatalogReplica
