/-!
# Capacity

Tables and queues are laid out with room for all their entries at once.  One whose
entries would take more addresses than a process has cannot be made.

* `Capacity.fits`: whether there is room for a number of entries.
* `Capacity.fits_of_le`: fewer entries than fit do fit.
-/

namespace CatalogReplica.Capacity

/-- How many addresses a process has. -/
def addresses : Nat := 0x800000000000

/-- How many addresses an entry takes at least: those of one pointer. -/
def entrySize : Nat := 8

/-- Whether there is room for so many entries. -/
def fits (entries : Nat) : Bool := decide (entries * entrySize < addresses)

/-- Fewer entries than fit do fit. -/
theorem fits_of_le {few many : Nat} (fewer : few ≤ many) (room : fits many = true) :
    fits few = true := by
  simp only [fits, decide_eq_true_eq] at room ⊢
  exact Nat.lt_of_le_of_lt (Nat.mul_le_mul_right _ fewer) room

end CatalogReplica.Capacity
