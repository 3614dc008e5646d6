import CatalogReplica.Text.Structured
import CatalogReplica.Text.Document

/-!
# Retention

How an identity cache keeps its objects alive.  `Retention.ofDocument?` reads a
policy: `"strong"`, `"weak"`, or an object with the one field `soft`.
-/

namespace CatalogReplica.Identity

open Text (Form Document)

/-- How an identity cache keeps its objects alive. -/
inductive Retention where
  | strong
  | weak
  | soft (capacity : Nat)
  deriving DecidableEq, Inhabited, Repr

namespace Retention

/-- The policy shown with its capacity. -/
def form : Retention → Form
  | strong => .atom "Strong"
  | weak => .atom "Weak"
  | soft capacity => .record "Soft" [("capacity", .ofNat capacity)]

/-- How many objects the policy keeps in a queue. -/
def capacity : Retention → Nat
  | soft capacity => capacity
  | _ => 0

/-- The capacity of a soft policy, written as a field or, where that is `positional`,
    as the only element of an array. -/
def capacityOfDocument? (positional : Bool) : Document → Option Nat
  | .array [value] => if positional then value.size? else none
  | document => do
      let value ← (← Document.unique? (← document.fields?) "capacity")
      value.size?

/-- Reads a policy.  A policy without capacity may also be a field whose value
    is null. -/
def ofDocument? (document : Document) (positional : Bool := true) : Option Retention :=
  match document with
  | .string (some "strong") => some strong
  | .string (some "weak") => some weak
  | .object [(some "strong", .null)] => some strong
  | .object [(some "weak", .null)] => some weak
  | .object [(some "soft", value)] => (capacityOfDocument? positional value).map soft
  | _ => none

end Retention

end CatalogReplica.Identity
