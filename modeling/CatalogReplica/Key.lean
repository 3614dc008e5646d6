import CatalogReplica.Text.Structured
import CatalogReplica.Text.Quoted

/-!
# Object numbers, addresses and entity keys

An `Oid` numbers an object of the catalog, an `Address` is a place in native
memory, and an `EntityKey` names one entity: the class of its row, its object
number and a sub number (attribute number or type modifier).

Keys are ordered by class, then object, then sub number.
-/

namespace CatalogReplica

open Text (Form)

/-- The number of a catalog object; zero numbers nothing. -/
structure Oid where
  val : UInt32
  deriving DecidableEq, Inhabited, Repr

namespace Oid

/-- The number that no object has. -/
def invalid : Oid := ⟨0⟩

/-- Whether an object can have this number. -/
def isValid (oid : Oid) : Bool := oid.val != 0

def text (oid : Oid) : String := toString oid.val.toNat

/-- The number shown with its type. -/
def form (oid : Oid) : Form := .tuple "Oid" [.ofNat oid.val.toNat]

end Oid

/-- A place in native memory. -/
structure Address where
  val : UInt64
  deriving DecidableEq, Inhabited, Repr

namespace Address

/-- The address that points nowhere. -/
def null : Address := ⟨0⟩

def isNull (address : Address) : Bool := address.val == 0

/-- The address `offset` bytes further on; addresses wrap around. -/
def offset (address : Address) (offset : UInt64) : Address := ⟨address.val + offset⟩

/-- The address in hexadecimal behind `0x`. -/
def text (address : Address) : String := Text.addressed address.val.toNat

/-- The address shown with its type. -/
def form (address : Address) : Form := .tuple "Address" [.ofNat address.val.toNat]

end Address

/-- The name of one entity of the catalog. -/
structure EntityKey where
  classOid : Oid
  object : Oid
  sub : Int32 := 0
  deriving DecidableEq, Inhabited, Repr

namespace EntityKey

/-- The key as a bracketed triple. -/
def text (key : EntityKey) : String :=
  "(" ++ key.classOid.text ++ "," ++ key.object.text ++ "," ++ toString key.sub.toInt ++ ")"

/-- The key with its parts labelled. -/
def form (key : EntityKey) : Form :=
  .record "CatalogKey" [
    ("class", key.classOid.form), ("object", key.object.form), ("sub", .ofInt key.sub.toInt)]

/-- The order by class, then object, then sub number. -/
def compare (a b : EntityKey) : Ordering :=
  (Ord.compare a.classOid.val b.classOid.val).then <|
    (Ord.compare a.object.val b.object.val).then <|
      Ord.compare a.sub.toInt b.sub.toInt

/-- The keys in ascending order; equal keys all stay. -/
def sort (keys : List EntityKey) : List EntityKey :=
  keys.mergeSort fun a b => (a.compare b).isLE

/-- How many different keys there are. -/
def distinct (keys : List EntityKey) : Nat := keys.eraseDups.length

end EntityKey

end CatalogReplica
