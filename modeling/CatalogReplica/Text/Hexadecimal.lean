import CatalogReplica.Text.Quoted

/-!
# Bytes in hexadecimal

Every byte is written as two lower-case digits.

* `ofBytes` writes bytes, `toBytes?` reads them.
* `toBytes?_ofBytes`: what was written is read back.
-/

namespace CatalogReplica.Text

/-- The digits of a byte. -/
def byteDigits (byte : UInt8) : List Char :=
  [hexDigit (byte.toNat / 16), hexDigit (byte.toNat % 16)]

def bytesDigits (bytes : List UInt8) : List Char := bytes.flatMap byteDigits

def ofBytes (bytes : List UInt8) : String := String.ofList (bytesDigits bytes)

def hexValue? (c : Char) : Option Nat :=
  if '0' ≤ c ∧ c ≤ '9' then some (c.toNat - '0'.toNat)
  else if 'a' ≤ c ∧ c ≤ 'f' then some (c.toNat - 'a'.toNat + 10)
  else none

/-- The bytes that digits stand for, two by two. -/
def bytesOfDigits? : List Char → Option (List UInt8)
  | [] => some []
  | [_] => none
  | a :: b :: rest => do
      let high ← hexValue? a
      let low ← hexValue? b
      return UInt8.ofNat (16 * high + low) :: (← bytesOfDigits? rest)

/-- The bytes that a text stands for. -/
def toBytes? (text : String) : Option (List UInt8) := bytesOfDigits? text.toList

/-- A digit stands for the number that it was made from. -/
theorem hexValue?_hexDigit : ∀ n < 16, hexValue? (hexDigit n) = some n := by decide

/-- Digits of bytes are read back. -/
theorem bytesOfDigits?_bytesDigits (bytes : List UInt8) :
    bytesOfDigits? (bytesDigits bytes) = some bytes := by
  induction bytes with
  | nil => rfl
  | cons byte bytes ih =>
    have bound : byte.toNat < 256 := byte.toNat_lt
    have high := hexValue?_hexDigit (byte.toNat / 16) (by omega)
    have low := hexValue?_hexDigit (byte.toNat % 16) (by omega)
    have whole : UInt8.ofNat (16 * (byte.toNat / 16) + byte.toNat % 16) = byte := by
      rw [show 16 * (byte.toNat / 16) + byte.toNat % 16 = byte.toNat by omega]
      exact UInt8.ofNat_toNat
    have unfolded : bytesDigits (byte :: bytes) =
        hexDigit (byte.toNat / 16) :: hexDigit (byte.toNat % 16) :: bytesDigits bytes := rfl
    rw [unfolded, bytesOfDigits?, high, low, ih]
    exact congrArg (fun first => some (first :: bytes)) whole

/-- What was written is read back. -/
theorem toBytes?_ofBytes (bytes : List UInt8) : toBytes? (ofBytes bytes) = some bytes := by
  simp [toBytes?, ofBytes, bytesOfDigits?_bytesDigits]

end CatalogReplica.Text
