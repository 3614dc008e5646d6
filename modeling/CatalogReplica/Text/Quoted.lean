import CatalogReplica.Text.Printable

/-!
# Quoted text

`quoted` writes a string between double quotes so that every character that is
not plainly visible is escaped: quote and backslash by a backslash, the usual
controls by a letter, and the rest by its number in hexadecimal, as `\u{7f}`.
`hexadecimal` is the lower-case number form, `addressed` the same behind `0x`.
-/

namespace CatalogReplica.Text

/-- A hexadecimal digit in lower case. -/
def hexDigit (n : Nat) : Char :=
  if n < 10 then Char.ofNat (n + '0'.toNat) else Char.ofNat (n - 10 + 'a'.toNat)

/-- The lower-case hexadecimal text of a number, without leading zeros. -/
def hexadecimal (n : Nat) : String := String.ofList (Nat.toDigits 16 n)

/-- The hexadecimal text of a number behind `0x`. -/
def addressed (n : Nat) : String := "0x" ++ hexadecimal n

/-- One character as it stands inside quotes. -/
def quotedChar (c : Char) : List Char :=
  match c with
  | '\x00' => ['\\', '0']
  | '\t' => ['\\', 't']
  | '\n' => ['\\', 'n']
  | '\r' => ['\\', 'r']
  | '"' => ['\\', '"']
  | '\\' => ['\\', '\\']
  | c =>
      if isPlain c then [c]
      else ['\\', 'u', '\x7b'] ++ Nat.toDigits 16 c.toNat ++ ['\x7d']

/-- A string between double quotes, with everything not plainly visible escaped. -/
def quoted (text : String) : String :=
  String.ofList ('"' :: text.toList.flatMap quotedChar ++ ['"'])

end CatalogReplica.Text
