/-!
# Documents

A `Document` is the content of a JSON text.  `Document.ofText?` reads one,
strictly: the text holds a single value and blanks, numbers have no superfluous
zeros, and strings hold no raw controls.

Two things are kept apart that later readers need: a number that is not an
integer of 64 bits is only known to be a number, and a string with an unpaired
surrogate has no text.
-/

namespace CatalogReplica.Text

/-- The content of a JSON text. -/
inductive Document where
  | null
  | bool (value : Bool)
  | integer (value : Int)
  | number
  /-- A string; `none` if an escape in it is an unpaired surrogate. -/
  | string (text : Option String)
  | array (elements : List Document)
  | object (fields : List (Option String × Document))
  deriving Inhabited

namespace Document

/-! ## Blanks, numbers and strings -/

/-- Whether the character may stand between values. -/
def isBlank (c : Char) : Bool := c == ' ' || c == '\n' || c == '\t' || c == '\r'

/-- The text behind its leading blanks. -/
def skipBlanks (text : List Char) : List Char := text.dropWhile isBlank

/-- The value of decimal digits. -/
def digitsValue (digits : List Char) : Nat :=
  digits.foldl (fun n d => 10 * n + (d.toNat - '0'.toNat)) 0

/-- Takes the digits in front off; there has to be one. -/
def takeDigits? (text : List Char) : Option (List Char × List Char) :=
  match text.takeWhile Char.isDigit with
  | [] => none
  | digits => some (digits, text.dropWhile Char.isDigit)

/-- Takes a fraction off: a point and digits.  Tells whether there was one. -/
def takeFraction? : List Char → Option (Bool × List Char)
  | '.' :: text => (takeDigits? text).map fun (_, rest) => (true, rest)
  | text => some (false, text)

/-- Takes an exponent off.  Tells whether there was one. -/
def takeExponent? : List Char → Option (Bool × List Char)
  | [] => some (false, [])
  | c :: text =>
      if c == 'e' || c == 'E' then
        let text :=
          match text with
          | '+' :: text => text
          | '-' :: text => text
          | text => text
        (takeDigits? text).map fun (_, rest) => (true, rest)
      else some (false, c :: text)

/-- An integer, as a mere number if 64 bits do not hold it. -/
def ofInt (n : Int) : Document :=
  if -(UInt64.size : Int) ≤ 2 * n ∧ n < UInt64.size then .integer n else .number

/-- The number with the given sign and digits.  Zero with a minus sign is not an
    integer. -/
def ofDigits (negative : Bool) (digits : List Char) : Document :=
  let n : Int := digitsValue digits
  if negative then if n = 0 then .number else ofInt (-n) else ofInt n

/-- Takes a number without its sign off. -/
def takeNumber? (negative : Bool) (text : List Char) : Option (Document × List Char) := do
  let (digits, rest) ← takeDigits? text
  if digits.head? == some '0' && digits.length != 1 then none
  let (fraction, rest) ← takeFraction? rest
  let (exponent, rest) ← takeExponent? rest
  return (if fraction || exponent then .number else ofDigits negative digits, rest)

/-- A part of a string: a character, or the number of an escape. -/
inductive Piece where
  | char (c : Char)
  | unit (n : Nat)

/-- The value of a hexadecimal digit. -/
def hexValue? (c : Char) : Option Nat :=
  if c.isDigit then some (c.toNat - '0'.toNat)
  else if 'a' ≤ c ∧ c ≤ 'f' then some (c.toNat - 'a'.toNat + 10)
  else if 'A' ≤ c ∧ c ≤ 'F' then some (c.toNat - 'A'.toNat + 10)
  else none

/-- The value of four hexadecimal digits. -/
def unitValue? (a b c d : Char) : Option Nat := do
  return 4096 * (← hexValue? a) + 256 * (← hexValue? b) + 16 * (← hexValue? c) + (← hexValue? d)

/-- The character that a letter escapes. -/
def escaped? : Char → Option Char
  | '"' => some '"'
  | '\\' => some '\\'
  | '/' => some '/'
  | 'b' => some '\x08'
  | 'f' => some '\x0c'
  | 'n' => some '\n'
  | 'r' => some '\r'
  | 't' => some '\t'
  | _ => none

/-- Takes the rest of a string off, up to its closing quote. -/
def takePieces? : List Char → Option (List Piece × List Char)
  | '"' :: rest => some ([], rest)
  | '\\' :: 'u' :: a :: b :: c :: d :: rest => do
      let n ← unitValue? a b c d
      let (pieces, rest) ← takePieces? rest
      return (.unit n :: pieces, rest)
  | '\\' :: letter :: rest => do
      let c ← escaped? letter
      let (pieces, rest) ← takePieces? rest
      return (.char c :: pieces, rest)
  | c :: rest =>
      if c == '\\' || c.toNat < 0x20 then none
      else do
        let (pieces, rest) ← takePieces? rest
        return (.char c :: pieces, rest)
  | [] => none

/-- The characters of a string; escaped surrogates have to come in pairs. -/
def textOfPieces? : List Piece → Option (List Char)
  | [] => some []
  | .char c :: pieces => (textOfPieces? pieces).map (c :: ·)
  | .unit n :: pieces =>
      if 0xD800 ≤ n ∧ n < 0xDC00 then
        match pieces with
        | .unit m :: pieces =>
            if 0xDC00 ≤ m ∧ m < 0xE000 then
              (textOfPieces? pieces).map
                (Char.ofNat (0x10000 + (n - 0xD800) * 0x400 + (m - 0xDC00)) :: ·)
            else none
        | _ => none
      else if 0xDC00 ≤ n ∧ n < 0xE000 then none
      else (textOfPieces? pieces).map (Char.ofNat n :: ·)

/-- Takes a string off behind its opening quote. -/
def takeString? (text : List Char) : Option (Option String × List Char) := do
  let (pieces, rest) ← takePieces? text
  return ((textOfPieces? pieces).map String.ofList, rest)

/-! ## Values -/

mutual

/-- Takes a value off.  The fuel bounds the nesting. -/
def takeValue? : Nat → List Char → Option (Document × List Char)
  | 0, _ => none
  | fuel + 1, text =>
      match skipBlanks text with
      | 'n' :: 'u' :: 'l' :: 'l' :: rest => some (.null, rest)
      | 't' :: 'r' :: 'u' :: 'e' :: rest => some (.bool true, rest)
      | 'f' :: 'a' :: 'l' :: 's' :: 'e' :: rest => some (.bool false, rest)
      | '"' :: rest => (takeString? rest).map fun (text, rest) => (.string text, rest)
      | '-' :: rest => takeNumber? true rest
      | '[' :: rest =>
          match skipBlanks rest with
          | ']' :: rest => some (.array [], rest)
          | rest => (takeElements? fuel rest).map fun (elements, rest) => (.array elements, rest)
      | '\x7b' :: rest =>
          match skipBlanks rest with
          | '\x7d' :: rest => some (.object [], rest)
          | rest => (takeFields? fuel rest).map fun (fields, rest) => (.object fields, rest)
      | rest => takeNumber? false rest

/-- Takes the elements of an array off, with the bracket behind them. -/
def takeElements? : Nat → List Char → Option (List Document × List Char)
  | 0, _ => none
  | fuel + 1, text => do
      let (element, rest) ← takeValue? fuel text
      match skipBlanks rest with
      | ',' :: rest =>
          let (elements, rest) ← takeElements? fuel rest
          return (element :: elements, rest)
      | ']' :: rest => return ([element], rest)
      | _ => none

/-- Takes the fields of an object off, with the brace behind them. -/
def takeFields? : Nat → List Char → Option (List (Option String × Document) × List Char)
  | 0, _ => none
  | fuel + 1, text => do
      match skipBlanks text with
      | '"' :: rest =>
          let (label, rest) ← takeString? rest
          match skipBlanks rest with
          | ':' :: rest =>
              let (value, rest) ← takeValue? fuel rest
              match skipBlanks rest with
              | ',' :: rest =>
                  let (fields, rest) ← takeFields? fuel rest
                  return ((label, value) :: fields, rest)
              | '\x7d' :: rest => return ([(label, value)], rest)
              | _ => none
          | _ => none
      | _ => none

end

/-- Reads a text that holds one value.  No value nests deeper than its text is
    long. -/
def ofText? (text : String) : Option Document := do
  let characters := text.toList
  let (document, rest) ← takeValue? (2 * characters.length + 2) characters
  if (skipBlanks rest).isEmpty then some document else none

/-! ## Readers of single values -/

/-- An integer between two bounds. -/
def integerIn? (low high : Int) : Document → Option Int
  | integer value => if low ≤ value ∧ value ≤ high then some value else none
  | _ => none

/-- A number of 64 bits without sign. -/
def size? (document : Document) : Option Nat :=
  (document.integerIn? 0 (Int.ofNat (UInt64.size - 1))).map Int.toNat

/-- A string that has a text. -/
def text? : Document → Option String
  | string text => text
  | _ => none

/-- A truth value. -/
def truth? : Document → Option Bool
  | bool value => some value
  | _ => none

/-- The fields of an object whose labels all have a text. -/
def fields? : Document → Option (List (String × Document))
  | object fields => fields.mapM fun (label, value) => label.map (·, value)
  | _ => none

/-- The value of the only field with the label.  The outer `none` says that
    there are several. -/
def unique? (fields : List (String × Document)) (label : String) : Option (Option Document) :=
  match fields.filter (·.1 == label) with
  | [] => some none
  | [(_, value)] => some (some value)
  | _ => none

end Document

end CatalogReplica.Text
