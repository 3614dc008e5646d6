/-!
# Structured text forms

A value shown for inspection is first built as a `Form`: an atom, a record with
named fields, a tagged tuple, a sequence or a set.  A form has two layouts.

* `Form.inline` writes it on one line: `Pair { left: 1, right: [2, 3] }`.
* `Form.block` gives every part a line of its own, indented by four spaces and
  followed by a comma.

A record or tuple without parts is its bare name, and an empty sequence is `[]`
in both layouts.
-/

namespace CatalogReplica.Text

/-- The parts of a value that is shown for inspection. -/
inductive Form where
  | atom (text : String)
  | record (name : String) (fields : List (String × Form))
  /-- A name with positional parts; a plain tuple has the empty name. -/
  | tuple (name : String) (parts : List Form)
  | sequence (parts : List Form)
  | set (parts : List Form)
  deriving Inhabited

namespace Form

/-- Shows an absent or a present part. -/
def option : Option Form → Form
  | none => .atom "None"
  | some part => .tuple "Some" [part]

def ofNat (n : Nat) : Form := .atom (toString n)

def ofInt (i : Int) : Form := .atom (toString i)

/-- Shows `true` or `false`. -/
def ofBool (b : Bool) : Form := .atom (if b then "true" else "false")

mutual

/-- The layout on one line. -/
def inline : Form → String
  | .atom text => text
  | .record name [] => name
  | .record name (field :: fields) =>
      name ++ " \x7b " ++ inlineFields (field :: fields) ++ " \x7d"
  | .tuple name [] => name
  | .tuple name (part :: parts) => name ++ "(" ++ inlineParts (part :: parts) ++ ")"
  | .sequence parts => "[" ++ inlineParts parts ++ "]"
  | .set parts => "\x7b" ++ inlineParts parts ++ "\x7d"

/-- Labelled fields on one line, separated by commas. -/
def inlineFields : List (String × Form) → String
  | [] => ""
  | [(label, part)] => label ++ ": " ++ inline part
  | (label, part) :: field :: fields =>
      label ++ ": " ++ inline part ++ ", " ++ inlineFields (field :: fields)

/-- Positional parts on one line, separated by commas. -/
def inlineParts : List Form → String
  | [] => ""
  | [part] => inline part
  | part :: next :: parts => inline part ++ ", " ++ inlineParts (next :: parts)

end

mutual

/-- The layout with one part a line; `margin` stands before every line but the
    first. -/
def blockAt (margin : String) : Form → String
  | .atom text => text
  | .record name [] => name
  | .record name (field :: fields) =>
      name ++ " \x7b\n" ++ blockFields (margin ++ "    ") (field :: fields) ++ margin ++ "\x7d"
  | .tuple name [] => name
  | .tuple name (part :: parts) =>
      name ++ "(\n" ++ blockParts (margin ++ "    ") (part :: parts) ++ margin ++ ")"
  | .sequence [] => "[]"
  | .sequence (part :: parts) =>
      "[\n" ++ blockParts (margin ++ "    ") (part :: parts) ++ margin ++ "]"
  | .set [] => "\x7b\x7d"
  | .set (part :: parts) =>
      "\x7b\n" ++ blockParts (margin ++ "    ") (part :: parts) ++ margin ++ "\x7d"

/-- Labelled fields, one a line. -/
def blockFields (margin : String) : List (String × Form) → String
  | [] => ""
  | (label, part) :: fields =>
      margin ++ label ++ ": " ++ blockAt margin part ++ ",\n" ++ blockFields margin fields

/-- Positional parts, one a line. -/
def blockParts (margin : String) : List Form → String
  | [] => ""
  | part :: parts => margin ++ blockAt margin part ++ ",\n" ++ blockParts margin parts

end

/-- The layout with one part a line. -/
def block (form : Form) : String := form.blockAt ""

end Form

end CatalogReplica.Text
