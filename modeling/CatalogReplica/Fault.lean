import CatalogReplica.Text.Structured
import CatalogReplica.Text.Quoted

/-!
# Faults

A `Fault` says what went wrong: its kind, a message, the circumstances as an
ordered list of labelled values and, where another failure stands behind it,
that cause.

* `Fault.line` is the one-line text, and `Fault.reportedLine` what a run shows of it.
* `Fault.report` is the text over several lines, ending with the backtrace note.
* `Fault.form` is the structured form of a fault without a cause.

The constructors at the end (`Fault.released`, `Fault.notFound`, ...) are the
faults that the library raises in more than one place.
-/

namespace CatalogReplica

open Text (Form quoted addressed)

/-- What sort of failure a fault is. -/
inductive FaultKind where
  | released
  | lifespanEnded
  | wrongContext
  | notFound
  | reentrant
  | native
  | external
  | config
  | closed
  deriving DecidableEq, Inhabited, Repr

namespace FaultKind

/-- The short name of the kind. -/
def name : FaultKind → String
  | released => "Released"
  | lifespanEnded => "LifespanEnded"
  | wrongContext => "WrongContext"
  | notFound => "NotFound"
  | reentrant => "Reentrant"
  | native => "Native"
  | external => "External"
  | config => "Config"
  | closed => "Closed"

def text : FaultKind → String
  | released => "Released resource used"
  | lifespanEnded => "Lifespan ended"
  | wrongContext => "Wrong execution context"
  | notFound => "Not found"
  | reentrant => "Reentrant construction"
  | native => "Native access error"
  | external => "External error"
  | config => "Config error"
  | closed => "Closed"

def all : List FaultKind :=
  [released, lifespanEnded, wrongContext, notFound, reentrant, native, external, config, closed]

/-- The kind with the given short name. -/
def ofName? (name : String) : Option FaultKind := all.find? (·.name == name)

end FaultKind

/-- What makes a configuration unusable. -/
inductive ConfigIssue where
  | zeroShards
  | zeroSoftCapacity (what : String)
  deriving DecidableEq, Inhabited, Repr

def ConfigIssue.text : ConfigIssue → String
  | zeroShards => "shard count must be positive"
  | zeroSoftCapacity what => "soft retention of " ++ what ++ " needs a positive capacity"

/-- The failure behind a fault. -/
inductive Cause where
  | chain (nearest : String) (deeper : List String)
  | config (issue : ConfigIssue)
  | malformedText
  deriving DecidableEq, Inhabited, Repr

namespace Cause

/-- The text of the nearest failure. -/
def text : Cause → String
  | chain nearest _ => nearest
  | config issue => issue.text
  | malformedText => "utf8"

/-- The texts of the whole chain, nearest first. -/
def chainText : Cause → String
  | chain nearest deeper => ": ".intercalate (nearest :: deeper)
  | config issue => issue.text
  | malformedText => "utf8"

end Cause

/-- A failure with its circumstances. -/
structure Fault where
  kind : FaultKind
  /-- What happened; may be empty. -/
  message : String
  /-- Labelled circumstances, in the order in which they were added. -/
  context : List (String × String) := []
  cause : Option Cause := none
  deriving DecidableEq, Inhabited, Repr

namespace Fault

/-- Adds a circumstance behind those already there. -/
def withContext (fault : Fault) (label value : String) : Fault :=
  { fault with context := fault.context ++ [(label, value)] }

/-- Sets the failure behind the fault. -/
def withCause (fault : Fault) (cause : Cause) : Fault :=
  { fault with cause := some cause }

/-! ## Texts -/

/-- The message behind an arrow, or nothing where it is empty. -/
def messageText (fault : Fault) : String :=
  if fault.message.isEmpty then "" else " => " ++ fault.message

/-- The text on one line: kind, circumstances, message and cause. -/
def line (fault : Fault) : String :=
  let circumstances :=
    if fault.context.isEmpty then ""
    else ", context: \x7b " ++
      ", ".intercalate (fault.context.map fun (label, value) => label ++ ": " ++ value) ++ " \x7d"
  let source :=
    match fault.cause with
    | none => ""
    | some cause => ", source: " ++ cause.text
  fault.kind.text ++ circumstances ++ fault.messageText ++ source

/-- Stands for the number of a thing whose numbering is not part of the model. -/
def unnumbered : String := "*"

/-- Whether a circumstance is the number of a mutator, a thread or a guard. -/
def isNumber (fault : Fault) (label : String) : Bool :=
  label == "mutator" || label == "thread"
    || (label == "handle" && "guard used".isPrefixOf fault.message)

/-- The text in front of the first mention of a source. -/
def beforeSource (text : String) : String := ((text.splitOn ", source: ").head?).getD text

/-- The one-line text without what differs from run to run: numbers that are handed
    out, and how malformed bytes are described. -/
def reportedLine (fault : Fault) : String :=
  let context := fault.context.map fun (label, value) =>
    (label, if fault.isNumber label then unnumbered else value)
  let line := { fault with context }.line
  if fault.cause = some .malformedText then beforeSource line ++ ", source: utf8" else line

/-- The note that stands where a backtrace would. -/
def backtraceNote : String := "disabled backtrace"

/-- The text over several lines, a section each for circumstances, cause and
    backtrace. -/
def report (fault : Fault) : String :=
  let circumstances :=
    if fault.context.isEmpty then ""
    else "\nContext:\n" ++
      String.join (fault.context.map fun (label, value) => "  " ++ label ++ ": " ++ value ++ "\n")
  let source :=
    match fault.cause with
    | none => ""
    | some cause => "\nSource:\n  " ++ cause.chainText ++ "\n"
  fault.kind.text ++ fault.messageText ++ "\n" ++ circumstances ++ source
    ++ "\nBacktrace:\n" ++ backtraceNote ++ "\n"

/-- The structured form of a fault without a cause. -/
def form (fault : Fault) : Form :=
  .record "Error" [
    ("kind", .atom fault.kind.name),
    ("message", .atom (quoted fault.message)),
    ("context", .sequence (fault.context.map fun (label, value) =>
      .tuple "" [.atom (quoted label), .atom (quoted value)])),
    ("source", .atom "None"),
    ("backtrace", .tuple "Some" [.atom "<disabled>"])]

/-! ## Common faults -/

/-- A resource was used after its release. -/
def released (what handle : String) : Fault :=
  { kind := .released, message := what ++ " used after release", context := [("handle", handle)] }

/-- A computation that needs the mutator was attempted by a reader. -/
def wrongContext (what : String) : Fault :=
  { kind := .wrongContext
    message := "computation requires the mutator context but was attempted from a reader"
    context := [("computation", what)] }

/-- The entity named by `key` does not exist; `key` is shown as it is given. -/
def notFound (key : String) : Fault :=
  { kind := .notFound, message := "no such entity in the backend", context := [("key", key)] }

/-- An access of `len` bytes left the memory that is mapped. -/
def outOfRange (address offset len : Nat) : Fault :=
  { kind := .native
    message := "native window access out of range"
    context := [
      ("address", addressed address), ("offset", toString offset), ("len", toString len)] }

/-- The configuration is not usable. -/
def ofConfigIssue (issue : ConfigIssue) : Fault :=
  { kind := .config, message := issue.text, cause := some (.config issue) }

/-- The catalog that an entity belongs to is gone. -/
def catalogDropped : Fault :=
  { kind := .closed, message := "catalog has been dropped" }

end Fault

end CatalogReplica
