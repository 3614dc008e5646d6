import CatalogReplica.Names
import CatalogReplica.Capacity
import CatalogReplica.Coherence.Plan
import CatalogReplica.Identity.Crowd

/-!
# Runs over an identity cache

The objects of these runs are texts with serial numbers.  A constructor is a list
of steps on the same cache and an ending, so scripts nest; `step` and `steps`
recurse on the script.  An object lives while a name, the constructor's caller or
the cache itself holds it: `Desk.alive`.

In `Step.concurrent` further threads call for a key while the first one constructs
its object.  They all wait, and the end of the construction answers them.
-/

namespace CatalogReplica.Identity.Script

open Text (Form quoted)

/-- An object of the cache. -/
structure Item where
  serial : Nat
  text : String
  deriving DecidableEq, Inhabited, Repr

/-- How a constructor ends. -/
inductive Ending where
  | crash (note : String)
  | fail (kind : FaultKind) (message : String)
  | value (text : String)
  deriving DecidableEq, Inhabited, Repr

/-- One operation.  `keep` names what it gives. -/
inductive Step where
  /-- Looks a key up.  The constructor carries out the inner steps, passes the
      first fault of a lookup among them on if it propagates, and ends. -/
  | lookup (key : Nat) (inner : List Step) (propagate : Bool) (ending : Ending)
      (keep : Option String)
  | concurrent (key threads : Nat) (inner : List Step) (propagate : Bool) (ending : Ending)
      (keep : Option String)
  /-- Looks up every key from `first` up to `last`, which is not among them. -/
  | fill (first last : Nat) (hold : Bool)
  | get (key : Nat) (keep : Option String)
  | evict (key : Nat) (keep : Option String)
  | drop (name : String)
  | clear
  | live
  | purge
  | relieve
  | length
  | same (a b : String)
  | info
  deriving Inhabited

/-- The outcome of a lookup. -/
abbrev Outcome := Except Interrupt Item

/-- What happened since the answer before. -/
structure Activity where
  length : Nat
  departures : List (Nat × Departure)
  freed : List Nat
  counted : List (Counter × Int)
  deriving Inhabited

inductive Answer where
  | void
  | truth (value : Bool)
  | count (n : Nat)
  | size (n : Nat)
  /-- The outcome of a lookup and, if the constructor ran, the answers of its steps. -/
  | lookup (outcome : Outcome) (inner : Option (List (Answer × Activity)))
  /-- The outcomes of the first thread and of the threads that waited for it, and
      how often the constructor ran. -/
  | concurrent (first : Outcome) (others : List Outcome) (calls : Nat)
  | item (item : Option Item)
  | entries (entries : List (Nat × Item))
  /-- The cache as it is shown; of a shared one also its name and retention. -/
  | info (text : String) (more : Option (String × Retention))
  | unset (name : String)
  deriving Inhabited

/-- An answer and what happened since the one before. -/
abbrev Report := Answer × Activity

structure Desk where
  cache : Cache Nat Item
  tally : Tally := {}
  reported : Tally := {}
  departures : List (Nat × Departure) := []
  named : Names Item := []
  held : List Item := []
  constructed : Nat := 0
  unreported : List Item := []
  inner : Option (List Report) := none

namespace Desk

/-- Whether an object lives. -/
def alive (desk : Desk) (item : Item) : Bool :=
  desk.held.contains item || desk.cache.keeps item || desk.named.any fun entry => entry.2 == item

/-- The cache inside the state. -/
def view : CacheView Desk Nat Item where
  get := (·.cache)
  set cache desk := { desk with cache }
  alive := alive
  note notes desk := { desk with
    tally := Note.count notes desk.tally
    departures := desk.departures ++ notes.filterMap Note.departure? }
  hold item desk := { desk with held := item :: desk.held }
  letGo _ desk := desk
  key := .ofNat

/-- Constructs an object and holds it. -/
def construct (text : String) : Task Desk Item := fun desk =>
  let item : Item := ⟨desk.constructed + 1, text⟩
  .ok item { desk with
    constructed := desk.constructed + 1
    held := item :: desk.held
    unreported := item :: desk.unreported }

/-- Ends a step that holds an object: it is kept under a name or let go. -/
def release (desk : Desk) (keep : Option String) (item : Item) : Desk :=
  let named :=
    match keep with
    | some name => desk.named.set name item
    | none => desk.named
  { desk with named, held := desk.held.erase item }

/-- Ends a step that may hold an object. -/
def releaseAll (desk : Desk) (keep : Option String) (items : Option Item) : Desk :=
  items.toList.foldl (fun desk item => desk.release keep item) desk

/-- Looks up each key in turn and keeps its object under a name or lets it go. -/
def fill (hold : Bool) : List Nat → Desk → Desk
  | [], desk => desk
  | key :: keys, desk =>
      let desk :=
        match view.lookup 0 key (construct "v") desk with
        | .ok item desk => desk.release (if hold then some s!"k{key}" else none) item
        | .error _ desk => desk
      fill hold keys desk

/-- Ends a constructor with the answers of its inner steps. -/
def conclude (inner : List Report) (propagate : Bool) (ending : Ending) : Task Desk Item := do
  modify fun desk => { desk with inner := some inner }
  let failed := inner.findSome? fun report =>
    match report.1 with
    | .lookup (.error (.fault fault)) _ => some fault.kind
    | _ => none
  match (if propagate then failed else none), ending with
  | some kind, _ => Task.fail { kind, message := "propagated" }
  | none, .crash note => Task.crash (Coherence.PlanEnd.note note)
  | none, .fail kind message => Task.fail { kind, message }
  | none, .value text => construct text

/-- The outcome of a lookup, with the answers of the inner steps if the constructor
    ran. -/
def run (key : Nat) (body : Task Desk Item) (desk : Desk) :
    Outcome × Option (List Report) × Desk :=
  match view.lookup 0 key body { desk with inner := none } with
  | .ok item desk => (.ok item, desk.inner, desk)
  | .error interrupt desk => (.error interrupt, desk.inner, desk)

/-- A thread with `others` further ones that call for a key.  The constructor carries out the
    inner steps and ends. -/
def crowd (key others : Nat) (inner : Desk → List Report × Desk) (propagate : Bool) (ending : Ending)
    (desk : Desk) : Crowd Desk Nat Item where
  view
  key
  constructors _ := {
    acts := [fun desk =>
      let (reports, desk) := inner desk
      { desk with inner := some reports }]
    ending := fun desk => conclude (desk.inner.getD []) propagate ending desk }
  state := { desk with inner := none }
  callers := Array.replicate (others + 1) .outside

/-- Lets the first thread call and, if it constructs, the others while its constructor is running. -/
def gather (others : Nat) (crowd : Crowd Desk Nat Item) : Crowd Desk Nat Item :=
  let crowd := crowd.play [0]
  let further := List.range' 1 others
  if crowd.calls = 0 then crowd
  else crowd.play (0 :: further ++ List.replicate 5 0 ++ further)

/-- The objects that died without being reported, in the order of construction. -/
def freed (desk : Desk) : List Item :=
  (desk.unreported.filter fun item => !desk.alive item).reverse

/-- Departures by key, and by the name of the reason. -/
def inOrder (departures : List (Nat × Departure)) : List (Nat × Departure) :=
  departures.mergeSort fun a b => a.1 < b.1 || (a.1 == b.1 && !decide (b.2.text < a.2.text))

/-- What happened since the last answer; from now on it counts as reported. -/
def activity (desk : Desk) : Activity × Desk :=
  ({ length := desk.cache.length
     departures := inOrder desk.departures
     freed := desk.freed.map (·.serial)
     counted := Tally.changes desk.reported desk.tally },
   { desk with
     departures := []
     unreported := desk.unreported.filter desk.alive
     reported := desk.tally })

end Desk

/-- The entries by key. -/
def byKey (entries : List (Nat × Item)) : List (Nat × Item) :=
  entries.mergeSort fun a b => decide (a.1 ≤ b.1)

mutual

def step : Step → Desk → Answer × Desk
  | .lookup key inner propagate ending keep, desk =>
      let (outcome, ran, desk) := desk.run key fun desk =>
        let (reports, desk) := steps inner desk
        Desk.conclude reports propagate ending desk
      (.lookup outcome ran, desk.releaseAll keep outcome.toOption)
  | .concurrent key threads inner propagate ending keep, desk =>
      let crowd := Desk.gather (threads - 1) (desk.crowd key (threads - 1) (steps inner) propagate ending)
      let first := (crowd.answer? 0).getD (.error (.crash none))
      let others := (List.range' 1 (threads - 1)).filterMap crowd.answer?
      let desk := others.foldl (fun desk outcome => desk.releaseAll none outcome.toOption) crowd.state
      (.concurrent first others crowd.calls, desk.releaseAll keep first.toOption)
  | .fill first last hold, desk =>
      let desk := desk.fill hold (List.range' first (last - first))
      (.count desk.cache.length, desk)
  | .get key keep, desk =>
      let (item, desk) := Desk.view.get? key desk
      (.item item, desk.releaseAll keep item)
  | .evict key keep, desk =>
      let (item, desk) := Desk.view.evict key desk
      (.item item, desk.releaseAll keep item)
  | .drop name, desk =>
      (.truth (desk.named.get? name).isSome, { desk with named := desk.named.erase name })
  | .clear, desk => (.void, Desk.view.clear desk)
  | .live, desk => (.entries (byKey (desk.cache.live desk.alive)), desk)
  | .purge, desk =>
      let (count, desk) := Desk.view.purge desk
      (.count count, desk)
  | .relieve, desk =>
      let (count, desk) := Desk.view.relieve desk
      (.count count, desk)
  | .length, desk => (.size desk.cache.length, desk)
  | .same a b, desk =>
      match desk.named.get? a, desk.named.get? b with
      | some x, some y => (.truth (x == y), desk)
      | some _, none => (.unset b, desk)
      | none, _ => (.unset a, desk)
  | .info, desk =>
      let more :=
        match desk.cache.discipline with
        | .shared _ => some (desk.cache.name, desk.cache.retention)
        | .confined => none
      (.info desk.cache.form.inline more, desk)

/-- Carries out the steps in order, each with a report. -/
def steps : List Step → Desk → List Report × Desk
  | [], desk => ([], desk)
  | first :: rest, desk =>
      let (answer, desk) := step first desk
      let (activity, desk) := desk.activity
      let (reports, desk) := steps rest desk
      ((answer, activity) :: reports, desk)

end

/-- What a run starts from. -/
structure Setup where
  name : String := "identity"
  /-- How many shards are asked for; there is always one. -/
  shards : Nat := 8
  retention : Retention := .weak
  confined : Bool := false
  deriving Inhabited

namespace Setup

def shardCount (setup : Setup) : Nat := max setup.shards 1

/-- The setup as it is shown. -/
def form (setup : Setup) : Form :=
  .record "IdentityCacheBuilder" [
    ("name", .atom (quoted setup.name)), ("shards", .ofNat setup.shardCount),
    ("retention", setup.retention.form)]

/-- Whether there is room for the queue of softly retained objects and, in a cache
    that threads share, for the shards. -/
def fits (setup : Setup) : Bool :=
  Capacity.fits setup.retention.capacity
    && (setup.confined || Capacity.fits setup.shardCount)

def cache (setup : Setup) : Cache Nat Item where
  name := setup.name
  retention := setup.retention
  discipline := if setup.confined then .confined else .shared setup.shardCount
  spread := id

end Setup

/-- The reports of a run, and what dies when first the cache and then the names go. -/
structure Summary where
  setup : String
  reports : List Report
  freedWithCache : List Nat
  freedWithNames : List Nat
  lateDepartures : List (Nat × Departure)

/-- Runs a script over an empty cache.  A cache that there is no room for breaks the
    run off before it starts. -/
def run (setup : Setup) (script : List Step) : Except Interrupt Summary :=
  if setup.fits then
    let (reports, desk) := steps script { cache := setup.cache }
    let (withCache, desk) := { desk with cache := setup.cache }.activity
    let (withNames, _) := { desk with named := [] }.activity
    .ok {
      setup := setup.form.inline
      reports
      freedWithCache := withCache.freed
      freedWithNames := withNames.freed
      lateDepartures := withCache.departures ++ withNames.departures }
  else .error (.crash none)

end CatalogReplica.Identity.Script
