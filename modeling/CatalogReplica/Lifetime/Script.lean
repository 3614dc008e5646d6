import CatalogReplica.Names
import CatalogReplica.Lifetime.Ledger

/-!
# Runs over guards and lifespans

Scripts build guards, lifespans and queues under names and carry out one operation
after the other.  After each step the ledger forgets what no name refers to any
more.

* `step` carries out one step; `run` all of them, each with a report of what
  happened meanwhile.
* `foreignPin` and `runningRelease` are the two scenes with a second thread.
-/

namespace CatalogReplica.Lifetime.Script

/-- The thread that carries out the steps. -/
def mainThread : ThreadId := 0

/-- The other thread of a scene. -/
def otherThread : ThreadId := 1

structure Desk where
  ledger : Ledger := {}
  mutators : Names Nat := [("m0", 0)]
  nextMutator : Nat := 1
  lifespans : Names LifespanId := []
  guards : Names GuardId := []
  pins : Names GuardId := []
  queues : Names QueueId := []
  seen : Nat := 0
  reported : Tally := {}
  deriving Inhabited

inductive Step where
  | mutator (name : String)
  | sameMutator (a b : String)
  | lifespan (name : String) (address : Address) (kind : LifespanKind)
  | child (parent name : String) (address : Address) (kind : LifespanKind)
  | cloneLifespan (lifespan name : String)
  | dropLifespan (lifespan : String)
  | same (a b : String)
  | info (lifespan : String)
  | teardown (lifespan : String) (close : Bool) (mutator : String)
  | guard (name what : String) (handle : Address) (queue lifespan : Option String) (acts : Bool)
      (owns : List String) (metered : Bool)
  | register (lifespan guard : String)
  | deregister (lifespan guard : String)
  | released (guard : String)
  | handle (guard : String)
  | show (guard : String)
  | pin (guard name : String)
  | unpin (pin : String)
  | drop (guard : String)
  | queue (name : String)
  | cloneQueue (queue name : String)
  | bind (queue mutator : String)
  | unbind (queue mutator : String)
  | queueInfo (queue : String)
  | drain (queue mutator : String)
  | foreignPin (guard lifespan : String) (pins : Nat) (close : Bool)
  /-- Ends a lifespan while the action of a guard of its runs on another thread. -/
  | runningRelease (handle : Address) (lifespan : String)
  | finish
  deriving Inhabited

/-- An entry of the log as it is shown: what it is about, and what happened. -/
abbrev Entry := String × String

inductive Answer where
  | void
  | truth (value : Bool)
  | truths (a b : Bool)
  | count (n : Nat)
  | address (address : Address)
  | text (text : String)
  | pinned (address : Address) (text : String)
  | lifespan (lifespan : Lifespan)
  | queue (queue : ReleaseQueue) (owner : Option String)
  | order (released : Nat) (order : List Entry) (length : Option Nat)
  | unset (name : String)
  | interrupted (interrupt : Interrupt)
  deriving Inhabited

namespace Desk

/-- Runs an operation of the ledger. -/
def onLedger {α : Type} (body : Task Ledger α) : Task Desk α :=
  Task.within (·.ledger) (fun ledger desk => { desk with ledger }) body

/-- Runs a plain change of the ledger that also gives a value. -/
def change {α : Type} (f : Ledger → α × Ledger) : Task Desk α := onLedger (Task.lift f)

/-- Ends the pin under a name. -/
def dropPin (name : String) : Task Desk Unit := do
  match (← get).pins.get? name with
  | none => return ()
  | some guard =>
      modify fun desk => { desk with pins := desk.pins.erase name }
      onLedger (Ledger.unpin mainThread guard)

/-- The owner of the guard under a name goes away. -/
def dropGuard (name : String) : Task Desk Unit := do
  match (← get).guards.get? name with
  | none => return ()
  | some guard =>
      modify fun desk => { desk with guards := desk.guards.erase name }
      onLedger (Ledger.dropOwner guard)

/-- Keeps a held queue under a name, in place of the queue before. -/
def nameQueue (name : String) (queue : QueueId) : Task Desk Unit := do
  let before := (← get).queues.get? name
  modify fun desk => { desk with queues := desk.queues.set name queue }
  match before with
  | none => return ()
  | some before => onLedger (Ledger.letQueueGo before)

/-- Forgets what no name refers to. -/
def collect : Task Desk Unit := do
  onLedger (Ledger.collect ((← get).lifespans.map (·.2)))

end Desk

/-- Continues with what a name stands for. -/
def known {α : Type} (names : Desk → Names α) (name : String) (next : α → Task Desk Answer) :
    Task Desk Answer := do
  match (names (← get)).get? name with
  | some value => next value
  | none => return .unset name

/-- Continues with what a name stands for, if there is a name. -/
def knownIf {α : Type} (names : Desk → Names α) (name : Option String)
    (next : Option α → Task Desk Answer) : Task Desk Answer :=
  match name with
  | none => next none
  | some name => known names name fun value => next (some value)

/-- Continues; if that finds a name missing, the owners of the guards go away. -/
def orRelease (guards : List GuardId) (next : Task Desk Answer) : Task Desk Answer := do
  match ← next with
  | .unset name =>
      guards.forM fun guard => Desk.onLedger (Ledger.dropOwner guard)
      return .unset name
  | answer => return answer

/-- Continues with the guards under the names, which are taken away from the names. -/
def takeGuards (next : List GuardId → Task Desk Answer) :
    List String → List GuardId → Task Desk Answer
  | [], taken => next taken
  | name :: names, taken => do
      match (← get).guards.get? name with
      | some guard =>
          modify fun desk => { desk with guards := desk.guards.erase name }
          takeGuards next names (taken ++ [guard])
      | none => orRelease taken (return .unset name)

/-- An entry of the log as it is shown. -/
def entry : Happening → Entry
  | .fired _ handle cause => (handle.text, cause.text)
  | .yielded _ handle => (handle.text, "unpin")

/-- The entries that were not reported, in order; from now on they are. -/
def takeEntries : Task Desk (List Entry) := fun desk =>
  .ok ((desk.ledger.log.drop desk.seen).map entry) { desk with seen := desk.ledger.log.length }

/-- Another thread pins a guard; then a lifespan is torn down.  The other thread gives
    its pins up once the teardown has reached the guard. -/
def foreignPin (guard : GuardId) (lifespan : LifespanId) (pins : Nat) (close : Bool) :
    Task Desk Answer := do
  (List.replicate pins guard).forM fun guard =>
    discard (Desk.onLedger (Ledger.pin otherThread guard))
  let released ← Desk.onLedger (Ledger.teardown mainThread lifespan close)
  let order ← takeEntries
  match (← get).ledger.guard? guard with
  | none => pure ()
  | some held =>
      (held.holders.filter (· == otherThread)).forM fun _ => Desk.onLedger do
        modify (·.note (.yielded guard held.handle))
        Ledger.unpin otherThread guard
  return .order released order none

/-- The owner of a new guard goes away on another thread, which claims the release.
    Before its action is over, the lifespan that the guard is registered to is ended;
    that waits for the action when it comes to the guard. -/
def runningRelease (handle : Address) (lifespan : LifespanId) : Task Desk Answer := do
  let guard ← Desk.onLedger (Ledger.build { handle, action := some {} } (some lifespan))
  let released ← Desk.onLedger do
    modify fun ledger =>
      ((ledger.onGuard guard fun held => { held with owned := false }).claim guard).2
    Ledger.teardown mainThread lifespan true
  let order ← takeEntries
  let length := (((← get).ledger.lifespan? lifespan).map (·.guards.length)).getD 0
  return .order released (order ++ [("teardown", "done")]) (some length)

def step : Step → Task Desk Answer
  | .mutator name => do
      modify fun desk => { desk with
        mutators := desk.mutators.set name desk.nextMutator, nextMutator := desk.nextMutator + 1 }
      return .void
  | .sameMutator a b => known Desk.mutators a fun a => known Desk.mutators b fun b =>
      return .truths (a == b) true
  | .lifespan name address kind => do
      let id ← Desk.change (·.addLifespan address kind)
      modify fun desk => { desk with lifespans := desk.lifespans.set name id }
      return .void
  | .child parent name address kind => known Desk.lifespans parent fun parent => do
      let id ← Desk.onLedger (Ledger.child parent address kind)
      modify fun desk => { desk with lifespans := desk.lifespans.set name id }
      return .void
  | .cloneLifespan lifespan name => known Desk.lifespans lifespan fun id => do
      modify fun desk => { desk with lifespans := desk.lifespans.set name id }
      return .void
  | .dropLifespan lifespan => do
      let had := ((← get).lifespans.get? lifespan).isSome
      modify fun desk => { desk with lifespans := desk.lifespans.erase lifespan }
      return .truth had
  | .same a b => known Desk.lifespans a fun a => known Desk.lifespans b fun b =>
      return .truth (a == b)
  | .info lifespan => known Desk.lifespans lifespan fun id => do
      match (← get).ledger.lifespan? id with
      | some lifespan => return .lifespan lifespan
      | none => Task.crash
  | .teardown lifespan close mutator => known Desk.lifespans lifespan fun id =>
      known Desk.mutators mutator fun _ => do
        return .count (← Desk.onLedger (Ledger.teardown mainThread id close))
  | .guard name what handle queue lifespan acts owns metered =>
      knownIf Desk.queues queue fun queue =>
        let build (owned : List GuardId) : Task Desk Answer :=
          orRelease owned <| knownIf Desk.lifespans lifespan fun lifespan => do
            let action := if acts then some { owns := owned : Action } else none
            let plan : Guard := { what, handle, queue, action, metered }
            let id ← Desk.onLedger (Ledger.build plan lifespan)
            Desk.dropGuard name
            modify fun desk => { desk with guards := desk.guards.set name id }
            return .text plan.plan.inline
        if acts then takeGuards build owns [] else build []
  | .register lifespan guard => known Desk.lifespans lifespan fun lifespan =>
      known Desk.guards guard fun guard => do
        Desk.onLedger (Ledger.register guard lifespan)
        return .text "ok"
  | .deregister lifespan guard => known Desk.lifespans lifespan fun lifespan =>
      known Desk.guards guard fun guard => do
        return .truth (← Desk.change (·.deregister guard lifespan))
  | .released guard => known Desk.guards guard fun id => do
      return .truth ((((← get).ledger.guard? id).map (·.isReleased)).getD true)
  | .handle guard => known Desk.guards guard fun id => do
      return .address (← Task.ofOutcome ((← get).ledger.handle id))
  | .show guard => known Desk.guards guard fun id => do
      match (← get).ledger.guard? id with
      | some guard => return .text guard.form.inline
      | none => Task.crash
  | .pin guard name => known Desk.guards guard fun id => do
      let handle ← Desk.onLedger (Ledger.pin mainThread id)
      Desk.dropPin name
      modify fun desk => { desk with pins := desk.pins.set name id }
      return .pinned handle ({ handle : Guard }).pinForm.inline
  | .unpin pin => known Desk.pins pin fun id => do
      let handle := (((← get).ledger.guard? id).map (·.handle)).getD .null
      Desk.dropPin pin
      return .address handle
  | .drop guard => known Desk.guards guard fun _ => do
      Desk.dropGuard guard
      return .void
  | .queue name => do
      Desk.nameQueue name (← Desk.change (·.addQueue))
      return .void
  | .cloneQueue queue name => known Desk.queues queue fun id => do
      Desk.onLedger (modify (·.holdQueue id))
      Desk.nameQueue name id
      return .void
  | .bind queue mutator => known Desk.queues queue fun id =>
      known Desk.mutators mutator fun m => onQueue id (·.bind m)
  | .unbind queue mutator => known Desk.queues queue fun id =>
      known Desk.mutators mutator fun m => onQueue id (·.unbind m)
  | .queueInfo queue => known Desk.queues queue fun id => do
      let desk ← get
      match desk.ledger.queue? id with
      | none => Task.crash
      | some queue =>
          let owner := desk.mutators.sorted.find? fun entry => some entry.2 == queue.owner
          return .queue queue (owner.map (·.1))
  | .drain queue mutator => known Desk.queues queue fun id =>
      known Desk.mutators mutator fun _ => do
        return .count (← Desk.onLedger (Ledger.drain id))
  | .foreignPin guard lifespan pins close => known Desk.guards guard fun guard =>
      known Desk.lifespans lifespan fun lifespan => foreignPin guard lifespan pins close
  | .runningRelease handle lifespan => known Desk.lifespans lifespan fun lifespan =>
      runningRelease handle lifespan
  | .finish => do
      ((← get).pins.sorted.map (·.1)).forM Desk.dropPin
      ((← get).guards.sorted.map (·.1)).forM Desk.dropGuard
      return .void
where
  onQueue (id : QueueId) (f : ReleaseQueue → Bool × ReleaseQueue) : Task Desk Answer := do
    match (← get).ledger.queue? id with
    | none => Task.crash
    | some queue =>
        let (done, queue) := f queue
        discard (Desk.change fun ledger => ((), ledger.onQueue id fun _ => queue))
        return .truth done

/-- An answer and what happened meanwhile. -/
structure Report where
  answer : Answer
  log : List Entry
  counted : List (Counter × Int)

/-- Entries in alphabetical order. -/
def inOrder (entries : List Entry) : List Entry :=
  entries.mergeSort fun a b => a.1 < b.1 || (a.1 == b.1 && !decide (b.2 < a.2))

/-- Carries out one step, forgets what no name refers to any more, and reports. -/
def report (s : Step) (desk : Desk) : Report × Desk :=
  let (answer, desk) :=
    match step s desk with
    | .ok answer desk => (answer, desk)
    | .error interrupt desk => (.interrupted interrupt, desk)
  let desk :=
    match Desk.collect desk with
    | .ok () desk => desk
    | .error _ desk => desk
  let entries := (desk.ledger.log.drop desk.seen).map entry
  ({ answer, log := inOrder entries, counted := Tally.changes desk.reported desk.ledger.tally },
    { desk with seen := desk.ledger.log.length, reported := desk.ledger.tally })

/-- Carries out the steps in order. -/
def run : Desk → List Step → List Report
  | _, [] => []
  | desk, s :: steps =>
      let (first, desk) := report s desk
      first :: run desk steps

end CatalogReplica.Lifetime.Script
