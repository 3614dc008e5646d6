import CatalogReplica.Task
import CatalogReplica.Numbered
import CatalogReplica.Lifetime.Guard

/-!
# The ledger of native resources

A `Ledger` holds all guards, lifespans and release queues, and what happened to
them.  Every release goes through the same two steps: `Ledger.claim`, which one
caller wins, and `Ledger.run`, which does what the release does.

* `Ledger.dropOwner`, `Ledger.drain`: the owner of a guard goes away; the release
  happens at once, or when the queue is drained.  A queue goes together with the last
  one who refers to it, and then so do, unreleased, the guards that it alone kept.
* `Ledger.teardown`: a lifespan is reset or ended, its children first.
* `Ledger.pin`, `Ledger.unpin`: pins hold a release by teardown off.
* `Ledger.collect`: forgets what nobody refers to any more.
-/

namespace CatalogReplica.Lifetime

/-- Something that happened to a guard. -/
inductive Happening where
  | fired (guard : GuardId) (handle : Address) (cause : ReleaseCause)
  | yielded (guard : GuardId) (handle : Address)
  deriving DecidableEq, Inhabited, Repr

/-- All guards, lifespans and release queues. -/
structure Ledger where
  guards : Numbered Guard := []
  lifespans : Numbered Lifespan := []
  queues : Numbered ReleaseQueue := []
  busy : List GuardId := []
  next : Nat := 0
  log : List Happening := []
  tally : Tally := {}
  deriving Inhabited

namespace Ledger

/-! ## Records -/

def guard? (ledger : Ledger) (id : GuardId) : Option Guard := ledger.guards.get? id

def lifespan? (ledger : Ledger) (id : LifespanId) : Option Lifespan := ledger.lifespans.get? id

def queue? (ledger : Ledger) (id : QueueId) : Option ReleaseQueue := ledger.queues.get? id

def onGuard (ledger : Ledger) (id : GuardId) (f : Guard → Guard) : Ledger :=
  { ledger with guards := ledger.guards.update id f }

def onLifespan (ledger : Ledger) (id : LifespanId) (f : Lifespan → Lifespan) : Ledger :=
  { ledger with lifespans := ledger.lifespans.update id f }

def onQueue (ledger : Ledger) (id : QueueId) (f : ReleaseQueue → ReleaseQueue) : Ledger :=
  { ledger with queues := ledger.queues.update id f }

def addGuard (ledger : Ledger) (guard : Guard) : GuardId × Ledger :=
  (ledger.next,
    { ledger with guards := ledger.guards.add ledger.next guard, next := ledger.next + 1 })

/-- Adds a lifespan that is inside no other one. -/
def addLifespan (ledger : Ledger) (address : Address) (kind : LifespanKind) :
    LifespanId × Ledger :=
  (ledger.next,
    { ledger with
      lifespans := ledger.lifespans.add ledger.next { address, kind }
      next := ledger.next + 1 })

/-- Adds an empty queue and holds it. -/
def addQueue (ledger : Ledger) : QueueId × Ledger :=
  (ledger.next,
    { ledger with queues := ledger.queues.add ledger.next {}, next := ledger.next + 1 })

/-- Counts something for a guard, if the guard is metered. -/
def count (ledger : Ledger) (id : GuardId) (counter : Counter) (n : Int := 1) : Ledger :=
  if ((ledger.guard? id).map (·.metered)).getD false then
    { ledger with tally := ledger.tally.add counter n }
  else ledger

def note (ledger : Ledger) (happening : Happening) : Ledger :=
  { ledger with log := ledger.log ++ [happening] }

/-! ## Registration -/

/-- Takes a guard out of a lifespan's table, and says whether it was there. -/
def forget (ledger : Ledger) (guard : GuardId) (lifespan : LifespanId) : Bool × Ledger :=
  match ledger.lifespan? lifespan with
  | none => (false, ledger)
  | some held =>
      if guard ∈ held.guards then
        let ledger := ledger.onLifespan lifespan fun held =>
          { held with guards := held.guards.erase guard }
        (true, ledger.count guard .guardRegistered (-1))
      else (false, ledger)

/-- Registers a guard to a lifespan, so that tearing the lifespan down releases it. -/
def register (guard : GuardId) (lifespan : LifespanId) : Task Ledger Unit := do
  let ledger ← get
  match ledger.guard? guard, ledger.lifespan? lifespan with
  | some held, some scope =>
      if held.isReleased then Task.fail (.released "guard" Fault.unnumbered)
      else if scope.ended then Task.fail scope.endedFault
      else
        let ledger :=
          -- Registering again sets the link only: a table lists a guard once and counts it once.
          if guard ∈ scope.guards then ledger
          else
            let ledger := ledger.onLifespan lifespan fun scope =>
              { scope with guards := scope.guards ++ [guard] }
            ledger.count guard .guardRegistered
        set (ledger.onGuard guard fun held => { held with link := some lifespan })
  | _, _ => Task.crash

/-- Takes a guard out of a lifespan's table without releasing it. -/
def deregister (ledger : Ledger) (guard : GuardId) (lifespan : LifespanId) : Bool × Ledger :=
  let (removed, ledger) := ledger.forget guard lifespan
  (removed, if removed then ledger.onGuard guard fun held => { held with link := none } else ledger)

/-- Makes a lifespan inside another one.  Children that have ended are forgotten. -/
def child (parent : LifespanId) (address : Address) (kind : LifespanKind) :
    Task Ledger LifespanId := do
  let ledger ← get
  match ledger.lifespan? parent with
  | none => Task.crash
  | some scope =>
      if scope.ended then Task.fail scope.endedFault
      else
        let isOpen (id : LifespanId) : Bool := !((ledger.lifespan? id).map (·.ended)).getD true
        let (id, ledger) := ledger.addLifespan address kind
        set (ledger.onLifespan parent fun scope =>
          { scope with children := scope.children.filter isOpen ++ [id] })
        return id

/-! ## References -/

/-- Whether a lifespan is referred to: by one of the roots or by the lifespan around
    it. -/
def lifespanHeld (ledger : Ledger) (roots : List LifespanId) (id : LifespanId) : Bool :=
  roots.contains id || ledger.lifespans.any fun entry => entry.2.children.contains id

/-- Whether a queue is referred to: from outside or by the owner of a guard. -/
def queueHeld (ledger : Ledger) (id : QueueId) (queue : ReleaseQueue) : Bool :=
  queue.handles != 0
    || ledger.guards.any fun entry => entry.2.owned && entry.2.queue == some id

/-- Whether a guard is referred to: by its owner, by an operation that goes through
    guards, by a lifespan or by a queue. -/
def guardHeld (ledger : Ledger) (id : GuardId) (guard : Guard) : Bool :=
  guard.owned || ledger.busy.contains id
    || (ledger.lifespans.any fun entry => entry.2.guards.contains id)
    || ledger.queues.any fun entry => entry.2.guards.contains id

/-- Forgets the queues that are not referred to. -/
def sweepQueues (ledger : Ledger) : Ledger :=
  { ledger with queues := ledger.queues.filter fun entry => ledger.queueHeld entry.1 entry.2 }

/-- The first guard that is not referred to and whose action did not run. -/
def abandoned? (ledger : Ledger) : Option GuardId :=
  (ledger.guards.find? fun entry =>
    entry.2.action.isSome && !ledger.guardHeld entry.1 entry.2).map (·.1)

/-- Refers to the guards as long as the body goes through them. -/
def holding {α : Type} (guards : List GuardId) (body : Task Ledger α) : Task Ledger α := do
  let before := (← get).busy
  modify fun ledger => { ledger with busy := guards ++ before }
  Task.ensuring body fun ledger => { ledger with busy := before }

/-! ## Releases -/

/-- Claims the release of a guard.  Exactly one caller ever succeeds. -/
def claim (ledger : Ledger) (id : GuardId) : Bool × Ledger :=
  match ledger.guard? id with
  | none => (false, ledger)
  | some held =>
      (!held.flags.claimed,
        ledger.onGuard id fun held => { held with flags := { held.flags with releasing := true } })

/-- Takes the action out of a guard. -/
def takeAction (ledger : Ledger) (id : GuardId) : Option Action × Ledger :=
  ((ledger.guard? id).bind (·.action),
    ledger.onGuard id fun held => { held with action := none })

/-- The first part of a claimed release: it is counted, and the action runs and lets
    the guards go that it owns. -/
def fireBy (drop : GuardId → Task Ledger Unit) (id : GuardId) (cause : ReleaseCause) :
    Task Ledger Unit := do
  modify (·.count id cause.counter)
  let handle := (((← get).guard? id).map (·.handle)).getD .null
  -- The action is out before it runs, so nothing runs it again.
  match ← Task.lift (·.takeAction id) with
  | none => return ()
  | some action =>
      modify (·.note (.fired id handle cause))
      action.owns.forM drop
      if action.crashes then Task.crash

/-- The last part of a claimed release: a guard that became unreachable leaves its
    lifespan, and the release is over. -/
def conclude (ledger : Ledger) (id : GuardId) (cause : ReleaseCause) : Ledger :=
  let ledger :=
    match cause with
    | .lifespanEnded => ledger
    | .unreachable =>
        let link := (ledger.guard? id).bind (·.link)
        let ledger := ledger.onGuard id fun held => { held with link := none }
        match link with
        | some lifespan => (ledger.forget id lifespan).2
        | none => ledger
  ledger.onGuard id fun held => { held with flags := { held.flags with released := true } }

/-- Carries out a claimed release. -/
def runBy (drop : GuardId → Task Ledger Unit) (id : GuardId) (cause : ReleaseCause) :
    Task Ledger Unit := do
  fireBy drop id cause
  modify (·.conclude id cause)

/-- Leaves the release of a guard to a queue, unless it was claimed before. -/
def enqueue (ledger : Ledger) (id : GuardId) (guard : Guard) (queue : QueueId) : Ledger :=
  let ledger := ledger.onGuard id fun held =>
    { held with flags := { held.flags with pending := true } }
  -- A teardown may have been here first; then the queue has nothing left to release.
  if guard.flags.claimed then ledger
  else ledger.onQueue queue fun queue => { queue with guards := queue.guards ++ [id] }

/-- Lets go what nothing refers to any more: queues, and the guards that only they
    referred to.  The action of such a guard never runs; the guards that it owns go
    away with it. -/
def reapBy (drop : GuardId → Task Ledger Unit) : Nat → Task Ledger Unit
  | 0 => return ()
  | rounds + 1 => do
      modify (·.sweepQueues)
      match (← get).abandoned? with
      | none => return ()
      | some id =>
          match ← Task.lift (·.takeAction id) with
          | none => return ()
          | some action =>
              action.owns.forM drop
              reapBy drop rounds

/-- The owner of a guard goes away, unless it did before.  A guard with a queue is
    left to the queue, which may be gone together with the owner.  Every level below
    takes one more owner away, so the number of guards is depth enough. -/
def dropWithin : Nat → GuardId → Task Ledger Unit
  | 0, _ => return ()
  | depth + 1, id => do
      let ledger ← get
      match ledger.guard? id with
      | none => return ()
      | some held =>
          if held.owned then
            let ledger := ledger.onGuard id fun held => { held with owned := false }
            match held.queue with
            | some queue =>
                set (ledger.enqueue id held queue)
                reapBy (dropWithin depth) (ledger.guards.length + 1)
            | none =>
                let (won, ledger) := ledger.claim id
                set ledger
                if won then runBy (dropWithin depth) id .unreachable

/-- The owner of a guard goes away. -/
def dropOwner (id : GuardId) : Task Ledger Unit := do
  dropWithin ((← get).guards.length + 1) id

/-- Lets go what nothing refers to any more. -/
def reap : Task Ledger Unit := do reapBy dropOwner ((← get).guards.length + 1)

/-- Carries out a claimed release. -/
def run (id : GuardId) (cause : ReleaseCause) : Task Ledger Unit := runBy dropOwner id cause

/-- Releases a guard unless its release was claimed before, and says whether it did. -/
def release (id : GuardId) (cause : ReleaseCause) : Task Ledger Bool := do
  if ← Task.lift (·.claim id) then
    run id cause
    return true
  else return false

/-- Marks a guard released without running its action; what the action owns goes
    away. -/
def withdraw (id : GuardId) : Task Ledger Unit := do
  modify (·.onGuard id fun held =>
    { held with flags := { held.flags with releasing := true, released := true } })
  match ← Task.lift (·.takeAction id) with
  | none => return ()
  | some action => action.owns.forM dropOwner

/-- Builds a guard; one that cannot be registered to the lifespan is discarded. -/
def build (guard : Guard) (lifespan : Option LifespanId) : Task Ledger GuardId := do
  let id ← Task.lift (·.addGuard guard)
  match lifespan with
  | none => return id
  | some lifespan =>
      match ← Task.attempt (register id lifespan) with
      | .ok () => return id
      | .error interrupt =>
          -- Nobody gets to see the guard, so its action must not run.
          withdraw id
          dropOwner id
          throw interrupt

/-- Empties a queue and releases the guards that no teardown released before.  Gives
    the number of guards released. -/
def drain (queue : QueueId) : Task Ledger Nat := do
  let guards := (((← get).queue? queue).map (·.guards)).getD []
  modify (·.onQueue queue fun queue => { queue with guards := [] })
  holding guards (Task.sum (fun id => Bool.toNat <$> release id .unreachable) guards)

/-- Holds a queue once more. -/
def holdQueue (ledger : Ledger) (queue : QueueId) : Ledger :=
  ledger.onQueue queue fun queue => { queue with handles := queue.handles + 1 }

/-- Holds a queue once less. -/
def letQueueGo (queue : QueueId) : Task Ledger Unit := do
  modify (·.onQueue queue fun queue => { queue with handles := queue.handles - 1 })
  reap

/-! ## Pins -/

/-- The handle of a guard that was not released. -/
def handle (ledger : Ledger) (id : GuardId) : Except Interrupt Address :=
  match ledger.guard? id with
  | none => .error (.crash none)
  | some held => if held.isReleased then .error (.fault held.releasedFault) else .ok held.handle

/-- Pins a guard for a thread.  A teardown waits until every pin is gone. -/
def pin (thread : ThreadId) (id : GuardId) : Task Ledger Address := do
  let handle ← Task.ofOutcome ((← get).handle id)
  modify (·.onGuard id fun held => { held with holders := held.holders ++ [thread] })
  return handle

/-- Ends a pin of a thread.  The last pin to go carries out a release that was put
    off. -/
def unpin (thread : ThreadId) (id : GuardId) : Task Ledger Unit := do
  modify (·.onGuard id fun held => { held with holders := held.holders.erase thread })
  match (← get).guard? id with
  | none => return ()
  | some held =>
      if held.holders.isEmpty && held.deferred then
        modify (·.onGuard id fun held => { held with deferred := false })
        discard (release id .lifespanEnded)

/-! ## Teardown -/

/-- Releases a guard because a lifespan of its was torn down by a thread.  Pins of
    other threads are waited for; with a pin of its own, the thread puts the release
    off to the last unpin.  A release that another thread has claimed is waited for.
    Says whether this call released the guard. -/
def releaseByLifespan (thread : ThreadId) (id : GuardId) : Task Ledger Bool := do
  modify (·.onGuard id fun held => { held with flags := { held.flags with closing := true } })
  match (← get).guard? id with
  | none => return false
  | some held =>
      if held.flags.claimed then
        -- Whoever claimed the release is in the middle of it, and finishes first.
        if held.action.isSome then run id .unreachable
        return false
      else if thread ∈ held.holders then
        modify (·.onGuard id fun held => { held with deferred := true })
        return false
      else
        -- The other threads end their pins while this one waits.
        held.holders.forM fun holder => do
          modify (·.note (.yielded id held.handle))
          unpin holder id
        release id .lifespanEnded

/-- Releases the guards of a lifespan that is torn down, and counts them. -/
def releaseAll (thread : ThreadId) (guards : List GuardId) : Task Ledger Nat :=
  Task.sum (fun id => do
    modify (·.count id .guardRegistered (-1))
    Bool.toNat <$> releaseByLifespan thread id) guards

/-- Tears a lifespan down, its children first.  The depth bounds the height of the
    tree below it. -/
def teardownWithin (thread : ThreadId) : Nat → LifespanId → (close : Bool) → Task Ledger Nat
  | 0, _, _ => return 0
  | depth + 1, id, close => do
      match (← get).lifespan? id with
      | none => return 0
      | some scope =>
          if scope.ended then return 0
          else
            -- What the scope lists is taken out before any action runs.
            modify (·.onLifespan id fun scope =>
              { scope with ended := close, guards := [], children := [] })
            holding scope.guards do
              let below ←
                Task.sum (fun child => teardownWithin thread depth child true) scope.children
              let here ← releaseAll thread scope.guards
              return below + here

/-- Tears a lifespan down: every guard registered to it is released and every child
    ended.  With `close` it takes no more guards.  Gives the number of guards
    released, children included. -/
def teardown (thread : ThreadId) (id : LifespanId) (close : Bool) : Task Ledger Nat := do
  teardownWithin thread ((← get).lifespans.length) id close

/-! ## Collection -/

/-- Forgets those of the lifespans that are not referred to, each with what only it
    referred to, and then in the same way the lifespans inside it.  A lifespan that is
    forgotten releases nothing. -/
def forgetLifespans (roots : List LifespanId) : Nat → List LifespanId → Task Ledger Unit
  | 0, _ => return ()
  | _ + 1, [] => return ()
  | steps + 1, id :: ids => do
      let ledger ← get
      match ledger.lifespan? id with
      | none => forgetLifespans roots steps ids
      | some scope =>
          if ledger.lifespanHeld roots id then forgetLifespans roots steps ids
          else
            set { ledger with lifespans := ledger.lifespans.erase id }
            reap
            forgetLifespans roots steps (scope.children ++ ids)

/-- Forgets what nothing refers to any more, given the lifespans that are referred to
    from outside. -/
def collect (roots : List LifespanId) : Task Ledger Unit := do
  let lifespans := (← get).lifespans
  -- Each lifespan that is forgotten adds its children to the list, each only once.
  let links := lifespans.foldl (fun total entry => total + entry.2.children.length + 1) 0
  forgetLifespans roots (links + 1) lifespans.ids
  reap
  modify fun ledger => { ledger with
    guards := ledger.guards.filter fun entry => ledger.guardHeld entry.1 entry.2 }

end Ledger

end CatalogReplica.Lifetime
