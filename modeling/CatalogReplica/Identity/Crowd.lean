import CatalogReplica.Turns
import CatalogReplica.Identity.Cache

/-!
# Callers of one key

Several threads look one key of a cache up, interleaved in any order.  A thread that finds
neither an object nor a claim on the key claims it, makes a record of its construction and runs
its constructor.  It ends the construction in steps of their own: it takes the claim away and
enters the object, queues the object, publishes the outcome in the record, and reports what the
insertion swept away.  A thread that finds the key claimed waits for the record.

* `Crowd.step` moves one thread; `none` says that the thread cannot move.
* `Crowd.play` follows a schedule, passing over threads that cannot move.
-/

namespace CatalogReplica.Identity

/-- What a thread runs to construct an object.  It ends with the object held for the thread. -/
structure Constructor (σ ν : Type) where
  /-- What it does before it ends, in order. -/
  acts : List (σ → σ) := []
  ending : Task σ ν

/-- The constructor as one operation. -/
def Constructor.task {σ ν : Type} (constructor : Constructor σ ν) : Task σ ν := fun state =>
  constructor.ending (constructor.acts.foldl (fun state act => act state) state)

/-- The record of a construction, as those who wait for it see it. -/
structure Inflight (ν : Type) where
  /-- The thread that constructs. -/
  owner : Nat
  /-- The outcome, once it is published. -/
  result : Option (Except Fault ν) := none
  deriving Inhabited

/-- How far a thread is. -/
inductive CallerPhase (σ κ ν : Type) where
  /-- It has not called yet. -/
  | outside
  /-- Its constructor is running and has the acts left to do. -/
  | constructing (record : Nat) (left : List (σ → σ))
  /-- Its constructor has ended, and it is about to take the claim away and to enter the object. -/
  | settling (record : Nat) (outcome : Except Interrupt ν)
  /-- It is about to queue the object. -/
  | queueing (record : Nat) (outcome : Except Interrupt ν) (swept : List κ)
  /-- It is about to publish the outcome. -/
  | publishing (record : Nat) (outcome : Except Interrupt ν) (swept : List κ)
  /-- It is about to report what was swept away. -/
  | reporting (outcome : Except Interrupt ν) (swept : List κ)
  /-- It has returned what its constructor gave, or was refused its own key. -/
  | returned (outcome : Except Interrupt ν)
  /-- It waits for the outcome of another thread. -/
  | waiting (record : Nat)
  /-- It has returned the outcome that it waited for. -/
  | served (result : Except Fault ν)
  /-- It has returned the object that it found. -/
  | found (value : ν)

instance {σ κ ν : Type} : Inhabited (CallerPhase σ κ ν) := ⟨.outside⟩

namespace CacheView

variable {σ κ ν : Type} [DecidableEq κ] [DecidableEq ν]

/-- Takes the claim on a key away and enters the object that was constructed.  Gives the keys
    that were swept away. -/
def conclude (view : CacheView σ κ ν) (key : κ) (outcome : Except Interrupt ν) (state : σ) : List κ × σ :=
  match outcome with
  | .ok value =>
      let cache := ((view.get state).abandon key).insert key value
      let (swept, cache) := cache.sweep (view.alive state) (cache.shard key)
      (swept, view.set cache state)
  | .error _ => ([], view.abandon key state)

/-- Queues the object that was constructed. -/
def enqueue (view : CacheView σ κ ν) (outcome : Except Interrupt ν) (state : σ) : σ :=
  match outcome with
  | .ok value =>
      let (out, cache) := (view.get state).queue value
      view.letGo out.toList (view.set cache state)
  | .error _ => state

end CacheView

/-- One key of a cache with the threads that call for it. -/
structure Crowd (σ κ ν : Type) where
  view : CacheView σ κ ν
  key : κ
  /-- What each thread would construct the object with. -/
  constructors : Nat → Constructor σ ν
  state : σ
  /-- The records of the constructions, in the order of their starts. -/
  records : Array (Inflight ν) := #[]
  callers : Array (CallerPhase σ κ ν) := #[]

namespace Crowd

variable {σ κ ν : Type} [DecidableEq κ] [DecidableEq ν]

def calls (crowd : Crowd σ κ ν) : Nat := crowd.records.size

/-- Moves a thread to a phase. -/
def moveTo (crowd : Crowd σ κ ν) (thread : Nat) (phase : CallerPhase σ κ ν) : Crowd σ κ ν :=
  { crowd with callers := crowd.callers.setIfInBounds thread phase }

/-- Looks the key up for a thread.  The record of the claim is the last one that was made. -/
def call (crowd : Crowd σ κ ν) (thread : Nat) : Crowd σ κ ν :=
  match crowd.view.ask thread crowd.key crowd.state with
  | (.hit value, state) => { crowd.moveTo thread (.found value) with state := crowd.view.hold value state }
  | (.reentrant, state) =>
      let fault := (crowd.view.get state).reentry (crowd.view.key crowd.key)
      { crowd.moveTo thread (.returned (.error (.fault fault))) with state }
  | (.wait, state) => { crowd.moveTo thread (.waiting (crowd.calls - 1)) with state }
  | (.build, state) =>
      { crowd.moveTo thread (.constructing crowd.calls (crowd.constructors thread).acts) with
        state
        records := crowd.records.push { owner := thread } }

/-- Ends the constructor of a thread. -/
def finish (crowd : Crowd σ κ ν) (thread record : Nat) : Crowd σ κ ν :=
  match (crowd.constructors thread).ending crowd.state with
  | .ok value state =>
      { crowd.moveTo thread (.settling record (.ok value)) with state := crowd.view.note [.constructed crowd.key] state }
  | .error interrupt state => { crowd.moveTo thread (.settling record (.error interrupt)) with state }

/-- Takes the claim away and enters the object. -/
def settle (crowd : Crowd σ κ ν) (thread record : Nat) (outcome : Except Interrupt ν) : Crowd σ κ ν :=
  let (swept, state) := crowd.view.conclude crowd.key outcome crowd.state
  { crowd.moveTo thread (.queueing record outcome swept) with state }

/-- What those who wait get from the outcome of a construction. -/
def shared (crowd : Crowd σ κ ν) : Except Interrupt ν → Except Fault ν
  | .ok value => .ok value
  | .error (.fault fault) => .error fault
  | .error (.crash _) => .error (Cache.brokenOff (crowd.view.key crowd.key))

/-- Publishes the outcome in the record. -/
def publish (crowd : Crowd σ κ ν) (thread record : Nat) (outcome : Except Interrupt ν) (swept : List κ) :
    Crowd σ κ ν :=
  { crowd.moveTo thread (.reporting outcome swept) with
    records := crowd.records.modify record fun inflight => { inflight with result := some (crowd.shared outcome) } }

/-- The outcome in a record, once it is published. -/
def result? (crowd : Crowd σ κ ν) (record : Nat) : Option (Except Fault ν) :=
  crowd.records[record]?.bind (·.result)

/-- Returns what a thread waited for. -/
def wake (crowd : Crowd σ κ ν) (thread : Nat) (result : Except Fault ν) : Crowd σ κ ν :=
  match result with
  | .ok value => { crowd.moveTo thread (.served result) with state := crowd.view.hold value crowd.state }
  | .error _ => crowd.moveTo thread (.served result)

/-- Moves one thread by one step, if it can move. -/
def step (crowd : Crowd σ κ ν) (thread : Nat) : Option (Crowd σ κ ν) :=
  match crowd.callers[thread]? with
  | none => none
  | some .outside => some (crowd.call thread)
  | some (.constructing record (act :: left)) =>
      some { crowd.moveTo thread (.constructing record left) with state := act crowd.state }
  | some (.constructing record []) => some (crowd.finish thread record)
  | some (.settling record outcome) => some (crowd.settle thread record outcome)
  | some (.queueing record outcome swept) =>
      some { crowd.moveTo thread (.publishing record outcome swept) with
        state := crowd.view.enqueue outcome crowd.state }
  | some (.publishing record outcome swept) => some (crowd.publish thread record outcome swept)
  | some (.reporting outcome swept) =>
      some { crowd.moveTo thread (.returned outcome) with
        state := crowd.view.note (swept.map (.left .reclaimed)) crowd.state }
  | some (.waiting record) => (crowd.result? record).map (crowd.wake thread)
  | some (.returned _) | some (.served _) | some (.found _) => none

/-- Follows a schedule, passing over threads that cannot move. -/
def play (crowd : Crowd σ κ ν) (schedule : List Nat) : Crowd σ κ ν := Turns.play step crowd schedule

/-- The answer of a thread that has one. -/
def answer? (crowd : Crowd σ κ ν) (thread : Nat) : Option (Except Interrupt ν) :=
  match crowd.callers[thread]? with
  | some (.returned outcome) => some outcome
  | some (.served result) => some (result.mapError .fault)
  | some (.found value) => some (.ok value)
  | _ => none

end Crowd

end CatalogReplica.Identity
