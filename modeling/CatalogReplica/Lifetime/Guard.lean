import CatalogReplica.Key
import CatalogReplica.Fault
import CatalogReplica.Tally

/-!
# Guards, lifespans and release queues

A `Guard` stands for one native resource.  The resource is released once, when the
guard's owner goes away or when a `Lifespan` that the guard is registered to is
torn down, whichever comes first.  An owner may leave the release to a
`ReleaseQueue`.

These are the records; the operations on them are in `Lifetime.Ledger`.
-/

namespace CatalogReplica.Lifetime

open Text (Form quoted)

abbrev GuardId := Nat

abbrev LifespanId := Nat

abbrev QueueId := Nat

abbrev ThreadId := Nat

/-- Why a resource was released. -/
inductive ReleaseCause where
  | unreachable
  | lifespanEnded
  deriving DecidableEq, Inhabited, Repr

namespace ReleaseCause

def text : ReleaseCause → String
  | unreachable => "Unreachable"
  | lifespanEnded => "LifespanEnded"

/-- What counts releases of this cause. -/
def counter : ReleaseCause → Counter
  | unreachable => .releaseUnreachable
  | lifespanEnded => .releaseLifespan

end ReleaseCause

/-- How far the release of a guard has come. -/
structure Flags where
  pending : Bool := false
  /-- A teardown has reached the guard; no new pins. -/
  closing : Bool := false
  releasing : Bool := false
  released : Bool := false
  deriving DecidableEq, Inhabited, Repr

namespace Flags

/-- Whether the release was claimed or is over. -/
def claimed (flags : Flags) : Bool := flags.releasing || flags.released

/-- The flags that are set, in order. -/
def form (flags : Flags) : Form :=
  let names := [
    (flags.pending, "PENDING"), (flags.closing, "CLOSING"), (flags.releasing, "RELEASING"),
    (flags.released, "RELEASED")].filterMap fun (isSet, name) => if isSet then some name else none
  .tuple "GuardFlags" [.atom (if names.isEmpty then "0x0" else " | ".intercalate names)]

end Flags

/-- What a release does beside bookkeeping: it is noted, and the guards that the
    action owns go away. -/
structure Action where
  owns : List GuardId := []
  crashes : Bool := false
  deriving DecidableEq, Inhabited, Repr

/-- A guarded native resource. -/
structure Guard where
  what : String := "resource"
  handle : Address
  flags : Flags := {}
  /-- The threads that pin the resource, once for each pin. -/
  holders : List ThreadId := []
  deferred : Bool := false
  action : Option Action := none
  link : Option LifespanId := none
  queue : Option QueueId := none
  metered : Bool := true
  owned : Bool := true
  deriving DecidableEq, Inhabited, Repr

namespace Guard

/-- Whether the resource can no longer be used: its release has started or a
    teardown has reached it. -/
def isReleased (guard : Guard) : Bool := guard.flags.claimed || guard.flags.closing

/-- The fault of a use after the release. -/
def releasedFault (guard : Guard) : Fault := .released guard.what guard.handle.text

/-- The guard as it is shown. -/
def form (guard : Guard) : Form :=
  .record "DualState" [
    ("id", .atom Fault.unnumbered), ("what", .atom (quoted guard.what)),
    ("handle", guard.handle.form), ("flags", guard.flags.form)]

/-- The guard as it is shown before it is built. -/
def plan (guard : Guard) : Form :=
  .record "DualStateBuilder" [("handle", guard.handle.form), ("what", .atom (quoted guard.what))]

/-- A pin on the guard as it is shown. -/
def pinForm (guard : Guard) : Form := .record "Pin" [("handle", guard.handle.form)]

end Guard

/-- The sort of native scope that a lifespan stands for. -/
inductive LifespanKind where
  | memory
  | owner
  deriving DecidableEq, Inhabited, Repr

def LifespanKind.text : LifespanKind → String
  | memory => "MemoryContext"
  | owner => "ResourceOwner"

/-- A native scope whose teardown releases the guards registered to it. -/
structure Lifespan where
  address : Address
  kind : LifespanKind
  ended : Bool := false
  /-- The guards registered to it, the first one in front. -/
  guards : List GuardId := []
  /-- The scopes inside, the first one in front. -/
  children : List LifespanId := []
  deriving DecidableEq, Inhabited, Repr

namespace Lifespan

/-- The fault of a use after the end. -/
def endedFault (lifespan : Lifespan) : Fault :=
  { kind := .lifespanEnded
    message := "lifespan has ended"
    context := [("address", lifespan.address.text), ("kind", lifespan.kind.text)] }

/-- The lifespan as it is shown. -/
def form (lifespan : Lifespan) : Form :=
  .record "Lifespan" [
    ("address", lifespan.address.form), ("kind", .atom lifespan.kind.text),
    ("ended", .ofBool lifespan.ended), ("guards", .ofNat lifespan.guards.length),
    ("children", .ofNat lifespan.children.length)]

end Lifespan

/-- Guards whose owners went away and left the release to the mutator. -/
structure ReleaseQueue where
  /-- The guards, the first one in front. -/
  guards : List GuardId := []
  owner : Option Nat := none
  handles : Nat := 1
  deriving DecidableEq, Inhabited, Repr

namespace ReleaseQueue

/-- Binds the queue to a mutator, unless it is bound to another one. -/
def bind (queue : ReleaseQueue) (mutator : Nat) : Bool × ReleaseQueue :=
  match queue.owner with
  | none => (true, { queue with owner := some mutator })
  | some owner => (owner == mutator, queue)

/-- Unbinds the queue from a mutator, if it is bound to it. -/
def unbind (queue : ReleaseQueue) (mutator : Nat) : Bool × ReleaseQueue :=
  if queue.owner = some mutator then (true, { queue with owner := none }) else (false, queue)

/-- The queue as it is shown. -/
def form (queue : ReleaseQueue) : Form :=
  .record "ReleaseQueue" [("len", .ofNat queue.guards.length)]

end ReleaseQueue

end CatalogReplica.Lifetime
