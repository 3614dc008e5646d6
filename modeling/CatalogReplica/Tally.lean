/-!
# Counters

A `Tally` holds one number for each `Counter`.  `Tally.changes` lists the
counters that differ between two tallies, in the order of `Counter.all`.
-/

namespace CatalogReplica

/-- What is counted. -/
inductive Counter where
  | identityHit
  | identityMiss
  | identityConstruct
  | identityEvict
  | identityReclaim
  | slotHit
  | slotCompute
  | slotTransient
  | cellTrip
  | releaseUnreachable
  | releaseLifespan
  | guardRegistered
  | dispatchSignal
  deriving DecidableEq, Inhabited, Repr

namespace Counter

def all : List Counter := [
  identityHit, identityMiss, identityConstruct, identityEvict, identityReclaim, slotHit,
  slotCompute, slotTransient, cellTrip, releaseUnreachable, releaseLifespan, guardRegistered,
  dispatchSignal]

/-- The family the counter belongs to. -/
def family : Counter → String
  | identityHit | identityMiss | identityConstruct | identityEvict | identityReclaim =>
      "identity_op_total"
  | slotHit | slotCompute | slotTransient => "slot_op_total"
  | cellTrip => "cell_trip_total"
  | releaseUnreachable | releaseLifespan => "guard_release_total"
  | guardRegistered => "guard_registered"
  | dispatchSignal => "dispatch_signal_total"

/-- What tells the counter apart inside its family. -/
def label? : Counter → Option String
  | identityHit | slotHit => some "hit"
  | identityMiss => some "miss"
  | identityConstruct => some "construct"
  | identityEvict => some "evict"
  | identityReclaim => some "reclaim"
  | slotCompute => some "compute"
  | slotTransient => some "transient"
  | releaseUnreachable => some "unreachable"
  | releaseLifespan => some "lifespan"
  | cellTrip | guardRegistered | dispatchSignal => none

/-- Family and label, joined by a point. -/
def name (counter : Counter) : String :=
  match counter.label? with
  | none => counter.family
  | some label => counter.family ++ "." ++ label

/-- The name under which the counter of a catalog is published. -/
def published (counter : Counter) (catalog : String) : String :=
  let labels :=
    match counter.label? with
    | none => catalog
    | some label => catalog ++ "," ++ label
  "catmirror_" ++ counter.family ++ "\x7b" ++ labels ++ "\x7d"

end Counter

/-- A number for each counter. -/
structure Tally where
  identityHits : Int := 0
  identityMisses : Int := 0
  identityConstructs : Int := 0
  identityEvicts : Int := 0
  identityReclaims : Int := 0
  slotHits : Int := 0
  slotComputes : Int := 0
  slotTransients : Int := 0
  cellTrips : Int := 0
  unreachableReleases : Int := 0
  lifespanReleases : Int := 0
  guardsRegistered : Int := 0
  dispatchSignals : Int := 0
  deriving DecidableEq, Inhabited, Repr

namespace Tally

def get (tally : Tally) : Counter → Int
  | .identityHit => tally.identityHits
  | .identityMiss => tally.identityMisses
  | .identityConstruct => tally.identityConstructs
  | .identityEvict => tally.identityEvicts
  | .identityReclaim => tally.identityReclaims
  | .slotHit => tally.slotHits
  | .slotCompute => tally.slotComputes
  | .slotTransient => tally.slotTransients
  | .cellTrip => tally.cellTrips
  | .releaseUnreachable => tally.unreachableReleases
  | .releaseLifespan => tally.lifespanReleases
  | .guardRegistered => tally.guardsRegistered
  | .dispatchSignal => tally.dispatchSignals

/-- Adds to the number of a counter. -/
def add (tally : Tally) (counter : Counter) (n : Int := 1) : Tally :=
  match counter with
  | .identityHit => { tally with identityHits := tally.identityHits + n }
  | .identityMiss => { tally with identityMisses := tally.identityMisses + n }
  | .identityConstruct => { tally with identityConstructs := tally.identityConstructs + n }
  | .identityEvict => { tally with identityEvicts := tally.identityEvicts + n }
  | .identityReclaim => { tally with identityReclaims := tally.identityReclaims + n }
  | .slotHit => { tally with slotHits := tally.slotHits + n }
  | .slotCompute => { tally with slotComputes := tally.slotComputes + n }
  | .slotTransient => { tally with slotTransients := tally.slotTransients + n }
  | .cellTrip => { tally with cellTrips := tally.cellTrips + n }
  | .releaseUnreachable => { tally with unreachableReleases := tally.unreachableReleases + n }
  | .releaseLifespan => { tally with lifespanReleases := tally.lifespanReleases + n }
  | .guardRegistered => { tally with guardsRegistered := tally.guardsRegistered + n }
  | .dispatchSignal => { tally with dispatchSignals := tally.dispatchSignals + n }

/-- Adding to one counter moves that counter alone. -/
theorem get_add (tally : Tally) (counter other : Counter) (n : Int) :
    (tally.add counter n).get other = tally.get other + if other = counter then n else 0 := by
  cases counter <;> cases other <;> simp [add, get]

/-- The counters that differ, with the difference from `before` to `after`. -/
def changes (before after : Tally) : List (Counter × Int) :=
  (Counter.all.map fun counter => (counter, after.get counter - before.get counter)).filter
    fun (_, n) => n != 0

end Tally

end CatalogReplica
