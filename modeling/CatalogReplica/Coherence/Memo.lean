import CatalogReplica.Task
import CatalogReplica.Coherence.Gate

/-!
# Memos

A `Memo` is a computed value with the cell that was current when its computation
started.  `Place.read` is the one discipline by which memoized values are read:
a valid memo is served; otherwise the cell is taken first, then the value is
computed, and only a cached result is kept.  Taking the cell before computing is
what makes a trip during the computation invalidate its result.
-/

namespace CatalogReplica.Coherence

open Text (Form)

/-- The result of a computation. -/
inductive Computed (α : Type) where
  | cached (value : α)
  | transient (value : α)
  deriving DecidableEq, Inhabited, Repr

namespace Computed

variable {α β : Type}

def value : Computed α → α
  | cached value => value
  | transient value => value

def isCached : Computed α → Bool
  | cached _ => true
  | transient _ => false

def map (f : α → β) : Computed α → Computed β
  | cached value => cached (f value)
  | transient value => transient (f value)

/-- The result as it is shown. -/
def form (f : α → Form) : Computed α → Form
  | cached value => .tuple "Cached" [f value]
  | transient value => .tuple "Transient" [f value]

end Computed

/-- A kept value; without a cell it is valid for good. -/
structure Memo (α : Type) where
  value : α
  cell : Option CellId
  deriving DecidableEq, Inhabited, Repr

namespace Memo

variable {α : Type}

/-- Whether the value can still be trusted. -/
def isValid (memo : Memo α) (gates : Gates) : Bool :=
  match memo.cell with
  | none => true
  | some cell => !gates.isTripped cell

/-- The value, while it can be trusted. -/
def get? (memo : Memo α) (gates : Gates) : Option α :=
  if memo.isValid gates then some memo.value else none

end Memo

/-- Where a state keeps one memo, and what it notes about reads of it. -/
structure Place (σ α : Type) where
  peek : σ → Option α
  cell : Task σ (Option CellId)
  keep : Memo α → σ → σ
  noteHit : σ → σ := id
  noteCompute : σ → σ := id
  noteTransient : σ → σ := id

namespace Place

variable {σ α : Type}

/-- Computes the value anew. -/
def compute (place : Place σ α) (body : Task σ (Computed α)) : Task σ α := do
  -- The cell is taken before the body runs: a trip meanwhile makes the value invalid at once.
  let cell ← place.cell
  match ← body with
  | .cached value =>
      modify fun state => place.keep ⟨value, cell⟩ (place.noteCompute state)
      return value
  | .transient value =>
      modify place.noteTransient
      return value

/-- Serves the kept value while it is valid, and computes it otherwise.  A
    `refusal` ends a read that would have to compute. -/
def read (place : Place σ α) (refusal : Option Fault) (body : Task σ (Computed α)) : Task σ α := do
  match place.peek (← get) with
  | some value =>
      modify place.noteHit
      return value
  | none =>
      match refusal with
      | some fault => Task.fail fault
      | none => place.compute body

end Place

end CatalogReplica.Coherence
