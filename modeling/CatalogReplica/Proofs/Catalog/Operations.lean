import CatalogReplica.Catalog.Script

/-!
# Runs over a catalog and its sessions

A run is a list of operations that callers carry out on a catalog, on its sessions and on
its provider, in any order and as often as they like.  Callers hold what lookups, reads
and pins give until they drop it; `Operation.Allowed` is what they must have in hand.

* `Operation.apply`: what an operation leaves, whether it gives something or is
  interrupted.
* `Operation.after`: what a run leaves.
* `Operation.Reached`: what runs lead to whatever the provider does meanwhile.
* `Operation.openSession_ends`, `Operation.read_ends`, ...: what holds after an operation, from
  what holds after each of its steps.
-/

namespace CatalogReplica.Catalog

open Coherence (Access)
open Lifetime (GuardId Ledger LifespanKind)

namespace World

/-- The guard of a thing. -/
def guardOf (world : World) (id : ThingId) : Option GuardId := (world.thing? id).bind Thing.guard?

/-- How many pins there are on a thing. -/
def pinsOn (world : World) (id : ThingId) : Nat :=
  (((world.guardOf id).bind world.ledger.guard?).map (·.holders.length)).getD 0

end World

open World (mutatorThread onLedger onProvider)

/-- One operation. -/
inductive Operation where
  /-- Writes a row. -/
  | put (plan : RowPlan)
  /-- Deletes rows. -/
  | remove (key : EntityKey)
  /-- Adds an encoding. -/
  | putEncoding (info : EncodingInfo)
  /-- Interns a record type. -/
  | intern (typmod : Int32) (types : List Oid)
  /-- Enters a native scope. -/
  | setScope (address : Address) (kind : LifespanKind)
  /-- Opens a session. -/
  | openSession
  /-- Closes the session. -/
  | closeSession
  /-- Lets the catalog go. -/
  | dropCatalog
  /-- Looks a thing up. -/
  | lookup (target : Script.Target)
  /-- Reads a field of a thing. -/
  | read (id : ThingId) (field : String) (access : Access)
  /-- Lets a thing go. -/
  | drop (id : ThingId)
  /-- Trips the gate of a thing. -/
  | trip (id : ThingId)
  /-- Pins a native descriptor. -/
  | pin (id : ThingId)
  /-- Ends a pin of a native descriptor. -/
  | unpin (id : ThingId)
  /-- Delivers a burst of signals. -/
  | dispatch (signals : List Signal)
  /-- Gives unreachable native descriptors back. -/
  | drain
  /-- Removes entries of things that are gone. -/
  | purge
  /-- Retains nothing softly any more. -/
  | relieve
  /-- Finds the lifespan of a native scope. -/
  | lifespan (address : Address)
  /-- The lifespan of the innermost native scope. -/
  | currentLifespan
  deriving DecidableEq

namespace Operation

/-- The operation itself. -/
def task : Operation → Task World Unit
  | .put plan => discard (onProvider (Provider.put plan))
  | .remove key => discard (onProvider (Task.lift (Provider.remove key)))
  | .putEncoding info => onProvider (modify fun provider =>
      { provider with encodings := provider.encodings.set info.id info })
  | .intern typmod types => discard (onProvider (Provider.intern typmod types))
  | .setScope address kind => onProvider (modify fun provider =>
      { provider with scope := (address, kind) })
  | .openSession => World.openSession
  | .closeSession => modify World.closeSession
  | .dropCatalog => modify World.dropCatalog
  | .lookup target => discard target.lookup
  | .read id field access => do
      match ((← get).thing? id).bind (Accessor.ofName? · field) with
      | some accessor => discard (accessor.read id access)
      | none => return ()
  | .drop id => modify (World.release id)
  | .trip id => do
      match ((← get).thing? id).bind (·.gate?) with
      | some gate => modify fun world => { world with gates := world.gates.trip gate }
      | none => return ()
  | .pin id => do
      match (← get).guardOf id with
      | some guard =>
          discard (onLedger (Ledger.pin mutatorThread guard))
          modify (World.hold id)
      | none => return ()
  | .unpin id => do
      match (← get).guardOf id with
      | some guard =>
          onLedger (Ledger.unpin mutatorThread guard)
          modify (World.release id)
      | none => return ()
  | .dispatch signals => discard (World.dispatch signals)
  | .drain => discard World.drain
  | .purge => discard (Task.lift World.purge)
  | .relieve => discard (Task.lift World.relieve)
  | .lifespan address => discard (Task.lift (World.lifespanView.get? address))
  | .currentLifespan => discard World.currentLifespan

/-- What the operation leaves. -/
def apply (operation : Operation) (world : World) : World := Task.exec operation.task world

/-- What a caller must have in hand to carry out the operation: the catalog or a session of
    it, the thing, or a pin.  A thing is not dropped while it is pinned. -/
def Allowed (world : World) : Operation → Prop
  | .openSession | .lookup _ | .purge | .relieve => world.isOpen = true
  | .dispatch _ | .drain | .lifespan _ | .currentLifespan => world.session.isSome = true
  | .read id _ access => id ∈ world.held ∧ (access = .mutator → world.session.isSome = true)
  | .trip id => id ∈ world.held ∧ world.session.isSome = true
  | .pin id => id ∈ world.held
  | .unpin id => 0 < world.pinsOn id
  | .drop id => world.pinsOn id < world.held.count id
  | .put _ | .remove _ | .putEncoding _ | .intern _ _ | .setScope _ _ | .closeSession | .dropCatalog => True

instance (world : World) : (operation : Operation) → Decidable (operation.Allowed world)
  | .openSession | .lookup _ | .purge | .relieve => inferInstanceAs (Decidable (world.isOpen = true))
  | .dispatch _ | .drain | .lifespan _ | .currentLifespan =>
      inferInstanceAs (Decidable (world.session.isSome = true))
  | .read id _ access =>
      inferInstanceAs (Decidable (id ∈ world.held ∧ (access = .mutator → world.session.isSome = true)))
  | .trip id => inferInstanceAs (Decidable (id ∈ world.held ∧ world.session.isSome = true))
  | .pin id => inferInstanceAs (Decidable (id ∈ world.held))
  | .unpin id => inferInstanceAs (Decidable (0 < world.pinsOn id))
  | .drop id => inferInstanceAs (Decidable (world.pinsOn id < world.held.count id))
  | .put _ | .remove _ | .putEncoding _ | .intern _ _ | .setScope _ _ | .closeSession | .dropCatalog =>
      .isTrue trivial

/-! ## What operations do

A rule for each operation that is more than one task: if what holds of the states that it can leave is shown of each of
them, it holds of the one that it leaves. -/

section Rules

variable {world : World} {post : World → Prop}

theorem openSession_ends (numbered : post { world with nextMutator := world.nextMutator + 1 })
    (opened : ∀ queue bound, world.ledger.queue? world.queue = some queue → queue.bind world.nextMutator = (true, bound) →
      post { world with
        nextMutator := world.nextMutator + 1, ledger := world.ledger.onQueue world.queue fun _ => bound
        session := some (.blank world.nextMutator) }) :
    World.openSession.Ends world fun _ after => post after := by
  refine .next (Task.get_run world) (.next (Task.set_run _ world) ?_)
  cases found : world.ledger.queue? world.queue with
  | none => exact numbered
  | some queue =>
    dsimp only
    split
    · exact numbered
    · next bound bind => exact .next (Task.modify_run _ _) (opened queue bound found bind)

theorem closeSession_ends (none : world.session = none → post world)
    (closed : ∀ session, world.session = some session → post (World.closeIfUnheld { world with
      ledger := world.ledger.onQueue world.queue fun queue => (queue.unbind session.mutator).2, session := .none })) :
    Operation.closeSession.task.Ends world fun _ after => post after := by
  change post (World.closeSession world)
  unfold World.closeSession
  split
  · next its => exact none its
  · next session its => exact closed session its

theorem read_ends {id : ThingId} {field : String} {access : Access} (unknown : post world)
    (reads : ∀ accessor, (world.thing? id).bind (Accessor.ofName? · field) = some accessor →
      (accessor.read id access).Ends world fun _ after => post after) :
    (Operation.read id field access).task.Ends world fun _ after => post after := by
  refine .next (Task.get_run world) ?_
  split
  · next accessor offered => exact .discard (reads accessor offered)
  · exact unknown

theorem trip_ends {id : ThingId} (ungated : post world)
    (trips : ∀ gate, (world.thing? id).bind (·.gate?) = some gate → post { world with gates := world.gates.trip gate }) :
    (Operation.trip id).task.Ends world fun _ after => post after := by
  refine .next (Task.get_run world) ?_
  split
  · next gate its => exact trips gate its
  · exact ungated

theorem pin_ends {id : ThingId} {mid : Except Interrupt Address → World → Prop} (unguarded : post world)
    (pins : ∀ guard, world.guardOf id = some guard → (onLedger (Ledger.pin mutatorThread guard)).Ends world mid)
    (held : ∀ address after, mid (.ok address) after → post (World.hold id after))
    (refused : ∀ interrupt after, mid (.error interrupt) after → post after) :
    (Operation.pin id).task.Ends world fun _ after => post after := by
  refine .next (Task.get_run world) ?_
  split
  · next guard its =>
    have pinned := pins guard its
    unfold Task.Ends at pinned ⊢
    rw [Task.bind_run, Task.discard_run]
    cases ran : onLedger (Ledger.pin mutatorThread guard) world with
    | ok address after =>
      rw [ran] at pinned
      exact held address after pinned
    | error interrupt after =>
      rw [ran] at pinned
      exact refused interrupt after pinned
  · exact unguarded

theorem unpin_ends {id : ThingId} {mid : Except Interrupt Unit → World → Prop} (unguarded : post world)
    (unpins : ∀ guard, world.guardOf id = some guard → (onLedger (Ledger.unpin mutatorThread guard)).Ends world mid)
    (freed : ∀ after, mid (.ok ()) after → post (World.release id after))
    (stuck : ∀ interrupt after, mid (.error interrupt) after → post after) :
    (Operation.unpin id).task.Ends world fun _ after => post after := by
  refine .next (Task.get_run world) ?_
  split
  · next guard its =>
    exact (unpins guard its).bind (fun _ after ended => .next (Task.modify_run _ after) (freed after ended)) stuck
  · exact unguarded

end Rules

/-- What a run leaves. -/
def after : List Operation → World → World
  | [], world => world
  | operation :: operations, world => after operations (operation.apply world)

/-- Each operation of the run is allowed when its turn comes. -/
def AllowedAll : List Operation → World → Prop
  | [], _ => True
  | operation :: operations, world => operation.Allowed world ∧ AllowedAll operations (operation.apply world)

instance decideAllowedAll : (operations : List Operation) → (world : World) → Decidable (AllowedAll operations world)
  | [], _ => .isTrue trivial
  | operation :: operations, world =>
      have := decideAllowedAll operations (operation.apply world)
      inferInstanceAs (Decidable (_ ∧ _))

theorem after_append (first second : List Operation) (world : World) :
    after (first ++ second) world = after second (after first world) := by
  induction first generalizing world with
  | nil => rfl
  | cons operation first ih => exact ih _

theorem allowedAll_append {first second : List Operation} {world : World} :
    AllowedAll (first ++ second) world ↔ AllowedAll first world ∧ AllowedAll second (after first world) := by
  induction first generalizing world with
  | nil => simp [AllowedAll, after]
  | cons operation first ih => simp only [List.cons_append, AllowedAll, after, ih, and_assoc]

/-- What every allowed operation keeps, every allowed run keeps. -/
theorem after_keeps {keeps : World → Prop}
    (step : ∀ (operation : Operation) world, operation.Allowed world → keeps world → keeps (operation.apply world))
    {operations : List Operation} {world : World} (allowed : AllowedAll operations world) (before : keeps world) :
    keeps (after operations world) := by
  induction operations generalizing world with
  | nil => exact before
  | cons operation operations ih => exact ih allowed.2 (step operation world allowed.1 before)

/-! ## Providers that change -/

/-- The states that runs lead to while the provider changes in whatever way between
    operations. -/
inductive Reached (config : Config) : World → Prop where
  | start : Reached config (World.start config)
  | step {world : World} (operation : Operation) (before : Reached config world) (allowed : operation.Allowed world) :
      Reached config (operation.apply world)
  | served {world : World} (provider : Provider) (before : Reached config world) : Reached config { world with provider }

theorem Reached.run {config : Config} {operations : List Operation} {world : World} (reached : Reached config world)
    (allowed : AllowedAll operations world) : Reached config (after operations world) :=
  after_keeps (fun operation _ allowed before => before.step operation allowed) allowed reached

end Operation

end CatalogReplica.Catalog
