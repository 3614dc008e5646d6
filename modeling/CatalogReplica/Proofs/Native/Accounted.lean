import CatalogReplica.Proofs.Catalog.Operations
import CatalogReplica.Proofs.Native.References

/-!
# Every reference is accounted for

At every point of a run, as many references on an address are outstanding at the provider as
there are guards on it that were not released because they became unreachable: guards in use,
guards that wait in the queue, and guards whose scope was torn down.  No reference is given
back that was not taken before.

* `World.Accounted`: what holds between operations.
* `Operation.takes`: the references that an operation takes.
* `Operation.references_accounted`: the result.
-/

namespace CatalogReplica.Catalog

open Lifetime (Ledger)

namespace World

/-- References and guards are in step, and nothing is under construction. -/
structure Accounted (world : World) : Prop extends Balanced [] world where
  idle : world.caches.descriptors.claims = []
  unscoped : ∀ session, world.session = some session → session.lifespans.claims = []

variable {base world : World} {taken : List Address}

theorem Accounted.keeping (accounted : Accounted world) :
    Keeping world [] [] [] (world.session.map fun _ => []) world := by
  refine ⟨accounted.toBalanced.accounts, by rw [accounted.idle]; rfl, ?_⟩
  cases its : world.session with
  | none => rfl
  | some session => simp [accounted.unscoped session its]

theorem Keeping.accounted {scoping : Option (List Address)} (keeping : Keeping base taken [] [] scoping world)
    (idle : ∀ keys, scoping = some keys → keys = []) : Accounted world := by
  refine ⟨keeping.toBalanced, List.map_eq_nil_iff.mp keeping.claimed, fun session its => ?_⟩
  have keys := keeping.scoping
  rw [its] at keys
  exact List.map_eq_nil_iff.mp (idle _ keys.symm)

theorem accounted_start (config : Config) : Accounted (World.start config) where
  counted := rfl
  serves := rfl
  ordered := Ledger.ordered_of_nothing rfl rfl rfl
  lifespans := nofun
  balance _ := rfl
  idle := rfl
  unscoped := nofun

end World

namespace Operation

open World (Keeping Accounted Accounts keeping_carried)

variable {base world : World} {taken : List Address}

/-- The addresses on which the operation takes references. -/
def takes (world : World) : Operation → List Address
  | .read id field access =>
      if (world.thing? id).bind (Accessor.ofName? · field) = some .typeDescriptor then World.takes id access world else []
  | _ => []

section apply

variable {scoping : Option (List Address)} (keeping : Keeping base taken [] [] scoping world)

include keeping

theorem onProvider_keeping {α : Type} {body : Task Provider α}
    (same : ∀ provider, body.Ends provider fun _ after => after.books = provider.books) :
    (World.onProvider body).Ends world fun _ after => Keeping base taken [] [] scoping after :=
  World.onProvider_ends ((same world.provider).weaken fun _ _ books => keeping.congr books rfl rfl rfl)

/-- What gives things keeps the accounts, whatever becomes of the things. -/
theorem gives_keeping {α : Type} {body : Task World α} {refs : α → List ThingId}
    (gives : World.Gives (fun _ world => Keeping base taken [] [] scoping world) body refs) :
    body.Ends world fun _ after => Keeping base taken [] [] scoping after :=
  (gives [] world keeping).weaken fun outcome _ kept => by cases outcome <;> exact kept

end apply

/-! ## One operation -/

theorem put_keeping {scoping : Option (List Address)} (keeping : Keeping base taken [] [] scoping world) (plan : RowPlan) :
    (World.onProvider (Provider.put plan)).Ends world fun _ after => Keeping base taken [] [] scoping after := by
  refine onProvider_keeping keeping fun provider => ?_
  refine (World.onMemory_ends _ provider).bind (fun address after same => ?_) fun _ after ⟨_, same⟩ => by rw [same]; rfl
  obtain ⟨memory, rfl⟩ := same
  exact .next (Task.modify_run _ _) rfl

theorem intern_keeping {scoping : Option (List Address)} (keeping : Keeping base taken [] [] scoping world)
    (typmod : Int32) (types : List Oid) :
    (World.onProvider (Provider.intern typmod types)).Ends world fun _ after => Keeping base taken [] [] scoping after := by
  refine onProvider_keeping keeping fun provider => ?_
  refine (World.onMemory_ends _ provider).bind (fun address after same => ?_) fun _ after ⟨_, same⟩ => by rw [same]; rfl
  obtain ⟨memory, rfl⟩ := same
  exact .next (Task.modify_run _ _) rfl

theorem lookup_keeping {scoping : Option (List Address)} (keeping : Keeping base taken [] [] scoping world)
    (target : Script.Target) : target.lookup.Ends world fun _ after => Keeping base taken [] [] scoping after :=
  gives_keeping keeping ((keeping_carried base taken [] [] scoping).target target)

theorem read_keeping {scoping : Option (List Address)} (keeping : Keeping base taken [] [] scoping world)
    (id : ThingId) (field : String) (access : Coherence.Access) (session : access = .mutator → scoping = some []) :
    (Operation.read id field access).task.Ends world fun _ after =>
      Keeping base (takes world (.read id field access) ++ taken) [] [] scoping after := by
  refine .next (Task.get_run world) ?_
  have took : takes world (.read id field access) = if (world.thing? id).bind (Accessor.ofName? · field)
      = some .typeDescriptor then World.takes id access world else [] := rfl
  rw [took]
  cases found : (world.thing? id).bind (Accessor.ofName? · field) with
  | none => exact keeping
  | some accessor =>
    refine Task.Ends.discard ?_
    by_cases record : accessor = .typeDescriptor
    · subst record
      simp only [if_true]
      exact (World.typeDescriptor_keeping id access session keeping).bind (fun _ _ kept => kept) fun _ _ kept => kept
    · rw [if_neg (by simpa using record)]
      exact gives_keeping keeping ((keeping_carried base taken [] [] scoping).read access record)

/-- The catalog is closed if nothing holds it. -/
theorem closeIfUnheld_keeping {scoping : Option (List Address)}
    (keeping : Keeping base taken [] [] scoping world) :
    Keeping base taken [] [] scoping (World.closeIfUnheld world) := by
  have carried := keeping_carried base taken [] [] scoping
  unfold World.closeIfUnheld
  split
  · exact keeping
  · have blank : Keeping base taken [] [] scoping { world with caches := .blank world.config } :=
      ⟨keeping.toAccounts.congr rfl rfl rfl, rfl, keeping.scoping⟩
    have reaped : Keeping base taken [] [] scoping (World.reap world.heap.ids { world with caches := .blank world.config }) :=
      @World.Carried.reap _ [] _ carried _ blank
    have letsGo : (World.onLedger (Ledger.letQueueGo world.queue)).Keeps (Keeping base taken [] [] scoping) := by
      refine World.keeps_onLedger fun earlier kept => ?_
      have ledgers := (Ledger.booked_carried earlier kept).toCarried
      refine .bind (.modify fun ledger booked => ⟨⟨booked.once, booked.scopes, booked.alone, booked.armed, booked.unknown,
        booked.flat, booked.takes⟩, booked.balance⟩) fun _ => .bind .get fun _ => ?_
      exact ledgers.reapBy (fun _ allowed => ledgers.dropOwner allowed) _
    exact (letsGo _ reaped).exec

theorem closeSession_keeping {scoping : Option (List Address)} (keeping : Keeping base taken [] [] scoping world) :
    Keeping base taken [] [] none (World.closeSession world) := by
  unfold World.closeSession
  cases its : world.session with
  | none =>
    obtain rfl : scoping = none := by
      rw [← keeping.scoping, its]
      rfl
    exact keeping
  | some session =>
    refine closeIfUnheld_keeping ⟨⟨⟨keeping.counted, keeping.serves, ?_, nofun, keeping.balance⟩, keeping.given⟩,
      keeping.claimed, rfl⟩
    have fewer := keeping.ordered.fewer (List.nil_subset _)
    exact ⟨fewer.once, fewer.scopes, fewer.alone, fewer.armed, fewer.unknown, fewer.flat, nofun⟩

/-- Every operation that is allowed leaves references and guards in step, and takes the
    references that it is said to take. -/
theorem apply_accounted {operation : Operation} (allowed : operation.Allowed world) (accounted : Accounted world) :
    Accounts world (operation.takes world) [] (operation.apply world) ∧ Accounted (operation.apply world) := by
  have keeping := accounted.keeping
  have carried := keeping_carried world [] [] [] (world.session.map fun _ => [])
  -- all but a few leave the session there or not there
  have plain (ends : operation.task.Ends world fun _ after =>
      Keeping world (operation.takes world) [] [] (world.session.map fun _ => []) after) :
      Accounts world (operation.takes world) [] (operation.apply world) ∧ Accounted (operation.apply world) := by
    have kept := ends.exec
    refine ⟨kept.toAccounts, kept.accounted fun keys its => ?_⟩
    obtain ⟨_, -, rfl⟩ := Option.map_eq_some_iff.mp its
    rfl
  have isOpen (there : world.session.isSome = true) : (world.session.map fun _ => []) = some ([] : List Address) := by
    obtain ⟨session, its⟩ := Option.isSome_iff_exists.mp there
    rw [its]
    rfl
  cases operation with
  | put plan => exact plain (Task.Ends.discard (put_keeping keeping plan))
  | remove key => exact plain (Task.Ends.discard (onProvider_keeping keeping fun _ => rfl))
  | putEncoding info => exact plain (onProvider_keeping keeping fun _ => rfl)
  | intern typmod types => exact plain (Task.Ends.discard (intern_keeping keeping typmod types))
  | setScope address kind => exact plain (onProvider_keeping keeping fun _ => rfl)
  | openSession =>
    have same : Keeping world [] [] [] (world.session.map fun _ => [])
        { world with nextMutator := world.nextMutator + 1 } := keeping.congr rfl rfl rfl rfl
    have opens : World.openSession.Ends world fun _ after => Accounts world [] [] after ∧ Accounted after := by
      refine openSession_ends ⟨same.toAccounts, same.toBalanced, accounted.idle, accounted.unscoped⟩ fun queue bound _ _ => ?_
      have none := keeping.ordered.fewer (List.nil_subset _)
      have opened : Keeping world [] [] [] (some []) { world with
          nextMutator := world.nextMutator + 1, ledger := world.ledger.onQueue world.queue fun _ => bound
          session := some (.blank world.nextMutator) } := by
        refine ⟨⟨⟨keeping.counted, keeping.serves, ?_, ?_, keeping.balance⟩, keeping.given⟩, keeping.claimed, rfl⟩
        · exact ⟨none.once, none.scopes, none.alone, none.armed, none.unknown, none.flat, nofun⟩
        · rintro _ ⟨⟩
          exact ⟨List.nodup_nil, nofun⟩
      exact ⟨opened.toAccounts, opened.accounted fun keys its => (Option.some.inj its).symm⟩
    exact opens.exec
  | closeSession =>
    have closed := closeSession_keeping keeping
    exact ⟨closed.toAccounts, closed.accounted nofun⟩
  | dropCatalog =>
    have dropped : Keeping world [] [] [] (world.session.map fun _ => []) { world with catalogHeld := false } :=
      keeping.congr rfl rfl rfl rfl
    exact plain (closeIfUnheld_keeping dropped)
  | lookup target => exact plain (Task.Ends.discard (lookup_keeping keeping target))
  | read id field access =>
    have reads := read_keeping keeping id field access fun isMutator => isOpen (allowed.2 isMutator)
    rw [List.append_nil] at reads
    exact plain reads
  | drop id => exact plain (@World.Carried.release _ [] world id carried keeping)
  | trip id =>
    exact plain (trip_ends keeping fun _ _ => keeping.congr rfl rfl rfl rfl)
  | pin id =>
    have pins (guard : Lifetime.GuardId) : (World.onLedger (Ledger.pin World.mutatorThread guard)).Keeps
        (Keeping world [] [] [] (world.session.map fun _ => [])) :=
      World.keeps_onLedger fun _ _ => World.pin_booked World.mutatorThread guard
    exact plain (pin_ends keeping (fun guard _ => pins guard world keeping) (fun _ _ kept => kept.congr rfl rfl rfl rfl)
      fun _ _ kept => kept)
  | unpin id =>
    have unpins (guard : Lifetime.GuardId) : (World.onLedger (Ledger.unpin World.mutatorThread guard)).Keeps
        (Keeping world [] [] [] (world.session.map fun _ => [])) :=
      World.keeps_onLedger fun earlier kept => (Ledger.booked_carried earlier kept).toCarried.unpin World.mutatorThread guard
    exact plain (unpin_ends keeping (fun guard _ => unpins guard world keeping)
      (fun after kept => @World.Carried.release _ [] after id carried kept) fun _ _ kept => kept)
  | dispatch signals =>
    refine plain (Task.Ends.discard ?_)
    rw [isOpen allowed] at keeping ⊢
    exact gives_keeping keeping (World.keeping_dispatch signals)
  | drain => exact plain (Task.Ends.discard (gives_keeping keeping (World.keeping_drain _)))
  | purge => exact plain (.discard (.lift (@World.Carried.purge _ [] world carried keeping)))
  | relieve => exact plain (.discard (.lift (@World.Carried.relieve _ [] world carried keeping)))
  | lifespan address =>
    refine plain (.discard (.lift ?_))
    rw [isOpen allowed] at keeping ⊢
    exact keeping.find address
  | currentLifespan =>
    refine plain (Task.Ends.discard ?_)
    rw [isOpen allowed] at keeping ⊢
    exact (World.currentLifespan_ends keeping).weaken fun _ _ kept => kept.1

/-! ## Runs -/

theorem after_accounted (config : Config) {operations : List Operation} (allowed : AllowedAll operations (World.start config)) :
    Accounted (after operations (World.start config)) :=
  after_keeps (fun _ _ allowed accounted => (apply_accounted allowed accounted).2) allowed (World.accounted_start config)

/-- At every point of a run, as many references on an address are outstanding as there are
    guards on it that were not released because they became unreachable.  The next operation
    takes the references that it is said to take, and gives references back that are
    outstanding: every one of them lowers the count by one. -/
theorem references_accounted (config : Config) (operations : List Operation)
    (allowed : AllowedAll operations (World.start config)) :
    let world := after operations (World.start config)
    (∀ address, world.provider.referencesOn address = world.ledger.outstanding address) ∧
    ∀ operation : Operation, operation.Allowed world → ∃ given,
      (operation.apply world).provider.released = world.provider.released ++ given ∧ ∀ address,
        (operation.apply world).provider.referencesOn address + given.count address
          = world.provider.referencesOn address + (operation.takes world).count address := by
  intro world
  have accounted : Accounted world := after_accounted config allowed
  exact ⟨fun address => accounted.balance address, fun operation next => (apply_accounted next accounted).1.given⟩

/-- The columns of a record type are read before and after their scope is reset. -/
def readThroughReset : List Operation := [
  .openSession, .intern 7 [⟨23⟩], .lookup (.type recordType 7), .read 0 "descriptor" .mutator,
  .dispatch [.scope ⟨0x10⟩ false], .drop 1, .read 0 "descriptor" .mutator]

/-- Two references are outstanding in the end: that of the new descriptor, and that of the one
    that went with its scope. -/
theorem references_accounted_throughReset :
    AllowedAll readThroughReset (World.start {}) ∧
    (after readThroughReset (World.start {})).provider.referencesOn ⟨0x1010⟩ = 2 ∧
    let world := after readThroughReset (World.start {})
    (∀ address, world.provider.referencesOn address = world.ledger.outstanding address) ∧
    ∀ operation : Operation, operation.Allowed world → ∃ given,
      (operation.apply world).provider.released = world.provider.released ++ given ∧ ∀ address,
        (operation.apply world).provider.referencesOn address + given.count address
          = world.provider.referencesOn address + (operation.takes world).count address :=
  have allowed : AllowedAll readThroughReset (World.start {}) := by decide +kernel
  ⟨allowed, by decide +kernel, references_accounted {} readThroughReset allowed⟩

end Operation

end CatalogReplica.Catalog
