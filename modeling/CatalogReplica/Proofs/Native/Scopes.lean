import CatalogReplica.Proofs.Catalog.Transfer
import CatalogReplica.Proofs.Lifetime.Enrolment
import CatalogReplica.Proofs.Native.Reads
import CatalogReplica.Proofs.Native.Signals

/-!
# Native descriptors and their scopes

A native descriptor is entered in the table of the lifespan that the session has for the
scope that is current when the descriptor is built.  It is there until it is released.

* `World.Enrolled`: the session would find the guard through a scope.
* `World.Tracked`: what holds since an earlier state.
* `World.tracked_carried`: lookups, reads, signals and clean-up keep it.
-/

namespace CatalogReplica.Catalog

open Lifetime (Guard GuardId Ledger LifespanId ReleaseCause)
open Identity (Cache CacheView)

namespace World

/-- The session finds the guard through the lifespan that it has for the scope, unless the
    guard was released. -/
def Enrolled (world : World) (address : Address) (guard : GuardId) : Prop :=
  world.ledger.Released guard ∨ ∃ session lifespan, world.session = some session ∧
    (address, lifespan) ∈ session.lifespans.table ∧ world.ledger.Enrolls lifespan guard

/-- Since an earlier state, actions ran with the given causes, and all guards that a scope led
    to then, or were built since for the scope that is current, are found through their scopes.
    Owners of guards are things with enough holders for the pins on them. -/
structure Tracked (allowed : ReleaseCause → Prop) (base : World) (got : List ThingId) (world : World) : Prop where
  sound : world.ledger.Sound mutatorThread []
  queue : world.queue < world.ledger.next
  owners : ∀ id guard, world.guardOf id = some guard → id < world.nextThing ∧
    ∃ held, world.ledger.guard? guard = some held ∧ held.owned = true ∧ held.queue.isSome = true
  apart : ∀ one two guard, world.guardOf one = some guard → world.guardOf two = some guard → one = two
  pins : ∀ id, world.pinsOn id + got.count id ≤ world.held.count id
  unique : ∀ session, world.session = some session → session.lifespans.Unique
  scope : world.provider.scope = base.provider.scope
  mutator : world.session.map (·.mutator) = base.session.map (·.mutator)
  numbers : world.nextMutator = base.nextMutator
  onward : Ledger.Onward allowed (fun _ => True) [] [] base.ledger world.ledger
  enrolled : ∀ address guard, base.Enrolled address guard → world.Enrolled address guard
  built : ∀ guard, base.ledger.guard? guard = none → (world.ledger.guard? guard).isSome = true →
    world.Enrolled base.provider.scope.1 guard

variable {allowed allowed' : ReleaseCause → Prop} {base world after : World} {got : List ThingId}

/-! ## Points of reference -/

/-- What holds of a state holds since that state. -/
theorem Tracked.self (tracked : Tracked allowed base got world) : Tracked allowed' world got world where
  sound := tracked.sound
  queue := tracked.queue
  owners := tracked.owners
  apart := tracked.apart
  pins := tracked.pins
  unique := tracked.unique
  scope := rfl
  mutator := rfl
  numbers := rfl
  onward := .refl _ _ _ _
  enrolled _ _ enrolled := enrolled
  built guard unknown there := by
    rw [unknown] at there
    cases there

theorem Tracked.weaken (tracked : Tracked allowed base got world) (causes : ∀ cause, allowed cause → allowed' cause) :
    Tracked allowed' base got world :=
  { tracked with onward := tracked.onward.weaken causes fun _ reach => reach }

theorem Tracked.trans {got' : List ThingId} (first : Tracked allowed base got world)
    (second : Tracked allowed world got' after) : Tracked allowed base got' after :=
  { second with
    scope := second.scope.trans first.scope
    mutator := second.mutator.trans first.mutator
    numbers := second.numbers.trans first.numbers
    onward := first.onward.trans second.onward
    enrolled := fun address guard before => second.enrolled address guard (first.enrolled address guard before)
    built := fun guard unknown there => by
      cases known : world.ledger.guard? guard with
      | some held => exact second.enrolled _ guard (first.built guard unknown (by rw [known]; rfl))
      | none =>
        have built := second.built guard known there
        rwa [first.scope] at built }

/-! ## Changes that guards have nothing to do with -/

theorem same_of_tally {before after : Ledger} (same : { after with tally := {} } = { before with tally := {} }) :
    Ledger.Same before after where
  guards := congrArg (·.guards) same
  lifespans := congrArg (·.lifespans) same
  queues := congrArg (·.queues) same
  next := congrArg (·.next) same
  log := congrArg (·.log) same

theorem pinsOn_congr {id : ThingId} (guards : after.guardOf id = world.guardOf id)
    (ledger : after.ledger.guards = world.ledger.guards) : after.pinsOn id = world.pinsOn id := by
  have found : after.ledger.guard? = world.ledger.guard? := by
    funext id
    rw [Ledger.guard?, ledger, Ledger.guard?]
  rw [pinsOn, guards, found, pinsOn]

/-- The same scopes lead to the same guards. -/
theorem Enrolled.congr {address : Address} {guard : GuardId} (enrolled : world.Enrolled address guard)
    (session : after.session = world.session)
    (enrolls : ∀ lifespan id, world.ledger.Enrolls lifespan id → after.ledger.Enrolls lifespan id)
    (released : world.ledger.Released guard → after.ledger.Released guard) : after.Enrolled address guard := by
  obtain before | ⟨its, lifespan, there, among, enrols⟩ := enrolled
  · exact .inl (released before)
  · exact .inr ⟨its, lifespan, session.trans there, among, enrolls lifespan guard enrols⟩

/-- Neither things with guards nor native resources changed, and scopes lead where they led. -/
theorem Tracked.move (tracked : Tracked allowed base got world) (guards : ∀ id, after.guardOf id = world.guardOf id)
    (held : after.held = world.held) (nextThing : after.nextThing = world.nextThing)
    (ledger : Ledger.Same world.ledger after.ledger) (queue : after.queue = world.queue)
    (scope : after.provider.scope = world.provider.scope)
    (mutator : after.session.map (·.mutator) = world.session.map (·.mutator))
    (numbers : after.nextMutator = world.nextMutator)
    (unique : ∀ session, after.session = some session → session.lifespans.Unique)
    (enrolled : ∀ address guard, world.Enrolled address guard → after.Enrolled address guard) :
    Tracked allowed base got after := by
  have proceeds : Ledger.Proceeds mutatorThread (fun _ => False) (fun _ => False) world.ledger after.ledger :=
    tracked.sound.sameLedger ledger
  have found : after.ledger.guard? = world.ledger.guard? := by
    funext id
    rw [Ledger.guard?, ledger.guards, Ledger.guard?]
  refine ⟨proceeds.sound, by rw [queue, ledger.next]; exact tracked.queue, fun id guard its => ?_,
    fun one two guard first second => ?_, fun id => ?_, unique, scope.trans tracked.scope, mutator.trans tracked.mutator,
    numbers.trans tracked.numbers,
    tracked.onward.trans (proceeds.onward.weaken (fun _ => False.elim) fun _ _ => trivial),
    fun address guard before => enrolled _ _ (tracked.enrolled address guard before), fun guard new there => ?_⟩
  · rw [guards] at its
    rw [nextThing, found]
    exact tracked.owners id guard its
  · rw [guards] at first second
    exact tracked.apart one two guard first second
  · rw [pinsOn_congr (guards id) ledger.guards, held]
    exact tracked.pins id
  · rw [found] at there
    exact enrolled _ _ (tracked.built guard new there)

/-- Neither things with guards, nor native resources, nor scopes changed. -/
theorem Tracked.congr (tracked : Tracked allowed base got world) (guards : ∀ id, after.guardOf id = world.guardOf id)
    (held : after.held = world.held) (nextThing : after.nextThing = world.nextThing)
    (ledger : Ledger.Same world.ledger after.ledger) (queue : after.queue = world.queue)
    (scope : after.provider.scope = world.provider.scope) (session : after.session = world.session)
    (numbers : after.nextMutator = world.nextMutator) : Tracked allowed base got after := by
  have proceeds : Ledger.Proceeds mutatorThread (fun _ => False) (fun _ => False) world.ledger after.ledger :=
    tracked.sound.sameLedger ledger
  exact tracked.move guards held nextThing ledger queue scope (by rw [session]) numbers (session ▸ tracked.unique)
    fun address guard before => before.congr session proceeds.enrolls fun released =>
      released.imp proceeds.onward.claimed proceeds.onward.closing

theorem Tracked.aside (tracked : Tracked allowed base got world) (aside : Aside world after) :
    Tracked allowed base got after := by
  have same {β : Type} (part : World → β) : part after.native = part world.native := congrArg part aside.native
  exact tracked.congr aside.guards (same (·.held) :) (same (·.nextThing) :) (same_of_tally (same (·.ledger) :))
    (same (·.queue) :) (same (·.provider.scope) :) (same (·.session) :) (same (·.nextMutator) :)

/-! ## Operations on guards -/

theorem scope_notice (provider : Provider) (happenings : List Lifetime.Happening) :
    (happenings.foldl Provider.notice provider).scope = provider.scope := by
  induction happenings generalizing provider with
  | nil => rfl
  | cons happening happenings ih =>
    have same : (provider.notice happening).scope = provider.scope := by
      unfold Provider.notice
      split <;> rfl
    exact (ih _).trans same

/-- Native resources changed, and things have their guards still.  A guard that is new is found
    through the current scope. -/
theorem Tracked.advance {got' : List ThingId} {ledger : Ledger} (tracked : Tracked allowed base got world)
    (leads : Ledger.Leads mutatorThread allowed (fun _ => True) [] [] world.ledger ledger)
    (next : world.ledger.next ≤ ledger.next)
    (spared : ∀ id guard held, world.guardOf id = some guard → world.ledger.guard? guard = some held →
      ∃ held', ledger.guard? guard = some held' ∧ held'.owned = held.owned ∧
        held'.holders.length + got'.count id ≤ held.holders.length + got.count id)
    (fewer : ∀ id, world.guardOf id = none → got'.count id ≤ got.count id)
    (enrolls : ∀ lifespan guard, world.ledger.Enrolls lifespan guard → ledger.Enrolls lifespan guard)
    (new : ∀ guard, (ledger.guard? guard).isSome = true → (world.ledger.guard? guard).isSome = true ∨
      (World.setLedger ledger world).Enrolled world.provider.scope.1 guard) :
    Tracked allowed base got' (World.setLedger ledger world) := by
  -- Leading on loses no enrolment: a guard released or closing stays so.
  have enrolled {address : Address} {guard : GuardId} (before : world.Enrolled address guard) :
      (World.setLedger ledger world).Enrolled address guard :=
    before.congr rfl enrolls fun released => released.imp leads.onward.claimed leads.onward.closing
  refine ⟨leads.sound, Nat.lt_of_lt_of_le tracked.queue next, fun id guard its => ?_, tracked.apart,
    fun id => ?_, tracked.unique, ?_, tracked.mutator, tracked.numbers, tracked.onward.trans leads.onward,
    fun address guard before => enrolled (tracked.enrolled address guard before), fun guard unknown there => ?_⟩
  · obtain ⟨below, held, found, owned, queued⟩ := tracked.owners id guard its
    obtain ⟨held', found', owned', -⟩ := spared id guard held its found
    obtain ⟨held'', found'', queue, -⟩ := leads.onward.kept guard held found
    rw [found'] at found''
    cases found''
    exact ⟨below, held', found', owned'.trans owned, queue ▸ queued⟩
  · have pins := tracked.pins id
    unfold pinsOn at pins ⊢
    change ((world.guardOf id).bind ledger.guard? |>.map _).getD 0 + _ ≤ world.held.count id
    cases its : world.guardOf id with
    | none =>
      rw [its] at pins
      exact Nat.le_trans (Nat.add_le_add_left (fewer id its) _) pins
    | some guard =>
      obtain ⟨-, held, found, -⟩ := tracked.owners id guard its
      obtain ⟨held', found', -, less⟩ := spared id guard held its found
      rw [its, Option.bind_some, found] at pins
      rw [Option.bind_some, found']
      exact Nat.le_trans less pins
  · exact (scope_notice _ _).trans tracked.scope
  · obtain known | own := new guard there
    · exact enrolled (tracked.built guard unknown known)
    · rw [← tracked.scope]
      exact own

/-- What operations on guards do that leave the owners and pins of things alone. -/
theorem Tracked.setLedger {may : GuardId → Prop} {ledger : Ledger} (tracked : Tracked allowed base got world)
    (proceeds : Ledger.Proceeds mutatorThread allowed may world.ledger ledger)
    (spared : ∀ id guard, world.guardOf id = some guard → ¬ may guard) :
    Tracked allowed base got (World.setLedger ledger world) := by
  refine tracked.advance proceeds.toLeads proceeds.steady.next (fun id guard held its found => ?_) (fun _ _ => Nat.le_refl _)
    proceeds.enrolls fun guard there => .inl ?_
  · obtain ⟨held', found', owned, pins⟩ := proceeds.steady.spared guard held (spared id guard its) found
    exact ⟨held', found', owned, Nat.add_le_add_right pins _⟩
  have among : guard ∈ ledger.guards.ids := Numbered.isSome_get?.mp there
  rw [proceeds.steady.guards] at among
  exact Numbered.isSome_get?.mpr among

theorem Tracked.onLedger {α : Type} {body : Task Ledger α} {may : GuardId → Prop} (tracked : Tracked allowed base got world)
    (ends : body.Ends world.ledger fun _ after => Ledger.Proceeds mutatorThread allowed' may world.ledger after)
    (causes : ∀ cause, allowed' cause → allowed cause)
    (spared : ∀ id guard, world.guardOf id = some guard → ¬ may guard) :
    (onLedger body).Ends world fun _ after => Tracked allowed base got after :=
  onLedger_ends_as (ends.weaken fun _ _ proceeds => tracked.setLedger (proceeds.weaken causes) spared)

/-! ## Things -/

theorem guardOf_add (world : World) (thing : Thing) (id : ThingId) {guard : GuardId}
    (its : (world.add thing).2.guardOf id = some guard) :
    world.guardOf id = some guard ∨ id = world.nextThing ∧ thing.guard? = some guard := by
  obtain ⟨found, there, owns⟩ := Option.bind_eq_some_iff.mp its
  obtain was | ⟨same, rfl⟩ := thing?_add_cases there
  · exact .inl (Option.bind_eq_some_iff.mpr ⟨found, was, owns⟩)
  · exact .inr ⟨same, owns⟩

/-- Where a thing without a guard is added, things have the guards that they had. -/
theorem guardOf_add_plain (world : World) {thing : Thing} (unguarded : thing.guard? = none) (id : ThingId) :
    (world.add thing).2.guardOf id = world.guardOf id := by
  cases its : world.guardOf id with
  | some guard =>
    obtain ⟨other, found, owns⟩ := Option.bind_eq_some_iff.mp its
    rw [guardOf, thing?_add, found]
    exact owns
  | none =>
    refine Option.eq_none_iff_forall_ne_some.mpr fun guard own => ?_
    obtain before | ⟨-, own⟩ := guardOf_add world thing id own
    · cases its.symm.trans before
    · cases unguarded.symm.trans own

theorem guardOf_erase (world : World) (id other : ThingId) :
    ({ world with heap := world.heap.erase id } : World).guardOf other
      = if other = id then none else world.guardOf other := by
  change (Numbered.get? (world.heap.erase id) other).bind _ = _
  rw [Numbered.get?_erase]
  split <;> rfl

/-- Something is held more or less often, and things with guards are gone or the same. -/
theorem Tracked.regroup {got' : List ThingId} (tracked : Tracked allowed base got world)
    (guards : ∀ id guard, after.guardOf id = some guard → world.guardOf id = some guard)
    (nextThing : world.nextThing ≤ after.nextThing)
    (counts : ∀ id, after.held.count id + got.count id ≥ world.held.count id + got'.count id)
    (ledger : after.ledger = world.ledger) (queue : after.queue = world.queue) (provider : after.provider = world.provider)
    (session : after.session = world.session) (numbers : after.nextMutator = world.nextMutator) :
    Tracked allowed base got' after := by
  have enrolled {address : Address} {guard : GuardId} (before : world.Enrolled address guard) :
      after.Enrolled address guard :=
    before.congr session (ledger ▸ fun _ _ its => its) (ledger ▸ fun its => its)
  refine ⟨ledger ▸ tracked.sound, by rw [queue, ledger]; exact tracked.queue, fun id guard its => ?_,
    fun one two guard first second => tracked.apart one two guard (guards one guard first) (guards two guard second),
    fun id => ?_, session ▸ tracked.unique, by rw [provider]; exact tracked.scope, by rw [session]; exact tracked.mutator,
    numbers.trans tracked.numbers, ledger ▸ tracked.onward,
    fun address guard before => enrolled (tracked.enrolled address guard before), fun guard new there => ?_⟩
  · obtain ⟨below, found⟩ := tracked.owners id guard (guards id guard its)
    exact ⟨Nat.lt_of_lt_of_le below nextThing, ledger ▸ found⟩
  · have before := tracked.pins id
    have counts := counts id
    have pins : after.pinsOn id ≤ world.pinsOn id := by
      cases its : after.guardOf id with
      | none =>
        rw [pinsOn, its]
        exact Nat.zero_le _
      | some guard =>
        exact Nat.le_of_eq (by rw [pinsOn, its, ledger, pinsOn, guards id guard its])
    omega
  · rw [ledger] at there
    exact enrolled (tracked.built guard new there)

theorem count_of_unreferenced {id : ThingId} (unreferenced : world.referenced id = false) : world.held.count id = 0 := by
  simp only [referenced, Bool.or_eq_false_iff] at unreferenced
  exact List.count_eq_zero.mpr (by simpa using unreferenced.1.1)

/-- Nobody holds a thing that nothing refers to, so that there are no pins on it. -/
theorem Tracked.unpinned {id : ThingId} {guard : GuardId} {held : Guard} (tracked : Tracked allowed base got world)
    (own : world.guardOf id = some guard) (there : world.ledger.guard? guard = some held)
    (unreferenced : world.referenced id = false) : held.holders = [] := by
  have pins := tracked.pins id
  rw [count_of_unreferenced unreferenced, pinsOn, own, Option.bind_some, there] at pins
  exact List.eq_nil_of_length_eq_zero (Nat.le_zero.mp (Nat.le_trans (Nat.le_add_right _ _) pins))

/-- A thing that nothing refers to is gone, and with it the owner of its guard. -/
theorem Tracked.gone {id : ThingId} {thing : Thing} (tracked : Tracked allowed base got world)
    (found : world.thing? id = some thing) (unreferenced : world.referenced id = false) :
    Tracked allowed base got (dropGuard thing { world with heap := world.heap.erase id }) := by
  have erased : Tracked allowed base got { world with heap := world.heap.erase id } := by
    refine tracked.regroup (fun other guard its => ?_) (Nat.le_refl _) (fun _ => Nat.le_refl _) rfl rfl rfl rfl rfl
    rw [guardOf_erase] at its
    split at its
    · cases its
    · exact its
  unfold dropGuard
  split
  · next guard its =>
    have own : world.guardOf id = some guard := by
      rw [guardOf, found]
      exact its
    obtain ⟨-, held, there, owned, queued⟩ := tracked.owners id guard own
    have unpinned := tracked.unpinned own there unreferenced
    refine (erased.onLedger (Ledger.dropOwner_proceeds erased.sound there owned unpinned queued)
      (fun _ => False.elim) fun other guard' its' same => ?_).exec
    subst same
    rw [guardOf_erase] at its'
    split at its'
    · cases its'
    · next differs => exact differs (tracked.apart other id _ its' own)
  · exact erased

theorem tracked_carried (allowed : ReleaseCause → Prop) (base : World) : Carried (Tracked allowed base) where
  perm same tracked :=
    tracked.regroup (fun _ _ its => its) (Nat.le_refl _) (fun id => Nat.le_of_eq (by rw [same.count_eq])) rfl rfl rfl rfl rfl
  less {id got world} tracked := by
    refine tracked.regroup (fun _ _ its => its) (Nat.le_refl _) (fun other => ?_) rfl rfl rfl rfl rfl
    rw [List.count_cons]
    omega
  aside aside tracked := tracked.aside aside
  hold {got world} id tracked := by
    refine tracked.regroup (fun _ _ its => its) (Nat.le_refl _) (fun other => ?_) rfl rfl rfl rfl rfl
    change (id :: world.held).count other + _ ≥ _
    rw [List.count_cons, List.count_cons]
    omega
  unhold {got world id} tracked := by
    refine tracked.regroup (fun _ _ its => its) (Nat.le_refl _) (fun other => ?_) rfl rfl rfl rfl rfl
    have pins := tracked.pins other
    change (world.held.erase id).count other + _ ≥ _
    rw [List.count_erase, List.count_cons] at *
    by_cases same : id == other <;> simp [same] at pins ⊢
    omega
  add {got world thing} unguarded tracked := by
    refine tracked.regroup (fun id guard its => ?_) (Nat.le_succ _) (fun other => ?_) rfl rfl rfl rfl rfl
    · rwa [guardOf_add_plain world unguarded] at its
    · change (world.nextThing :: world.held).count other + _ ≥ _
      rw [List.count_cons, List.count_cons]
      omega
  gone found unreferenced tracked := tracked.gone found unreferenced

end World

end CatalogReplica.Catalog
