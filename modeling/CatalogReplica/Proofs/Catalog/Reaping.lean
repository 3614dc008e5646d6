import CatalogReplica.Proofs.Catalog.Transfer

/-!
# Things that go

Whatever nothing refers to may go at any time.  No one misses it: nobody holds it, and
nothing that remains refers to it.

* `Reaped`: what reaping does to a catalog.
* `Sound.reaped`, `Fresh.reaped`: it does no harm, also in the middle of a dispatch.
-/

namespace CatalogReplica.Catalog.World

open Coherence (Batch)
open Lifetime (Ledger)

variable {world after last : World} {cascade : Cascade} {owed : List (EntityClass × Oid)}
  {trips : Batch} {unsignalled : List EntityKey}

/-! ## Native resources -/

theorem store_notice (happenings : List Lifetime.Happening) (provider : Provider) :
    (happenings.foldl Provider.notice provider).store = provider.store := by
  induction happenings generalizing provider with
  | nil => rfl
  | cons happening happenings inductionHypothesis =>
    rw [List.foldl_cons, inductionHypothesis]
    unfold Provider.notice
    split <;> rfl

/-- What happens to native resources has nothing to do with coherence. -/
theorem core_setLedger (ledger : Ledger) (world : World) : (setLedger ledger world).core = world.core := by
  unfold core setLedger
  simp only [store_notice]

theorem onLedger_ends {α : Type} (body : Task Ledger α) (world : World) :
    (onLedger body).Ends world fun _ after => after.core = world.core ∧ after.held = world.held ∧
      after.heap = world.heap := by
  unfold Task.Ends onLedger Task.within
  cases body world.ledger <;> exact ⟨core_setLedger _ world, rfl, rfl⟩

theorem core_dropGuard (thing : Thing) (world : World) : (dropGuard thing world).core = world.core := by
  unfold dropGuard
  split
  · exact ((onLedger_ends _ world).weaken fun _ _ => And.left).exec
  · rfl

/-! ## Reaping -/

/-- Some things are gone, and are not missed. -/
structure Reaped (world after : World) : Prop where
  core : after.core = ({ world with heap := after.heap } : World).core
  still : ∀ id thing, after.thing? id = some thing → world.thing? id = some thing
  missed : ∀ id, world.alive id = true → after.alive id = true ∨
    (id ∉ world.held ∧ ∀ other thing, after.thing? other = some thing → id ∉ thing.refs)

namespace Reaped

theorem of_core (same : after.core = world.core) : Reaped world after := by
  have heap : after.heap = world.heap := congrArg (·.heap) same
  have thing (id : ThingId) : after.thing? id = world.thing? id := by rw [thing?, thing?, heap]
  refine ⟨by rw [heap]; exact same, fun id _ found => thing id ▸ found, fun id live => .inl ?_⟩
  rw [alive, heap]
  exact live

theorem refl (world : World) : Reaped world world := of_core rfl

theorem trans (first : Reaped world after) (second : Reaped after last) : Reaped world last where
  core := by
    have held := congrArg (fun state : World => { state with heap := last.heap }) first.core
    exact second.core.trans held
  still id thing found := first.still id thing (second.still id thing found)
  missed id live := by
    cases first.missed id live with
    | inl still =>
      cases second.missed id still with
      | inl alive => exact .inl alive
      | inr gone =>
        refine .inr ⟨?_, gone.2⟩
        rw [show world.held = after.held from (congrArg (·.held) first.core).symm]
        exact gone.1
    | inr gone => exact .inr ⟨gone.1, fun other thing found => gone.2 other thing (second.still other thing found)⟩

theorem held (reaped : Reaped world after) : after.held = world.held :=
  congrArg (·.held) reaped.core

theorem isOpen (reaped : Reaped world after) : after.isOpen = world.isOpen := by
  have held : after.catalogHeld = world.catalogHeld := congrArg (·.catalogHeld) reaped.core
  have session : (after.session.map fun _ => _).isSome = (world.session.map fun _ => _).isSome :=
    congrArg (·.session.isSome) reaped.core
  rw [Option.isSome_map, Option.isSome_map] at session
  rw [World.isOpen, World.isOpen, held, session]

end Reaped

theorem not_referenced {id : ThingId} (unreferenced : world.referenced id = false) :
    id ∉ world.held ∧ ∀ other thing, world.thing? other = some thing → id ∉ thing.refs := by
  unfold referenced at unreferenced
  rw [Bool.or_eq_false_iff, Bool.or_eq_false_iff, List.any_eq_false] at unreferenced
  obtain ⟨⟨unheld, -⟩, unlinked⟩ := unreferenced
  constructor
  · intro among
    rw [List.contains_iff_mem.mpr among] at unheld
    cases unheld
  · intro other thing found among
    exact unlinked (other, thing) (Numbered.mem_of_get? found) (List.contains_iff_mem.mpr among)

theorem reaped_erase {id : ThingId} (unreferenced : world.referenced id = false) :
    Reaped world { world with heap := world.heap.erase id } := by
  obtain ⟨unheld, unlinked⟩ := not_referenced unreferenced
  have thing (other : ThingId) : ({ world with heap := world.heap.erase id } : World).thing? other
      = if other = id then none else world.thing? other := Numbered.get?_erase world.heap id other
  have still (other : ThingId) (found' : Thing)
      (found : ({ world with heap := world.heap.erase id } : World).thing? other = some found') :
      world.thing? other = some found' := by
    rw [thing] at found
    split at found
    · cases found
    · exact found
  refine ⟨rfl, still, fun other live => ?_⟩
  by_cases same : other = id
  · subst same
    exact .inr ⟨unheld, fun another found' found => unlinked another found' (still another found' found)⟩
  · refine .inl ?_
    obtain ⟨found', found⟩ := alive_iff.mp live
    exact alive_iff.mpr ⟨found', by rw [thing, if_neg same, found]⟩

theorem reapWithin_reaped (steps : Nat) (ids : List ThingId) (world : World) :
    Reaped world (reapWithin steps ids world) := by
  induction steps generalizing ids world with
  | zero => exact .refl world
  | succ steps inductionHypothesis =>
    cases ids with
    | nil => exact .refl world
    | cons id ids =>
      unfold reapWithin
      cases found : world.thing? id with
      | none => exact inductionHypothesis ids world
      | some thing =>
        dsimp only
        cases referenced : world.referenced id with
        | true => exact inductionHypothesis ids world
        | false =>
          exact ((reaped_erase referenced).trans (.of_core (core_dropGuard thing _))).trans
            (inductionHypothesis (thing.refs ++ ids) _)

theorem reap_reaped (ids : List ThingId) (world : World) : Reaped world (reap ids world) :=
  reapWithin_reaped _ ids world

/-! ## No harm -/

theorem Sound.reaped (sound : world.Sound cascade owed) (reaped : Reaped world after) :
    after.Sound cascade owed := by
  have stays : ({ world with heap := after.heap } : World).Sound cascade owed := by
    refine sound.onHeap (fun _ => id) (fun id thing found => ⟨thing, reaped.still id thing found, .refl thing⟩)
      (fun id thing found other among => ?_) (fun id among => ?_)
    · cases reaped.missed other (sound.closed id thing (reaped.still id thing found) other among) with
      | inl live => exact live
      | inr gone => exact absurd among (gone.2 id thing found)
    · cases reaped.missed id (sound.holding id among) with
      | inl live => exact live
      | inr gone => exact absurd among gone.1
  exact stays.of_core reaped.core

theorem Reaped.carries (reaped : Reaped world after) : world.Carries after :=
  fun id thing found _ => ⟨thing, reaped.still id thing found, .refl thing⟩

theorem Reaped.caches (reaped : Reaped world after) (kind : EntityClass) :
    after.caches.of kind = world.caches.of kind := by
  have same := congrArg (fun state => state.caches.of kind) reaped.core
  exact same

theorem Reaped.cached (reaped : Reaped world after) {id : ThingId} {entity : Entity}
    (cached : after.Cached id entity) : world.Cached id entity :=
  ⟨entity?_eq_some.mpr (reaped.still id _ (entity?_eq_some.mp cached.1)), reaped.caches _ ▸ cached.2⟩

theorem Reaped.gates (reaped : Reaped world after) : after.gates = world.gates :=
  congrArg (·.gates) reaped.core

theorem Reaped.provider (reaped : Reaped world after) : after.provider.store = world.provider.store :=
  congrArg (·.provider) reaped.core

theorem Fresh.reaped (fresh : world.Fresh trips unsignalled) (sound : world.Sound cascade owed)
    (reaped : Reaped world after) : after.Fresh trips unsignalled := by
  refine fresh.carry sound (sound.reaped reaped).closed reaped.carries (fun _ => id)
    (.of_store reaped.provider) fun id entity index datum cached trusts => ?_
  rw [reaped.gates] at trusts
  exact ⟨entity, reaped.cached cached, .refl entity, trusts⟩

/-! ## Letting go -/

theorem Sound.unhold (sound : world.Sound cascade owed) {held : List ThingId}
    (fewer : ∀ id ∈ held, id ∈ world.held) : ({ world with held } : World).Sound cascade owed :=
  ⟨sound.below, sound.unique, sound.handedOut, sound.entered, sound.closed,
    fun id among => sound.holding id (fewer id among), sound.gates, sound.shaped, sound.tied,
    sound.attributes, sound.typmods, sound.links, sound.columns, sound.targets, sound.unmarked, sound.indexed⟩

end CatalogReplica.Catalog.World
