import CatalogReplica.Proofs.Catalog.Tidy
import CatalogReplica.Proofs.Native.Adoption

/-!
# Guards of things that went

As long as no guard is lost, lookups, signals and clean-up do one thing only to guards: those of
the things that went are left to the queue.

* `World.Bereaved`: the thing went that a guard had for its owner.
* `World.Orphans`, `World.orphans_carried`: nothing else happened to guards.
* `World.Orphans.agree`: from the same guards, where the same things went, to the same guards.
-/

namespace CatalogReplica.Catalog.World

open Lifetime (Guard GuardId Ledger)

variable {base world after : World} {got : List ThingId} {guard : GuardId}

/-- A thing that goes has no guard any more. -/
theorem guardOf_gone (world : World) (thing : Thing) (id other : ThingId) :
    (dropGuard thing { world with heap := world.heap.erase id }).guardOf other
      = if other = id then none else world.guardOf other := by
  rw [← guardOf_erase, guardOf, guardOf, (Stays.dropGuard thing _).thing?]

/-- The owner of the guard went since. -/
def Bereaved (base world : World) (guard : GuardId) : Prop :=
  ∃ id, base.guardOf id = some guard ∧ world.guardOf id = none

/-- No guard was lost since an earlier state, and those whose owners went were left to the queue. -/
structure Orphans (base : World) (got : List ThingId) (world : World) : Prop extends Watched base got world where
  fewer : ∀ id guard, world.guardOf id = some guard → base.guardOf id = some guard
  bereft : base.Lossless → ∀ guard, base.Bereaved world guard →
    world.ledger.guard? guard = (base.ledger.guard? guard).map Guard.orphaned
  left : base.Lossless → ∀ guard, ¬ base.Bereaved world guard → world.ledger.guard? guard = base.ledger.guard? guard
  same : base.Lossless → world.ledger.lifespans = base.ledger.lifespans ∧ world.ledger.log = base.ledger.log

namespace Orphans

theorem start (followed : Followed base [] base) : Orphans base [] base where
  followed := followed
  lossless lossless := lossless
  fewer _ _ own := own
  bereft _ guard bereaved := by
    obtain ⟨id, own, gone⟩ := bereaved
    cases own.symm.trans gone
  left _ _ _ := rfl
  same _ := ⟨rfl, rfl⟩

/-- Things have the guards that they had. -/
theorem congr {got' : List ThingId} (orphans : Orphans base got world) (watched : Watched base got' after)
    (guards : ∀ id, after.guardOf id = world.guardOf id) (records : after.ledger.guards = world.ledger.guards)
    (lifespans : after.ledger.lifespans = world.ledger.lifespans) (log : after.ledger.log = world.ledger.log) :
    Orphans base got' after := by
  have bereaved (guard : GuardId) : base.Bereaved after guard ↔ base.Bereaved world guard := by
    simp only [Bereaved, guards]
  have guard? (guard : GuardId) : after.ledger.guard? guard = world.ledger.guard? guard := by
    rw [Ledger.guard?, records, Ledger.guard?]
  refine { watched with
    fewer := fun id guard own => orphans.fewer id guard (guards id ▸ own)
    bereft := fun lossless guard gone => ?_
    left := fun lossless guard there => ?_
    same := fun lossless => by rw [lifespans, log]; exact orphans.same lossless }
  · rw [guard?, orphans.bereft lossless guard ((bereaved guard).mp gone)]
  · rw [guard?, orphans.left lossless guard fun gone => there ((bereaved guard).mpr gone)]

/-- A guard is as it was, or was left to the queue. -/
theorem either (orphans : Orphans base got world) (lossless : base.Lossless) (guard : GuardId) :
    world.ledger.guard? guard = base.ledger.guard? guard ∨
      world.ledger.guard? guard = (base.ledger.guard? guard).map Guard.orphaned := by
  by_cases gone : base.Bereaved world guard
  · exact .inr (orphans.bereft lossless guard gone)
  · exact .inl (orphans.left lossless guard gone)

/-- A thing goes. -/
theorem gone {id : ThingId} {thing : Thing} (orphans : Orphans base got world) (found : world.thing? id = some thing)
    (unreferenced : world.referenced id = false) :
    Orphans base got (dropGuard thing { world with heap := world.heap.erase id }) := by
  have watched := (watched_carried base).gone found unreferenced orphans.toWatched
  have dropped (lossless : base.Lossless) :=
    Lossless.gone (orphans.toWatched.lossless lossless) orphans.followed found unreferenced
  have went {guard : GuardId} (gone : base.Bereaved world guard) :
      base.Bereaved (dropGuard thing { world with heap := world.heap.erase id }) guard := by
    obtain ⟨other, own, gone⟩ := gone
    refine ⟨other, own, ?_⟩
    rw [guardOf_gone, gone, ite_self]
  refine { watched with
    fewer := fun other guard own => ?_
    bereft := fun lossless guard gone => ?_
    left := fun lossless guard there => ?_
    same := fun lossless => ?_ }
  · rw [guardOf_gone] at own
    split at own
    · cases own
    · exact orphans.fewer other guard own
  · rw [(dropped lossless).2.1]
    split
    · obtain same | same := orphans.either lossless guard <;> rw [same]
      -- whoever was left to the queue before is not left to it again
      rw [Option.map_map]
      rfl
    · next other =>
      refine orphans.bereft lossless guard ?_
      obtain ⟨owner, own, gone⟩ := gone
      refine ⟨owner, own, ?_⟩
      rw [guardOf_gone] at gone
      split at gone
      · next same =>
        cases its : world.guardOf owner with
        | none => rfl
        | some held =>
          obtain rfl := Option.some.inj ((orphans.fewer owner held its).symm.trans own)
          exact absurd (same ▸ its) other
      · exact gone
  · rw [(dropped lossless).2.1, if_neg fun own => there ⟨id, orphans.fewer id guard own, by rw [guardOf_gone, if_pos rfl]⟩]
    exact orphans.left lossless guard fun gone => there (went gone)
  · obtain ⟨-, -, lifespans, log⟩ := dropped lossless
    rw [lifespans, log]
    exact orphans.same lossless

end Orphans

theorem orphans_carried (base : World) : Carried (Orphans base) := by
  have carried := watched_carried base
  exact {
    perm := fun same orphans => orphans.congr (carried.perm same orphans.toWatched) (fun _ => rfl) rfl rfl rfl
    less := fun orphans => orphans.congr (carried.less orphans.toWatched) (fun _ => rfl) rfl rfl rfl
    aside := fun aside orphans => by
      have same {β : Type} (part : World → β) := congrArg part aside.native
      exact orphans.congr (carried.aside aside orphans.toWatched) aside.guards (same (·.ledger.guards) :)
        (same (·.ledger.lifespans) :) (same (·.ledger.log) :)
    hold := fun id orphans => orphans.congr (carried.hold id orphans.toWatched) (fun _ => rfl) rfl rfl rfl
    unhold := fun orphans => orphans.congr (carried.unhold orphans.toWatched) (fun _ => rfl) rfl rfl rfl
    add := fun unguarded orphans => orphans.congr (carried.add unguarded orphans.toWatched)
      (guardOf_add_plain _ unguarded) rfl rfl rfl
    gone := fun found unreferenced orphans => orphans.gone found unreferenced }

/-- Where the same things went, the same guards are left to the queue. -/
theorem Orphans.agree {base' world' : World} {got' : List ThingId} (orphans : Orphans base got world)
    (orphans' : Orphans base' got' world') (lossless : base.Lossless) (lossless' : base'.Lossless)
    (first : ∀ id, base'.guardOf id = base.guardOf id) (second : ∀ id, world'.guardOf id = world.guardOf id)
    (guards : ∀ guard, base'.ledger.guard? guard = base.ledger.guard? guard) (guard : GuardId) :
    world'.ledger.guard? guard = world.ledger.guard? guard := by
  have same : base'.Bereaved world' guard ↔ base.Bereaved world guard := by simp only [Bereaved, first, second]
  by_cases gone : base.Bereaved world guard
  · rw [orphans'.bereft lossless' guard (same.mpr gone), orphans.bereft lossless guard gone, guards]
  · rw [orphans'.left lossless' guard fun gone' => gone (same.mp gone'), orphans.left lossless guard gone, guards]

end CatalogReplica.Catalog.World
