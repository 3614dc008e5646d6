import CatalogReplica.Proofs.Lifetime.Carrying

/-!
# Which guards are in use

A guard is in use while it has an owner and was not released.  No release and no teardown brings one into use,
only a guard that is built is so anew, and the end of an owner ends it.

* `Ledger.UsedWithin`: all guards in use are among some.
* `Ledger.usedWithin_carried`: operations keep it.
* `Ledger.dropOwner_used`, `Ledger.build_used`: the end of an owner, and a guard that is built.
-/

namespace CatalogReplica.Lifetime.Ledger

variable {mine : GuardId → Prop} {ledger after : Ledger} {id : GuardId}

/-- All guards that have owners and were not released are among these. -/
def UsedWithin (mine : GuardId → Prop) (ledger : Ledger) : Prop :=
  ∀ id held, ledger.guard? id = some held → held.owned = true → held.flags.claimed = false → mine id

namespace UsedWithin

theorem weaken {more : GuardId → Prop} (within : ledger.UsedWithin mine) (among : ∀ id, mine id → more id) :
    ledger.UsedWithin more := fun id held found owned unclaimed => among id (within id held found owned unclaimed)

theorem congr (within : ledger.UsedWithin mine) (guards : after.guards = ledger.guards) : after.UsedWithin mine := by
  unfold UsedWithin guard? at *
  rwa [guards]

/-- A guard changes, and if it is in use then it was so before. -/
theorem onGuard (within : ledger.UsedWithin mine) (id : GuardId) {f : Guard → Guard}
    (owned : ∀ held : Guard, (f held).owned = true → held.owned = true)
    (claimed : ∀ held : Guard, held.flags.claimed = true → (f held).flags.claimed = true) :
    (ledger.onGuard id f).UsedWithin mine := by
  intro other held' found its unclaimed
  rw [guard?_onGuard] at found
  split at found
  · obtain ⟨held, was, rfl⟩ := Option.map_eq_some_iff.mp found
    refine within other held was (owned held its) ?_
    cases flag : held.flags.claimed with
    | false => rfl
    | true => cases (claimed held flag).symm.trans unclaimed
  · exact within other held' found its unclaimed

/-- A guard that is not in use after the change is not among those in use. -/
theorem spare (within : ledger.UsedWithin fun other => mine other ∨ other = id) {f : Guard → Guard}
    (spare : ∀ held : Guard, (f held).owned = true → (f held).flags.claimed = true) :
    (ledger.onGuard id f).UsedWithin mine := by
  intro other held' found owned unclaimed
  rw [guard?_onGuard] at found
  split at found
  · obtain ⟨held, -, rfl⟩ := Option.map_eq_some_iff.mp found
    cases (spare held owned).symm.trans unclaimed
  · next differs => exact (within other held' found owned unclaimed).resolve_right differs

end UsedWithin

theorem usedWithin_carried (mine : GuardId → Prop) : TornCarried (fun _ => True) (fun _ _ => True) (UsedWithin mine) where
  tally _ _ within := within
  busy _ _ within := within
  queues _ _ _ within := within
  owns _ _ _ _ _ _ _ _ _ := trivial
  guard _ id _ stays within :=
    within.onGuard id (fun held owned => (stays held).owned ▸ owned) fun held => (stays held).claimed
  disown _ id _ within := within.onGuard id (fun _ owned => by cases owned) fun _ claimed => claimed
  disarm _ id within := within.onGuard id (fun _ owned => owned) fun _ claimed => claimed
  fire ledger id _ _ _ _ _ within :=
    (within.onGuard id (fun _ owned => owned) fun _ claimed => claimed : (ledger.disarmed id).UsedWithin mine).congr rfl
  yield _ _ _ within := within
  forget _ _ _ _ within := within
  empty _ _ _ _ within := within
  inside _ _ _ _ _ _ _ _ _ := trivial

/-- A guard whose owner goes away is not in use any more. -/
theorem dropOwner_used (within : ledger.UsedWithin fun other => mine other ∨ other = id) :
    (dropOwner id).Ends ledger fun _ after => after.UsedWithin mine := by
  refine (usedWithin_carried mine).toCarried.dropOwner_ends (fun _ _ _ => within.spare fun _ owned => by cases owned)
    fun unowned other held found owned unclaimed => (within other held found owned unclaimed).resolve_right ?_
  rintro rfl
  cases (unowned held found).symm.trans owned

theorem pin_used (thread : ThreadId) (id : GuardId) : (pin thread id).Keeps (UsedWithin mine) :=
  .bind .get fun _ => .bind (.ofOutcome _) fun _ => .bind
    (.modify fun _ within => within.onGuard id (fun _ owned => owned) fun _ claimed => claimed) fun _ => .pure _

theorem register_used (id : GuardId) (lifespan : LifespanId) : (register id lifespan).Keeps (UsedWithin mine) := by
  intro ledger within
  refine .next (Task.get_run ledger) ?_
  split
  · next scope _ _ =>
    split
    · exact within
    · split
      · exact within
      · refine UsedWithin.onGuard ?_ id (fun _ owned => owned) fun _ claimed => claimed
        split
        · exact within
        · have entered : UsedWithin mine (ledger.onLifespan lifespan fun scope =>
              { scope with guards := scope.guards ++ [id] }) := within
          exact (usedWithin_carried mine).toCarried.count entered id .guardRegistered 1
  · exact within

theorem addGuard_used (within : ledger.UsedWithin mine) (plan : Guard) :
    (ledger.addGuard plan).2.UsedWithin fun id => mine id ∨ id = ledger.next := by
  intro id held found owned unclaimed
  have found : (ledger.guards.add ledger.next plan).get? id = some held := found
  rw [Numbered.get?_add] at found
  cases was : ledger.guards.get? id with
  | some held' =>
    rw [was, Option.some_or] at found
    exact .inl (within id held (was.trans found) owned unclaimed)
  | none =>
    rw [was, Option.none_or] at found
    split at found
    · exact .inr ‹_›
    · cases found

/-- Only a guard that is built is in use anew. -/
theorem build_used (within : ledger.UsedWithin mine) (plan : Guard) (lifespan : LifespanId) :
    (build plan (some lifespan)).Ends ledger fun outcome after =>
      after.UsedWithin fun id => mine id ∨ outcome = .ok id := by
  have carried := (usedWithin_carried mine).toCarried
  have refused {interrupt : Interrupt} {after : Ledger} (within : after.UsedWithin mine) :
      after.UsedWithin fun id => mine id ∨ (Except.error interrupt : Except Interrupt GuardId) = .ok id :=
    within.weaken fun _ => .inl
  refine .next (Task.lift_run _ ledger) ?_
  change (Task.attempt (register ledger.next lifespan) >>= _).Ends (ledger.addGuard plan).2 _
  refine (register_used _ _ _ (addGuard_used within plan)).attempt.bind ?_ fun _ _ ended => by cases ended.choose_spec.1
  rintro inner registered ⟨_, ⟨⟩, within⟩
  cases inner with
  | ok _ =>
    refine within.weaken fun id => Or.imp_right ?_
    rintro rfl
    rfl
  | error interrupt =>
    -- it counts as released before its owner goes
    have withdrawn : (withdraw ledger.next).Ends registered fun _ after => after.UsedWithin mine := by
      refine .next (Task.modify_run _ registered) ((Task.Keeps.bind (.lift fun ledger => carried.disarm ledger _)
        fun taken => ?_) _ (within.spare fun _ _ => rfl))
      cases taken with
      | none => exact .pure _
      | some action => exact .forM fun _ _ => carried.dropOwner trivial
    refine withdrawn.bind (fun _ mid within => ?_) fun _ _ => refused
    exact (carried.dropOwner trivial mid within).bind (fun _ _ => refused) fun _ _ => refused

end CatalogReplica.Lifetime.Ledger
