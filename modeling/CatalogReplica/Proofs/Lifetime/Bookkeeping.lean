import Mathlib.Algebra.BigOperators.Group.List.Basic
import CatalogReplica.Proofs.Lifetime.Tables
import CatalogReplica.Proofs.Lifetime.Calm

/-!
# Registration bookkeeping

A guard knows of one lifespan, the last one that it was registered to, and may be in the tables of
others.  When its owner goes away it leaves the table of the one that it knows of.  The gauge is what
the tables list, as long as no lifespan is lost with guards in its table: nothing takes these off the
gauge.

* `Ledger.lose`, `Ledger.leak`: lifespans are forgotten, and the gauge still counts their guards.
* `Ledger.Undisturbed`: guards were not released and know of the lifespan that they knew of.
* `Event`: a run in which lifespans may be lost.
* `Event.bookkeeping`: the result.
* `Event.released_still_listed`: a guard that was released and is still in a table.
-/

namespace CatalogReplica

/-- What is found after numbers were forgotten. -/
theorem Numbered.get?_filter {α : Type} (table : Numbered α) (kept : Nat → Bool) (id : Nat) :
    Numbered.get? (table.filter fun entry => kept entry.1) id = if kept id then table.get? id else none := by
  induction table with
  | nil => simp [get?]
  | cons entry table ih =>
    obtain ⟨key, value⟩ := entry
    by_cases same : id = key
    · subst same
      cases stays : kept id with
      | true => simp [stays, get?]
      | false => simpa [stays] using ih
    · have skip : (id == key) = false := by simpa using same
      cases stays : kept key with
      | true => simpa [stays, get?, List.lookup_cons, skip] using ih
      | false => simpa [stays, get?, List.lookup_cons, skip] using ih

namespace Lifetime

namespace Ledger

variable {thread : ThreadId} {loose : List GuardId} {may may' : GuardId → Prop} {before ledger mid after : Ledger}
  {id : GuardId} {held : Guard} {lifespan : LifespanId}

/-! ## Guards that nothing happens to -/

/-- Guards apart from the given ones are released just if they were before, and know of the
    lifespan that they knew of. -/
def Undisturbed (may : GuardId → Prop) (before after : Ledger) : Prop :=
  ∀ id held, ¬ may id → before.guard? id = some held → ∃ held', after.guard? id = some held' ∧
    held'.isReleased = held.isReleased ∧ held'.link = held.link

namespace Undisturbed

theorem of_guards (same : after.guards = before.guards) : Undisturbed may before after := by
  intro id held _ found
  refine ⟨held, ?_, rfl, rfl⟩
  rw [guard?, same]
  exact found

theorem trans (first : Undisturbed may before mid) (second : Undisturbed may mid after) :
    Undisturbed may before after := by
  intro id held apart found
  obtain ⟨one, there, released, link⟩ := first id held apart found
  obtain ⟨other, there', released', link'⟩ := second id one apart there
  exact ⟨other, there', released'.trans released, link'.trans link⟩

theorem weaken (undisturbed : Undisturbed may before after) (more : ∀ id, may id → may' id) :
    Undisturbed may' before after :=
  fun id held apart => undisturbed id held fun its => apart (more id its)

theorem of_others (others : ∀ other, other ≠ id → after.guard? other = before.guard? other) :
    Undisturbed (· = id) before after :=
  fun other held differs found => ⟨held, (others other differs).trans found, rfl, rfl⟩

theorem onGuard (ledger : Ledger) (id : GuardId) {f : Guard → Guard}
    (keeps : ∀ held, (f held).isReleased = held.isReleased ∧ (f held).link = held.link) :
    Undisturbed may ledger (ledger.onGuard id f) := by
  intro other held _ found
  rw [guard?_onGuard]
  split
  · exact ⟨f held, by rw [found, Option.map_some], keeps held⟩
  · exact ⟨held, found, rfl, rfl⟩

end Undisturbed

theorem reapBy_undisturbed (drop : GuardId → Task Ledger Unit) (rounds : Nat) (sound : Sound thread [] ledger) :
    (reapBy drop rounds).Ends ledger fun _ after => Undisturbed may ledger after := by
  induction rounds generalizing ledger with
  | zero => exact .of_guards rfl
  | succ rounds inductionHypothesis =>
    have swept : Leads thread (fun _ => False) (fun _ => False) [] [] ledger ledger.sweepQueues := sound.sweep
    have first : Undisturbed may ledger ledger.sweepQueues := .of_guards rfl
    refine .next (Task.modify_run _ ledger) (.next (Task.get_run _) ?_)
    generalize ledger.sweepQueues = mid at swept first
    cases abandoned : mid.abandoned? with
    | none => exact first
    | some id =>
      obtain ⟨held, found, acts, -⟩ := abandoned?_spec swept.sound abandoned
      obtain ⟨action, act⟩ := Option.isSome_iff_exists.mp acts
      have taken : Leads thread (fun _ => False) (fun _ => False) [] [] mid _ := swept.sound.abandon abandoned
      have disarmed : Undisturbed may mid (mid.onGuard id fun held => { held with action := none }) :=
        .onGuard mid id fun _ => ⟨rfl, rfl⟩
      refine .next (Task.lift_run _ mid) ?_
      simp only [takeAction, found, Option.bind_some, act]
      rw [((swept.sound.good id held found).quiet action act).1]
      exact .next rfl ((inductionHypothesis taken.sound).weaken fun _ after rest => (first.trans disarmed).trans rest)

theorem enqueue_undisturbed (ledger : Ledger) (id : GuardId) (held : Guard) (queue : QueueId) :
    Undisturbed may ledger (ledger.enqueue id held queue) := by
  have pending : Undisturbed may ledger
      (ledger.onGuard id fun held => { held with flags := { held.flags with pending := true } }) :=
    .onGuard ledger id fun _ => ⟨rfl, rfl⟩
  intro other held' apart found
  rw [guard?_enqueue]
  exact pending other held' apart found

/-- The end of an owner disturbs its guard only, and not if that is left to a queue. -/
theorem dropOwner_undisturbed (sound : Sound thread [] ledger) (found : ledger.guard? id = some held)
    (owned : held.owned = true) (unpinned : held.holders = []) :
    (dropOwner id).Ends ledger fun _ after => Undisturbed (fun guard => guard = id ∧ held.queue = none) ledger after := by
  have good := sound.good id held found
  refine .next (Task.get_run ledger) ?_
  cases its : held.queue with
  | none =>
    have found' := guard?_onGuard_self found fun held => { held with owned := false }
    have disowned : Touches id ledger _ := .onGuard ledger id fun held => { held with owned := false }
    obtain ⟨won, after, ran, touched⟩ := release_runs found' good.quiet .unreachable
    refine (Task.Ends.of_ok (dropWithin_none found owned its good.quiet ran)).mpr ?_
    exact (Undisturbed.of_others (disowned.trans touched).others).weaken fun _ same => ⟨same, rfl⟩
  | some queue =>
    have entered : Leads thread (fun _ => False) (fun _ => False) [id] [] _ _ := sound.enqueue found owned unpinned its
    have disowned : Undisturbed (fun guard => guard = id ∧ some queue = none) ledger
        (ledger.onGuard id fun held => { held with owned := false }) := .onGuard ledger id fun _ => ⟨rfl, rfl⟩
    unfold dropWithin
    refine .next (Task.get_run ledger) ?_
    rw [found]
    simp only [owned, if_true, its]
    exact .next (Task.set_run _ _) ((reapBy_undisturbed _ _ entered.sound).weaken fun _ _ rest =>
      (disowned.trans (enqueue_undisturbed _ id held queue)).trans rest)

theorem register_undisturbed (id : GuardId) (lifespan : LifespanId) (ledger : Ledger) :
    (register id lifespan).Ends ledger fun _ after => Undisturbed (· = id) ledger after := by
  refine (register_cases id lifespan ledger).weaken fun outcome after ended => ?_
  cases outcome with
  | error interrupt => exact .of_guards (congrArg guards ended)
  | ok value =>
    obtain ⟨-, -, rfl⟩ := ended
    exact (Undisturbed.of_guards (enlist_guards ledger id lifespan)).trans (.of_others (Touches.onGuard _ id _).others)

/-- What is done with a guard that is built disturbs no other one. -/
theorem build_undisturbed (sound : Sound thread [] ledger) {plan : Guard} (planned : plan.Planned)
    (earlier : ∀ queue ∈ plan.queue, queue < ledger.next) (lifespan : Option LifespanId) :
    (build plan lifespan).Ends ledger fun _ after => Undisturbed may ledger after := by
  have third : Leads thread (fun _ => False) (fun _ => False) [] [] ledger _ := sound.addWithdrawn planned earlier
  obtain ⟨-, unpinned, -, -, owned, quiet⟩ := planned
  have gains := gains_addGuard sound plan
  have known {other : GuardId} {held : Guard} (found : ledger.guard? other = some held) : other ≠ ledger.next := by
    rintro rfl
    cases sound.guard?_next.symm.trans found
  have apart {last : Ledger} (undisturbed : Undisturbed (· = ledger.next) ledger last) : Undisturbed may ledger last :=
    fun other held _ found => undisturbed other held (known found) found
  have added : Undisturbed (· = ledger.next) ledger (ledger.addGuard plan).2 := .of_others gains.others
  refine .next (Task.lift_run _ ledger) ?_
  cases lifespan with
  | none => exact apart added
  | some lifespan =>
    refine ((register_cases ledger.next lifespan (ledger.addGuard plan).2).both
      (register_undisturbed ledger.next lifespan (ledger.addGuard plan).2)).attempt.bind ?_ (by rintro _ _ ⟨_, ⟨⟩, _⟩)
    rintro outcome after ⟨_, ⟨⟩, registered, undisturbed⟩
    cases outcome with
    | ok value => exact apart (added.trans undisturbed)
    | error interrupt =>
      obtain rfl : after = (ledger.addGuard plan).2 := registered
      have withdrawn := gains_addWithdrawn sound plan
      have dropped := dropOwner_undisturbed third.sound withdrawn.found owned unpinned
      refine .next (withdraw_added sound quiet) (dropped.bind (fun _ last its => ?_) fun _ last its => ?_)
      all_goals exact apart ((Undisturbed.of_others withdrawn.others).trans (its.weaken fun _ => And.left))

/-! ## Lifespans that are lost -/

/-- Forgets the lifespans that nothing refers to, given those that are referred to from outside. -/
def lose (roots : List LifespanId) : Task Ledger Unit := do
  let lifespans := (← get).lifespans
  let links := lifespans.foldl (fun total entry => total + entry.2.children.length + 1) 0
  forgetLifespans roots (links + 1) lifespans.ids

/-- Lifespans are gone that are not among the roots, and with them their tables. -/
structure Loses (roots : List LifespanId) (before after : Ledger) : Prop where
  gauge : after.gauge = before.gauge
  metered : after.isMetered = before.isMetered
  gone : ∃ kept : LifespanId → Bool, (∀ root ∈ roots, kept root = true) ∧
    after.lifespans = before.lifespans.filter fun entry => kept entry.1

namespace Loses

variable {roots : List LifespanId}

theorem of_books (books : SameBooks before after) : Loses roots before after where
  gauge := books.gauge
  metered := books.metered
  gone := ⟨fun _ => true, fun _ _ => rfl, books.lifespans.trans (List.filter_true _).symm⟩

theorem trans (first : Loses roots before mid) (second : Loses roots mid after) : Loses roots before after where
  gauge := second.gauge.trans first.gauge
  metered := second.metered.trans first.metered
  gone := by
    obtain ⟨kept, stays, lifespans⟩ := first.gone
    obtain ⟨kept', stays', lifespans'⟩ := second.gone
    refine ⟨fun id => kept' id && kept id, fun root its => Bool.and_eq_true_iff.mpr ⟨stays' root its, stays root its⟩, ?_⟩
    rw [lifespans', lifespans, List.filter_filter]

end Loses

/-- A lifespan that nothing refers to is forgotten. -/
theorem Sound.forget (sound : Sound thread loose ledger) {roots : List LifespanId} {lifespan : LifespanId}
    (alone : ledger.lifespanHeld roots lifespan = false) :
    Leads thread (fun _ => False) (fun _ => False) loose loose ledger
      { ledger with lifespans := ledger.lifespans.erase lifespan } := by
  have old {other : LifespanId} {scope : Lifespan} (found : (ledger.lifespans.erase lifespan).get? other = some scope) :
      ledger.lifespan? other = some scope := by
    rw [Numbered.get?_erase] at found
    split at found
    · cases found
    · exact found
  have among {other : LifespanId} :
      other ∈ (ledger.lifespans.erase lifespan).ids ↔ other ∈ ledger.lifespans.ids ∧ other ≠ lifespan := by
    rw [← Numbered.isSome_get?, ← Numbered.isSome_get?, Numbered.get?_erase]
    split <;> simp [*]
  refine sound.setLifespans (Nat.le_refl _) (fun id its => sound.lifespans id (among.mp its).1) ?_ ?_ ?_
  · exact fun other scope found id inside => .inr ⟨other, scope, old found, inside⟩
  · intro other scope found child inside
    obtain ⟨later, known⟩ := sound.inside other scope (old found) child inside
    refine ⟨later, among.mpr ⟨known, ?_⟩⟩
    rintro rfl
    -- a lifespan inside another one is referred to from there
    have held : ledger.lifespanHeld roots child = true := by
      refine Bool.or_eq_true_iff.mpr (.inr (List.any_eq_true.mpr ⟨_, Numbered.mem_of_get? (old found), ?_⟩))
      exact List.contains_iff_mem.mpr inside
    cases alone.symm.trans held
  · exact fun other scope found => sound.closed other scope (old found)

theorem forgetLifespans_loses (roots : List LifespanId) (steps : Nat) (ids : List LifespanId)
    (sound : Sound thread [] ledger) :
    (forgetLifespans roots steps ids).Ends ledger fun _ after => Loses roots ledger after ∧
      Leads thread (fun _ => False) (fun _ => False) [] [] ledger after ∧ Undisturbed (fun _ => False) ledger after := by
  have refl (ledger : Ledger) : Loses roots ledger ledger := .of_books (.refl ledger)
  -- On the steps: a scope nobody holds is erased, and what it alone held goes with it.
  induction steps generalizing ledger ids with
  | zero => exact ⟨refl ledger, sound.stay, .of_guards rfl⟩
  | succ steps inductionHypothesis =>
    cases ids with
    | nil => exact ⟨refl ledger, sound.stay, .of_guards rfl⟩
    | cons id ids =>
      refine .next (Task.get_run ledger) ?_
      cases found : ledger.lifespan? id with
      | none => exact inductionHypothesis ids sound
      | some scope =>
        dsimp only
        split
        · exact inductionHypothesis ids sound
        next alone =>
          have alone : ledger.lifespanHeld roots id = false := Bool.eq_false_iff.mpr alone
          have first := sound.forget alone
          have erased : Loses roots ledger { ledger with lifespans := ledger.lifespans.erase id } := by
            refine ⟨rfl, rfl, fun other => other != id, fun root its => ?_, rfl⟩
            rw [bne_iff_ne]
            rintro rfl
            rw [lifespanHeld, List.contains_iff_mem.mpr its] at alone
            cases alone
          obtain ⟨mid, ran, second⟩ : ∃ mid, reapBy dropOwner (ledger.guards.length + 1)
              { ledger with lifespans := ledger.lifespans.erase id } = .ok () mid ∧
                Leads thread (fun _ => False) (fun _ => False) [] [] _ mid := reapBy_sound dropOwner _ first.sound
          have books := reapBy_books dropOwner (ledger.guards.length + 1) first.sound
          have undisturbed : (reapBy dropOwner (ledger.guards.length + 1)).Ends _ fun _ after =>
              Undisturbed (fun _ => False) _ after := reapBy_undisturbed dropOwner _ first.sound
          rw [Task.Ends.of_ok ran] at books undisturbed
          refine .next (Task.set_run _ _) (.next ((Task.bind_ok (Task.get_run _)).trans ran) ?_)
          refine (inductionHypothesis _ second.sound).weaken fun _ after ⟨rest, leads, spared⟩ => ?_
          exact ⟨(erased.trans (.of_books books)).trans rest, (first.trans second).trans leads, undisturbed.trans spared⟩

/-- How many guards the tables listed of the lifespans that are gone; guards that are not metered
    do not count. -/
def leak (before after : Ledger) : Int :=
  ((before.lifespans.filter fun entry => (after.lifespan? entry.1).isNone).map fun entry =>
    before.metered entry.2.guards).sum

namespace Loses

variable {roots : List LifespanId}

/-- A lifespan is as it was or gone. -/
theorem lifespan?_cases (loses : Loses roots before after) (lifespan : LifespanId) :
    after.lifespan? lifespan = none ∨ after.lifespan? lifespan = before.lifespan? lifespan := by
  obtain ⟨kept, -, lifespans⟩ := loses.gone
  rw [lifespan?, lifespans, Numbered.get?_filter]
  split
  · exact .inr rfl
  · exact .inl rfl

theorem distinct (loses : Loses roots before after) (distinct : before.Distinct) : after.Distinct := by
  obtain ⟨kept, -, lifespans⟩ := loses.gone
  refine ⟨lifespans ▸ distinct.ids.sublist ((List.filter_sublist).map _), fun lifespan => ?_⟩
  unfold table
  obtain gone | same := loses.lifespan?_cases lifespan
  · rw [gone]
    exact List.nodup_nil
  · rw [same]
    exact distinct.tables lifespan

/-- The gauge still counts the guards that were in the tables of the lifespans that are gone. -/
theorem surplus (loses : Loses roots before after) : after.surplus = before.surplus + leak before after := by
  obtain ⟨kept, -, lifespans⟩ := loses.gone
  -- the sum over all the tables splits into those that are kept and those that are gone
  have found (entry : LifespanId × Lifespan) (among : entry ∈ before.lifespans) :
      (after.lifespan? entry.1).isNone = !kept entry.1 := by
    obtain ⟨scope, there⟩ := Option.isSome_iff_exists.mp
      (Numbered.isSome_get?.mpr (List.mem_map_of_mem among : entry.1 ∈ before.lifespans.ids))
    rw [lifespan?, lifespans, Numbered.get?_filter, there]
    cases kept entry.1 <;> rfl
  have split : ((before.lifespans.filter fun entry => decide (kept entry.1 = true)).map fun entry =>
        before.metered entry.2.guards).sum
      + ((before.lifespans.filter fun entry => decide ¬ kept entry.1 = true).map fun entry =>
        before.metered entry.2.guards).sum = before.listed :=
    List.sum_map_filter_add_sum_map_filter_not _ _ _
  have rest : leak before after = ((before.lifespans.filter fun entry => decide ¬ kept entry.1 = true).map fun entry =>
      before.metered entry.2.guards).sum := by
    refine congrArg (fun entries : List (LifespanId × Lifespan) => (entries.map _).sum)
      (List.filter_congr fun entry among => ?_)
    rw [found entry among]
    cases kept entry.1 <;> rfl
  have listed : after.listed = ((before.lifespans.filter fun entry => decide (kept entry.1 = true)).map fun entry =>
      before.metered entry.2.guards).sum := by
    rw [Ledger.listed, metered_congr loses.metered, lifespans]
    simp only [Bool.decide_eq_true]
  rw [Ledger.surplus, loses.gauge, listed, rest, Ledger.surplus]
  omega

theorem tables (loses : Loses roots before after) (guard : GuardId) (lifespan : LifespanId) :
    guard ∈ after.table lifespan ↔ guard ∈ before.table lifespan ∧ ¬ after.lifespan? lifespan = none := by
  unfold table
  obtain gone | same := loses.lifespan?_cases lifespan
  · simp [gone]
  · rw [same]
    refine ⟨fun among => ⟨among, fun gone => ?_⟩, And.left⟩
    rw [gone] at among
    cases among

end Loses

theorem lose_loses (roots : List LifespanId) (sound : Sound thread [] ledger) :
    (lose roots).Ends ledger fun _ after => Loses roots ledger after ∧
      Leads thread (fun _ => False) (fun _ => False) [] [] ledger after ∧ Undisturbed (fun _ => False) ledger after :=
  .next (Task.get_run ledger) (forgetLifespans_loses roots _ _ sound)

/-! ## Guards that enter a table -/

/-- A guard that was registered is not released and knows of its lifespan. -/
theorem register_open (id : GuardId) (lifespan : LifespanId) (ledger : Ledger) :
    (register id lifespan).Ends ledger fun outcome after => ∀ value, outcome = .ok value →
      ∃ held, after.guard? id = some held ∧ held.isReleased = false ∧ held.link = some lifespan := by
  refine (register_cases id lifespan ledger).weaken fun outcome after ended value succeeded => ?_
  subst succeeded
  obtain ⟨⟨held, found, open'⟩, -, rfl⟩ := ended
  have enlisted : (ledger.enlist id lifespan).guard? id = some held := by
    rw [guard?_congr (enlist_guards ledger id lifespan)]
    exact found
  exact ⟨_, guard?_onGuard_self enlisted _, open', rfl⟩

theorem build_open (plan : Guard) (lifespan : LifespanId) (ledger : Ledger) :
    (build plan (some lifespan)).Ends ledger fun outcome after => ∀ value, outcome = .ok value →
      ∃ held, after.guard? ledger.next = some held ∧ held.isReleased = false ∧ held.link = some lifespan := by
  refine .next (Task.lift_run _ ledger) ?_
  refine (register_open ledger.next lifespan (ledger.addGuard plan).2).attempt.bind ?_ (by rintro _ _ ⟨_, ⟨⟩, _⟩)
  rintro outcome after ⟨_, ⟨⟩, registered⟩
  cases outcome with
  | ok value => exact fun _ _ => registered value rfl
  | error interrupt =>
    -- the guard is discarded, and the fault is passed on
    have ends {α : Type} (body : Task Ledger α) (state : Ledger) : body.Ends state fun _ _ => True := by
      unfold Task.Ends
      cases body state <;> exact trivial
    refine (ends _ _).bind (fun _ _ _ => (ends _ _).bind (fun _ last _ => ?_) fun _ last _ => ?_) fun _ last _ => ?_
    all_goals
      intro value failed
      cases failed

theorem mem_of_forget (removed : (ledger.forget id lifespan).1 = true) : id ∈ ledger.table lifespan := by
  unfold forget at removed
  cases found : ledger.lifespan? lifespan with
  | none =>
    rw [found] at removed
    cases removed
  | some scope =>
    rw [found] at removed
    dsimp only at removed
    split at removed
    next among =>
      rw [table, found]
      exact among
    next => cases removed

theorem deregister_undisturbed (ledger : Ledger) (id : GuardId) (lifespan : LifespanId) :
    Undisturbed (fun guard => guard = id ∧ guard ∈ ledger.table lifespan) ledger (ledger.deregister id lifespan).2 := by
  have same := guard?_forget ledger id
  have forgotten : Undisturbed (fun guard => guard = id ∧ guard ∈ ledger.table lifespan) ledger
      (ledger.forget id lifespan).2 := fun other held _ found => ⟨held, (same other lifespan).trans found, rfl, rfl⟩
  unfold deregister
  dsimp only
  split
  next removed =>
    refine forgotten.trans ((Undisturbed.of_others (Touches.onGuard _ id _).others).weaken ?_)
    rintro guard rfl
    exact ⟨rfl, mem_of_forget removed⟩
  next => exact forgotten

/-- A pin that ends disturbs its guard if a teardown has reached it, since that may have put a
    release off. -/
theorem unpin_undisturbed (sound : Sound thread [] ledger) (found : ledger.guard? id = some held) :
    (unpin thread id).Ends ledger fun _ after =>
      Undisturbed (fun guard => guard = id ∧ ledger.Closing id) ledger after := by
  have good := sound.good id held found
  have found' := guard?_onGuard_self found fun held => { held with holders := held.holders.erase thread }
  refine .next (Task.modify_run _ ledger) (.next (Task.get_run _) ?_)
  rw [found']
  dsimp only
  split
  next last =>
    have closing : ledger.Closing id := ⟨held, found, good.deferred (Bool.and_eq_true_iff.mp last).2⟩
    have found'' := guard?_onGuard_self found' fun held => { held with deferred := false }
    obtain ⟨won, after, ran, touched⟩ := release_runs found'' good.quiet .lifespanEnded
    refine .next (Task.modify_run _ _) (.discard ((Task.Ends.of_ok ran).mpr ?_))
    have whole : Touches id ledger after := ((Touches.onGuard ledger id _).trans (.onGuard _ id _)).trans touched
    exact (Undisturbed.of_others whole.others).weaken fun _ same => ⟨same, closing⟩
  next => exact .onGuard ledger id fun _ => ⟨rfl, rfl⟩

end Ledger

/-! ## Operations -/

namespace Operation

open Ledger (Sound Distinct Undisturbed)

variable {thread : ThreadId} {ledger : Ledger} {guard : GuardId} {lifespan : LifespanId} {operation : Operation}

/-- What an operation may do something about: the guard that it is about or those that it releases. -/
def Disturbs (ledger : Ledger) (guard : GuardId) : Operation → Prop
  | .register id _ => guard = id
  | .deregister id lifespan => guard = id ∧ guard ∈ ledger.table lifespan
  | .unpin id => guard = id ∧ ledger.Closing id
  | .drop id => guard = id ∧ ∃ held ∈ ledger.guard? id, held.queue = none
  | .drain queue => ∃ record ∈ ledger.queue? queue, guard ∈ record.guards
  | .teardown root _ => ∃ lifespan, ledger.Leading root lifespan ∧ guard ∈ ledger.table lifespan
  | _ => False

/-- Nothing happens to other guards. -/
theorem apply_undisturbed (sound : Sound thread [] ledger) (allowed : operation.Allowed thread ledger) :
    Undisturbed (operation.Disturbs ledger ·) ledger (operation.apply thread ledger) := by
  -- An operation touches the guards it releases or takes out; `Disturbs` names exactly these.
  cases operation with
  | newLifespan address kind => exact .of_guards rfl
  | newQueue => exact .of_guards rfl
  | holdQueue queue => exact .of_guards rfl
  | child parent address kind => exact .of_guards (Ledger.child_guards parent address kind ledger).exec
  | letQueueGo queue =>
    have fewer : Ledger.Leads thread (fun _ => False) (fun _ => False) [] [] ledger
        (ledger.onQueue queue fun record => { record with handles := record.handles - 1 }) := sound.handles queue (· - 1)
    have spared : (Ledger.letQueueGo queue).Ends ledger fun _ after => Undisturbed (fun _ => False) ledger after :=
      .next (Task.modify_run _ ledger) (.next (Task.get_run _)
        ((Ledger.reapBy_undisturbed Ledger.dropOwner _ fewer.sound).weaken fun _ _ rest => rest))
    exact spared.exec
  | build plan lifespan =>
    have earlier : ∀ queue ∈ plan.queue, queue < ledger.next :=
      fun queue its => sound.queues.2 queue (Numbered.isSome_get?.mp (allowed.2 queue its))
    exact (Ledger.build_undisturbed sound allowed.1 earlier lifespan).exec
  | register guard lifespan => exact (Ledger.register_undisturbed guard lifespan ledger).exec
  | deregister guard lifespan => exact Ledger.deregister_undisturbed ledger guard lifespan
  | pin guard =>
    obtain ⟨held, found, -⟩ := allowed
    obtain ⟨-, ran⟩ | ⟨-, ran⟩ := Ledger.pin_cases thread found
    · rw [show (pin guard).apply thread ledger = ledger from Task.exec_error ran]
      exact .of_guards rfl
    · rw [show (pin guard).apply thread ledger = _ from Task.exec_ok ran]
      exact .onGuard ledger guard fun _ => ⟨rfl, rfl⟩
  | unpin guard =>
    obtain ⟨held, found, -⟩ := allowed
    exact (Ledger.unpin_undisturbed sound found).exec
  | drop guard =>
    obtain ⟨held, found, owned, unpinned⟩ := allowed
    exact (Ledger.dropOwner_undisturbed sound found owned unpinned).exec.weaken fun id its => ⟨its.1, held, found, its.2⟩
  | drain queue =>
    obtain ⟨record, found⟩ := Option.isSome_iff_exists.mp allowed
    obtain ⟨after, ran, -, -, others⟩ := Ledger.drain_sound sound found
    rw [show (drain queue).apply thread ledger = after from Task.exec_ok ran]
    exact fun id held apart there => ⟨held, (others id fun among => apart ⟨record, found, among⟩).trans there, rfl, rfl⟩
  | teardown root close =>
    obtain ⟨count, after, turns, ran, -, walks⟩ := Ledger.teardown_walks root close sound
    rw [show (teardown root close).apply thread ledger = after from Task.exec_ok ran]
    intro id held apart there
    refine ⟨held, ?_, rfl, rfl⟩
    rw [walks.sweeps.guards, if_neg fun visited => ?_]
    · exact there
    · obtain ⟨turn, taken, among⟩ := List.mem_flatMap.mp visited
      obtain ⟨start, its, leading⟩ := walks.below turn taken
      exact apart ⟨turn, List.mem_singleton.mp its ▸ leading, among⟩

/-- A guard that enters a table is not released, and knows of the lifespan. -/
theorem PutsIn.open (puts : operation.PutsIn ledger guard lifespan) (thread : ThreadId) :
    ∃ held, (operation.apply thread ledger).guard? guard = some held ∧ held.isReleased = false ∧
      held.link = some lifespan := by
  cases operation with
  | register id other =>
    obtain ⟨⟨rfl, rfl⟩, value, after, ran⟩ := puts
    have entered := Ledger.register_open guard lifespan ledger
    rw [Task.Ends.of_ok ran] at entered
    rw [show (register guard lifespan).apply thread ledger = after from Task.exec_ok ran]
    exact entered value rfl
  | build plan other =>
    obtain ⟨⟨rfl, rfl⟩, value, after, ran⟩ := puts
    have entered := Ledger.build_open plan lifespan ledger
    rw [Task.Ends.of_ok ran] at entered
    rw [show (build plan (some lifespan)).apply thread ledger = after from Task.exec_ok ran]
    exact entered value rfl
  | _ => exact puts.elim

theorem PutsIn.unclaimed (puts : operation.PutsIn ledger guard lifespan) (thread : ThreadId) :
    ¬ (operation.apply thread ledger).Claimed guard := by
  rintro ⟨held, found, claimed⟩
  obtain ⟨held', found', open', -⟩ := puts.open thread
  cases found.symm.trans found'
  rw [Guard.isReleased, claimed] at open'
  cases open'

end Operation

/-! ## Runs in which lifespans are lost -/

/-- What happens in a run: the thread carries out an operation, or lets handles of lifespans go. -/
inductive Event where
  | does (operation : Operation)
  /-- From outside, only the given lifespans are still referred to. -/
  | lose (roots : List LifespanId)
  deriving DecidableEq

namespace Event

open Ledger (Sound Distinct Undisturbed)

variable {thread : ThreadId} {ledger : Ledger} {guard : GuardId} {lifespan : LifespanId} {event : Event}
  {events : List Event}

/-- What the thread must have in hand. -/
def Allowed (thread : ThreadId) (ledger : Ledger) : Event → Prop
  | .does operation => operation.Allowed thread ledger
  | .lose _ => True

instance (thread : ThreadId) (ledger : Ledger) : (event : Event) → Decidable (event.Allowed thread ledger)
  | .does operation => inferInstanceAs (Decidable (operation.Allowed thread ledger))
  | .lose _ => .isTrue trivial

/-- What is left. -/
def apply (thread : ThreadId) (ledger : Ledger) : Event → Ledger
  | .does operation => operation.apply thread ledger
  | .lose roots => Task.exec (Ledger.lose roots) ledger

/-- What a run leaves. -/
def after (thread : ThreadId) : List Event → Ledger → Ledger
  | [], ledger => ledger
  | event :: events, ledger => after thread events (event.apply thread ledger)

/-- Each operation of the run is allowed when its turn comes. -/
def AllowedAll (thread : ThreadId) : List Event → Ledger → Prop
  | [], _ => True
  | event :: events, ledger => event.Allowed thread ledger ∧ AllowedAll thread events (event.apply thread ledger)

instance decideAllowedAll (thread : ThreadId) :
    (events : List Event) → (ledger : Ledger) → Decidable (AllowedAll thread events ledger)
  | [], _ => .isTrue trivial
  | event :: events, ledger =>
      have := decideAllowedAll thread events (event.apply thread ledger)
      inferInstanceAs (Decidable (_ ∧ _))

/-- The event takes the guard out of the table of the lifespan, if it is in there, or the lifespan
    is lost. -/
def TakesOut (ledger : Ledger) (guard : GuardId) (lifespan : LifespanId) : Event → Prop
  | .does operation => operation.TakesOut ledger guard lifespan
  | .lose roots => (Task.exec (Ledger.lose roots) ledger).lifespan? lifespan = none

/-- One of the events takes the guard out of the table. -/
def TakenOut (thread : ThreadId) (guard : GuardId) (lifespan : LifespanId) : List Event → Ledger → Prop
  | [], _ => False
  | event :: events, ledger =>
      event.TakesOut ledger guard lifespan ∨ TakenOut thread guard lifespan events (event.apply thread ledger)

/-- How many metered guards are in the tables of the lifespans that are lost. -/
def leaks (ledger : Ledger) : Event → Int
  | .does _ => 0
  | .lose roots => ledger.leak (Task.exec (Ledger.lose roots) ledger)

/-- How many metered guards were in the tables of the lifespans that a run lost, when it did. -/
def leaked (thread : ThreadId) : List Event → Ledger → Int
  | [], _ => 0
  | event :: events, ledger => event.leaks ledger + leaked thread events (event.apply thread ledger)

theorem after_append (thread : ThreadId) (first second : List Event) (ledger : Ledger) :
    after thread (first ++ second) ledger = after thread second (after thread first ledger) := by
  induction first generalizing ledger with
  | nil => rfl
  | cons event first inductionHypothesis => exact inductionHypothesis _

theorem allowedAll_append {first second : List Event} :
    AllowedAll thread (first ++ second) ledger ↔
      AllowedAll thread first ledger ∧ AllowedAll thread second (after thread first ledger) := by
  induction first generalizing ledger with
  | nil => simp [AllowedAll, after]
  | cons event first inductionHypothesis =>
    simp only [List.cons_append, AllowedAll, after, inductionHypothesis, and_assoc]

/-- What one event leads to.  A loss moves what the gauge counts beyond the tables, and nothing else
    does. -/
theorem apply_sound (sound : Sound thread [] ledger) (distinct : ledger.Distinct) (allowed : event.Allowed thread ledger) :
    Sound thread [] (event.apply thread ledger) ∧ (event.apply thread ledger).Distinct ∧
      (∀ guard, ledger.Claimed guard → (event.apply thread ledger).Claimed guard) ∧
      (event.apply thread ledger).surplus = ledger.surplus + event.leaks ledger := by
  cases event with
  | does operation =>
    have leads := Operation.apply_sound sound allowed
    have moves := Operation.apply_moves sound distinct allowed
    exact ⟨leads.sound, moves.distinct distinct, fun _ => leads.onward.claimed, moves.surplus.trans (Int.add_zero _).symm⟩
  | lose roots =>
    obtain ⟨loses, leads, -⟩ := (Ledger.lose_loses roots sound).exec
    exact ⟨leads.sound, loses.distinct distinct, fun _ => leads.onward.claimed,
      loses.surplus⟩

/-- A guard whose release is claimed leaves the tables that the event takes it out of, and enters none. -/
theorem mem_table_of_claimed (sound : Sound thread [] ledger) (distinct : ledger.Distinct)
    (allowed : event.Allowed thread ledger) (claimed : (event.apply thread ledger).Claimed guard) (lifespan : LifespanId) :
    guard ∈ (event.apply thread ledger).table lifespan ↔
      guard ∈ ledger.table lifespan ∧ ¬ event.TakesOut ledger guard lifespan := by
  cases event with
  | does operation =>
    refine ((Operation.apply_moves sound distinct allowed).tables guard lifespan).trans (or_iff_left fun puts => ?_)
    exact puts.unclaimed thread claimed
  | lose roots => exact (Ledger.lose_loses roots sound).exec.1.tables guard lifespan

/-! ### Runs -/

theorem after_sound (sound : Sound thread [] ledger) (distinct : ledger.Distinct)
    (allowed : AllowedAll thread events ledger) :
    Sound thread [] (after thread events ledger) ∧ (after thread events ledger).Distinct ∧
      (after thread events ledger).surplus = ledger.surplus + leaked thread events ledger := by
  induction events generalizing ledger with
  | nil => exact ⟨sound, distinct, (Int.add_zero _).symm⟩
  | cons event events inductionHypothesis =>
    obtain ⟨sound', distinct', -, surplus⟩ := apply_sound sound distinct allowed.1
    obtain ⟨sound'', distinct'', surplus'⟩ := inductionHypothesis sound' distinct' allowed.2
    refine ⟨sound'', distinct'', surplus'.trans ?_⟩
    rw [surplus, leaked, Int.add_assoc]

/-- From its release on a guard is in the tables that it was in before and that nothing took it out of. -/
theorem mem_table_since (sound : Sound thread [] ledger) (distinct : ledger.Distinct)
    (allowed : AllowedAll thread (event :: events) ledger) (claimed : (event.apply thread ledger).Claimed guard)
    (lifespan : LifespanId) :
    guard ∈ (after thread (event :: events) ledger).table lifespan ↔
      guard ∈ ledger.table lifespan ∧ ¬ TakenOut thread guard lifespan (event :: events) ledger := by
  have first := mem_table_of_claimed sound distinct allowed.1 claimed lifespan
  -- the release is claimed after each further event, which therefore puts the guard into no table
  induction events generalizing event ledger with
  | nil =>
    rw [after, after, first, TakenOut, TakenOut, or_false]
  | cons next events inductionHypothesis =>
    obtain ⟨sound', distinct', -, -⟩ := apply_sound sound distinct allowed.1
    obtain ⟨-, -, keeps, -⟩ := apply_sound sound' distinct' allowed.2.1
    have claimed' := keeps guard claimed
    have rest := inductionHypothesis sound' distinct' allowed.2 claimed'
      (mem_table_of_claimed sound' distinct' allowed.2.1 claimed' lifespan)
    have whole : TakenOut thread guard lifespan (event :: next :: events) ledger ↔
        event.TakesOut ledger guard lifespan ∨ TakenOut thread guard lifespan (next :: events) (event.apply thread ledger) :=
      .rfl
    rw [whole, not_or, ← and_assoc, ← first]
    exact rest

/-! ### One lifespan at a time -/

/-- In whatever table the guard is, it is not released and knows of the lifespan. -/
def Linked (guard : GuardId) (ledger : Ledger) : Prop :=
  ∀ lifespan, guard ∈ ledger.table lifespan →
    ∃ held, ledger.guard? guard = some held ∧ held.isReleased = false ∧ held.link = some lifespan

/-- The guard is in one table at most. -/
def Single (guard : GuardId) (ledger : Ledger) : Prop :=
  ∀ lifespan other, guard ∈ ledger.table lifespan → guard ∈ ledger.table other → lifespan = other

/-- An operation that disturbs a guard which is in one table only takes it out of there, or puts it there
    once more. -/
theorem takesOut_of_disturbs {operation : Operation} (linked : Linked guard ledger) (single : Single guard ledger)
    (disturbs : operation.Disturbs ledger guard) (among : guard ∈ ledger.table lifespan) :
    operation.TakesOut ledger guard lifespan ∨ ∃ other, operation = .register guard other := by
  obtain ⟨held, found, open', link⟩ := linked lifespan among
  obtain ⟨unclaimed, unreached⟩ := Bool.or_eq_false_iff.mp open'
  have knows : ledger.knows guard = some lifespan := (Ledger.knows_of_unclaimed found unclaimed).trans link
  cases operation with
  | register id other =>
    cases disturbs
    exact .inr ⟨other, rfl⟩
  | deregister id other => exact .inl ⟨disturbs.1, single lifespan other among disturbs.2⟩
  | unpin id =>
    -- a teardown that had reached the guard would have emptied its one table
    obtain ⟨rfl, held', found', closing⟩ := disturbs
    cases found.symm.trans found'
    cases unreached.symm.trans closing
  | drop id =>
    obtain ⟨rfl, queue⟩ := disturbs
    exact .inl ⟨rfl, queue, knows⟩
  | drain queue => exact .inl ⟨disturbs, knows⟩
  | teardown root close =>
    obtain ⟨other, leading, among'⟩ := disturbs
    exact .inl (single other lifespan among' among ▸ leading)
  | _ => exact disturbs.elim

/-- An event keeps a guard linked that is in one table at most before and after. -/
theorem Linked.apply (linked : Linked guard ledger) (sound : Sound thread [] ledger) (distinct : ledger.Distinct)
    (allowed : event.Allowed thread ledger) (single : Single guard ledger)
    (single' : Single guard (event.apply thread ledger)) : Linked guard (event.apply thread ledger) := by
  intro lifespan among'
  cases event with
  | does operation =>
    have allowed : operation.Allowed thread ledger := allowed
    have moves := Operation.apply_moves sound distinct allowed
    -- The pair was in the table before and not taken out, or it has just been put in.
    obtain ⟨among, stays⟩ | puts := (moves.tables guard lifespan).mp among'
    · obtain ⟨held, found, open', link⟩ := linked lifespan among
      by_cases disturbs : operation.Disturbs ledger guard
      · obtain takes | ⟨other, rfl⟩ := takesOut_of_disturbs linked single disturbs among
        · exact absurd takes stays
        · -- the guard was put into this table once more, or it was refused and nothing changed
          by_cases puts : (Operation.register guard other).PutsIn ledger guard other
          · cases single' lifespan other among' ((moves.tables guard other).mpr (.inr puts))
            exact puts.open thread
          · have refused := Ledger.register_cases guard other ledger
            unfold Task.Ends at refused
            cases ran : Ledger.register guard other ledger with
            | ok value after => exact absurd ⟨⟨rfl, rfl⟩, value, after, ran⟩ puts
            | error interrupt after =>
              rw [ran] at refused
              have same : (Operation.register guard other).apply thread ledger = ledger :=
                (Task.exec_error ran).trans refused
              rw [show (Event.does (.register guard other)).apply thread ledger = ledger from same]
              exact ⟨held, found, open', link⟩
      · obtain ⟨held', found', released, link'⟩ :=
          Operation.apply_undisturbed sound allowed guard held disturbs found
        exact ⟨held', found', released.trans open', link'.trans link⟩
    · exact puts.open thread
  | lose roots =>
    obtain ⟨loses, -, spared⟩ := (Ledger.lose_loses roots sound).exec
    obtain ⟨held, found, open', link⟩ := linked lifespan ((loses.tables guard lifespan).mp among').1
    obtain ⟨held', found', released, link'⟩ := spared guard held not_false found
    exact ⟨held', found', released.trans open', link'.trans link⟩

theorem linked_after (sound : Sound thread [] ledger) (distinct : ledger.Distinct)
    (allowed : AllowedAll thread events ledger)
    (linked : Linked guard ledger)
    (single : ∀ first rest, events = first ++ rest → Single guard (after thread first ledger)) :
    Linked guard (after thread events ledger) := by
  induction events generalizing ledger with
  | nil => exact linked
  | cons event events inductionHypothesis =>
    obtain ⟨sound', distinct', -⟩ := apply_sound sound distinct allowed.1
    have next := linked.apply sound distinct allowed.1 (single [] _ rfl) (single [event] events rfl)
    exact inductionHypothesis sound' distinct' allowed.2 next fun first rest split =>
      single (event :: first) rest (by rw [split]; rfl)

theorem distinct_empty : Ledger.Distinct {} := ⟨List.nodup_nil, fun _ => List.nodup_nil⟩

/-- In every run of one thread in which guards are registered and deregistered, lifespans are torn down
    and handles of lifespans are lost: the gauge is the sum of the lengths of the tables of the lifespans
    that there are, and what it counted of the lifespans that were lost with guards in their tables.  A guard
    that is released stays in the tables that it is in and that the release and what comes after it do not
    take it out of: a release by the end of the owner takes it out of the table of the lifespan that it knows
    of, a teardown out of those below its lifespan, and the last unpin out of none.  So a guard that is never
    in two tables at once is in none from its release on. -/
theorem bookkeeping (thread : ThreadId) (events : List Event) (allowed : AllowedAll thread events {}) :
    let now := after thread events {}
    now.gauge = now.listed + leaked thread events {} ∧
    (∀ first event rest guard, events = first ++ event :: rest →
      let before := after thread first {}
      (event.apply thread before).Claimed guard → ∀ lifespan, guard ∈ now.table lifespan ↔
        guard ∈ before.table lifespan ∧ ¬ TakenOut thread guard lifespan (event :: rest) before) ∧
    ∀ guard, (∀ first rest, events = first ++ rest → Single guard (after thread first {})) → now.Claimed guard →
      ∀ lifespan, guard ∉ now.table lifespan := by
  intro now
  obtain ⟨sound, distinct, surplus⟩ := after_sound (Operation.sound_empty thread) distinct_empty allowed
  refine ⟨?_, ?_, ?_⟩
  · have start : Ledger.surplus {} = 0 := rfl
    rw [start, Int.zero_add] at surplus
    change now.gauge - now.listed = _ at surplus
    omega
  · rintro first event rest guard rfl before claimed lifespan
    obtain ⟨earlier, later⟩ := allowedAll_append.mp allowed
    obtain ⟨sound', distinct', -⟩ := after_sound (Operation.sound_empty thread) distinct_empty earlier
    change guard ∈ (after thread (first ++ _) {}).table lifespan ↔ _
    rw [after_append]
    exact mem_table_since sound' distinct' later claimed lifespan
  · rintro guard single ⟨held, found, claimed⟩ lifespan among
    have linked := linked_after (Operation.sound_empty thread) distinct_empty allowed (nofun) single
    obtain ⟨held', found', open', -⟩ := linked lifespan among
    cases found.symm.trans found'
    rw [Guard.isReleased, claimed] at open'
    cases open'

/-- A guard is registered to two lifespans, and its owner goes away. -/
def registeredTwice : List Event :=
  [.does (.newLifespan ⟨16⟩ .memory), .does (.newLifespan ⟨32⟩ .memory),
    .does (.build { handle := ⟨1⟩, action := some {} } (some 0)), .does (.register 2 1), .does (.drop 2)]

theorem bookkeeping_registeredTwice :
    AllowedAll 0 (registeredTwice ++ [.lose []]) {} ∧ (after 0 (registeredTwice ++ [.lose []]) {}).gauge = 1 ∧
      2 ∈ (after 0 registeredTwice {}).table 0 ∧ 2 ∉ (after 0 registeredTwice {}).table 1 := by
  have allowed : AllowedAll 0 registeredTwice {} := by decide +kernel
  have allowed' : AllowedAll 0 (registeredTwice ++ [.lose []]) {} := by decide +kernel
  obtain ⟨-, left, -⟩ := bookkeeping 0 registeredTwice allowed
  have released : ((.does (.drop 2) : Event).apply 0 (after 0 (registeredTwice.take 4) {})).Claimed 2 := by
    unfold Ledger.Claimed
    decide +kernel
  have tables := left (registeredTwice.take 4) (.does (.drop 2)) [] 2 rfl released
  refine ⟨allowed', ?_, (tables 0).mpr ⟨by decide +kernel, ?_⟩, fun among => ((tables 1).mp among).2 (.inl ⟨rfl, ?_⟩)⟩
  · rw [(bookkeeping 0 _ allowed').1]
    decide +kernel
  · rintro (⟨-, -, knows⟩ | none)
    · exact absurd knows (by decide +kernel)
    · exact none
  · exact ⟨⟨_, rfl, rfl⟩, by decide +kernel⟩

/-- A lifespan is lost while a guard is registered to it. -/
def lostTable : List Event :=
  [.does (.newLifespan ⟨16⟩ .memory), .does (.build { handle := ⟨1⟩, action := some {} } (some 0)), .lose []]

/-- A guard whose action ran may still be in a table, and the gauge counts guards of lifespans that are
    gone. -/
theorem released_still_listed :
    (¬ ∀ (thread : ThreadId) (events : List Event), AllowedAll thread events {} →
      ∀ guard, (after thread events {}).causes guard ≠ [] → ∀ lifespan, guard ∉ (after thread events {}).table lifespan) ∧
    ¬ ∀ (thread : ThreadId) (events : List Event), AllowedAll thread events {} →
      (after thread events {}).gauge = (after thread events {}).listed := by
  constructor
  · intro claimed
    exact claimed 0 registeredTwice (by decide +kernel) 2 (by decide +kernel) 0 (by decide +kernel)
  · intro claimed
    exact absurd (claimed 0 lostTable (by decide +kernel)) (by decide +kernel)

end Event

end Lifetime

end CatalogReplica
