import Mathlib.Algebra.Order.Ring.Int
import CatalogReplica.Proofs.Lifetime.Pinning
import CatalogReplica.Proofs.Lifetime.Trees

/-!
# Tables of guards and the gauge

The gauge counts the entries of the tables of all lifespans, those of guards that are not
metered left out.  Each part of an operation that takes guards out of tables moves the gauge by
as much.

* `Ledger.surplus`: what the gauge counts beyond what the tables list.
* `Ledger.SameBooks`: tables and gauge are as they were.
* `Ledger.Strikes`: given guards left given tables, and the gauge followed.
* `Ledger.release_strikes`, `Ledger.dropOwner_strikes`, `Ledger.drain_strikes`,
  `Ledger.teardown_strikes`: which guards leave which tables.
-/

namespace CatalogReplica

/-- With one value changed, a sum over a table changes by as much. -/
theorem Numbered.sum_update {α : Type} {table : Numbered α} {id : Nat} {value : α} (once : table.ids.Nodup)
    (found : table.get? id = some value) (f : α → α) (weight : α → Int) :
    ((table.update id f).map fun entry => weight entry.2).sum
      = (table.map fun entry => weight entry.2).sum + (weight (f value) - weight value) := by
  induction table with
  | nil => cases found
  | cons entry table ih =>
    obtain ⟨key, first⟩ := entry
    simp only [ids, List.map_cons, List.nodup_cons] at once
    by_cases here : key = id
    · subst here
      -- the rest of the table has other numbers
      have rest : Numbered.update table key f = table := by
        refine (List.map_congr_left fun entry among => ?_).trans (List.map_id table)
        have differs : (entry.1 == key) = false :=
          beq_eq_false_iff_ne.mpr fun its => once.1 (its ▸ List.mem_map_of_mem among)
        rw [differs]
        rfl
      have isFirst : first = value := by simpa [get?] using found
      subst isFirst
      have head : Numbered.update ((key, first) :: table) key f = (key, f first) :: Numbered.update table key f := by
        simp [update]
      rw [head, rest]
      simp only [List.map_cons, List.sum_cons]
      omega
    · have elsewhere : Numbered.get? table id = some value := by
        have skip : (id == key) = false := by simpa using Ne.symm here
        simpa only [get?, List.lookup_cons, skip] using found
      have head : Numbered.update ((key, first) :: table) id f = (key, first) :: Numbered.update table id f := by
        simp [update, here]
      have later := ih once.2 elsewhere
      rw [head]
      simp only [List.map_cons, List.sum_cons, later]
      omega

namespace Lifetime

namespace Ledger

variable {thread : ThreadId} {loose : List GuardId} {before ledger mid after last : Ledger} {id : GuardId} {held : Guard}

/-! ## The books -/

/-- Whether the guard is metered. -/
def isMetered (ledger : Ledger) (id : GuardId) : Bool := ((ledger.guard? id).map (·.metered)).getD false

/-- How many of the guards are metered. -/
def metered (ledger : Ledger) (guards : List GuardId) : Int := guards.countP ledger.isMetered

/-- The gauge of registered guards. -/
def gauge (ledger : Ledger) : Int := ledger.tally.get .guardRegistered

/-- The lengths of the tables of all lifespans, added up; guards that are not metered do not
    count. -/
def listed (ledger : Ledger) : Int := (ledger.lifespans.map fun entry => ledger.metered entry.2.guards).sum

/-- What the gauge counts beyond the tables. -/
def surplus (ledger : Ledger) : Int := ledger.gauge - ledger.listed

/-- The lifespan that the guard knows of, as long as it was not released. -/
def knows (ledger : Ledger) (id : GuardId) : Option LifespanId :=
  (ledger.guard? id).bind fun held => if held.flags.claimed then none else held.link

theorem knows_of_claimed (found : ledger.guard? id = some held) (claimed : held.flags.claimed = true) :
    ledger.knows id = none := by
  rw [knows, found, Option.bind_some, if_pos claimed]

theorem knows_of_unclaimed (found : ledger.guard? id = some held) (unclaimed : held.flags.claimed = false) :
    ledger.knows id = held.link := by
  rw [knows, found, Option.bind_some, unclaimed, if_neg Bool.false_ne_true]

/-- Lifespans are listed once, and their tables list no guard twice. -/
structure Distinct (ledger : Ledger) : Prop where
  ids : ledger.lifespans.ids.Nodup
  tables : ∀ lifespan, (ledger.table lifespan).Nodup

theorem metered_congr (same : after.isMetered = before.isMetered) : after.metered = before.metered := by
  funext guards
  rw [metered, same, metered]

theorem table_congr (lifespans : after.lifespans = before.lifespans) : after.table = before.table := by
  funext lifespan
  rw [table, lifespan?, lifespans, table, lifespan?]

theorem isMetered_onGuard (ledger : Ledger) (id : GuardId) {f : Guard → Guard}
    (keeps : ∀ held, (f held).metered = held.metered) : (ledger.onGuard id f).isMetered = ledger.isMetered := by
  funext other
  unfold isMetered
  rw [guard?_onGuard]
  split
  · cases ledger.guard? other with
    | none => rfl
    | some held => exact keeps held
  · rfl

theorem gauge_count (ledger : Ledger) (id : GuardId) (counter : Counter) (n : Int) :
    (ledger.count id counter n).gauge
      = ledger.gauge + if counter = .guardRegistered ∧ ledger.isMetered id = true then n else 0 := by
  unfold count
  split
  next metered =>
    have metered : ledger.isMetered id = true := metered
    simp only [gauge, Tally.get_add, metered, and_true, eq_comm]
  next other =>
    have other : ¬ ledger.isMetered id = true := other
    rw [if_neg fun both => other both.2, Int.add_zero]

theorem isMetered_count (ledger : Ledger) (id : GuardId) (counter : Counter) (n : Int) :
    (ledger.count id counter n).isMetered = ledger.isMetered := by
  funext other
  rw [isMetered, guard?_congr (same_count ledger id counter n).guards, isMetered]

theorem listed_congr (lifespans : after.lifespans = before.lifespans) (same : after.isMetered = before.isMetered) :
    after.listed = before.listed := by
  rw [listed, lifespans, metered_congr same, listed]

theorem table_onLifespan (ledger : Ledger) (lifespan other : LifespanId) (f : Lifespan → Lifespan) :
    (ledger.onLifespan lifespan f).table other
      = if other = lifespan then ((ledger.lifespan? other).map fun scope => (f scope).guards).getD []
        else ledger.table other := by
  unfold table
  rw [lifespan?_onLifespan]
  split
  · rw [Option.map_map]
    rfl
  · rfl

/-- A table that changes moves what is listed by as much. -/
theorem listed_onLifespan (once : ledger.lifespans.ids.Nodup) {lifespan : LifespanId} {scope : Lifespan}
    (found : ledger.lifespan? lifespan = some scope) (f : Lifespan → Lifespan) :
    (ledger.onLifespan lifespan f).listed
      = ledger.listed + (ledger.metered (f scope).guards - ledger.metered scope.guards) :=
  Numbered.sum_update once found f fun scope => ledger.metered scope.guards

/-- Tables and gauge are as they were, and the same guards are metered. -/
structure SameBooks (before after : Ledger) : Prop where
  lifespans : after.lifespans = before.lifespans
  gauge : after.gauge = before.gauge
  metered : after.isMetered = before.isMetered

namespace SameBooks

theorem refl (ledger : Ledger) : SameBooks ledger ledger := ⟨rfl, rfl, rfl⟩

theorem trans (first : SameBooks before mid) (second : SameBooks mid after) : SameBooks before after :=
  ⟨second.lifespans.trans first.lifespans, second.gauge.trans first.gauge, second.metered.trans first.metered⟩

/-- Changes of queues, of what happened and of what operations go through. -/
theorem of_same (lifespans : after.lifespans = before.lifespans) (tally : after.tally = before.tally)
    (guards : after.guards = before.guards) : SameBooks before after := by
  refine ⟨lifespans, ?_, ?_⟩
  · rw [Ledger.gauge, tally, Ledger.gauge]
  · funext id
    rw [isMetered, guard?_congr guards, isMetered]

theorem onGuard (ledger : Ledger) (id : GuardId) {f : Guard → Guard} (keeps : ∀ held, (f held).metered = held.metered) :
    SameBooks ledger (ledger.onGuard id f) := ⟨rfl, rfl, isMetered_onGuard ledger id keeps⟩

/-- A claim is not in the books. -/
theorem claims (ledger : Ledger) (id : GuardId) :
    SameBooks ledger (ledger.onGuard id fun held => { held with flags := { held.flags with releasing := true } }) :=
  .onGuard ledger id fun _ => rfl

/-- What counts releases is not the gauge. -/
theorem count (ledger : Ledger) (id : GuardId) (cause : ReleaseCause) :
    SameBooks ledger (ledger.count id cause.counter) := by
  refine ⟨(same_count ledger id cause.counter 1).lifespans, ?_, isMetered_count ledger id cause.counter 1⟩
  rw [gauge_count, if_neg fun both => by cases cause <;> exact absurd both.1 (by decide), Int.add_zero]

theorem surplus (books : SameBooks before after) : after.surplus = before.surplus := by
  rw [Ledger.surplus, books.gauge, listed_congr books.lifespans books.metered, Ledger.surplus]

end SameBooks

/-! ## Guards that leave tables -/

/-- The lifespans are the same ones, and what the gauge counts beyond their tables is the same. -/
structure Balanced (before after : Ledger) : Prop where
  metered : after.isMetered = before.isMetered
  ids : after.lifespans.ids = before.lifespans.ids
  surplus : after.surplus = before.surplus

/-- Guards left tables as it is said and no others did, and the gauge followed. -/
structure Strikes (out : GuardId → LifespanId → Prop) (before after : Ledger) : Prop extends Balanced before after where
  thinned : ∀ lifespan, (after.table lifespan).Sublist (before.table lifespan)
  left : ∀ guard lifespan, guard ∈ after.table lifespan ↔ guard ∈ before.table lifespan ∧ ¬ out guard lifespan

theorem Balanced.refl (ledger : Ledger) : Balanced ledger ledger := ⟨rfl, rfl, rfl⟩

theorem Balanced.trans (first : Balanced before mid) (second : Balanced mid after) : Balanced before after :=
  ⟨second.metered.trans first.metered, second.ids.trans first.ids, second.surplus.trans first.surplus⟩

theorem SameBooks.balanced (books : SameBooks before after) : Balanced before after :=
  ⟨books.metered, congrArg _ books.lifespans, books.surplus⟩

/-- With the same books, nothing left a table. -/
theorem SameBooks.strikes {out : GuardId → LifespanId → Prop} (books : SameBooks before after)
    (none : ∀ guard lifespan, guard ∈ before.table lifespan → ¬ out guard lifespan) : Strikes out before after where
  toBalanced := books.balanced
  thinned lifespan := by rw [table_congr books.lifespans]
  left guard lifespan := by
    rw [table_congr books.lifespans]
    exact ⟨fun among => ⟨among, none guard lifespan among⟩, And.left⟩

namespace Strikes

variable {out out' : GuardId → LifespanId → Prop}

theorem trans (first : Strikes out before mid) (second : Strikes out' mid after) :
    Strikes (fun guard lifespan => out guard lifespan ∨ out' guard lifespan) before after where
  toBalanced := first.toBalanced.trans second.toBalanced
  thinned lifespan := (second.thinned lifespan).trans (first.thinned lifespan)
  left guard lifespan := by rw [second.left, first.left, not_or, and_assoc]

/-- It is enough to say it of what is in tables. -/
theorem congr (strikes : Strikes out before after)
    (same : ∀ guard lifespan, guard ∈ before.table lifespan → (out guard lifespan ↔ out' guard lifespan)) :
    Strikes out' before after where
  toBalanced := strikes.toBalanced
  thinned := strikes.thinned
  left guard lifespan := by
    rw [strikes.left]
    exact and_congr_right fun among => not_congr (same guard lifespan among)

theorem distinct (strikes : Strikes out before after) (distinct : before.Distinct) : after.Distinct :=
  ⟨strikes.ids ▸ distinct.ids, fun lifespan => (strikes.thinned lifespan).nodup (distinct.tables lifespan)⟩

/-- What keeps the books before or after does not matter. -/
theorem after_books (books : SameBooks before mid) (strikes : Strikes out mid after) : Strikes out before after where
  toBalanced := books.balanced.trans strikes.toBalanced
  thinned lifespan := table_congr books.lifespans ▸ strikes.thinned lifespan
  left guard lifespan := table_congr books.lifespans ▸ strikes.left guard lifespan

theorem books_after (strikes : Strikes out before mid) (books : SameBooks mid after) : Strikes out before after where
  toBalanced := strikes.toBalanced.trans books.balanced
  thinned lifespan := (table_congr books.lifespans).symm ▸ strikes.thinned lifespan
  left guard lifespan := (table_congr books.lifespans).symm ▸ strikes.left guard lifespan

end Strikes

theorem SameBooks.distinct (books : SameBooks before after) (distinct : before.Distinct) : after.Distinct :=
  (books.strikes fun _ _ _ => not_false).distinct distinct

/-- A guard leaves the table of one lifespan. -/
theorem forget_strikes (distinct : ledger.Distinct) (id : GuardId) (lifespan : LifespanId) :
    Strikes (fun guard other => guard = id ∧ other = lifespan) ledger (ledger.forget id lifespan).2 := by
  -- A guard the table does not list is not struck from it.
  have outside (absent : id ∉ ledger.table lifespan) :
      Strikes (fun guard other => guard = id ∧ other = lifespan) ledger ledger :=
    (SameBooks.refl ledger).strikes fun guard other among => by
      rintro ⟨rfl, rfl⟩
      exact absent among
  unfold forget
  cases found : ledger.lifespan? lifespan with
  | none => exact outside (by rw [table, found]; exact List.not_mem_nil)
  | some scope =>
    have its : ledger.table lifespan = scope.guards := by rw [table, found]; rfl
    dsimp only
    split
    next among =>
      let erased := ledger.onLifespan lifespan fun scope => { scope with guards := scope.guards.erase id }
      have counted := same_count erased id .guardRegistered (-1)
      have metered : erased.isMetered = ledger.isMetered := rfl
      have metered' := (isMetered_count erased id .guardRegistered (-1)).trans metered
      have tables (other : LifespanId) : (erased.count id .guardRegistered (-1)).table other
          = if other = lifespan then scope.guards.erase id else ledger.table other := by
        rw [table_congr counted.lifespans, table_onLifespan]
        split
        next same => rw [same, found]; rfl
        next => rfl
      refine { metered := metered', ids := ?_, surplus := ?_, thinned := ?_, left := ?_ }
      · rw [counted.lifespans]
        exact ids_onLifespan ledger lifespan _
      · -- the gauge goes down by one just if the table lists one metered guard less
        have gauge : (erased.count id .guardRegistered (-1)).gauge
            = ledger.gauge + if ledger.isMetered id = true then -1 else 0 := by
          rw [gauge_count, metered]
          simp only [true_and]
          rfl
        have listed : (erased.count id .guardRegistered (-1)).listed
            = ledger.listed + (ledger.metered (scope.guards.erase id) - ledger.metered scope.guards) := by
          rw [listed_congr counted.lifespans (isMetered_count erased id _ _)]
          exact listed_onLifespan distinct.ids found _
        have fewer : ledger.metered (scope.guards.erase id)
            = ledger.metered scope.guards + if ledger.isMetered id = true then -1 else 0 := by
          have whole := (List.perm_cons_erase among).countP_eq ledger.isMetered
          rw [List.countP_cons] at whole
          unfold Ledger.metered
          rw [whole]
          split <;> omega
        rw [surplus, gauge, listed, fewer, surplus]
        omega
      · intro other
        rw [tables]
        split
        next same => rw [same, its]; exact List.erase_sublist
        next => exact List.Sublist.refl _
      · intro guard other
        rw [tables]
        split
        next same =>
          have once : scope.guards.Nodup := its ▸ distinct.tables lifespan
          rw [same, its, once.mem_erase_iff, and_comm]
          simp
        next differs => simp [differs]
    next absent => exact outside (its ▸ absent)

/-! ## Releases -/

/-- A release that runs an action keeps the books. -/
theorem fireBy_books (drop : GuardId → Task Ledger Unit) (found : ledger.guard? id = some held)
    (quiet : held.Quiet) (cause : ReleaseCause) :
    (fireBy drop id cause).Ends ledger fun _ after => SameBooks ledger after := by
  have counted := SameBooks.count ledger id cause
  have found' : (ledger.count id cause.counter).guard? id = some held := by
    rw [guard?_congr (same_count ledger id cause.counter 1).guards]
    exact found
  refine .next (Task.modify_run _ _) ?_
  generalize ledger.count id cause.counter = mid at counted found'
  have disarmed : SameBooks ledger (mid.onGuard id fun held => { held with action := none }) :=
    counted.trans (.onGuard mid id fun _ => rfl)
  refine .next (Task.get_run mid) (.next (Task.lift_run _ mid) ?_)
  simp only [takeAction, found', Option.map_some, Option.getD_some, Option.bind_some]
  cases act : held.action with
  | none => exact disarmed
  | some action =>
    obtain ⟨alone, whole⟩ := quiet action act
    refine .next (Task.modify_run _ _) ?_
    rw [alone, whole]
    exact disarmed.trans (.of_same rfl rfl rfl)

/-- A release that is over takes the guard out of the table of the lifespan that it knows of, if
    its owner is gone. -/
theorem conclude_strikes (distinct : ledger.Distinct) (found : ledger.guard? id = some held) :
    Strikes (fun guard lifespan => guard = id ∧ held.link = some lifespan) ledger (ledger.conclude id .unreachable) := by
  have unlinked : SameBooks ledger (ledger.onGuard id fun held => { held with link := none }) :=
    .onGuard ledger id fun _ => rfl
  have finished (after : Ledger) : SameBooks after
      (after.onGuard id fun held => { held with flags := { held.flags with released := true } }) :=
    .onGuard after id fun _ => rfl
  unfold conclude
  simp only [found, Option.bind_some]
  cases its : held.link with
  | none =>
    refine (unlinked.trans (finished _)).strikes fun _ _ _ its => ?_
    cases its.2
  | some lifespan =>
    have forgotten := forget_strikes (unlinked.distinct distinct) id lifespan
    refine ((Strikes.after_books unlinked forgotten).books_after (finished _)).congr fun guard other _ => ?_
    rw [Option.some_inj]
    exact and_congr_right fun _ => eq_comm

/-- Up to its last part, a release of a guard that was not released keeps the books. -/
theorem release_concludes (found : ledger.guard? id = some held) (quiet : held.Quiet)
    (unclaimed : held.flags.claimed = false) (cause : ReleaseCause) :
    ∃ mid taken, release id cause ledger = .ok true (mid.conclude id cause) ∧ SameBooks ledger mid ∧
      mid.guard? id = some taken ∧ taken.link = held.link := by
  have found' := guard?_onGuard_self found fun held => { held with flags := { held.flags with releasing := true } }
  obtain ⟨mid, fired, -, -, taken, -⟩ := fireBy_run dropOwner found' quiet cause
  have books := fireBy_books dropOwner found' quiet cause
  rw [Task.Ends.of_ok fired] at books
  refine ⟨mid, _, ?_, (SameBooks.claims ledger id).trans books, taken, rfl⟩
  unfold release
  rw [Task.bind_ok (Task.lift_run _ ledger)]
  simp only [claim, found, unclaimed, Bool.not_false, if_true]
  unfold run runBy
  rw [Task.bind_run, Task.bind_ok fired]
  rfl

/-- A release whose guard became unreachable takes it out of the table of the lifespan that it
    knows of, and out of no other one. -/
theorem release_strikes (distinct : ledger.Distinct) (found : ledger.guard? id = some held) (quiet : held.Quiet) :
    (release id .unreachable).Ends ledger fun _ after =>
      Strikes (fun guard lifespan => guard = id ∧ ledger.knows id = some lifespan) ledger after := by
  cases claimed : held.flags.claimed with
  | true =>
    -- whoever claimed it before concluded the release: the guard knows of no lifespan any more
    refine (Task.Ends.of_ok (release_claimed found claimed .unreachable)).mpr
      ((SameBooks.claims ledger id).strikes fun guard lifespan _ => ?_)
    rw [knows_of_claimed found claimed]
    exact fun its => nomatch its.2
  | false =>
    obtain ⟨mid, taken, ran, books, there, link⟩ := release_concludes found quiet claimed .unreachable
    refine (Task.Ends.of_ok ran).mpr ?_
    rw [knows_of_unclaimed found claimed, ← link]
    exact Strikes.after_books books (conclude_strikes (books.distinct distinct) there)

/-- A release by a teardown takes a guard out of no table. -/
theorem release_books (found : ledger.guard? id = some held) (quiet : held.Quiet) :
    (release id .lifespanEnded).Ends ledger fun _ after => SameBooks ledger after := by
  cases claimed : held.flags.claimed with
  | true => exact (Task.Ends.of_ok (release_claimed found claimed .lifespanEnded)).mpr (.claims ledger id)
  | false =>
    obtain ⟨mid, taken, ran, books, -⟩ := release_concludes found quiet claimed .lifespanEnded
    exact (Task.Ends.of_ok ran).mpr (books.trans (.onGuard mid id fun _ => rfl))

/-! ## Ends of owners -/

/-- Letting go what nothing holds keeps the books. -/
theorem reapBy_books (drop : GuardId → Task Ledger Unit) (rounds : Nat) (sound : Sound thread [] ledger) :
    (reapBy drop rounds).Ends ledger fun _ after => SameBooks ledger after := by
  induction rounds generalizing ledger with
  | zero => exact .refl ledger
  | succ rounds inductionHypothesis =>
    have swept : Leads thread (fun _ => False) (fun _ => False) [] [] ledger ledger.sweepQueues := sound.sweep
    have first : SameBooks ledger ledger.sweepQueues := .of_same rfl rfl rfl
    refine .next (Task.modify_run _ ledger) (.next (Task.get_run _) ?_)
    generalize ledger.sweepQueues = mid at swept first
    cases abandoned : mid.abandoned? with
    | none => exact first
    | some id =>
      obtain ⟨held, found, acts, -⟩ := abandoned?_spec swept.sound abandoned
      obtain ⟨action, act⟩ := Option.isSome_iff_exists.mp acts
      have taken : Leads thread (fun _ => False) (fun _ => False) [] [] mid _ := swept.sound.abandon abandoned
      refine .next (Task.lift_run _ mid) ?_
      simp only [takeAction, found, Option.bind_some, act]
      rw [((swept.sound.good id held found).quiet action act).1]
      refine .next rfl ((inductionHypothesis taken.sound).weaken fun _ after rest => ?_)
      have disarmed : SameBooks mid (mid.onGuard id fun held => { held with action := none }) := .onGuard mid id fun _ => rfl
      exact (first.trans disarmed).trans rest

/-- With the end of its owner a guard that is left to no queue leaves the table of the lifespan that
    it knows of. -/
theorem dropOwner_strikes (sound : Sound thread [] ledger) (distinct : ledger.Distinct)
    (found : ledger.guard? id = some held) (owned : held.owned = true) (unpinned : held.holders = []) :
    (dropOwner id).Ends ledger fun _ after =>
      Strikes (fun guard lifespan => guard = id ∧ held.queue = none ∧ ledger.knows id = some lifespan) ledger after := by
  have good := sound.good id held found
  have disowned : SameBooks ledger (ledger.onGuard id fun held => { held with owned := false }) :=
    .onGuard ledger id fun _ => rfl
  refine .next (Task.get_run ledger) ?_
  cases its : held.queue with
  | none =>
    have found' := guard?_onGuard_self found fun held => { held with owned := false }
    obtain ⟨won, after, ran, -⟩ := release_runs found' good.quiet .unreachable
    have strikes := release_strikes (disowned.distinct distinct) found' good.quiet
    rw [Task.Ends.of_ok ran] at strikes
    refine (Task.Ends.of_ok (dropWithin_none found owned its good.quiet ran)).mpr ?_
    refine (Strikes.after_books disowned strikes).congr fun guard lifespan _ => ?_
    simp [knows, found, found']
  | some queue =>
    -- the guard stays in its table until the queue is drained
    have entered : Leads thread (fun _ => False) (fun _ => False) [id] [] _ _ := sound.enqueue found owned unpinned its
    have queued : SameBooks ledger
        ((ledger.onGuard id fun held => { held with owned := false }).enqueue id held queue) := by
      have pending (mid : Ledger) : SameBooks mid
          (mid.onGuard id fun held => { held with flags := { held.flags with pending := true } }) :=
        .onGuard mid id fun _ => rfl
      unfold Ledger.enqueue
      split
      · exact disowned.trans (pending _)
      · exact (disowned.trans (pending _)).trans (.of_same rfl rfl rfl)
    unfold dropWithin
    refine .next (Task.get_run ledger) ?_
    rw [found]
    simp only [owned, if_true, its]
    refine .next (Task.set_run _ _) ((reapBy_books _ _ entered.sound).weaken fun _ _ rest => ?_)
    exact (queued.trans rest).strikes fun _ _ _ its => absurd its.2.1 (Option.some_ne_none queue)

/-- Each of the guards that a drain releases leaves the table of the lifespan that it knows of. -/
theorem releases_strikes {guards : List GuardId} (once : guards.Nodup) (distinct : ledger.Distinct)
    (found : ∀ id ∈ guards, ∃ held, ledger.guard? id = some held ∧ held.Quiet) :
    ∃ count after, Task.sum (fun id => Bool.toNat <$> release id .unreachable) guards ledger = .ok count after ∧
      Strikes (fun guard lifespan => guard ∈ guards ∧ ledger.knows guard = some lifespan) ledger after := by
  induction guards generalizing ledger with
  | nil => exact ⟨0, ledger, rfl, (SameBooks.refl ledger).strikes fun _ _ _ its => nomatch its.1⟩
  | cons id guards inductionHypothesis =>
    obtain ⟨fresh, once⟩ := List.nodup_cons.mp once
    obtain ⟨held, there, quiet⟩ := found id List.mem_cons_self
    obtain ⟨won, mid, ran, touched⟩ := release_runs there quiet .unreachable
    have first := release_strikes distinct there quiet
    rw [Task.Ends.of_ok ran] at first
    have others : ∀ other ∈ guards, mid.guard? other = ledger.guard? other :=
      fun other among => touched.others other fun same => fresh (same ▸ among)
    obtain ⟨count, after, ran', rest⟩ := inductionHypothesis once (first.distinct distinct) fun other among => by
      rw [others other among]
      exact found other (List.mem_cons_of_mem id among)
    refine ⟨won.toNat + count, after, Task.sum_cons (by rw [Task.map_run, ran]) ran',
      (first.trans rest).congr fun guard lifespan _ => ?_⟩
    constructor
    · rintro (⟨rfl, known⟩ | ⟨among, known⟩)
      · exact ⟨List.mem_cons_self, known⟩
      · rw [knows, others guard among] at known
        exact ⟨List.mem_cons_of_mem id among, known⟩
    · rintro ⟨among, known⟩
      cases List.mem_cons.mp among with
      | inl same => exact .inl ⟨same, same ▸ known⟩
      | inr later =>
        rw [knows, ← others guard later] at known
        exact .inr ⟨later, known⟩

theorem drain_strikes (sound : Sound thread [] ledger) (distinct : ledger.Distinct) {queue : QueueId}
    {record : ReleaseQueue} (found : ledger.queue? queue = some record) :
    (drain queue).Ends ledger fun _ after =>
      Strikes (fun guard lifespan => guard ∈ record.guards ∧ ledger.knows guard = some lifespan) ledger after := by
  obtain ⟨once, known⟩ := sound.members queue record found
  let emptied := ledger.onQueue queue fun record => { record with guards := [] }
  have books : SameBooks ledger { emptied with busy := record.guards ++ emptied.busy } := .of_same rfl rfl rfl
  obtain ⟨count, after, ran, strikes⟩ := releases_strikes once (books.distinct distinct) fun id among => by
    obtain ⟨held, there⟩ := Option.isSome_iff_exists.mp (known id among)
    exact ⟨held, there, (sound.good id held there).quiet⟩
  refine .next (Task.get_run ledger) ?_
  rw [found]
  refine .next (Task.modify_run _ ledger) ((Task.Ends.of_ok (holding_run ran)).mpr ?_)
  exact (Strikes.after_books books strikes).books_after (.of_same rfl rfl rfl)

/-! ## Pins -/

theorem pin_books (thread : ThreadId) (id : GuardId) (ledger : Ledger) :
    (pin thread id).Ends ledger fun _ after => SameBooks ledger after := by
  refine .next (Task.get_run ledger) ?_
  cases ledger.handle id with
  | error interrupt => exact .refl ledger
  | ok address => exact .next rfl (.next (Task.modify_run _ _) (.onGuard ledger id fun _ => rfl))

/-- A release that was put off takes the guard out of no table. -/
theorem unpin_books (found : ledger.guard? id = some held) (quiet : held.Quiet) (thread : ThreadId) :
    (unpin thread id).Ends ledger fun _ after => SameBooks ledger after := by
  have found' := guard?_onGuard_self found fun held => { held with holders := held.holders.erase thread }
  have fewer : SameBooks ledger (ledger.onGuard id fun held => { held with holders := held.holders.erase thread }) :=
    .onGuard ledger id fun _ => rfl
  refine .next (Task.modify_run _ ledger) (.next (Task.get_run _) ?_)
  rw [found']
  dsimp only
  split
  next =>
    have found'' := guard?_onGuard_self found' fun held => { held with deferred := false }
    have undeferred (mid : Ledger) : SameBooks mid (mid.onGuard id fun held => { held with deferred := false }) :=
      .onGuard mid id fun _ => rfl
    refine .next (Task.modify_run _ _) (.discard ((release_books found'' quiet).weaken fun _ _ rest => ?_))
    exact (fewer.trans (undeferred _)).trans rest
  next => exact fewer

/-! ## Registrations -/

/-- A guard that is taken out of a table leaves no other one. -/
theorem deregister_strikes (distinct : ledger.Distinct) (id : GuardId) (lifespan : LifespanId) :
    Strikes (fun guard other => guard = id ∧ other = lifespan) ledger (ledger.deregister id lifespan).2 := by
  have forgotten := forget_strikes distinct id lifespan
  unfold deregister
  dsimp only
  split
  · exact forgotten.books_after (.onGuard _ id fun _ => rfl)
  · exact forgotten

/-! ## Teardowns -/

/-- A teardown that comes to a guard does not look at tables. -/
theorem releaseByLifespan_books (sound : Sound thread (id :: loose) ledger) (found : ledger.guard? id = some held) :
    (releaseByLifespan thread id).Ends ledger fun _ after => SameBooks ledger after := by
  have good := sound.good id held found
  have closing : SameBooks ledger (ledger.onGuard id Guard.closed) := .onGuard ledger id fun _ => rfl
  have found' : (ledger.onGuard id Guard.closed).guard? id = some held.closed := guard?_onGuard_self found _
  refine .of_run (releaseByLifespan_run found good.spent good.pinners) ?_
  split
  · exact closing
  · split
    · exact closing.trans (.onGuard _ id fun _ => rfl)
    · exact (release_books found' good.quiet).weaken fun _ _ rest => closing.trans rest

/-- The gauge goes down by one for each metered guard that a teardown comes to. -/
theorem releaseAll_gauge (guards : List GuardId) (sound : Sound thread (guards ++ loose) ledger) :
    ∃ count after, releaseAll thread guards ledger = .ok count after ∧ after.lifespans = ledger.lifespans ∧
      after.isMetered = ledger.isMetered ∧ after.gauge = ledger.gauge - ledger.metered guards := by
  induction guards generalizing ledger with
  | nil => exact ⟨0, ledger, rfl, rfl, rfl, (Int.sub_zero _).symm⟩
  | cons id guards inductionHypothesis =>
    have counted := same_count ledger id .guardRegistered (-1)
    have first : Leads thread (· = .lifespanEnded) (fun _ => True) _ _ ledger _ := sound.same counted
    obtain ⟨held, found⟩ := Option.isSome_iff_exists.mp (first.sound.loose id List.mem_cons_self)
    obtain ⟨released, mid, ran, second, -⟩ := @releaseByLifespan_sound _ _ _ _ _ (fun _ => True) first.sound found trivial
    have books := releaseByLifespan_books first.sound found
    rw [Task.Ends.of_ok ran] at books
    have metered := books.metered.trans (isMetered_count ledger id .guardRegistered (-1))
    obtain ⟨count, after, ran', lifespans, metered', gauge⟩ := inductionHypothesis second.sound
    refine ⟨released.toNat + count, after, Task.sum_cons ?_ ran',
      lifespans.trans (books.lifespans.trans counted.lifespans), metered'.trans metered, ?_⟩
    · rw [Task.bind_ok (Task.modify_run _ ledger), Task.map_run, ran]
    · have whole : ledger.metered (id :: guards)
          = ledger.metered guards + if ledger.isMetered id = true then 1 else 0 := by
        unfold Ledger.metered
        rw [List.countP_cons]
        split <;> omega
      rw [gauge, metered_congr metered, books.gauge, gauge_count, whole]
      simp only [true_and]
      split <;> omega

/-- Lifespans are torn down in order. -/
theorem teardowns_balanced {depth : Nat} {children : List LifespanId}
    (each : ∀ child ledger, ledger.lifespans.ids.Nodup → Sound thread loose ledger → ledger.rank child ≤ depth →
      (teardownWithin thread depth child true).Ends ledger fun _ after => Balanced ledger after)
    (once : ledger.lifespans.ids.Nodup) (sound : Sound thread loose ledger)
    (shallow : ∀ child ∈ children, ledger.rank child ≤ depth) :
    ∃ count after, Task.sum (fun child => teardownWithin thread depth child true) children ledger = .ok count after ∧
      Sound thread loose after ∧ Balanced ledger after := by
  induction children generalizing ledger with
  | nil => exact ⟨0, ledger, rfl, sound, .refl ledger⟩
  | cons child children inductionHypothesis =>
    obtain ⟨count, mid, turns, ran, sound', ids, -⟩ := teardownWithin_walks depth child true ledger sound
      (shallow child List.mem_cons_self)
    have first := each child ledger once sound (shallow child List.mem_cons_self)
    rw [Task.Ends.of_ok ran] at first
    obtain ⟨count', after, ran', sound'', rest⟩ := inductionHypothesis (ids ▸ once) sound' fun other among => by
      rw [rank_congr ids]
      exact shallow other (List.mem_cons_of_mem child among)
    exact ⟨count + count', after, Task.sum_cons ran ran', sound'', first.trans rest⟩

/-- A teardown moves the gauge by as much as the tables that it empties. -/
theorem teardownWithin_balanced (depth : Nat) (lifespan : LifespanId) (close : Bool) (ledger : Ledger)
    (once : ledger.lifespans.ids.Nodup) (sound : Sound thread loose ledger) (shallow : ledger.rank lifespan ≤ depth) :
    (teardownWithin thread depth lifespan close).Ends ledger fun _ after => Balanced ledger after := by
  -- On the depth, as the children rank below their parent; the children balance among themselves first.
  induction depth generalizing loose lifespan close ledger with
  | zero => exact .refl ledger
  | succ depth inductionHypothesis =>
    by_cases standing : ledger.Standing lifespan
    · obtain ⟨scope, found, alive⟩ := standing
      have known : lifespan ∈ ledger.lifespans.ids :=
        Numbered.isSome_get?.mp (Option.isSome_iff_exists.mpr ⟨scope, found⟩)
      have first : Leads thread (· = .lifespanEnded) (fun _ => True) loose _ ledger _ := sound.enter found close
      have ids := (Cleared.enter ledger lifespan close scope.guards).ids
      obtain ⟨below, mid, ran, sound', inner⟩ := teardowns_balanced (fun child => inductionHypothesis child true)
        (ids ▸ once) first.sound fun child among => by
          have less := rank_lt known (sound.inside lifespan scope found child among).1
          rw [rank_congr ids]
          exact Nat.lt_succ_iff.mp (Nat.lt_of_lt_of_le less shallow)
      obtain ⟨here, last, ran', lifespans, metered, gauge⟩ := releaseAll_gauge scope.guards sound'
      have torn : teardownWithin thread (depth + 1) lifespan close ledger
          = .ok (below + here) { last with busy := ledger.busy } := by
        rw [teardownWithin_open found alive]
        exact holding_run ((Task.bind_ok ran).trans (Task.bind_ok ran'))
      refine (Task.Ends.of_ok torn).mpr ⟨metered.trans inner.metered, ?_, ?_⟩
      · exact (congrArg _ lifespans).trans (inner.ids.trans ids)
      · -- the guards of the table are counted out one after the other
        have entered : (ledger.entered lifespan close scope.guards).surplus
            = ledger.surplus + ledger.metered scope.guards := by
          have emptied : (ledger.entered lifespan close scope.guards).listed
              = ledger.listed + (ledger.metered [] - ledger.metered scope.guards) :=
            listed_onLifespan once found (Ledger.emptied close)
          have none : ledger.metered [] = 0 := rfl
          change ledger.gauge - (ledger.entered lifespan close scope.guards).listed = ledger.gauge - ledger.listed + _
          omega
        have counted : mid.metered scope.guards = ledger.metered scope.guards := by rw [metered_congr inner.metered]; rfl
        have listed : last.listed = mid.listed := listed_congr lifespans metered
        have inside : mid.gauge - mid.listed = _ := inner.surplus.trans entered
        change last.gauge - last.listed = ledger.surplus
        omega
    · exact (Task.Ends.of_ok (teardownWithin_fallen standing depth.succ close)).mpr (.refl ledger)

/-- A teardown empties the tables of its lifespan and of those inside, and no others. -/
theorem teardown_strikes (sound : Sound thread loose ledger) (distinct : ledger.Distinct) (root : LifespanId)
    (close : Bool) :
    (teardown thread root close).Ends ledger fun _ after =>
      Strikes (fun _ lifespan => ledger.Leading root lifespan) ledger after := by
  have balanced := teardownWithin_balanced ledger.lifespans.length root close ledger distinct.ids sound
    (rank_le ledger root)
  obtain ⟨count, after, turns, ran, -, walks⟩ := teardown_walks root close sound
  have ran' : teardownWithin thread ledger.lifespans.length root close ledger = .ok count after :=
    (Task.bind_ok (Task.get_run ledger)).symm.trans ran
  rw [Task.Ends.of_ok ran'] at balanced
  have tables (lifespan : LifespanId) : after.table lifespan = if lifespan ∈ turns then [] else ledger.table lifespan := by
    rw [table, walks.tables]
    split
    · cases ledger.lifespan? lifespan <;> rfl
    · rfl
  refine (Task.Ends.of_ok ran).mpr { balanced with thinned := fun lifespan => ?_, left := fun guard lifespan => ?_ }
  · rw [tables]
    split
    · exact List.nil_sublist _
    · exact List.Sublist.refl _
  · -- the lifespans taken are those inside the root that have guards: a lifespan with guards stands,
    -- and a walk from the root passes none that stands
    rw [tables]
    split
    next taken =>
      obtain ⟨start, its, leading⟩ := walks.below lifespan taken
      rw [List.mem_singleton.mp its] at leading
      simp [leading]
    next apart =>
      refine ⟨fun among => ⟨among, fun leading => apart ?_⟩, And.left⟩
      have standing := Registered.standing sound (mem_table.mp among)
      have alive : ledger.Standing root := by
        obtain rfl | ⟨child, nests, -⟩ := Relation.ReflTransGen.cases_head leading
        · exact standing
        · exact sound.standing_of_nests nests
      exact sound.earlier_closed walks.order (List.append_nil turns).symm (walks.whole root List.mem_cons_self alive)
        leading standing

end Ledger

end Lifetime

end CatalogReplica
