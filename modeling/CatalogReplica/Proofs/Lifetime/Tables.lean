import CatalogReplica.Proofs.Lifetime.Balance

/-!
# What enters tables and what leaves them

An operation moves the gauge by as much as the tables of the lifespans.

* `Operation.TakesOut`, `Operation.PutsIn`: which guards leave which tables with an operation, and
  which enter which.
* `Operation.apply_moves`: these do and no others, and the gauge follows.
-/

namespace CatalogReplica.Lifetime

namespace Ledger

variable {thread : ThreadId} {loose : List GuardId} {before ledger mid after : Ledger} {id : GuardId} {held : Guard}

/-! ## Tables that grow -/

/-- Guards left tables and entered tables as it is said, and the gauge followed. -/
structure Moves (out into : GuardId → LifespanId → Prop) (before after : Ledger) : Prop where
  surplus : after.surplus = before.surplus
  distinct : before.Distinct → after.Distinct
  tables : ∀ guard lifespan, guard ∈ after.table lifespan ↔
    guard ∈ before.table lifespan ∧ ¬ out guard lifespan ∨ into guard lifespan

/-- The tables and what the gauge counts beyond them are as they were. -/
structure Kept (before after : Ledger) : Prop where
  surplus : after.surplus = before.surplus
  ids : before.lifespans.ids.Nodup → after.lifespans.ids.Nodup
  table : after.table = before.table

theorem SameBooks.kept (books : SameBooks before after) : Kept before after :=
  ⟨books.surplus, fun once => books.lifespans ▸ once, table_congr books.lifespans⟩

theorem Kept.trans (first : Kept before mid) (second : Kept mid after) : Kept before after :=
  ⟨second.surplus.trans first.surplus, second.ids ∘ first.ids, second.table.trans first.table⟩

theorem Kept.distinct (kept : Kept before after) (distinct : before.Distinct) : after.Distinct :=
  ⟨kept.ids distinct.ids, kept.table ▸ distinct.tables⟩

theorem Kept.moves {out into : GuardId → LifespanId → Prop} (kept : Kept before after)
    (stays : ∀ guard lifespan, guard ∈ before.table lifespan → ¬ out guard lifespan)
    (none : ∀ guard lifespan, ¬ into guard lifespan) : Moves out into before after where
  surplus := kept.surplus
  distinct := kept.distinct
  tables guard lifespan := by
    rw [kept.table]
    exact ⟨fun among => .inl ⟨among, stays guard lifespan among⟩,
      fun moved => moved.elim And.left fun entered => absurd entered (none guard lifespan)⟩

theorem Strikes.moves {out into : GuardId → LifespanId → Prop} (strikes : Strikes out before after)
    (none : ∀ guard lifespan, ¬ into guard lifespan) : Moves out into before after where
  surplus := strikes.surplus
  distinct := strikes.distinct
  tables guard lifespan := by rw [strikes.left, or_iff_left (none guard lifespan)]

/-- A lifespan is changed, and not its table. -/
theorem kept_onLifespan (ledger : Ledger) (lifespan : LifespanId) {f : Lifespan → Lifespan}
    (same : ∀ scope, (f scope).guards = scope.guards) : Kept ledger (ledger.onLifespan lifespan f) where
  surplus := by
    have listed : (ledger.onLifespan lifespan f).listed = ledger.listed := by
      unfold listed onLifespan Numbered.update
      rw [List.map_map]
      refine congrArg List.sum (List.map_congr_left fun entry _ => ?_)
      simp only [Function.comp_apply]
      split
      · rw [same]; rfl
      · rfl
    rw [surplus, listed]
    rfl
  ids once := by rwa [ids_onLifespan]
  table := by
    funext other
    rw [table_onLifespan, table]
    split
    · simp only [same]
    · rfl

/-- A new lifespan has an empty table. -/
theorem kept_addLifespan (sound : Sound thread loose ledger) (address : Address) (kind : LifespanKind) :
    Kept ledger (ledger.addLifespan address kind).2 where
  surplus := by
    have listed : (ledger.addLifespan address kind).2.listed = ledger.listed := by
      unfold listed addLifespan Numbered.add
      rw [List.map_append, List.sum_append]
      exact Int.add_zero _
    rw [surplus, listed]
    rfl
  ids once := Numbered.nodup_add once sound.lifespans _
  table := by
    funext other
    have found := Numbered.get?_add ledger.lifespans ledger.next other { address, kind }
    change Option.getD (Option.map _ ((ledger.lifespans.add ledger.next { address, kind }).get? other)) [] = _
    rw [found, table, lifespan?]
    cases ledger.lifespans.get? other with
    | some scope => rfl
    | none =>
      rw [Option.none_or]
      split <;> rfl

theorem child_kept (sound : Sound thread loose ledger) (parent : LifespanId) (address : Address) (kind : LifespanKind) :
    (child parent address kind).Ends ledger fun _ after => Kept ledger after := by
  have refl : Kept ledger ledger := (SameBooks.refl ledger).kept
  refine .next (Task.get_run ledger) ?_
  cases ledger.lifespan? parent with
  | none => exact refl
  | some scope =>
    dsimp only
    split
    · exact refl
    · exact .next (Task.set_run _ _) ((kept_addLifespan sound address kind).trans (kept_onLifespan _ parent fun _ => rfl))

/-- A new guard is in no table. -/
theorem kept_addGuard (sound : Sound thread loose ledger) (once : ledger.lifespans.ids.Nodup) (plan : Guard) :
    Kept ledger (ledger.addGuard plan).2 where
  surplus := by
    have gains := gains_addGuard sound plan
    have listed : (ledger.addGuard plan).2.listed = ledger.listed := by
      refine congrArg List.sum (List.map_congr_left fun entry among => ?_)
      refine congrArg Nat.cast (List.countP_congr fun id inside => ?_)
      obtain ⟨held, found⟩ := Option.isSome_iff_exists.mp
        (sound.registered entry.1 entry.2 (Numbered.get?_of_mem once among) id inside)
      have differs : id ≠ ledger.next := by
        rintro rfl
        cases sound.guard?_next.symm.trans found
      rw [isMetered, gains.others id differs, isMetered]
    rw [surplus, listed]
    rfl
  ids once := once
  table := rfl

/-- A guard that is registered enters the table of the lifespan, unless it is in there. -/
theorem enlist_moves (once : ledger.lifespans.ids.Nodup) (id : GuardId) {lifespan : LifespanId}
    (standing : ledger.Standing lifespan) :
    Moves (fun _ _ => False) (fun guard other => guard = id ∧ other = lifespan) ledger (ledger.enlist id lifespan) := by
  obtain ⟨scope, found, -⟩ := standing
  have its : ledger.table lifespan = scope.guards := by rw [table, found]; rfl
  unfold enlist
  split
  -- A guard already listed moves nothing; a new one goes to the end of this table only.
  next among =>
    refine ⟨rfl, fun distinct => distinct, fun guard other => ?_⟩
    rw [not_false_eq_true, and_true]
    exact ⟨.inl, fun moved => moved.elim (fun old => old) (by rintro ⟨rfl, rfl⟩; exact among)⟩
  next absent =>
    let grown := ledger.onLifespan lifespan fun scope => { scope with guards := scope.guards ++ [id] }
    have counted := same_count grown id .guardRegistered 1
    have tables (other : LifespanId) : (grown.count id .guardRegistered).table other
        = if other = lifespan then scope.guards ++ [id] else ledger.table other := by
      rw [table_congr counted.lifespans, table_onLifespan]
      split
      next same => rw [same, found]; rfl
      next => rfl
    refine ⟨?_, fun distinct => ⟨?_, fun other => ?_⟩, fun guard other => ?_⟩
    · -- the gauge goes up by one just if the table lists one metered guard more
      have gauge : (grown.count id .guardRegistered).gauge = ledger.gauge + if ledger.isMetered id = true then 1 else 0 := by
        rw [gauge_count]
        simp only [true_and]
        rfl
      have listed : (grown.count id .guardRegistered).listed
          = ledger.listed + (ledger.metered (scope.guards ++ [id]) - ledger.metered scope.guards) := by
        rw [listed_congr counted.lifespans (isMetered_count grown id _ _)]
        exact listed_onLifespan once found _
      have more : ledger.metered (scope.guards ++ [id])
          = ledger.metered scope.guards + if ledger.isMetered id = true then 1 else 0 := by
        unfold metered
        rw [List.countP_append, List.countP_singleton]
        split <;> simp
      rw [surplus, gauge, listed, more, surplus]
      omega
    · rw [counted.lifespans]
      exact (ids_onLifespan ledger lifespan _).symm ▸ distinct.ids
    · rw [tables]
      split
      next =>
        rw [List.nodup_append]
        refine ⟨its ▸ distinct.tables lifespan, List.pairwise_singleton _ _, ?_⟩
        rintro guard among _ among' rfl
        exact absent (its ▸ List.mem_singleton.mp among' ▸ among)
      next => exact distinct.tables other
    · rw [tables, not_false_eq_true, and_true]
      split
      next same => rw [same, its, List.mem_append, List.mem_singleton, and_iff_left rfl]
      next differs => exact ⟨.inl, fun moved => moved.resolve_right fun entered => differs entered.2⟩

/-- What keeps tables before or after does not matter. -/
theorem Kept.before_moves {out into : GuardId → LifespanId → Prop} (kept : Kept before mid)
    (moves : Moves out into mid after) : Moves out into before after where
  surplus := moves.surplus.trans kept.surplus
  distinct distinct := moves.distinct (kept.distinct distinct)
  tables guard lifespan := kept.table ▸ moves.tables guard lifespan

theorem Moves.before_kept {out into : GuardId → LifespanId → Prop} (moves : Moves out into before mid)
    (kept : Kept mid after) : Moves out into before after where
  surplus := kept.surplus.trans moves.surplus
  distinct distinct := kept.distinct (moves.distinct distinct)
  tables guard lifespan := kept.table.symm ▸ moves.tables guard lifespan

/-- It is enough to say it of what is in tables. -/
theorem Moves.congr {out into into' : GuardId → LifespanId → Prop} (moves : Moves out into before after)
    (same : ∀ guard lifespan, into guard lifespan ↔ into' guard lifespan) : Moves out into' before after where
  surplus := moves.surplus
  distinct := moves.distinct
  tables guard lifespan := (moves.tables guard lifespan).trans (or_congr_right (same guard lifespan))

theorem register_moves (once : ledger.lifespans.ids.Nodup) (id : GuardId) (lifespan : LifespanId) :
    (register id lifespan).Ends ledger fun outcome after =>
      Moves (fun _ _ => False) (fun guard other => (guard = id ∧ other = lifespan) ∧ ∃ value, outcome = .ok value)
        ledger after := by
  refine (register_cases id lifespan ledger).weaken fun outcome after ended => ?_
  cases outcome with
  | error interrupt =>
    obtain rfl : after = ledger := ended
    exact (SameBooks.refl after).kept.moves (fun _ _ _ => not_false) fun _ _ entered => nomatch entered.2.choose_spec
  | ok value =>
    obtain ⟨-, standing, rfl⟩ := ended
    have linked : SameBooks (ledger.enlist id lifespan)
        ((ledger.enlist id lifespan).onGuard id fun held => { held with link := some lifespan }) :=
      .onGuard _ id fun _ => rfl
    refine ((enlist_moves once id standing).before_kept linked.kept).congr fun guard other => ?_
    simp

/-- The end of the owner of a guard that was released before takes it out of no table. -/
theorem dropOwner_refused (sound : Sound thread [] ledger) (distinct : ledger.Distinct)
    (found : ledger.guard? id = some held) (owned : held.owned = true) (unpinned : held.holders = [])
    (claimed : held.flags.claimed = true) :
    (dropOwner id).Ends ledger fun _ after => Moves (fun _ _ => False) (fun _ _ => False) ledger after := by
  refine (dropOwner_strikes sound distinct found owned unpinned).weaken fun _ after strikes => ?_
  refine (strikes.congr fun guard lifespan _ => ?_).moves fun _ _ => not_false
  rw [knows_of_claimed found claimed]
  exact ⟨fun its => (nomatch its.2.2), False.elim⟩

/-- What a guard enters if the task gives a value, it enters or the task gives none. -/
theorem Moves.of_ends {α : Type} {body : Task Ledger α} {out into : GuardId → LifespanId → Prop}
    (moves : body.Ends ledger fun outcome after =>
      Moves out (fun guard lifespan => into guard lifespan ∧ ∃ value, outcome = .ok value) ledger after) :
    Moves out (fun guard lifespan => into guard lifespan ∧ ∃ value after, body ledger = .ok value after) ledger
      (body.exec ledger) := by
  unfold Task.Ends at moves
  unfold Task.exec
  cases ran : body ledger with
  | ok value after =>
    rw [ran] at moves
    exact moves.congr fun guard lifespan => and_congr_right fun _ => ⟨fun _ => ⟨value, after, rfl⟩, fun _ => ⟨value, rfl⟩⟩
  | error interrupt after =>
    rw [ran] at moves
    exact moves.congr fun guard lifespan => and_congr_right fun _ =>
      ⟨fun its => (nomatch its.choose_spec), fun its => (nomatch its.choose_spec.choose_spec)⟩

theorem build_moves (sound : Sound thread [] ledger) (distinct : ledger.Distinct) {plan : Guard} (planned : plan.Planned)
    (earlier : ∀ queue ∈ plan.queue, queue < ledger.next) (lifespan : Option LifespanId) :
    (build plan lifespan).Ends ledger fun outcome after =>
      Moves (fun _ _ => False)
        (fun guard other => (guard = ledger.next ∧ lifespan = some other) ∧ ∃ value, outcome = .ok value) ledger after := by
  have third : Leads thread (fun _ => False) (fun _ => False) [] [] ledger _ := sound.addWithdrawn planned earlier
  obtain ⟨-, unpinned, -, -, owned, quiet⟩ := planned
  have kept := kept_addGuard sound distinct.ids plan
  refine .next (Task.lift_run _ ledger) ?_
  cases lifespan with
  | none => exact kept.moves (fun _ _ _ => not_false) fun _ _ entered => nomatch entered.1.2
  | some lifespan =>
    refine ((register_cases ledger.next lifespan (ledger.addGuard plan).2).both
      (register_moves (kept.ids distinct.ids) ledger.next lifespan)).attempt.bind ?_ (by rintro _ _ ⟨_, ⟨⟩, _⟩)
    rintro outcome after ⟨_, ⟨⟩, registered, moves⟩
    cases outcome with
    | ok value =>
      refine (kept.before_moves moves).congr fun guard other => ?_
      simp [eq_comm]
    | error interrupt =>
      obtain rfl : after = (ledger.addGuard plan).2 := registered
      have withdrawn := gains_addWithdrawn sound plan
      have marked (mid : Ledger) : SameBooks mid (mid.onGuard ledger.next fun held =>
          { held with flags := { held.flags with releasing := true, released := true } }) := .onGuard mid _ fun _ => rfl
      have disarmed (mid : Ledger) : SameBooks mid (mid.onGuard ledger.next fun held => { held with action := none }) :=
        .onGuard mid _ fun _ => rfl
      have books := kept.trans ((marked _).trans (disarmed _)).kept
      have dropped := dropOwner_refused third.sound (books.distinct distinct) withdrawn.found owned unpinned rfl
      refine .next (withdraw_added sound quiet) (dropped.bind (fun _ _ moves => ?_) fun _ _ moves => ?_)
      all_goals
        exact (books.before_moves moves).congr fun _ _ => ⟨False.elim, fun entered => (nomatch entered.2.choose_spec)⟩

end Ledger

/-! ## Operations -/

namespace Operation

open Ledger (Sound Distinct Moves)

variable {thread : ThreadId} {ledger : Ledger} {operation : Operation}

/-- The operation takes the guard out of the table of the lifespan, if it is in there: the guard is
    deregistered, its owner goes away or the mutator drains its queue and the lifespan is the one
    that the guard knows of, or the lifespan is torn down. -/
def TakesOut (ledger : Ledger) (guard : GuardId) (lifespan : LifespanId) : Operation → Prop
  | .deregister id other => guard = id ∧ lifespan = other
  | .drop id => guard = id ∧ (∃ held ∈ ledger.guard? id, held.queue = none) ∧ ledger.knows id = some lifespan
  | .drain queue => (∃ record ∈ ledger.queue? queue, guard ∈ record.guards) ∧ ledger.knows guard = some lifespan
  | .teardown root _ => ledger.Leading root lifespan
  | _ => False

/-- The operation puts the guard into the table of the lifespan, or finds it there. -/
def PutsIn (ledger : Ledger) (guard : GuardId) (lifespan : LifespanId) : Operation → Prop
  | .register id other =>
      (guard = id ∧ lifespan = other) ∧ ∃ value after, Ledger.register id other ledger = .ok value after
  | .build plan other =>
      (guard = ledger.next ∧ other = some lifespan) ∧ ∃ id after, Ledger.build plan other ledger = .ok id after
  | _ => False

/-- Every operation that is allowed moves the gauge by as much as the tables. -/
theorem apply_moves (sound : Sound thread [] ledger) (distinct : ledger.Distinct)
    (allowed : operation.Allowed thread ledger) :
    Moves (operation.TakesOut ledger) (operation.PutsIn ledger) ledger (operation.apply thread ledger) := by
  -- Most operations leave the tables alone; the others name what they take out and put in.
  have kept {after : Ledger} (kept : Ledger.Kept ledger after)
      (takes : ∀ guard lifespan, ¬ operation.TakesOut ledger guard lifespan)
      (puts : ∀ guard lifespan, ¬ operation.PutsIn ledger guard lifespan) :
      Moves (operation.TakesOut ledger) (operation.PutsIn ledger) ledger after :=
    kept.moves (fun guard lifespan _ => takes guard lifespan) puts
  have none (guard : GuardId) (lifespan : LifespanId) : ¬ False := not_false
  have queues {queues : Numbered ReleaseQueue} {next : Nat} :
      Ledger.SameBooks ledger { ledger with queues, next } := .of_same rfl rfl rfl
  cases operation with
  | newLifespan address kind => exact kept (Ledger.kept_addLifespan sound address kind) none none
  | newQueue => exact kept queues.kept none none
  | holdQueue queue => exact kept queues.kept none none
  | child parent address kind => exact kept (Ledger.child_kept sound parent address kind).exec none none
  | letQueueGo queue =>
    have fewer : Ledger.Leads thread (fun _ => False) (fun _ => False) [] [] ledger
        (ledger.onQueue queue fun record => { record with handles := record.handles - 1 }) := sound.handles queue (· - 1)
    have books : (Ledger.letQueueGo queue).Ends ledger fun _ after => Ledger.SameBooks ledger after :=
      .next (Task.modify_run _ ledger) (.next (Task.get_run _)
        ((Ledger.reapBy_books Ledger.dropOwner _ fewer.sound).weaken fun _ _ rest => queues.trans rest))
    exact kept books.exec.kept none none
  | build plan lifespan =>
    have earlier : ∀ queue ∈ plan.queue, queue < ledger.next :=
      fun queue its => sound.queues.2 queue (Numbered.isSome_get?.mp (allowed.2 queue its))
    exact .of_ends (Ledger.build_moves sound distinct allowed.1 earlier lifespan)
  | register guard lifespan => exact .of_ends (Ledger.register_moves distinct.ids guard lifespan)
  | deregister guard lifespan => exact (Ledger.deregister_strikes distinct guard lifespan).moves none
  | pin guard => exact kept (Ledger.pin_books thread guard ledger).exec.kept none none
  | unpin guard =>
    obtain ⟨held, found, -⟩ := allowed
    exact kept (Ledger.unpin_books found (sound.good guard held found).quiet thread).exec.kept none none
  | drop guard =>
    obtain ⟨held, found, owned, unpinned⟩ := allowed
    refine ((Ledger.dropOwner_strikes sound distinct found owned unpinned).exec.congr fun id lifespan _ => ?_).moves none
    refine and_congr_right fun _ => and_congr_left fun _ => ⟨fun its => ⟨held, found, its⟩, ?_⟩
    rintro ⟨held', found', its⟩
    cases found.symm.trans found'
    exact its
  | drain queue =>
    obtain ⟨record, found⟩ := Option.isSome_iff_exists.mp allowed
    refine ((Ledger.drain_strikes sound distinct found).exec.congr fun id lifespan _ => ?_).moves none
    refine and_congr_left fun _ => ⟨fun among => ⟨record, found, among⟩, ?_⟩
    rintro ⟨record', found', among⟩
    cases found.symm.trans found'
    exact among
  | teardown lifespan close => exact (Ledger.teardown_strikes sound distinct lifespan close).exec.moves none

end Operation

end CatalogReplica.Lifetime
