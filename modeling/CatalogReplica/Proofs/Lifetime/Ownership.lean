import CatalogReplica.Proofs.Lifetime.Teardown

/-!
# Owners and queues

An owner that goes away releases its guard or leaves the release to a queue, and a drain
releases what was left to it.  A queue that nobody refers to any more is swept together
with the guards that it alone held.

* `Ledger.dropOwner_sound`: the end of an owner.
* `Ledger.drain_sound`: a drain, and how many guards it releases.
-/

namespace CatalogReplica.Lifetime.Ledger

variable {thread : ThreadId} {allowed : ReleaseCause → Prop} {reach : GuardId → Prop}
  {loose : List GuardId} {ledger : Ledger} {id : GuardId} {held : Guard}

/-! ## Queues -/

/-- Queues may go, change their handles, and come. -/
theorem Sound.keepQueues (sound : Sound thread loose ledger) {queues : Numbered ReleaseQueue}
    {next : Nat} (kept : KeepsQueues ledger { ledger with queues, next }) (grown : ledger.next ≤ next)
    (once : queues.ids.Nodup ∧ ∀ id ∈ queues.ids, id < next) :
    Leads thread allowed reach loose loose ledger { ledger with queues, next } := by
  refine ⟨?_, .of_guards rfl rfl fun id held _ lost => ?_⟩
  · refine { sound with
             good := fun id held found => (sound.good id held found).transfer rfl kept grown fun among => among
             queues := once
             members := fun queue record found => ?_
             lifespans := fun id among => Nat.lt_of_lt_of_le (sound.lifespans id among) grown }
    cases kept queue record found with
    | inl old =>
      obtain ⟨record', found', same⟩ := old
      exact same ▸ sound.members queue record' found'
    | inr new =>
      rw [new.2]
      exact ⟨List.nodup_nil, nofun⟩
  · refine ⟨lost.unclaimed, lost.unowned, lost.settled, lost.tables, fun queue record found among => ?_⟩
    cases kept queue record found with
    | inl old =>
      obtain ⟨record', found', same⟩ := old
      exact lost.queues queue record' found' (same.symm ▸ among)
    | inr new =>
      rw [new.2] at among
      cases among

theorem Sound.sweep (sound : Sound thread loose ledger) :
    Leads thread allowed reach loose loose ledger ledger.sweepQueues := by
  refine sound.keepQueues ?_ (Nat.le_refl _) ⟨?_, ?_⟩
  · exact fun queue record found => .inl ⟨record, Numbered.get?_of_filter sound.queues.1 found, rfl⟩
  · exact sound.queues.1.sublist (List.filter_sublist.map _)
  · exact fun id among => sound.queues.2 id ((List.filter_sublist.map _).subset among)

/-- The handles of a queue do not matter. -/
theorem Sound.handles (sound : Sound thread loose ledger) (queue : QueueId) (f : Nat → Nat) :
    Leads thread allowed reach loose loose ledger
      (ledger.onQueue queue fun record => { record with handles := f record.handles }) := by
  refine sound.keepQueues ?_ (Nat.le_refl _) ?_
  · intro other record found
    have found := (queue?_onQueue ledger queue other _).symm.trans found
    split at found
    · obtain ⟨record', found', rfl⟩ := Option.map_eq_some_iff.mp found
      exact .inl ⟨record', found', rfl⟩
    · exact .inl ⟨record, found, rfl⟩
  · rw [Numbered.ids_update]
    exact sound.queues

theorem Sound.addQueue (sound : Sound thread loose ledger) :
    Leads thread allowed reach loose loose ledger ledger.addQueue.2 := by
  refine sound.keepQueues ?_ (Nat.le_succ _) ⟨?_, ?_⟩
  · intro queue record found
    have found := (Numbered.get?_add ledger.queues ledger.next queue {}).symm.trans found
    cases old : ledger.queues.get? queue with
    | some record' =>
      rw [old, Option.some_or] at found
      exact .inl ⟨record, old.trans found, rfl⟩
    | none =>
      rw [old, Option.none_or] at found
      split at found
      · next same =>
        cases found
        exact .inr ⟨Nat.le_of_eq same.symm, rfl⟩
      · cases found
  · exact Numbered.nodup_add sound.queues.1 sound.queues.2 {}
  · exact Numbered.below_add sound.queues.2 {}

/-! ## Guards that nothing holds -/

/-- A guard that was abandoned is not held by an owner, a lifespan or a queue. -/
theorem abandoned?_spec (sound : Sound thread loose ledger) (abandoned : ledger.abandoned? = some id) :
    ∃ held, ledger.guard? id = some held ∧ held.action.isSome = true ∧ held.owned = false ∧
      (∀ lifespan scope, ledger.lifespan? lifespan = some scope → id ∉ scope.guards) ∧
      ∀ queue record, ledger.queue? queue = some record → id ∉ record.guards := by
  obtain ⟨entry, first, rfl⟩ := Option.map_eq_some_iff.mp abandoned
  have among := List.mem_of_find?_eq_some first
  have alone := List.find?_some first
  obtain ⟨id, held⟩ := entry
  simp only [Bool.and_eq_true, Bool.not_eq_true', guardHeld, Bool.or_eq_false_iff] at alone
  obtain ⟨acts, ⟨⟨unowned, -⟩, tables⟩, queues⟩ := alone
  refine ⟨held, Numbered.get?_of_mem sound.guards among, acts, unowned, ?_, ?_⟩
  · intro lifespan scope found within
    exact absurd tables (by
      rw [Bool.not_eq_false, List.any_eq_true]
      exact ⟨_, Numbered.mem_of_get? found, List.contains_iff_mem.mpr within⟩)
  · intro queue record found within
    exact absurd queues (by
      rw [Bool.not_eq_false, List.any_eq_true]
      exact ⟨_, Numbered.mem_of_get? found, List.contains_iff_mem.mpr within⟩)

/-- An action is taken from a guard that nothing holds. -/
theorem Sound.abandon (sound : Sound thread [] ledger) (abandoned : ledger.abandoned? = some id) :
    Leads thread allowed reach [] [] ledger (ledger.onGuard id fun held => { held with action := none }) := by
  obtain ⟨held, found, acts, unowned, tables, queues⟩ := abandoned?_spec sound abandoned
  have good := sound.good id held found
  have found' := guard?_onGuard_self found fun held => { held with action := none }
  have touched := Touches.onGuard ledger id fun held => { held with action := none }
  have unclaimed : held.flags.claimed = false := by
    cases claimed : held.flags.claimed with
    | false => rfl
    | true =>
      rw [good.spent claimed] at acts
      cases acts
  refine ⟨sound.touch touched found found' ?_ fun _ _ => .rfl, ?_⟩
  · exact { good with quiet := nofun, spent := fun _ => rfl }
  · refine .touch touched found found' rfl (fun flag => flag) (fun flag => flag) (fun flag => flag)
      (List.append_nil _).symm (by simp) (by simp) (fun _ => rfl) .inl ?_ fun _ _ => .rfl
    rintro -
    exact ⟨_, found', .inr (.inr ⟨unclaimed, unowned, List.not_mem_nil, tables, queues⟩)⟩

/-- Letting go what nothing holds runs nothing. -/
theorem reapBy_sound (drop : GuardId → Task Ledger Unit) (rounds : Nat)
    (sound : Sound thread [] ledger) :
    ∃ after, reapBy drop rounds ledger = .ok () after ∧
      Leads thread allowed reach [] [] ledger after := by
  induction rounds generalizing ledger with
  | zero => exact ⟨ledger, rfl, sound.stay⟩
  | succ rounds inductionHypothesis =>
    have swept : Leads thread allowed reach [] [] ledger ledger.sweepQueues := sound.sweep
    unfold reapBy
    rw [Task.bind_ok (Task.modify_run _ ledger), Task.bind_ok (Task.get_run _)]
    generalize ledger.sweepQueues = mid at swept
    cases abandoned : mid.abandoned? with
    | none => exact ⟨mid, rfl, swept⟩
    | some id =>
      obtain ⟨held, found, -⟩ := abandoned?_spec swept.sound abandoned
      have taken : Leads thread allowed reach [] [] mid _ := swept.sound.abandon abandoned
      dsimp only
      rw [Task.bind_ok (Task.lift_run _ mid)]
      simp only [takeAction, found, Option.bind_some]
      cases act : held.action with
      | none => exact ⟨_, rfl, swept.trans taken⟩
      | some action =>
        obtain ⟨after, ran, rest⟩ := inductionHypothesis taken.sound
        refine ⟨after, ?_, (swept.trans taken).trans rest⟩
        dsimp only
        rw [((swept.sound.good id held found).quiet action act).1]
        exact (Task.bind_ok rfl).trans ran

/-! ## Ends of owners -/

/-- What lets owners go does not matter to an action that lets none go. -/
theorem runBy_congr (drop drop' : GuardId → Task Ledger Unit) (found : ledger.guard? id = some held)
    (quiet : held.Quiet) (cause : ReleaseCause) :
    runBy drop id cause ledger = runBy drop' id cause ledger := by
  have found' : (ledger.count id cause.counter).guard? id = some held := by
    rw [guard?, (same_count _ _ _ _).guards]
    exact found
  have same : fireBy drop id cause ledger = fireBy drop' id cause ledger := by
    unfold fireBy
    rw [Task.bind_ok (Task.modify_run _ _), Task.bind_ok (Task.modify_run _ _)]
    generalize ledger.count id cause.counter = mid at found'
    rw [Task.bind_ok (Task.get_run mid), Task.bind_ok (Task.get_run mid),
      Task.bind_ok (Task.lift_run _ mid), Task.bind_ok (Task.lift_run _ mid)]
    simp only [takeAction, found', Option.bind_some]
    cases act : held.action with
    | none => rfl
    | some action =>
      dsimp only
      rw [(quiet action act).1]
      rfl
  unfold runBy
  rw [Task.bind_run, Task.bind_run, same]

/-- The end of an owner that left the release to no queue releases the guard. -/
theorem dropWithin_none {depth : Nat} {after : Ledger} {won : Bool}
    (found : ledger.guard? id = some held) (owned : held.owned = true) (queue : held.queue = none)
    (quiet : held.Quiet)
    (released : release id .unreachable (ledger.onGuard id fun held => { held with owned := false })
      = .ok won after) :
    dropWithin (depth + 1) id ledger = .ok () after := by
  unfold dropWithin
  rw [Task.bind_ok (Task.get_run ledger), found]
  simp only [owned, if_true, queue]
  rw [Task.bind_ok (Task.set_run _ _)]
  -- The release that ran is opened again here: with a quiet action both kinds of drop run alike.
  have found' := guard?_onGuard_self found fun held => { held with owned := false }
  unfold release at released
  rw [Task.bind_ok (Task.lift_run _ _)] at released
  simp only [claim, found'] at released ⊢
  have found'' := guard?_onGuard_self found' fun held =>
    { held with flags := { held.flags with releasing := true } }
  cases claimed : held.flags.claimed with
  | true =>
    simp only [claimed, Bool.not_true, Bool.false_eq_true, if_false] at released ⊢
    cases released
    rfl
  | false =>
    simp only [claimed, Bool.not_false, if_true] at released ⊢
    rw [runBy_congr (dropWithin depth) dropOwner found'' quiet]
    unfold run at released
    rw [Task.bind_run] at released
    cases ran : runBy dropOwner id .unreachable _ with
    | ok value last =>
      rw [ran] at released
      cases released
      rfl
    | error interrupt last =>
      rw [ran] at released
      cases released

/-- The owner of an unpinned guard goes away; what is to become of the guard is open. -/
theorem Sound.disown (sound : Sound thread [] ledger) (found : ledger.guard? id = some held)
    (owned : held.owned = true) (unpinned : held.holders = []) :
    Leads thread allowed reach [] [id] ledger
      (ledger.onGuard id fun held => { held with owned := false }) := by
  have good := sound.good id held found
  refine sound.change found (fun held => { held with owned := false }) ?_ rfl rfl rfl
    (fun flag => flag) .inl (fun _ => rfl) (fun lost => absurd lost.unowned (by simp [owned]))
    (mem_cons_iff_of_ne [])
  exact { good with
    unpinned := fun _ => unpinned
    waits := fun _ _ => .inl List.mem_cons_self
    awaited := fun _ _ => .inl List.mem_cons_self
    queued := fun queue record isThere among =>
      absurd (good.queued queue record isThere among).1 (by simp [owned]) }

/-- A teardown has not reached an unpinned guard whose release is open. -/
theorem Sound.unreached (sound : Sound thread [] ledger) (found : ledger.guard? id = some held)
    (unpinned : held.holders = []) (unclaimed : held.flags.claimed = false) :
    held.flags.closing = false := by
  cases closing : held.flags.closing with
  | false => rfl
  | true =>
    have waits := (sound.good id held found).waits closing unclaimed
    exact absurd unpinned (waits.resolve_left List.not_mem_nil).2

section push

variable {queue one : QueueId} {record : ReleaseQueue} {other : GuardId}

section found

variable (isThere : (ledger.onQueue queue fun record => { record with guards := record.guards ++ [id] }).queue? one = some record)

include isThere

/-- A queue is as it was, or it is the one that the guard is put into. -/
theorem queue?_push : ∃ record', ledger.queue? one = some record' ∧
    (record = record' ∧ one ≠ queue ∨ one = queue ∧ record.guards = record'.guards ++ [id]) := by
  rw [queue?_onQueue] at isThere
  split at isThere
  · next same =>
    obtain ⟨record', wasThere, rfl⟩ := Option.map_eq_some_iff.mp isThere
    exact ⟨record', wasThere, .inr ⟨same, rfl⟩⟩
  · next differs => exact ⟨record, isThere, .inl ⟨rfl, differs⟩⟩

theorem mem_push_self (same : one = queue) : id ∈ record.guards := by
  obtain ⟨record', -, ⟨-, differs⟩ | ⟨-, new⟩⟩ := queue?_push isThere
  · exact absurd same differs
  · exact new ▸ List.mem_append_right _ List.mem_cons_self

theorem mem_push (among : ∀ record' ∈ ledger.queue? one, other ∈ record'.guards) : other ∈ record.guards := by
  obtain ⟨record', wasThere, ⟨rfl, -⟩ | ⟨-, new⟩⟩ := queue?_push isThere
  · exact among record wasThere
  · exact new ▸ List.mem_append_left _ (among record' wasThere)

/-- Guards other than the new one are where they were. -/
theorem mem_of_push (differs : other ≠ id) (among : other ∈ record.guards) :
    ∃ record', ledger.queue? one = some record' ∧ other ∈ record'.guards := by
  obtain ⟨record', wasThere, state⟩ := queue?_push isThere
  refine ⟨record', wasThere, ?_⟩
  cases state with
  | inl old => exact old.1 ▸ among
  | inr new =>
    rw [new.2] at among
    exact (List.mem_append.mp among).resolve_right fun last => differs (List.mem_singleton.mp last)

end found

theorem Good.push (good : Good thread [id] ledger id held) (its : held.queue = some queue)
    (unowned : held.owned = false) (unclaimed : held.flags.claimed = false) (unreached : held.flags.closing = false)
    (elsewhere : ∀ queue record, ledger.queue? queue = some record → id ∉ record.guards) :
    Good thread [] (ledger.onQueue queue fun record => { record with guards := record.guards ++ [id] }) id held :=
  { good with
    waits := fun closing => absurd closing (by simp [unreached])
    awaited := fun _ _ => .inr ⟨queue, its, fun _ isThere => mem_push_self isThere rfl⟩
    queued := fun one record isThere among => by
      obtain ⟨record', wasThere, state⟩ := queue?_push isThere
      cases state with
      | inl old => exact absurd (old.1 ▸ among) (elsewhere one record' wasThere)
      | inr new => exact ⟨unowned, new.1 ▸ its, fun claimed => absurd claimed (by simp [unclaimed])⟩ }

theorem Good.push_other (good : Good thread [id] ledger other held) (differs : other ≠ id) :
    Good thread [] (ledger.onQueue queue fun record => { record with guards := record.guards ++ [id] }) other held :=
  have settled : other ∉ [id] := fun among => differs (List.mem_singleton.mp among)
  { good with
    waits := fun closing unclaimed => .inr ((good.waits closing unclaimed).resolve_left settled)
    awaited := fun unowned unclaimed => by
      obtain ⟨one, its, among⟩ := (good.awaited unowned unclaimed).resolve_left settled
      exact .inr ⟨one, its, fun record isThere => mem_push isThere among⟩
    queued := fun one record isThere among => by
      obtain ⟨record', wasThere, among'⟩ := mem_of_push isThere differs among
      exact good.queued one record' wasThere among' }

/-- A guard without an owner is put into its queue. -/
theorem Sound.push (sound : Sound thread [id] ledger) (found : ledger.guard? id = some held) (its : held.queue = some queue)
    (unowned : held.owned = false) (unclaimed : held.flags.claimed = false) (unreached : held.flags.closing = false)
    (elsewhere : ∀ queue record, ledger.queue? queue = some record → id ∉ record.guards) :
    Leads thread allowed reach [id] [] ledger
      (ledger.onQueue queue fun record => { record with guards := record.guards ++ [id] }) := by
  -- The guard leaves the loose ones for its queue.
  have ids := ids_onQueue ledger queue fun record => { record with guards := record.guards ++ [id] }
  refine ⟨{ sound with good := ?good, loose := nofun, queues := ids ▸ sound.queues, members := ?members }, .of_guards rfl rfl ?lost⟩
  case good =>
    intro other held' found'
    by_cases same : other = id
    · subst same
      cases found.symm.trans found'
      exact (sound.good other held found).push its unowned unclaimed unreached elsewhere
    · exact (sound.good other held' found').push_other same
  case members =>
    intro one record isThere
    obtain ⟨record', wasThere, state⟩ := queue?_push isThere
    obtain ⟨once, known⟩ := sound.members one record' wasThere
    cases state with
    | inl old => exact old.1 ▸ ⟨once, known⟩
    | inr new =>
      rw [new.2, List.nodup_append]
      refine ⟨⟨once, by simp, ?_⟩, ?_⟩
      · rintro other among _ (_ | ⟨_, ⟨⟩⟩) rfl
        exact elsewhere one record' wasThere among
      · intro other among
        cases List.mem_append.mp among with
        | inl old => exact known other old
        | inr last =>
          rw [List.mem_singleton.mp last]
          exact Option.isSome_iff_exists.mpr ⟨held, found⟩
  case lost =>
    intro other held' _ lost
    have differs : other ≠ id := fun same => lost.settled (same ▸ List.mem_cons_self)
    refine ⟨lost.unclaimed, lost.unowned, List.not_mem_nil, lost.tables, fun one record isThere among => ?_⟩
    obtain ⟨record', wasThere, within⟩ := mem_of_push isThere differs among
    exact lost.queues one record' wasThere within

end push

/-- A release is left to a queue, or was claimed before. -/
theorem Sound.enqueue (sound : Sound thread [] ledger) (found : ledger.guard? id = some held)
    (owned : held.owned = true) (unpinned : held.holders = []) {queue : QueueId}
    (its : held.queue = some queue) :
    Leads thread allowed reach [id] [] (ledger.onGuard id fun held => { held with owned := false })
      ((ledger.onGuard id fun held => { held with owned := false }).enqueue id held queue) := by
  have first : Leads thread allowed reach [] [id] ledger _ := sound.disown found owned unpinned
  have found' := guard?_onGuard_self found fun held => { held with owned := false }
  have good' := first.sound.good id _ found'
  have second : Leads thread allowed reach [id] [id] _ _ :=
    first.sound.change found' (fun held => { held with flags := { held.flags with pending := true } })
      { good' with } rfl rfl rfl (fun flag => flag) .inl (fun flag => flag)
      (fun lost => absurd List.mem_cons_self lost.settled) (fun _ _ => .rfl)
  have found'' := guard?_onGuard_self found' fun held =>
    { held with flags := { held.flags with pending := true } }
  unfold Ledger.enqueue
  cases claimed : held.flags.claimed with
  | true =>
    rw [if_pos rfl]
    exact second.trans (second.sound.settle found'' (fun _ => .inl claimed) fun _ => .inl claimed)
  | false =>
    rw [if_neg Bool.false_ne_true]
    have unreached := sound.unreached found unpinned claimed
    refine second.trans (second.sound.push found'' its rfl claimed unreached ?_)
    intro one record isThere among
    exact absurd ((sound.good id held found).queued one record isThere among).1 (by simp [owned])

/-- An owner that goes away leaves the release to a queue, and no action runs. -/
theorem dropOwner_queued (sound : Sound thread [] ledger) (found : ledger.guard? id = some held)
    (owned : held.owned = true) (unpinned : held.holders = []) (queued : held.queue.isSome = true) :
    ∃ after, dropOwner id ledger = .ok () after ∧
      Leads thread allowed reach [id] []
        (ledger.onGuard id fun held => { held with owned := false }) after := by
  obtain ⟨queue, its⟩ := Option.isSome_iff_exists.mp queued
  have second : Leads thread allowed reach [id] [] _ _ := sound.enqueue found owned unpinned its
  obtain ⟨after, ran, third⟩ := reapBy_sound (dropWithin ledger.guards.length)
    ((ledger.onGuard id fun held => { held with owned := false }).guards.length + 1) second.sound
  refine ⟨after, ?_, second.trans third⟩
  refine (Task.bind_ok (Task.get_run ledger)).trans ?_
  unfold dropWithin
  rw [Task.bind_ok (Task.get_run ledger), found]
  simp only [owned, if_true, its]
  rw [Task.bind_ok (Task.set_run _ _)]
  exact ran

/-- Actions were taken away from guards, and nothing else happened to them. -/
structure Disarms (before after : Ledger) : Prop where
  log : after.log = before.log
  guards : ∀ id held', after.guard? id = some held' → ∃ held, before.guard? id = some held ∧
    held'.flags = held.flags ∧ held'.owned = held.owned

theorem Disarms.refl (ledger : Ledger) : Disarms ledger ledger := ⟨rfl, fun _ held found => ⟨held, found, rfl, rfl⟩⟩

/-- Letting go what nothing holds takes actions away; none of them runs. -/
theorem reapBy_disarms (drop : GuardId → Task Ledger Unit) (rounds : Nat)
    (quiet : ∀ id held, ledger.guard? id = some held → held.Quiet) :
    (reapBy drop rounds).Ends ledger fun _ after => Disarms ledger after := by
  -- On the rounds: each either finds nothing abandoned or disarms one more guard.
  induction rounds generalizing ledger with
  | zero => exact .refl ledger
  | succ rounds inductionHypothesis =>
    refine .next (Task.modify_run _ ledger) (.next (Task.get_run _) ?_)
    have swept : Disarms ledger ledger.sweepQueues := ⟨rfl, fun _ held found => ⟨held, found, rfl, rfl⟩⟩
    cases abandoned : ledger.sweepQueues.abandoned? with
    | none => exact swept
    | some id =>
      refine .next (Task.lift_run _ _) ?_
      simp only [takeAction]
      have before (other : GuardId) (held' : Guard)
          (found' : (ledger.sweepQueues.onGuard id fun held => { held with action := none }).guard? other = some held') :
          ∃ held, ledger.guard? other = some held ∧ (held' = held ∨ held' = { held with action := none }) := by
        rw [guard?_onGuard] at found'
        split at found'
        · obtain ⟨held, was, rfl⟩ := Option.map_eq_some_iff.mp found'
          exact ⟨held, was, .inr rfl⟩
        · exact ⟨held', found', .inl rfl⟩
      have disarmed : Disarms ledger (ledger.sweepQueues.onGuard id fun held => { held with action := none }) := by
        refine ⟨rfl, fun other held' found' => ?_⟩
        obtain ⟨held, was, same | same⟩ := before other held' found' <;> exact ⟨held, was, by rw [same], by rw [same]⟩
      cases act : (ledger.sweepQueues.guard? id).bind (·.action) with
      | none => exact disarmed
      | some action =>
        obtain ⟨held, found, act⟩ := Option.bind_eq_some_iff.mp act
        dsimp only
        rw [(quiet id held found action act).1]
        refine .next rfl ((inductionHypothesis fun other held' found' => ?_).weaken fun _ after rest => ?_)
        · obtain ⟨held, was, rfl | rfl⟩ := before other held' found'
          · exact quiet other _ was
          · rintro _ ⟨⟩
        · refine ⟨rest.log.trans disarmed.log, fun other last found' => ?_⟩
          obtain ⟨mid, there, flags, owned⟩ := rest.guards other last found'
          obtain ⟨held, was, flags', owned'⟩ := disarmed.guards other mid there
          exact ⟨held, was, flags.trans flags', owned.trans owned'⟩

/-- An owner that goes away leaves the release to a queue; what else happens to guards is that
    actions are taken away. -/
theorem dropOwner_disarms (sound : Sound thread [] ledger) (found : ledger.guard? id = some held)
    (owned : held.owned = true) (unpinned : held.holders = []) {queue : QueueId} (its : held.queue = some queue) :
    (dropOwner id).Ends ledger fun _ after =>
      Disarms ((ledger.onGuard id fun held => { held with owned := false }).enqueue id held queue) after := by
  have entered : Leads thread (fun _ => True) (fun _ => True) [id] [] _ _ := sound.enqueue found owned unpinned its
  refine .next (Task.get_run ledger) ?_
  unfold dropWithin
  refine .next (Task.get_run ledger) ?_
  rw [found]
  simp only [owned, if_true, its]
  exact .next (Task.set_run _ _) (reapBy_disarms _ _ fun other held' found' => (entered.sound.good other held' found').quiet)

/-- An owner that leaves the release to a queue notes nothing. -/
theorem dropOwner_log (sound : Sound thread [] ledger) (found : ledger.guard? id = some held)
    (owned : held.owned = true) (unpinned : held.holders = []) (queued : held.queue.isSome = true) :
    (dropOwner id).Ends ledger fun _ after => after.log = ledger.log := by
  obtain ⟨queue, its⟩ := Option.isSome_iff_exists.mp queued
  refine (dropOwner_disarms sound found owned unpinned its).weaken fun _ after disarmed => disarmed.log.trans ?_
  unfold Ledger.enqueue
  split <;> rfl

/-- The end of an owner releases the guard or leaves the release to a queue. -/
theorem dropOwner_sound (sound : Sound thread [] ledger) (found : ledger.guard? id = some held)
    (owned : held.owned = true) (unpinned : held.holders = []) :
    ∃ after, dropOwner id ledger = .ok () after ∧
      Leads thread (· = .unreachable) (fun _ => False) [] [] ledger after ∧
      (∃ held' ∈ after.guard? id, held'.owned = false) ∧
      (held.queue = none → after.Claimed id) := by
  have good := sound.good id held found
  have first : Leads thread (· = .unreachable) (fun _ => False) [] [id] ledger _ :=
    sound.disown found owned unpinned
  have found' := guard?_onGuard_self found fun held => { held with owned := false }
  suffices ends : ∃ after, dropOwner id ledger = .ok () after ∧
      Leads thread (· = .unreachable) (fun _ => False) [id] []
        (ledger.onGuard id fun held => { held with owned := false }) after ∧
      (held.queue = none → after.Claimed id) by
    obtain ⟨after, ran, second, claimed⟩ := ends
    obtain ⟨held', found'', -, -, -, unowned⟩ := second.onward.kept id _ found'
    exact ⟨after, ran, first.trans second, ⟨held', found'', unowned rfl⟩, claimed⟩
  -- Without a queue the guard is released on the spot; with one it waits there.
  cases queue : held.queue with
  | none =>
    have timely : held.flags.claimed = false →
        Timely (ledger.onGuard id fun held => { held with owned := false }) id
          { held with owned := false } .unreachable := by
      intro unclaimed
      have unreached := sound.unreached found unpinned unclaimed
      refine ⟨unreached, fun one record isThere among => ?_⟩
      exact absurd (good.queued one record isThere among).1 (by simp [owned])
    obtain ⟨after, ran, second, -, -, claimed⟩ :=
      release_sound .unreachable first.sound found' timely
    refine ⟨after, ?_, second, fun _ => claimed⟩
    exact (Task.bind_ok (Task.get_run ledger)).trans
      (dropWithin_none found owned queue good.quiet ran)
  | some its =>
    obtain ⟨after, ran, second⟩ := dropOwner_queued sound found owned unpinned (by rw [queue]; rfl)
    exact ⟨after, ran, second, nofun⟩

/-! ## Drains -/

/-- Whether the release of the guard is open. -/
def isOpen (ledger : Ledger) (id : GuardId) : Bool :=
  ((ledger.guard? id).map fun held => !held.flags.claimed).getD false

/-- The guards of a queue that is emptied are to be come to. -/
theorem Sound.emptyQueue (sound : Sound thread [] ledger) {queue : QueueId} {record : ReleaseQueue}
    (found : ledger.queue? queue = some record) :
    Leads thread allowed reach [] record.guards ledger
      (ledger.onQueue queue fun record => { record with guards := [] }) := by
  -- The queue emptied is the only one that changed.
  have emptied : ∀ other record',
      (ledger.onQueue queue fun record => { record with guards := [] }).queue? other = some record' →
      other = queue ∧ record'.guards = [] ∨ other ≠ queue ∧ ledger.queue? other = some record' := by
    intro other record' isThere
    rw [queue?_onQueue] at isThere
    split at isThere
    · next same =>
      obtain ⟨_, -, rfl⟩ := Option.map_eq_some_iff.mp isThere
      exact .inl ⟨same, rfl⟩
    · next differs => exact .inr ⟨differs, isThere⟩
  have ids := ids_onQueue ledger queue fun record => { record with guards := [] }
  refine ⟨?_, .of_guards rfl rfl fun id held _ lost => ?_⟩
  · refine { sound with good := ?_, loose := (sound.members queue record found).2,
                        queues := ids ▸ sound.queues, members := ?_ }
    · intro id held isThere
      have good := sound.good id held isThere
      exact { good with
        waits := fun closing unclaimed =>
          .inr ((good.waits closing unclaimed).resolve_left List.not_mem_nil)
        awaited := fun unowned unclaimed => by
          obtain ⟨one, its, within⟩ := (good.awaited unowned unclaimed).resolve_left List.not_mem_nil
          by_cases same : one = queue
          · exact .inl (within record (same ▸ found))
          · refine .inr ⟨one, its, fun record' isThere' => ?_⟩
            cases emptied one record' isThere' with
            | inl this => exact absurd this.1 same
            | inr other => exact within record' other.2
        queued := fun one record' isThere' among => by
          cases emptied one record' isThere' with
          | inl this =>
            rw [this.2] at among
            cases among
          | inr other => exact good.queued one record' other.2 among }
    · intro one record' isThere
      cases emptied one record' isThere with
      | inl this =>
        rw [this.2]
        exact ⟨List.nodup_nil, nofun⟩
      | inr other => exact sound.members one record' other.2
  · refine ⟨lost.unclaimed, lost.unowned, lost.queues queue record found, lost.tables, ?_⟩
    intro one record' isThere among
    cases emptied one record' isThere with
    | inl this =>
      rw [this.2] at among
      cases among
    | inr other => exact lost.queues one record' other.2 among

/-- The drain comes to the guards in order, and releases those whose release is open. -/
theorem releases_sound {guards : List GuardId} (once : guards.Nodup)
    (sound : Sound thread guards ledger)
    (timely : ∀ id ∈ guards, (ledger.Closing id → ledger.Claimed id) ∧
      ∀ queue record, ledger.queue? queue = some record → id ∉ record.guards) :
    ∃ after, Task.sum (fun id => Bool.toNat <$> release id .unreachable) guards ledger
        = .ok (guards.countP ledger.isOpen) after ∧
      Leads thread (· = .unreachable) (fun _ => False) guards [] ledger after ∧
      (∀ id ∈ guards, after.Claimed id) ∧ ∀ other, other ∉ guards → after.guard? other = ledger.guard? other := by
  -- On the guards, each released once: the guards still to come are untouched by the first.
  induction guards generalizing ledger with
  | nil => exact ⟨ledger, rfl, sound.stay, nofun, fun _ _ => rfl⟩
  | cons id guards inductionHypothesis =>
    obtain ⟨fresh, once⟩ := List.nodup_cons.mp once
    obtain ⟨held, found⟩ := Option.isSome_iff_exists.mp (sound.loose id List.mem_cons_self)
    have timely' : held.flags.claimed = false → Timely ledger id held .unreachable := by
      intro unclaimed
      obtain ⟨reached, elsewhere⟩ := timely id List.mem_cons_self
      refine ⟨?_, elsewhere⟩
      cases closing : held.flags.closing with
      | false => rfl
      | true =>
        obtain ⟨held', found', claimed⟩ := reached ⟨held, found, closing⟩
        rw [found, Option.mem_some_iff] at found'
        subst found'
        rw [unclaimed] at claimed
        cases claimed
    obtain ⟨mid, ran, first, touched, -, claimed⟩ := release_sound .unreachable sound found timely'
    have timely'' : ∀ other ∈ guards, (mid.Closing other → mid.Claimed other) ∧
        ∀ queue record, mid.queue? queue = some record → other ∉ record.guards := by
      intro other among
      obtain ⟨reached, elsewhere⟩ := timely other (List.mem_cons_of_mem id among)
      rw [queue?_congr touched.queues]
      refine ⟨fun closing => ?_, elsewhere⟩
      exact first.onward.claimed (reached ((first.onward.closes other closing).resolve_right not_false))
    obtain ⟨after, rest, second, claimed', others⟩ := inductionHypothesis once first.sound timely''
    have open' : ∀ other ∈ guards, mid.isOpen other = ledger.isOpen other := by
      intro other among
      unfold isOpen
      rw [touched.others other fun same => fresh (same ▸ among)]
    have total : (id :: guards).countP ledger.isOpen
        = (!held.flags.claimed).toNat + guards.countP mid.isOpen := by
      have rest : guards.countP mid.isOpen = guards.countP ledger.isOpen :=
        List.countP_congr fun other among => by rw [open' other among]
      have head : ledger.isOpen id = !held.flags.claimed := by
        rw [isOpen, found, Option.map_some, Option.getD_some]
      rw [List.countP_cons, rest, Nat.add_comm, head]
      cases held.flags.claimed <;> simp
    refine ⟨after, ?_, first.trans second, ?_, fun other apart => ?_⟩
    · rw [total]
      refine Task.sum_cons ?_ rest
      rw [Task.map_run, ran]
    · intro other among
      cases List.mem_cons.mp among with
      | inl same => exact same ▸ second.onward.claimed claimed
      | inr later => exact claimed' other later
    · obtain ⟨differs, apart⟩ := List.ne_and_not_mem_of_not_mem_cons apart
      exact (others other apart).trans (touched.others other differs)

/-- A drain releases the guards of its queue whose release is open, and no others. -/
theorem drain_sound (sound : Sound thread [] ledger) {queue : QueueId} {record : ReleaseQueue}
    (found : ledger.queue? queue = some record) :
    ∃ after, drain queue ledger = .ok (record.guards.countP ledger.isOpen) after ∧
      Leads thread (· = .unreachable) (fun _ => False) [] [] ledger after ∧
      (∀ id ∈ record.guards, after.Claimed id) ∧
      ∀ other, other ∉ record.guards → after.guard? other = ledger.guard? other := by
  have first : Leads thread (· = .unreachable) (fun _ => False) [] record.guards ledger _ :=
    sound.emptyQueue found
  have second : Leads thread (· = .unreachable) (fun _ => False) record.guards record.guards _
      { ledger.onQueue queue fun record => { record with guards := [] } with
        busy := record.guards ++ ledger.busy } :=
    first.sound.same ⟨rfl, rfl, rfl, rfl, rfl⟩
  obtain ⟨once, known⟩ := sound.members queue record found
  -- Guards without owners are not pinned, so a teardown that has reached them released them.
  have timely : ∀ id ∈ record.guards, (ledger.Closing id → ledger.Claimed id) ∧
      ∀ one record',
        (ledger.onQueue queue fun record => { record with guards := [] }).queue? one = some record' →
          id ∉ record'.guards := by
    intro id among
    obtain ⟨held, isThere⟩ := Option.isSome_iff_exists.mp (known id among)
    have good := sound.good id held isThere
    obtain ⟨unowned, its, -⟩ := good.queued queue record found among
    constructor
    · rintro ⟨held', isThere', closing⟩
      rw [isThere, Option.mem_some_iff] at isThere'
      subst isThere'
      refine ⟨held, isThere, ?_⟩
      cases claimed : held.flags.claimed with
      | true => rfl
      | false =>
        have unreached := sound.unreached isThere (good.unpinned unowned) claimed
        rw [closing] at unreached
        cases unreached
    · intro one record' isThere' within
      rw [queue?_onQueue] at isThere'
      split at isThere'
      · obtain ⟨_, -, rfl⟩ := Option.map_eq_some_iff.mp isThere'
        cases within
      · next differs =>
        have its' := (good.queued one record' isThere' within).2.1
        rw [its, Option.some.injEq] at its'
        exact differs its'.symm
  obtain ⟨mid, ran, third, claimed, others⟩ := releases_sound once second.sound timely
  have fourth : Leads thread (· = .unreachable) (fun _ => False) [] [] mid
      { mid with busy := ledger.busy } := third.sound.same ⟨rfl, rfl, rfl, rfl, rfl⟩
  refine ⟨{ mid with busy := ledger.busy }, ?_, ((first.trans second).trans third).trans fourth,
    claimed, others⟩
  unfold drain
  rw [Task.bind_ok (Task.get_run ledger), found]
  simp only [Option.map_some, Option.getD_some]
  rw [Task.bind_ok (Task.modify_run _ ledger)]
  exact holding_run ran

/-- Where there is no queue, a drain releases nothing. -/
theorem drain_absent {queue : QueueId} (absent : ledger.queue? queue = none) :
    drain queue ledger = .ok 0 (ledger.onQueue queue fun record => { record with guards := [] }) := by
  unfold drain
  rw [Task.bind_ok (Task.get_run ledger), absent]
  simp only [Option.map_none, Option.getD_none]
  rw [Task.bind_ok (Task.modify_run _ ledger)]
  exact holding_run rfl

/-- Every drain ends with a count. -/
theorem drain_runs (sound : Sound thread [] ledger) (queue : QueueId) : ∃ count after, drain queue ledger = .ok count after := by
  cases found : ledger.queue? queue with
  | some record =>
    obtain ⟨after, ran, -⟩ := drain_sound sound found
    exact ⟨_, after, ran⟩
  | none => exact ⟨0, _, drain_absent found⟩

end CatalogReplica.Lifetime.Ledger
