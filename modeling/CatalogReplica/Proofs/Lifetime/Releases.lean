import CatalogReplica.Proofs.Lifetime.Soundness

/-!
# Operations on one guard

Every operation that changes one guard keeps a sound ledger sound.

* `Ledger.release_sound`: a release.
* `Ledger.pin_sound`, `Ledger.unpin_sound`: pins.
* `Ledger.releaseByLifespan_sound`: what a teardown does to one guard.
-/

namespace CatalogReplica.Lifetime.Ledger

variable {thread : ThreadId} {loose : List GuardId} {ledger : Ledger} {id : GuardId} {held : Guard}

theorem acts_of_fields {loose' : List GuardId} {after : Ledger} {held' : Guard}
    (found : ledger.guard? id = some held) (found' : after.guard? id = some held')
    (claimed : held'.flags.claimed = held.flags.claimed) (action : held'.action = held.action)
    (causes : after.causes id = ledger.causes id)
    (lost : Lost loose ledger id held → Lost loose' after id held')
    (acts : Acts loose ledger id) : Acts loose' after id := by
  obtain ⟨held'', found'', state⟩ := acts
  rw [found, Option.some.injEq] at found''
  subst found''
  refine ⟨held', found', ?_⟩
  rw [claimed, action, causes]
  exact state.imp_right (.imp_right lost)

/-- A release may have the cause: the teardown of a lifespan that has reached the guard,
    or the end of an owner whose guard no teardown has reached and no queue holds. -/
def Timely (ledger : Ledger) (id : GuardId) (held : Guard) : ReleaseCause → Prop
  | .lifespanEnded => held.flags.closing = true
  | .unreachable => held.flags.closing = false ∧
      ∀ queue record, ledger.queue? queue = some record → id ∉ record.guards

theorem Good.released (good : Good thread loose ledger id held) {loose' : List GuardId}
    {after : Ledger} {cause : ReleaseCause} {link : Option LifespanId}
    (unclaimed : held.flags.claimed = false) (timely : Timely ledger id held cause)
    (causes : after.causes id = ledger.causes id ++ if held.action.isSome then [cause] else [])
    (queues : after.queues = ledger.queues) (next : after.next = ledger.next) :
    Good thread loose' after id (held.spent link) := by
  have ran : after.causes id = if held.action.isSome then [cause] else [] := by
    rw [causes, good.unfired unclaimed, List.nil_append]
  have spent : (held.spent link).flags.claimed ≠ false := by simp [Guard.spent, Flags.claimed]
  refine { quiet := nofun, spent := fun _ => rfl, once := ?once, unfired := fun flag => absurd flag spent,
           unpinned := good.unpinned, pinners := good.pinners, waits := fun _ flag => absurd flag spent,
           deferred := good.deferred, ended := ?ended, awaited := fun _ flag => absurd flag spent,
           queued := ?queued, old := next ▸ good.old }
  case once =>
    rw [ran]
    split <;> simp
  case ended =>
    intro among
    rw [ran] at among
    split at among
    · cases List.mem_singleton.mp among
      exact timely
    · cases among
  case queued =>
    intro queue record isThere among
    rw [queue?_congr queues] at isThere
    obtain ⟨unowned, its, -⟩ := good.queued queue record isThere among
    cases cause with
    | lifespanEnded => exact ⟨unowned, its, fun _ => timely⟩
    | unreachable => exact absurd among (timely.2 queue record isThere)

theorem mem_cons_iff_of_ne (loose : List GuardId) (other : GuardId) (differs : other ≠ id) :
    other ∈ id :: loose ↔ other ∈ loose :=
  ⟨fun among => (List.mem_cons.mp among).resolve_left differs, List.mem_cons_of_mem id⟩

theorem Good.owned_of_mem (good : Good thread loose ledger id held) {holder : ThreadId} (pinned : holder ∈ held.holders) :
    held.owned = true := by
  cases owned : held.owned with
  | true => rfl
  | false =>
    rw [good.unpinned owned] at pinned
    cases pinned

/-- A release that was claimed before is carried out by whoever claimed it: nothing is run a second time. -/
theorem release_sound_claimed (cause : ReleaseCause) (sound : Sound thread (id :: loose) ledger)
    (found : ledger.guard? id = some held) (claimed : held.flags.claimed = true) :
    ∃ after, release id cause ledger = .ok false after ∧
      Leads thread (· = cause) (fun _ => False) (id :: loose) loose ledger after ∧
      Touches id ledger after ∧ after.lifespans = ledger.lifespans ∧ after.Claimed id := by
  have good := sound.good id held found
  have around : ∀ other, other ≠ id → (other ∈ loose ↔ other ∈ id :: loose) := fun other differs =>
    (mem_cons_iff_of_ne loose other differs).symm
  have found' := guard?_onGuard_self found fun held =>
    { held with flags := { held.flags with releasing := true } }
  have touched := Touches.onGuard ledger id fun held =>
    { held with flags := { held.flags with releasing := true } }
  have claimed' : ∀ flags : Flags, ({ flags with releasing := true } : Flags).claimed = true :=
    fun _ => rfl
  refine ⟨_, release_claimed found claimed cause, ⟨?_, ?_⟩, touched, rfl, _, found', rfl⟩
  · refine sound.touch touched found found' ?_ around
    exact { quiet := good.quiet, spent := fun _ => good.spent claimed, once := good.once,
            unfired := fun flag => absurd flag (by simp [claimed']), unpinned := good.unpinned,
            pinners := good.pinners, waits := fun _ flag => absurd flag (by simp [claimed']),
            deferred := good.deferred, ended := good.ended,
            awaited := fun _ flag => absurd flag (by simp [claimed']),
            queued := fun queue record isThere among =>
              have ⟨unowned, its, closing⟩ := good.queued queue record isThere among
              ⟨unowned, its, fun _ => closing claimed⟩,
            old := good.old }
  · refine .touch touched found found' rfl (fun _ => rfl) (fun flag => flag) (fun flag => flag)
      (List.append_nil _).symm (by simp) (by simp) (fun _ => rfl) .inl ?_ around
    refine acts_of_fields found found' (claimed' _ |>.trans claimed.symm) rfl rfl ?_
    exact fun lost => absurd List.mem_cons_self lost.settled

/-- A release that nobody claimed runs the action, once and for its cause. -/
theorem release_sound_open (cause : ReleaseCause) (sound : Sound thread (id :: loose) ledger)
    (found : ledger.guard? id = some held) (unclaimed : held.flags.claimed = false) (timely : Timely ledger id held cause) :
    ∃ after, release id cause ledger = .ok true after ∧
      Leads thread (· = cause) (fun _ => False) (id :: loose) loose ledger after ∧
      Touches id ledger after ∧ (cause = .lifespanEnded → after.lifespans = ledger.lifespans) ∧
      after.Claimed id := by
  have good := sound.good id held found
  have around : ∀ other, other ≠ id → (other ∈ loose ↔ other ∈ id :: loose) := fun other differs =>
    (mem_cons_iff_of_ne loose other differs).symm
  obtain ⟨after, ran, touched, tables, ⟨link, found'⟩, causes⟩ := release_run found good.quiet unclaimed cause
  refine ⟨after, ran, ⟨?_, ?_⟩, touched, tables, _, found', rfl⟩
  · exact sound.touch touched found found'
      (good.released unclaimed timely causes touched.queues touched.next) around
  · refine .touch touched found found' rfl (fun _ => rfl) (fun flag => flag) (fun flag => flag)
      causes ?_ ?_ (fun flag => by rw [unclaimed] at flag; cases flag) .inl ?_ around
    · intro one among
      split at among
      · exact List.mem_singleton.mp among
      · cases among
    · intro closing one among
      split at among
      · cases List.mem_singleton.mp among
        cases cause with
        | lifespanEnded => rfl
        | unreachable => exact absurd closing (by simp [timely.1])
      · cases among
    · -- It was unclaimed and among the loose ones, so it was armed, and its action has just run.
      rintro ⟨held'', found'', state⟩
      rw [found, Option.some.injEq] at found''
      subst found''
      refine ⟨_, found', .inl ⟨rfl, ?_⟩⟩
      rw [causes, good.unfired unclaimed]
      obtain finished | armed | lost := state
      · exact absurd finished.1 (by simp [unclaimed])
      · simp [armed.2]
      · exact absurd List.mem_cons_self lost.settled

/-- A release of a guard that the operation under way has come to. -/
theorem release_sound (cause : ReleaseCause) (sound : Sound thread (id :: loose) ledger)
    (found : ledger.guard? id = some held)
    (timely : held.flags.claimed = false → Timely ledger id held cause) :
    ∃ after, release id cause ledger = .ok (!held.flags.claimed) after ∧
      Leads thread (· = cause) (fun _ => False) (id :: loose) loose ledger after ∧
      Touches id ledger after ∧ (cause = .lifespanEnded → after.lifespans = ledger.lifespans) ∧
      after.Claimed id := by
  cases claimed : held.flags.claimed with
  | true =>
    obtain ⟨after, ran, leads, touched, tables, state⟩ := release_sound_claimed cause sound found claimed
    exact ⟨after, ran, leads, touched, fun _ => tables, state⟩
  | false => exact release_sound_open cause sound found claimed (timely claimed)

/-- The operation under way is done with a guard. -/
theorem Sound.settle {allowed : ReleaseCause → Prop} {reach : GuardId → Prop}
    (sound : Sound thread (id :: loose) ledger) (found : ledger.guard? id = some held)
    (waits : held.flags.closing = true → held.flags.claimed = true ∨
      held.deferred = true ∧ held.holders ≠ [])
    (awaited : held.owned = false → held.flags.claimed = true ∨
      ∃ queue ∈ held.queue, ∀ record ∈ ledger.queue? queue, id ∈ record.guards) :
    Leads thread allowed reach (id :: loose) loose ledger ledger := by
  have good := sound.good id held found
  have untouched : Touches id ledger ledger := .of_same id ⟨rfl, rfl, rfl, rfl, rfl⟩
  have around : ∀ other, other ≠ id → (other ∈ loose ↔ other ∈ id :: loose) := fun other differs =>
    (mem_cons_iff_of_ne loose other differs).symm
  refine ⟨sound.touch untouched found found ?_ around, ?_⟩
  · exact { good with
      waits := fun closing unclaimed =>
        .inr ((waits closing).resolve_left (by simp [unclaimed]))
      awaited := fun unowned unclaimed =>
        .inr ((awaited unowned).resolve_left (by simp [unclaimed])) }
  · exact .touch untouched found found rfl (fun flag => flag) (fun flag => flag) (fun flag => flag)
      (List.append_nil _).symm (by simp) (by simp) (fun _ => rfl) .inl
      (acts_of_fields found found rfl rfl rfl
        fun lost => absurd List.mem_cons_self lost.settled) around

/-- A change of a guard that runs nothing and claims nothing. -/
theorem Sound.change {loose' : List GuardId} {allowed : ReleaseCause → Prop}
    {reach : GuardId → Prop} (sound : Sound thread loose ledger)
    (found : ledger.guard? id = some held) (f : Guard → Guard)
    (good : Good thread loose' (ledger.onGuard id f) id (f held))
    (queue : (f held).queue = held.queue) (claimed : (f held).flags.claimed = held.flags.claimed)
    (action : (f held).action = held.action)
    (closing : held.flags.closing = true → (f held).flags.closing = true)
    (closes : (f held).flags.closing = true → held.flags.closing = true ∨ reach id)
    (unowned : held.owned = false → (f held).owned = false)
    (lost : Lost loose ledger id held → Lost loose' (ledger.onGuard id f) id (f held))
    (around : ∀ other, other ≠ id → (other ∈ loose' ↔ other ∈ loose)) :
    Leads thread allowed reach loose loose' ledger (ledger.onGuard id f) := by
  have found' := guard?_onGuard_self found f
  have touched := Touches.onGuard ledger id f
  refine ⟨sound.touch touched found found' good around, ?_⟩
  exact .touch touched found found' queue (fun flag => claimed.trans flag) closing unowned
    (List.append_nil _).symm (by simp) (by simp) (fun _ => rfl) closes
    (acts_of_fields found found' claimed action rfl lost) around

/-! ## Pins -/

theorem pin_sound (sound : Sound thread [] ledger) (owned : ledger.Owned id) :
    (pin thread id).Ends ledger fun _ after =>
      Leads thread (fun _ => False) (fun _ => False) [] [] ledger after := by
  obtain ⟨held, found, isOwned⟩ := owned
  have good := sound.good id held found
  refine .next (Task.get_run ledger) ?_
  unfold handle
  rw [found]
  dsimp only
  cases released : held.isReleased with
  | true => exact sound.stay
  | false =>
    simp only [Guard.isReleased, Bool.or_eq_false_iff] at released
    refine sound.change found _ ?_ rfl rfl rfl (fun flag => flag) .inl (fun flag => flag) ?_
      (fun _ _ => .rfl)
    · exact { good with
        unpinned := fun unowned => absurd unowned (by simp [isOwned])
        pinners := fun holder among => (List.mem_append.mp among).elim (good.pinners holder)
          List.mem_singleton.mp
        waits := fun closing => absurd closing (by simp [released.2])
        awaited := fun unowned => absurd unowned (by simp [isOwned]) }
    · exact fun lost => absurd lost.unowned (by simp [isOwned])

theorem unpin_sound (sound : Sound thread [] ledger)
    (pinned : ∃ held ∈ ledger.guard? id, thread ∈ held.holders) :
    (unpin thread id).Ends ledger fun _ after =>
      Leads thread (· = .lifespanEnded) (fun _ => False) [] [] ledger after := by
  obtain ⟨held, found, pin⟩ := pinned
  have good := sound.good id held found
  have owned := good.owned_of_mem pin
  refine .next (Task.modify_run _ ledger) (.next (Task.get_run _) ?_)
  have found' := guard?_onGuard_self found fun held => { held with holders := held.holders.erase thread }
  rw [found']
  dsimp only
  have fewer : ∀ holder ∈ held.holders.erase thread, holder = thread := fun holder among =>
    good.pinners holder (List.mem_of_mem_erase among)
  split
  · next last =>
    simp only [Bool.and_eq_true, List.isEmpty_iff] at last
    obtain ⟨-, deferred⟩ := last
    refine .next (Task.modify_run _ _) ?_
    -- the last unpin catches up on the release that was put off: until it is done, the guard is
    -- what the operation has come to
    have first : Leads thread (· = .lifespanEnded) (fun _ => False) [] [id] ledger _ :=
      sound.change found (fun held => { held with holders := held.holders.erase thread })
        { good with
          unpinned := fun unowned => absurd unowned (by simp [owned])
          pinners := fewer
          waits := fun _ _ => .inl List.mem_cons_self
          awaited := fun unowned => absurd unowned (by simp [owned]) }
        rfl rfl rfl (fun flag => flag) .inl (fun flag => flag)
        (fun lost => absurd lost.unowned (by simp [owned])) (mem_cons_iff_of_ne [])
    have good' := first.sound.good id _ found'
    have second : Leads thread (· = .lifespanEnded) (fun _ => False) [id] [id] _ _ :=
      first.sound.change found' (fun held => { held with deferred := false })
        { good' with
          waits := fun _ _ => .inl List.mem_cons_self
          deferred := fun flag => by cases flag }
        rfl rfl rfl (fun flag => flag) .inl (fun flag => flag)
        (fun lost => absurd lost.unowned (by simp [owned])) (fun _ _ => .rfl)
    obtain ⟨after, ran, third, -⟩ :=
      release_sound .lifespanEnded second.sound (guard?_onGuard_self found' _) fun _ =>
        good.deferred deferred
    unfold Task.Ends
    rw [Task.discard_run, ran]
    exact (first.trans second).trans third
  · next more =>
    refine sound.change found _ ?_ rfl rfl rfl (fun flag => flag) .inl (fun flag => flag)
      (fun lost => absurd lost.unowned (by simp [owned])) (fun _ _ => .rfl)
    exact { good with
      unpinned := fun unowned => absurd unowned (by simp [owned])
      pinners := fewer
      waits := fun closing unclaimed => by
        -- a guard that waits for its release waits for the holders that are left
        have waits := (good.waits closing unclaimed).resolve_left List.not_mem_nil
        refine .inr ⟨waits.1, fun (empty : held.holders.erase thread = []) => more ?_⟩
        rw [empty, waits.1]
        rfl
      awaited := fun unowned => absurd unowned (by simp [owned]) }

/-! ## Teardowns -/

/-- The teardown of a lifespan reaches a guard that it has come to.  The guard is released,
    or the thread pins it and the release is put off to the last unpin. -/
theorem releaseByLifespan_sound {reach : GuardId → Prop} (sound : Sound thread (id :: loose) ledger)
    (found : ledger.guard? id = some held) (reached : reach id) :
    ∃ count after, releaseByLifespan thread id ledger = .ok count after ∧
      Leads thread (· = .lifespanEnded) reach (id :: loose) loose ledger after ∧
      after.Closing id ∧ after.lifespans = ledger.lifespans := by
  have good := sound.good id held found
  have found' := guard?_onGuard_self found fun held =>
    { held with flags := { held.flags with closing := true } }
  have first : Leads thread (· = .lifespanEnded) reach (id :: loose) (id :: loose) ledger _ :=
    sound.change found (fun held => { held with flags := { held.flags with closing := true } })
      { good with
        waits := fun _ _ => .inl List.mem_cons_self
        deferred := fun _ => rfl
        ended := fun _ => rfl
        queued := fun queue record isThere among =>
          have ⟨unowned, its, _⟩ := good.queued queue record isThere among
          ⟨unowned, its, fun _ => rfl⟩ }
      rfl rfl rfl (fun _ => rfl) (fun _ => .inr reached) (fun flag => flag)
      (fun lost => absurd List.mem_cons_self lost.settled) (fun _ _ => .rfl)
  have good' := first.sound.good id _ found'
  unfold releaseByLifespan
  rw [Task.bind_ok (Task.modify_run _ ledger), Task.bind_ok (Task.get_run _), found']
  dsimp only
  cases claimed : held.flags.claimed with
  | true =>
    have claimed' : ({ held.flags with closing := true } : Flags).claimed = true := claimed
    rw [if_pos claimed', good.spent claimed]
    refine ⟨false, _, rfl, first.trans (first.sound.settle found' ?_ ?_), ⟨_, found', rfl⟩, rfl⟩
    · exact fun _ => .inl claimed'
    · exact fun _ => .inl claimed'
  | false =>
    have unclaimed : ({ held.flags with closing := true } : Flags).claimed = false := claimed
    rw [if_neg (by rw [unclaimed]; exact Bool.false_ne_true)]
    by_cases pinned : thread ∈ held.holders
    · rw [if_pos pinned]
      have owned := good.owned_of_mem pinned
      -- the thread pins it: the release is put off, and the guard is no longer the teardown's business
      have second : Leads thread (· = .lifespanEnded) reach (id :: loose) loose _ _ :=
        first.sound.change found' (fun held => { held with deferred := true })
          { good' with
            waits := fun _ _ => .inr ⟨rfl, List.ne_nil_of_mem pinned⟩
            deferred := fun _ => rfl
            awaited := fun unowned => absurd unowned (by simp [owned]) }
          rfl rfl rfl (fun flag => flag) .inl (fun flag => flag)
          (fun lost => absurd lost.unowned (by simp [owned]))
          (fun other differs => (mem_cons_iff_of_ne loose other differs).symm)
      exact ⟨false, _, rfl, first.trans second, second.onward.closing ⟨_, found', rfl⟩, rfl⟩
    · rw [if_neg pinned]
      -- no other thread can pin it
      have none : held.holders = [] := by
        apply List.eq_nil_iff_forall_not_mem.mpr
        intro holder among
        rw [good.pinners holder among] at among
        exact pinned among
      rw [none]
      obtain ⟨after, ran, second, -, tables, -⟩ :=
        release_sound .lifespanEnded first.sound found' fun _ => rfl
      refine ⟨true, after, ?_,
        first.trans (second.weaken (fun _ cause => cause) (fun _ => False.elim)), ?_, ?_⟩
      · rw [unclaimed] at ran
        exact (Task.bind_ok rfl).trans ran
      · exact second.onward.closing ⟨_, found', rfl⟩
      · exact tables rfl

end CatalogReplica.Lifetime.Ledger
