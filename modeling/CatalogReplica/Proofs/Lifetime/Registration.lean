import CatalogReplica.Proofs.Lifetime.Ownership

/-!
# Registration and construction

Registering a guard puts it into the table of a lifespan; guards, lifespans and queues
get numbers that were not handed out before.

* `Ledger.register_sound`, `Ledger.deregister_sound`: tables.
* `Ledger.build_sound`: a guard is built, or it is refused and never released.
-/

namespace CatalogReplica.Lifetime.Ledger

variable {thread : ThreadId} {allowed : ReleaseCause → Prop} {reach : GuardId → Prop}
  {loose : List GuardId} {ledger : Ledger} {id : GuardId} {held : Guard}

/-! ## Lifespans -/

/-- Lifespans may come and change, if what is in a table has an owner or was in one before,
    and children come after their parents. -/
theorem Sound.setLifespans (sound : Sound thread loose ledger) {lifespans : Numbered Lifespan}
    {next : Nat} (grown : ledger.next ≤ next) (below : ∀ id ∈ lifespans.ids, id < next)
    (guards : ∀ lifespan scope', lifespans.get? lifespan = some scope' → ∀ id ∈ scope'.guards,
      ledger.Owned id ∨ ∃ other scope, ledger.lifespan? other = some scope ∧ id ∈ scope.guards)
    (children : ∀ lifespan scope', lifespans.get? lifespan = some scope' →
      ∀ child ∈ scope'.children, lifespan < child ∧ child ∈ lifespans.ids)
    (closed : ∀ lifespan scope', lifespans.get? lifespan = some scope' → scope'.ended = true →
      scope'.guards = [] ∧ scope'.children = []) :
    Leads thread allowed reach loose loose ledger { ledger with lifespans, next } := by
  refine ⟨?_, .of_guards rfl rfl fun id held found lost => ?_⟩
  · refine { sound with
             good := fun id held found => (sound.good id held found).transfer rfl (.of_eq rfl) grown
               fun among => among
             queues := ⟨sound.queues.1, fun id among => Nat.lt_of_lt_of_le (sound.queues.2 id among) grown⟩
             lifespans := below
             registered := fun lifespan scope' found id among => ?_
             inside := children
             closed := closed }
    cases guards lifespan scope' found id among with
    | inl owned => exact Option.isSome_iff_exists.mpr ⟨_, owned.choose_spec.1⟩
    | inr old =>
      obtain ⟨other, scope, wasThere, within⟩ := old
      exact sound.registered other scope wasThere id within
  · refine ⟨lost.unclaimed, lost.unowned, lost.settled, fun lifespan scope' found' among => ?_, lost.queues⟩
    cases guards lifespan scope' found' id among with
    | inl owned =>
      obtain ⟨held', isThere, isOwned⟩ := owned
      rw [found, Option.mem_some_iff] at isThere
      rw [← isThere, lost.unowned] at isOwned
      cases isOwned
    | inr old =>
      obtain ⟨other, scope, wasThere, within⟩ := old
      exact lost.tables other scope wasThere within

theorem Sound.addLifespan (sound : Sound thread loose ledger) (address : Address)
    (kind : LifespanKind) :
    Leads thread allowed reach loose loose ledger (ledger.addLifespan address kind).2 := by
  -- A scope is the one added, which holds nothing, or was there before.
  have cases' : ∀ lifespan scope', (ledger.lifespans.add ledger.next { address, kind }).get? lifespan
      = some scope' → ledger.lifespan? lifespan = some scope' ∨
        scope'.guards = [] ∧ scope'.children = [] := by
    intro lifespan scope' found
    rw [Numbered.get?_add] at found
    cases old : ledger.lifespans.get? lifespan with
    | some scope =>
      rw [old, Option.some_or] at found
      exact .inl (old.trans found)
    | none =>
      rw [old, Option.none_or] at found
      split at found
      · cases found
        exact .inr ⟨rfl, rfl⟩
      · cases found
  refine sound.setLifespans (Nat.le_succ _) (Numbered.below_add sound.lifespans _) ?_ ?_ ?_
  · intro lifespan scope' found id among
    cases cases' lifespan scope' found with
    | inl old => exact .inr ⟨lifespan, scope', old, among⟩
    | inr new =>
      rw [new.1] at among
      cases among
  · intro lifespan scope' found child among
    cases cases' lifespan scope' found with
    | inl old =>
      obtain ⟨later, known⟩ := sound.inside lifespan scope' old child among
      rw [Numbered.ids_add]
      exact ⟨later, List.mem_append_left _ known⟩
    | inr new =>
      rw [new.2] at among
      cases among
  · intro lifespan scope' found finished
    cases cases' lifespan scope' found with
    | inl old => exact sound.closed lifespan scope' old finished
    | inr new => exact new

/-- A lifespan that has not ended may take guards with owners and later lifespans. -/
theorem Sound.changeLifespan (sound : Sound thread loose ledger) {lifespan : LifespanId}
    {scope : Lifespan} (found : ledger.lifespan? lifespan = some scope) (f : Lifespan → Lifespan)
    (isOpen : (f scope).ended = false)
    (guards : ∀ id ∈ (f scope).guards, ledger.Owned id ∨ id ∈ scope.guards)
    (children : ∀ child ∈ (f scope).children, lifespan < child ∧ child ∈ ledger.lifespans.ids) :
    Leads thread allowed reach loose loose ledger (ledger.onLifespan lifespan f) := by
  have ids := ids_onLifespan ledger lifespan f
  -- The scope changed is the only one that differs.
  have cases' : ∀ other scope', (ledger.lifespans.update lifespan f).get? other = some scope' →
      ledger.lifespan? other = some scope' ∨ other = lifespan ∧ scope' = f scope := by
    intro other scope' found'
    rw [Numbered.get?_update] at found'
    split at found'
    · next same =>
      subst same
      obtain ⟨scope'', found'', rfl⟩ := Option.map_eq_some_iff.mp found'
      have same := found.symm.trans found''
      cases same
      exact .inr ⟨rfl, rfl⟩
    · exact .inl found'
  refine sound.setLifespans (Nat.le_refl _) ?_ ?_ ?_ ?_
  · exact fun id among => sound.lifespans id (ids ▸ among)
  · intro other scope' found' id among
    cases cases' other scope' found' with
    | inl old => exact .inr ⟨other, scope', old, among⟩
    | inr new =>
      rw [new.2] at among
      exact (guards id among).imp_right fun old => ⟨lifespan, scope, found, old⟩
  · intro other scope' found' child among
    rw [Numbered.ids_update]
    cases cases' other scope' found' with
    | inl old => exact sound.inside other scope' old child among
    | inr new =>
      rw [new.2] at among
      exact new.1 ▸ children child among
  · intro other scope' found' finished
    cases cases' other scope' found' with
    | inl old => exact sound.closed other scope' old finished
    | inr new =>
      rw [new.2, isOpen] at finished
      cases finished

/-- A lifespan inside another one. -/
theorem child_sound (sound : Sound thread loose ledger) (parent : LifespanId) (address : Address)
    (kind : LifespanKind) :
    (child parent address kind).Ends ledger fun _ after =>
      Leads thread allowed reach loose loose ledger after := by
  refine .next (Task.get_run ledger) ?_
  cases found : ledger.lifespan? parent with
  | none => exact sound.stay
  | some scope =>
    dsimp only
    split
    · exact sound.stay
    · next isOpen =>
      have added : Leads thread allowed reach loose loose ledger (ledger.addLifespan address kind).2 :=
        sound.addLifespan address kind
      refine .next (Task.set_run _ _) (added.trans ?_)
      have known : parent ∈ ledger.lifespans.ids :=
        Numbered.isSome_get?.mp (Option.isSome_iff_exists.mpr ⟨scope, found⟩)
      have found' : (ledger.addLifespan address kind).2.lifespan? parent = some scope := by
        refine (Numbered.get?_add ledger.lifespans ledger.next parent _).trans ?_
        rw [show ledger.lifespans.get? parent = some scope from found, Option.some_or]
      refine added.sound.changeLifespan found' _ (Bool.eq_false_iff.mpr isOpen)
        (fun id among => .inr among) ?_
      -- The new child is the ledger's next number, so it comes after its parent.
      intro child among
      have ids : (ledger.addLifespan address kind).2.lifespans.ids
          = ledger.lifespans.ids ++ [ledger.next] := Numbered.ids_add _ _ _
      rw [ids]
      cases List.mem_append.mp among with
      | inl old =>
        obtain ⟨later, known'⟩ := sound.inside parent scope found child (List.mem_filter.mp old).1
        exact ⟨later, List.mem_append_left _ known'⟩
      | inr new =>
        cases List.mem_singleton.mp new
        exact ⟨sound.lifespans parent known, List.mem_append_right _ List.mem_cons_self⟩

/-! ## Tables -/

/-- The link back to a lifespan does not matter. -/
theorem Sound.link (sound : Sound thread loose ledger) (found : ledger.guard? id = some held)
    (link : Option LifespanId) :
    Leads thread allowed reach loose loose ledger (ledger.onGuard id fun held => { held with link }) := by
  have good := sound.good id held found
  refine sound.change found (fun held => { held with link }) { good with } rfl rfl rfl
    (fun flag => flag) .inl (fun flag => flag) (fun lost => ?_) (fun _ _ => .rfl)
  exact ⟨lost.unclaimed, lost.unowned, lost.settled, lost.tables, lost.queues⟩

/-- A guard with an owner may be registered. -/
theorem register_sound (sound : Sound thread loose ledger) (found : ledger.guard? id = some held)
    (owned : held.owned = true) (lifespan : LifespanId) :
    (register id lifespan).Ends ledger fun outcome after =>
      Leads thread allowed reach loose loose ledger after ∧
        (outcome ≠ .ok () → after = ledger) := by
  refine .next (Task.get_run ledger) ?_
  rw [found]
  cases known : ledger.lifespan? lifespan with
  | none => exact ⟨sound.stay, fun _ => rfl⟩
  | some scope =>
    dsimp only
    split
    · exact ⟨sound.stay, fun _ => rfl⟩
    · split
      · exact ⟨sound.stay, fun _ => rfl⟩
      · next isOpen =>
        -- A guard the scope lists already is not counted again; both ways only its link is left to set.
        have registered : ∃ mid : Ledger, mid.guard? id = some held ∧
            Leads thread allowed reach loose loose ledger mid ∧
            mid = if id ∈ scope.guards then ledger
              else (ledger.onLifespan lifespan fun scope =>
                { scope with guards := scope.guards ++ [id] }).count id .guardRegistered := by
          by_cases within : id ∈ scope.guards
          · exact ⟨ledger, found, sound.stay, (if_pos within).symm⟩
          · have first : Leads thread allowed reach loose loose ledger _ :=
              sound.changeLifespan known (fun scope => { scope with guards := scope.guards ++ [id] })
                (Bool.eq_false_iff.mpr isOpen)
                (fun other among => (List.mem_append.mp among).elim .inr fun last =>
                  .inl (List.mem_singleton.mp last ▸ ⟨held, found, owned⟩))
                (sound.inside lifespan scope known)
            have counted := same_count (ledger.onLifespan lifespan fun scope =>
              { scope with guards := scope.guards ++ [id] }) id .guardRegistered 1
            refine ⟨_, ?_, first.trans (first.sound.same counted), (if_neg within).symm⟩
            rw [guard?, counted.guards]
            exact found
        obtain ⟨mid, found', leads, rfl⟩ := registered
        exact ⟨leads.trans (leads.sound.link found' (some lifespan)), fun failed => absurd rfl failed⟩

theorem deregister_sound (sound : Sound thread loose ledger) (found : ledger.guard? id = some held)
    (lifespan : LifespanId) :
    Leads thread allowed reach loose loose ledger (ledger.deregister id lifespan).2 := by
  have found' : (ledger.forget id lifespan).2.guard? id = some held := by
    rw [guard?_forget]
    exact found
  have touched := touches_forget ledger id lifespan
  have causes := causes_forget ledger id id lifespan
  have forgotten : Leads thread allowed reach loose loose ledger (ledger.forget id lifespan).2 := by
    refine ⟨sound.touch touched found found' ?_ fun _ _ => .rfl, ?_⟩
    · exact (sound.good id held found).transfer causes (.of_eq touched.queues)
        (Nat.le_of_eq touched.next.symm) fun among => among
    · refine .touch touched found found' rfl (fun flag => flag) (fun flag => flag)
        (fun flag => flag) (causes.trans (List.append_nil _).symm) (by simp) (by simp)
        (fun _ => rfl) .inl (acts_of_fields found found' rfl rfl causes fun lost => ?_) fun _ _ => .rfl
      exact lost.elsewhere touched lost.settled
  unfold deregister
  dsimp only
  split
  · exact forgotten.trans (forgotten.sound.link found' none)
  · exact forgotten

/-! ## Construction -/

/-- One guard is new, and nothing else. -/
structure Gains (fresh : Guard) (before after : Ledger) : Prop where
  guards : after.guards.ids = before.guards.ids ++ [before.next]
  found : after.guard? before.next = some fresh
  others : ∀ other, other ≠ before.next → after.guard? other = before.guard? other
  lifespans : after.lifespans = before.lifespans
  queues : after.queues = before.queues
  log : after.log = before.log
  next : after.next = before.next + 1

variable {fresh : Guard} {after : Ledger}

theorem Sound.guard?_next (sound : Sound thread loose ledger) : ledger.guard? ledger.next = none := by
  cases found : ledger.guard? ledger.next with
  | none => rfl
  | some held => exact absurd (sound.good _ held found).old.1 (Nat.lt_irrefl _)

theorem gains_addGuard (sound : Sound thread loose ledger) (plan : Guard) :
    Gains plan ledger (ledger.addGuard plan).2 where
  guards := Numbered.ids_add _ _ _
  found := by
    refine (Numbered.get?_add ledger.guards ledger.next ledger.next plan).trans ?_
    rw [show ledger.guards.get? ledger.next = none from sound.guard?_next, Option.none_or, if_pos rfl]
  others other differs := by
    refine (Numbered.get?_add ledger.guards ledger.next other plan).trans ?_
    rw [if_neg differs, Option.or_none]
    rfl
  lifespans := rfl
  queues := rfl
  log := rfl
  next := rfl

theorem Gains.onGuard (gains : Gains fresh ledger after) (f : Guard → Guard) :
    Gains (f fresh) ledger (after.onGuard ledger.next f) where
  guards := (ids_onGuard after ledger.next f).trans gains.guards
  found := guard?_onGuard_self gains.found f
  others other differs := by
    rw [guard?_onGuard, if_neg differs]
    exact gains.others other differs
  lifespans := gains.lifespans
  queues := gains.queues
  log := gains.log
  next := gains.next

/-- The new guard has a number that no guard had. -/
theorem Sound.ne_next (sound : Sound thread loose ledger) {id : GuardId} {held : Guard} (found : ledger.guard? id = some held) :
    id ≠ ledger.next := by
  rintro rfl
  rw [sound.guard?_next] at found
  cases found

theorem Gains.guard?_of_some (gains : Gains fresh ledger after) (sound : Sound thread loose ledger) {id : GuardId} {held : Guard}
    (found : ledger.guard? id = some held) : after.guard? id = some held :=
  (gains.others id (sound.ne_next found)).trans found

theorem Gains.isSome_guard? (gains : Gains fresh ledger after) (sound : Sound thread loose ledger) {id : GuardId}
    (isThere : (ledger.guard? id).isSome) : (after.guard? id).isSome := by
  obtain ⟨held, found⟩ := Option.isSome_iff_exists.mp isThere
  exact Option.isSome_iff_exists.mpr ⟨held, gains.guard?_of_some sound found⟩

theorem Gains.lifespan? (gains : Gains fresh ledger after) : after.lifespan? = ledger.lifespan? := by
  funext lifespan
  rw [Ledger.lifespan?, gains.lifespans, Ledger.lifespan?]

theorem Gains.sound (gains : Gains fresh ledger after) (sound : Sound thread [] ledger)
    (good : Good thread [] after ledger.next fresh) : Sound thread [] after where
  guards := by
    rw [gains.guards, List.nodup_append]
    refine ⟨sound.guards, by simp, ?_⟩
    rintro id among _ (_ | ⟨_, ⟨⟩⟩) rfl
    obtain ⟨held, found⟩ := Option.isSome_iff_exists.mp (Numbered.isSome_get?.mpr among)
    exact sound.ne_next found rfl
  good id held found := by
    by_cases same : id = ledger.next
    · subst same
      rw [gains.found, Option.some.injEq] at found
      exact found ▸ good
    · rw [gains.others id same] at found
      -- a guard that was there is as good as before: neither its log nor its queues changed
      exact (sound.good id held found).transfer (by rw [causes, gains.log, causes])
        (.of_eq gains.queues) (by rw [gains.next]; exact Nat.le_succ _) fun among => among
  unknown id none := by
    have differs : id ≠ ledger.next := by
      rintro rfl
      rw [gains.found] at none
      cases none
    rw [gains.others id differs] at none
    rw [causes_congr gains.log]
    exact sound.unknown id none
  loose := nofun
  queues := by
    rw [gains.queues, gains.next]
    exact ⟨sound.queues.1, fun id among => Nat.lt_succ_of_lt (sound.queues.2 id among)⟩
  members queue record found := by
    rw [queue?_congr gains.queues] at found
    obtain ⟨once, known⟩ := sound.members queue record found
    exact ⟨once, fun id among => gains.isSome_guard? sound (known id among)⟩
  lifespans := by
    rw [gains.lifespans, gains.next]
    exact fun id among => Nat.lt_succ_of_lt (sound.lifespans id among)
  registered := by
    rw [gains.lifespan?]
    exact fun lifespan scope found id among => gains.isSome_guard? sound (sound.registered lifespan scope found id among)
  inside := by
    rw [gains.lifespan?, gains.lifespans]
    exact sound.inside
  closed := by
    rw [gains.lifespan?]
    exact sound.closed

/-- A guard that is new and good may appear. -/
theorem Sound.gain (sound : Sound thread [] ledger) (gains : Gains fresh ledger after)
    (good : Good thread [] after ledger.next fresh) (unreached : fresh.flags.closing = false) :
    Leads thread allowed reach [] [] ledger after := by
  refine ⟨gains.sound sound good, fun id held found => ?_, fun id => ?_, ?_, ?_⟩
  · exact ⟨held, gains.guard?_of_some sound found, rfl, fun flag => flag, fun flag => flag, fun flag => flag⟩
  · rw [causes_congr gains.log]
    exact ⟨[], (List.append_nil _).symm, by simp, by simp, by simp⟩
  · rintro id ⟨held, found, closing⟩
    by_cases same : id = ledger.next
    · subst same
      rw [gains.found, Option.mem_some_iff] at found
      rw [← found, unreached] at closing
      cases closing
    · rw [gains.others id same] at found
      exact .inl ⟨held, found, closing⟩
  · rintro id ⟨held, found, state⟩
    refine ⟨held, gains.guard?_of_some sound found, ?_⟩
    rw [causes_congr gains.log]
    refine state.imp_right (.imp_right fun lost => ?_)
    exact ⟨lost.unclaimed, lost.unowned, lost.settled, gains.lifespan? ▸ lost.tables,
      queue?_congr gains.queues ▸ lost.queues⟩

/-- A new guard with an owner is good, whether it was withdrawn or not. -/
theorem Gains.good (gains : Gains fresh ledger after) (sound : Sound thread [] ledger)
    (quiet : fresh.Quiet) (spent : fresh.flags.claimed = true → fresh.action = none)
    (unpinned : fresh.holders = []) (undeferred : fresh.deferred = false)
    (unreached : fresh.flags.closing = false) (owned : fresh.owned = true)
    (earlier : ∀ queue ∈ fresh.queue, queue < ledger.next) :
    Good thread [] after ledger.next fresh := by
  have absent := sound.guard?_next
  have causes : after.causes ledger.next = [] := by
    rw [causes_congr gains.log]
    exact sound.unknown _ absent
  exact {
    quiet := quiet
    spent := spent
    once := by simp [causes]
    unfired := fun _ => causes
    unpinned := fun _ => unpinned
    pinners := by simp [unpinned]
    waits := fun closing => absurd closing (by simp [unreached])
    deferred := fun deferred => absurd deferred (by simp [undeferred])
    ended := fun among => absurd among (by simp [causes])
    awaited := fun unowned => absurd unowned (by simp [owned])
    queued := fun queue record isThere among => by
      rw [queue?_congr gains.queues] at isThere
      have known := (sound.members queue record isThere).2 _ among
      rw [absent] at known
      cases known
    old := by
      rw [gains.next]
      exact ⟨Nat.lt_succ_self _, fun queue its => Nat.lt_succ_of_lt (earlier queue its)⟩ }

/-- Marking a guard released and taking its action. -/
theorem withdraw_run (found : ledger.guard? id = some held) (quiet : held.Quiet) :
    withdraw id ledger = .ok ()
      ((ledger.onGuard id fun held =>
        { held with flags := { held.flags with releasing := true, released := true } }).onGuard id
          fun held => { held with action := none }) := by
  unfold withdraw
  rw [Task.bind_ok (Task.modify_run _ ledger), Task.bind_ok (Task.lift_run _ _)]
  have found' := guard?_onGuard_self found fun held =>
    { held with flags := { held.flags with releasing := true, released := true } }
  simp only [takeAction, found', Option.bind_some]
  cases act : held.action with
  | none => rfl
  | some action =>
    dsimp only
    rw [(quiet action act).1]
    rfl

/-- A guard appears that is as planned. -/
theorem Sound.addGuard (sound : Sound thread [] ledger) {plan : Guard} (planned : plan.Planned)
    (earlier : ∀ queue ∈ plan.queue, queue < ledger.next) :
    Leads thread allowed reach [] [] ledger (ledger.addGuard plan).2 := by
  obtain ⟨flags, unpinned, undeferred, -, owned, quiet⟩ := planned
  have gains := gains_addGuard sound plan
  exact sound.gain gains (gains.good sound quiet (by simp [flags, Flags.claimed]) unpinned undeferred (by simp [flags])
    owned earlier) (by simp [flags])

/-- A guard is added that is released already and has no action: what refusing a planned one comes to. -/
def addWithdrawn (ledger : Ledger) (plan : Guard) : Ledger :=
  ((ledger.addGuard plan).2.onGuard ledger.next fun held =>
    { held with flags := { held.flags with releasing := true, released := true } }).onGuard ledger.next
      fun held => { held with action := none }

theorem withdraw_added (sound : Sound thread [] ledger) {plan : Guard} (quiet : plan.Quiet) :
    withdraw ledger.next (ledger.addGuard plan).2 = .ok () (ledger.addWithdrawn plan) :=
  withdraw_run (gains_addGuard sound plan).found quiet

theorem gains_addWithdrawn (sound : Sound thread loose ledger) (plan : Guard) :
    Gains { plan with flags := { plan.flags with releasing := true, released := true }, action := none } ledger
      (ledger.addWithdrawn plan) :=
  ((gains_addGuard sound plan).onGuard fun held =>
    { held with flags := { held.flags with releasing := true, released := true } }).onGuard
      fun held => { held with action := none }

/-- A guard appears that was refused. -/
theorem Sound.addWithdrawn (sound : Sound thread [] ledger) {plan : Guard} (planned : plan.Planned)
    (earlier : ∀ queue ∈ plan.queue, queue < ledger.next) :
    Leads thread allowed reach [] [] ledger (ledger.addWithdrawn plan) := by
  obtain ⟨flags, unpinned, undeferred, -, owned, -⟩ := planned
  have gains := gains_addWithdrawn sound plan
  exact sound.gain gains (gains.good sound (by rintro _ ⟨⟩) (fun _ => rfl) unpinned undeferred (by simp [flags]) owned
    earlier) (by simp [flags])

/-- A guard that is built has an action that can run, if it was given one; a guard that is
    refused is released without its action. -/
theorem build_leads (sound : Sound thread [] ledger) {plan : Guard} (planned : plan.Planned)
    (earlier : ∀ queue ∈ plan.queue, queue < ledger.next) (lifespan : Option LifespanId) :
    (build plan lifespan).Ends ledger fun outcome after =>
      Leads thread (· = .unreachable) (fun _ => False) [] [] ledger after ∧
      match outcome with
      | .ok id => id = ledger.next ∧ (plan.action.isSome = true → Acts [] after id) ∧
          ∃ held, after.guard? id = some held ∧ held.queue = plan.queue
      | .error _ => after.Claimed ledger.next ∧ after.causes ledger.next = [] := by
  have first : Leads thread (· = .unreachable) (fun _ => False) [] [] ledger _ := sound.addGuard planned earlier
  have third : Leads thread (· = .unreachable) (fun _ => False) [] [] ledger _ := sound.addWithdrawn planned earlier
  obtain ⟨flags, holders, -, -, owned, quiet⟩ := planned
  have gains := gains_addGuard sound plan
  have acts : plan.action.isSome = true → Acts [] (ledger.addGuard plan).2 ledger.next :=
    fun act => ⟨plan, gains.found, .inr (.inl ⟨by simp [flags, Flags.claimed], act⟩)⟩
  refine .next (Task.lift_run _ ledger) ?_
  have id : (ledger.addGuard plan).1 = ledger.next := rfl
  rw [id]
  cases lifespan with
  | none => exact ⟨first, rfl, acts, plan, gains.found, rfl⟩
  | some lifespan =>
    have registered : (register ledger.next lifespan).Ends (ledger.addGuard plan).2
        fun outcome after =>
          Leads thread (· = .unreachable) (fun _ => False) [] [] (ledger.addGuard plan).2 after ∧
            (outcome ≠ .ok () → after = (ledger.addGuard plan).2) :=
      register_sound first.sound gains.found owned lifespan
    refine registered.attempt.bind ?_ (by rintro _ _ ⟨_, ⟨⟩, _⟩)
    rintro outcome after ⟨_, ⟨⟩, second, same⟩
    -- A refused registration leaves the guard as added, to be withdrawn and dropped.
    cases outcome with
    | ok _ =>
      obtain ⟨held, found, queue, -⟩ := second.onward.kept _ plan gains.found
      exact ⟨first.trans second, rfl, fun act => second.onward.acts _ (acts act), held, found, queue⟩
    | error interrupt =>
      rw [same (by rintro ⟨⟩)]
      have withdrawn := gains_addWithdrawn sound plan
      obtain ⟨last, ran, fourth, -, -⟩ := dropOwner_sound third.sound withdrawn.found owned holders
      have claimed : Ledger.Claimed _ ledger.next := ⟨_, withdrawn.found, rfl⟩
      refine .next (withdraw_added sound quiet) (.next ran ⟨third.trans fourth, ?_, ?_⟩)
      · exact fourth.onward.claimed claimed
      · obtain ⟨new, grown, -, -, none⟩ := fourth.onward.grown ledger.next
        rw [grown, none claimed, List.append_nil, causes_congr withdrawn.log]
        exact sound.unknown _ sound.guard?_next

/-- The queue of a guard that is built is there, so that it is an earlier one. -/
theorem build_sound (sound : Sound thread [] ledger) {plan : Guard} (planned : plan.Planned)
    (known : ∀ queue ∈ plan.queue, (ledger.queue? queue).isSome) (lifespan : Option LifespanId) :
    (build plan lifespan).Ends ledger fun outcome after =>
      Leads thread (· = .unreachable) (fun _ => False) [] [] ledger after ∧
      match outcome with
      | .ok id => id = ledger.next ∧ (plan.action.isSome = true → Acts [] after id) ∧
          ∃ held, after.guard? id = some held ∧ held.queue = plan.queue
      | .error _ => after.Claimed ledger.next ∧ after.causes ledger.next = [] :=
  build_leads sound planned
    (fun queue its => sound.queues.2 queue (Numbered.isSome_get?.mp (known queue its))) lifespan

end CatalogReplica.Lifetime.Ledger
