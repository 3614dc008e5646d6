import CatalogReplica.Proofs.Lifetime.Records

/-!
# Sound ledgers

What holds of a ledger at any time, up to the guards that an operation under way has
taken out of a table or a queue and has yet to come to.

* `Ledger.Good`: what holds of one guard.
* `Ledger.Sound`: what holds of the whole ledger.
* `Ledger.Acts`: the action of a guard ran once, or still can, or was lost.
* `Ledger.Onward`: what an operation may do to guards.
-/

namespace CatalogReplica.Lifetime.Ledger

/-- What holds of a guard. -/
structure Good (thread : ThreadId) (loose : List GuardId) (ledger : Ledger) (id : GuardId)
    (held : Guard) : Prop where
  quiet : held.Quiet
  spent : held.flags.claimed = true → held.action = none
  once : (ledger.causes id).length ≤ 1
  unfired : held.flags.claimed = false → ledger.causes id = []
  unpinned : held.owned = false → held.holders = []
  pinners : ∀ holder ∈ held.holders, holder = thread
  /-- A release that a teardown put off waits for a pin. -/
  waits : held.flags.closing = true → held.flags.claimed = false →
    id ∈ loose ∨ held.deferred = true ∧ held.holders ≠ []
  deferred : held.deferred = true → held.flags.closing = true
  ended : .lifespanEnded ∈ ledger.causes id → held.flags.closing = true
  /-- A release that the owner left to a queue is in the queue, as long as there is one. -/
  awaited : held.owned = false → held.flags.claimed = false →
    id ∈ loose ∨ ∃ queue ∈ held.queue, ∀ record ∈ ledger.queue? queue, id ∈ record.guards
  queued : ∀ queue record, ledger.queue? queue = some record → id ∈ record.guards →
    held.owned = false ∧ held.queue = some queue ∧
      (held.flags.claimed = true → held.flags.closing = true)
  old : id < ledger.next ∧ ∀ queue ∈ held.queue, queue < ledger.next

/-- What holds of a ledger whose operations are carried out by one thread. -/
structure Sound (thread : ThreadId) (loose : List GuardId) (ledger : Ledger) : Prop where
  guards : ledger.guards.ids.Nodup
  good : ∀ id held, ledger.guard? id = some held → Good thread loose ledger id held
  unknown : ∀ id, ledger.guard? id = none → ledger.causes id = []
  loose : ∀ id ∈ loose, (ledger.guard? id).isSome
  queues : ledger.queues.ids.Nodup ∧ ∀ id ∈ ledger.queues.ids, id < ledger.next
  members : ∀ queue record, ledger.queue? queue = some record →
    record.guards.Nodup ∧ ∀ id ∈ record.guards, (ledger.guard? id).isSome
  lifespans : ∀ id ∈ ledger.lifespans.ids, id < ledger.next
  registered : ∀ lifespan scope, ledger.lifespan? lifespan = some scope →
    ∀ id ∈ scope.guards, (ledger.guard? id).isSome
  inside : ∀ lifespan scope, ledger.lifespan? lifespan = some scope →
    ∀ child ∈ scope.children, lifespan < child ∧ child ∈ ledger.lifespans.ids
  closed : ∀ lifespan scope, ledger.lifespan? lifespan = some scope → scope.ended = true →
    scope.guards = [] ∧ scope.children = []

/-- The action of the guard can never run: its owner is gone, and nothing holds it. -/
structure Lost (loose : List GuardId) (ledger : Ledger) (id : GuardId) (held : Guard) : Prop where
  unclaimed : held.flags.claimed = false
  unowned : held.owned = false
  settled : id ∉ loose
  tables : ∀ lifespan scope, ledger.lifespan? lifespan = some scope → id ∉ scope.guards
  queues : ∀ queue record, ledger.queue? queue = some record → id ∉ record.guards

/-- The guard has an action that ran once with its release, or has yet to be released,
    or was lost. -/
def Acts (loose : List GuardId) (ledger : Ledger) (id : GuardId) : Prop :=
  ∃ held, ledger.guard? id = some held ∧
    (held.flags.claimed = true ∧ (ledger.causes id).length = 1 ∨
      held.flags.claimed = false ∧ held.action.isSome = true ∨
      Lost loose ledger id held)

/-- What an operation may do: run actions with the given causes, and let a teardown
    reach the given guards. -/
structure Onward (allowed : ReleaseCause → Prop) (reach : GuardId → Prop)
    (loose loose' : List GuardId) (before after : Ledger) : Prop where
  kept : ∀ id held, before.guard? id = some held → ∃ held', after.guard? id = some held' ∧
    held'.queue = held.queue ∧
    (held.flags.claimed = true → held'.flags.claimed = true) ∧
    (held.flags.closing = true → held'.flags.closing = true) ∧
    (held.owned = false → held'.owned = false)
  grown : ∀ id, ∃ new, after.causes id = before.causes id ++ new ∧ (∀ cause ∈ new, allowed cause) ∧
    (before.Closing id → ∀ cause ∈ new, cause = .lifespanEnded) ∧ (before.Claimed id → new = [])
  closes : ∀ id, after.Closing id → before.Closing id ∨ reach id
  acts : ∀ id, Acts loose before id → Acts loose' after id

theorem queue?_congr {before after : Ledger} (queues : after.queues = before.queues) :
    after.queue? = before.queue? := by
  funext id
  rw [queue?, queues, queue?]

/-! ## Composition -/

section

variable {allowed : ReleaseCause → Prop} {reach : GuardId → Prop} {loose loose' loose'' : List GuardId}
  {before after last : Ledger}

theorem Onward.claimed (onward : Onward allowed reach loose loose' before after) {id : GuardId}
    (claimed : before.Claimed id) : after.Claimed id := by
  obtain ⟨held, found, flag⟩ := claimed
  obtain ⟨held', found', -, keeps, -⟩ := onward.kept id held found
  exact ⟨held', found', keeps flag⟩

theorem Onward.closing (onward : Onward allowed reach loose loose' before after) {id : GuardId}
    (closing : before.Closing id) : after.Closing id := by
  obtain ⟨held, found, flag⟩ := closing
  obtain ⟨held', found', -, -, keeps, -⟩ := onward.kept id held found
  exact ⟨held', found', keeps flag⟩

theorem Onward.refl (allowed : ReleaseCause → Prop) (reach : GuardId → Prop) (loose : List GuardId)
    (ledger : Ledger) : Onward allowed reach loose loose ledger ledger where
  kept _ held found := ⟨held, found, rfl, id, id, id⟩
  grown id := ⟨[], (List.append_nil _).symm, by simp, by simp, by simp⟩
  closes _ closing := .inl closing
  acts _ acts := acts

theorem Onward.trans (first : Onward allowed reach loose loose' before after)
    (second : Onward allowed reach loose' loose'' after last) :
    Onward allowed reach loose loose'' before last where
  kept id held found := by
    obtain ⟨mid, foundMid, queue, claimed, closing, unowned⟩ := first.kept id held found
    obtain ⟨held', found', queue', claimed', closing', unowned'⟩ := second.kept id mid foundMid
    exact ⟨held', found', queue'.trans queue, claimed' ∘ claimed, closing' ∘ closing,
      unowned' ∘ unowned⟩
  grown id := by
    obtain ⟨new, grown, fine, native, none⟩ := first.grown id
    obtain ⟨new', grown', fine', native', none'⟩ := second.grown id
    refine ⟨new ++ new', by rw [grown', grown, List.append_assoc], ?_, ?_, ?_⟩
    · intro cause among
      exact (List.mem_append.mp among).elim (fine cause) (fine' cause)
    · intro closing cause among
      exact (List.mem_append.mp among).elim (native closing cause)
        (native' (first.closing closing) cause)
    · intro claimed
      rw [none claimed, none' (first.claimed claimed), List.append_nil]
  closes id closing := (second.closes id closing).elim (first.closes id) .inr
  acts id acts := second.acts id (first.acts id acts)

theorem Onward.weaken {allowed' : ReleaseCause → Prop} {reach' : GuardId → Prop}
    (onward : Onward allowed reach loose loose' before after)
    (causes : ∀ cause, allowed cause → allowed' cause) (reached : ∀ id, reach id → reach' id) :
    Onward allowed' reach' loose loose' before after where
  kept := onward.kept
  grown id := by
    obtain ⟨new, grown, fine, rest⟩ := onward.grown id
    exact ⟨new, grown, fun cause among => causes cause (fine cause among), rest⟩
  closes id closing := (onward.closes id closing).imp_right (reached id)
  acts := onward.acts

end

/-- What an operation that ran on a sound ledger leads to. -/
structure Leads (thread : ThreadId) (allowed : ReleaseCause → Prop) (reach : GuardId → Prop)
    (loose loose' : List GuardId) (before after : Ledger) : Prop where
  sound : Sound thread loose' after
  onward : Onward allowed reach loose loose' before after

theorem Leads.trans {thread : ThreadId} {allowed : ReleaseCause → Prop} {reach : GuardId → Prop}
    {loose loose' loose'' : List GuardId} {before after last : Ledger}
    (first : Leads thread allowed reach loose loose' before after)
    (second : Leads thread allowed reach loose' loose'' after last) :
    Leads thread allowed reach loose loose'' before last :=
  ⟨second.sound, first.onward.trans second.onward⟩

theorem Leads.weaken {thread : ThreadId} {allowed allowed' : ReleaseCause → Prop}
    {reach reach' : GuardId → Prop} {loose loose' : List GuardId} {before after : Ledger}
    (leads : Leads thread allowed reach loose loose' before after)
    (causes : ∀ cause, allowed cause → allowed' cause) (reached : ∀ id, reach id → reach' id) :
    Leads thread allowed' reach' loose loose' before after :=
  ⟨leads.sound, leads.onward.weaken causes reached⟩

theorem Sound.stay {thread : ThreadId} {allowed : ReleaseCause → Prop} {reach : GuardId → Prop}
    {loose : List GuardId} {ledger : Ledger} (sound : Sound thread loose ledger) :
    Leads thread allowed reach loose loose ledger ledger :=
  ⟨sound, .refl allowed reach loose ledger⟩

/-! ## Changes of one guard -/

section

variable {thread : ThreadId} {loose loose' : List GuardId} {before after : Ledger} {id : GuardId}
  {held held' : Guard}

/-- No queue holds other guards than before, unless it is new and holds none. -/
def KeepsQueues (before after : Ledger) : Prop :=
  ∀ queue record, after.queue? queue = some record →
    (∃ record', before.queue? queue = some record' ∧ record'.guards = record.guards) ∨
      before.next ≤ queue ∧ record.guards = []

theorem KeepsQueues.of_eq (queues : after.queues = before.queues) : KeepsQueues before after := by
  intro queue record found
  rw [queue?_congr queues] at found
  exact .inl ⟨record, found, rfl⟩

/-- Whether a guard is good depends on its causes and the queues alone. -/
theorem Good.transfer (good : Good thread loose before id held)
    (causes : after.causes id = before.causes id) (queues : KeepsQueues before after)
    (next : before.next ≤ after.next) (stays : id ∈ loose → id ∈ loose') :
    Good thread loose' after id held where
  quiet := good.quiet
  spent := good.spent
  once := by rw [causes]; exact good.once
  unfired := by rw [causes]; exact good.unfired
  unpinned := good.unpinned
  pinners := good.pinners
  waits closing unclaimed := (good.waits closing unclaimed).imp_left stays
  deferred := good.deferred
  ended := by rw [causes]; exact good.ended
  awaited unowned unclaimed := by
    refine (good.awaited unowned unclaimed).imp stays ?_
    rintro ⟨queue, its, within⟩
    refine ⟨queue, its, fun record found => ?_⟩
    cases queues queue record found with
    | inl old =>
      obtain ⟨record', found', same⟩ := old
      exact same ▸ within record' found'
    | inr new => exact absurd (good.old.2 queue its) (Nat.not_lt.mpr new.1)
  queued queue record found among := by
    cases queues queue record found with
    | inl old =>
      obtain ⟨record', found', same⟩ := old
      exact good.queued queue record' found' (same.symm ▸ among)
    | inr new =>
      rw [new.2] at among
      cases among
  old := ⟨Nat.lt_of_lt_of_le good.old.1 next,
    fun queue its => Nat.lt_of_lt_of_le (good.old.2 queue its) next⟩

theorem Touches.isSome_guard? (touched : Touches id before after) (found : after.guard? id = some held') {other : GuardId}
    (isThere : (before.guard? other).isSome) : (after.guard? other).isSome := by
  by_cases same : other = id
  · subst same
    rw [found]
    rfl
  · rw [touched.others other same]
    exact isThere

/-- A sound ledger stays sound when a guard is changed to a good one. -/
theorem Sound.touch (sound : Sound thread loose before) (touched : Touches id before after)
    (found : before.guard? id = some held) (found' : after.guard? id = some held')
    (good : Good thread loose' after id held')
    (around : ∀ other, other ≠ id → (other ∈ loose' ↔ other ∈ loose)) : Sound thread loose' after where
  -- At the touched guard every clause is `good`; any other guard is found as it was.
  guards := touched.guards ▸ sound.guards
  good other held'' found'' := by
    by_cases same : other = id
    · subst same
      rw [found', Option.some.injEq] at found''
      subst found''
      exact good
    · rw [touched.others other same] at found''
      exact (sound.good other held'' found'').transfer (touched.silent other same)
        (.of_eq touched.queues) (Nat.le_of_eq touched.next.symm) (around other same).mpr
  unknown other absent := by
    by_cases same : other = id
    · subst same
      rw [found'] at absent
      cases absent
    · rw [touched.others other same] at absent
      rw [touched.silent other same]
      exact sound.unknown other absent
  loose other among := by
    by_cases same : other = id
    · subst same
      rw [found']
      rfl
    · exact touched.isSome_guard? found' (sound.loose other ((around other same).mp among))
  queues := by
    rw [touched.queues, touched.next]
    exact sound.queues
  members queue record isThere := by
    rw [queue?_congr touched.queues] at isThere
    obtain ⟨once, known⟩ := sound.members queue record isThere
    exact ⟨once, fun other among => touched.isSome_guard? found' (known other among)⟩
  lifespans := by
    rw [touched.ids, touched.next]
    exact sound.lifespans
  registered lifespan scope' isThere other among := by
    obtain ⟨scope, wasThere, thinner, -, -⟩ := touched.thinned lifespan scope' isThere
    exact touched.isSome_guard? found' (sound.registered lifespan scope wasThere other (thinner among))
  inside lifespan scope' isThere child among := by
    obtain ⟨scope, wasThere, -, children, -⟩ := touched.thinned lifespan scope' isThere
    rw [children] at among
    rw [touched.ids]
    exact sound.inside lifespan scope wasThere child among
  closed lifespan scope' isThere finished := by
    obtain ⟨scope, wasThere, thinner, children, ended⟩ := touched.thinned lifespan scope' isThere
    obtain ⟨empty, alone⟩ := sound.closed lifespan scope wasThere (ended ▸ finished)
    rw [empty] at thinner
    exact ⟨List.subset_nil.mp thinner, children.trans alone⟩

/-- A guard that is not the one that changed is as lost as before. -/
theorem Lost.elsewhere (lost : Lost loose before id held) {changed : GuardId}
    (touched : Touches changed before after) (settled : id ∉ loose') : Lost loose' after id held where
  unclaimed := lost.unclaimed
  unowned := lost.unowned
  settled := settled
  tables := by
    intro lifespan scope' isThere among
    obtain ⟨scope, wasThere, thinner, -, -⟩ := touched.thinned lifespan scope' isThere
    exact lost.tables lifespan scope wasThere (thinner among)
  queues := by
    rw [queue?_congr touched.queues]
    exact lost.queues

/-- What changing one guard does to all guards. -/
theorem Onward.touch {allowed : ReleaseCause → Prop} {reach : GuardId → Prop}
    {new : List ReleaseCause} (touched : Touches id before after)
    (found : before.guard? id = some held) (found' : after.guard? id = some held')
    (queue : held'.queue = held.queue)
    (claimed : held.flags.claimed = true → held'.flags.claimed = true)
    (closing : held.flags.closing = true → held'.flags.closing = true)
    (unowned : held.owned = false → held'.owned = false)
    (grown : after.causes id = before.causes id ++ new) (fine : ∀ cause ∈ new, allowed cause)
    (native : held.flags.closing = true → ∀ cause ∈ new, cause = .lifespanEnded)
    (none : held.flags.claimed = true → new = [])
    (closes : held'.flags.closing = true → held.flags.closing = true ∨ reach id)
    (acts : Acts loose before id → Acts loose' after id)
    (around : ∀ other, other ≠ id → (other ∈ loose' ↔ other ∈ loose)) :
    Onward allowed reach loose loose' before after where
  -- At the touched guard the hypotheses speak; any other guard is found as it was.
  kept other held'' found'' := by
    by_cases same : other = id
    · subst same
      rw [found, Option.some.injEq] at found''
      subst found''
      exact ⟨held', found', queue, claimed, closing, unowned⟩
    · exact ⟨held'', (touched.others other same).trans found'', rfl, fun flag => flag,
        fun flag => flag, fun flag => flag⟩
  grown other := by
    by_cases same : other = id
    · subst same
      refine ⟨new, grown, fine, ?_, ?_⟩
      · rintro ⟨held'', found'', flag⟩
        rw [found, Option.mem_some_iff] at found''
        exact native (found'' ▸ flag)
      · rintro ⟨held'', found'', flag⟩
        rw [found, Option.mem_some_iff] at found''
        exact none (found'' ▸ flag)
    · exact ⟨[], by rw [List.append_nil, touched.silent other same], by simp, by simp, by simp⟩
  closes other := by
    rintro ⟨held'', found'', flag⟩
    by_cases same : other = id
    · subst same
      rw [found', Option.mem_some_iff] at found''
      exact (closes (found'' ▸ flag)).imp_left fun flag => ⟨held, found, flag⟩
    · rw [touched.others other same] at found''
      exact .inl ⟨held'', found'', flag⟩
  acts other := by
    rintro ⟨held'', found'', state⟩
    by_cases same : other = id
    · subst same
      exact acts ⟨held'', found'', state⟩
    · refine ⟨held'', (touched.others other same).trans found'', ?_⟩
      rw [touched.silent other same]
      exact state.imp_right (.imp_right fun lost =>
        lost.elsewhere touched fun among => lost.settled ((around other same).mp among))

end

end CatalogReplica.Lifetime.Ledger
