import CatalogReplica.Proofs.Lifetime.Runs

/-!
# Exactly one release

Whatever one thread does with guards, lifespans and queues, the action of a guard runs at
most once.  It has run once when the owner is gone and the guard has no queue, or its
queue was drained since, or a lifespan that held it was torn down before or since.

* `Operation.released_exactly_once`: this, what becomes of guards that are refused, and
  what a drain passes over.
-/

namespace CatalogReplica.Lifetime.Operation

open Ledger (Sound Leads Acts)

variable {thread : ThreadId} {operations : List Operation} {guard : GuardId}

/-! ## What happened in a run -/

/-- The run built the guard from the plan. -/
def Built (thread : ThreadId) (operations : List Operation) (guard : GuardId) (plan : Guard) : Prop :=
  ∃ before lifespan rest last, operations = before ++ .build plan lifespan :: rest ∧
    Ledger.build plan lifespan (after thread before {}) = .ok guard last

/-- The run began to build the guard, and it could not be registered. -/
def Refused (thread : ThreadId) (operations : List Operation) (guard : GuardId) : Prop :=
  ∃ before plan lifespan rest interrupt last, operations = before ++ .build plan lifespan :: rest ∧
    Ledger.build plan lifespan (after thread before {}) = .error interrupt last ∧
    guard = (after thread before {}).next

/-- The queue was drained after the owner of the guard went away. -/
def DrainedSince (operations : List Operation) (guard : GuardId) (queue : QueueId) : Prop :=
  ∃ before middle rest, operations = before ++ .drop guard :: (middle ++ .drain queue :: rest)

/-! ## What it leaves -/

/-- An operation of a run, with what is before it and after it. -/
structure Within (thread : ThreadId) (before : List Operation) (operation : Operation)
    (rest : List Operation) : Prop where
  sound : Sound thread [] (after thread before {})
  allowed : operation.Allowed thread (after thread before {})
  leads : Leads thread (fun _ => True)
    (TornDown thread rest (operation.apply thread (after thread before {}))) [] []
    (operation.apply thread (after thread before {})) (after thread (before ++ operation :: rest) {})

theorem within {before rest : List Operation} {operation : Operation}
    (allowed : AllowedAll thread (before ++ operation :: rest) {}) :
    Within thread before operation rest := by
  obtain ⟨earlier, now, later⟩ := allowedAll_append.mp allowed
  have sound := (after_sound (sound_empty thread) earlier).sound
  refine ⟨sound, now, ?_⟩
  rw [after_append]
  exact after_sound (apply_sound sound now).sound later

/-- A teardown of a lifespan that held the guard has reached the guard. -/
theorem closing_of_tornDown (allowed : AllowedAll thread operations {})
    (torn : TornDown thread operations {} guard) : (after thread operations {}).Closing guard := by
  obtain ⟨before, lifespan, close, rest, rfl, holds⟩ := torn
  have within := within allowed
  obtain ⟨count, last, ran, torn⟩ := Ledger.teardown_sound lifespan close within.sound
  refine within.leads.onward.closing ?_
  rw [show (teardown lifespan close).apply thread _ = last from Task.exec_ok ran]
  exact torn.closing guard holds

/-- The owner of a guard that was dropped is gone. -/
theorem unowned_of_dropped (allowed : AllowedAll thread operations {})
    (dropped : .drop guard ∈ operations) :
    ∃ held, (after thread operations {}).guard? guard = some held ∧ held.owned = false := by
  obtain ⟨before, rest, rfl⟩ := List.append_of_mem dropped
  have within := within allowed
  obtain ⟨held, found, owned, unpinned⟩ := within.allowed
  obtain ⟨last, ran, -, ⟨held', found', unowned⟩, -⟩ :=
    Ledger.dropOwner_sound within.sound found owned unpinned
  have left : (drop guard).apply thread _ = last := Task.exec_ok ran
  obtain ⟨held'', found'', -, -, -, stays⟩ := within.leads.onward.kept guard held' (left ▸ found')
  exact ⟨held'', found'', stays unowned⟩

/-- A guard keeps its queue. -/
theorem queue_kept {before rest : List Operation} {held held' : Guard}
    (allowed : AllowedAll thread (before ++ rest) {})
    (found : (after thread before {}).guard? guard = some held)
    (found' : (after thread (before ++ rest) {}).guard? guard = some held') :
    held'.queue = held.queue := by
  obtain ⟨earlier, later⟩ := allowedAll_append.mp allowed
  have leads := after_sound (after_sound (sound_empty thread) earlier).sound later
  obtain ⟨held'', found'', same, -⟩ := leads.onward.kept guard held found
  rw [after_append, found'', Option.some.injEq] at found'
  exact found' ▸ same

/-- A guard without a queue is released when its owner goes away. -/
theorem claimed_of_dropped {held : Guard} (allowed : AllowedAll thread operations {})
    (dropped : .drop guard ∈ operations)
    (found : (after thread operations {}).guard? guard = some held) (queue : held.queue = none) :
    (after thread operations {}).Claimed guard := by
  obtain ⟨before, rest, rfl⟩ := List.append_of_mem dropped
  have within := within allowed
  obtain ⟨held', found', owned, unpinned⟩ := within.allowed
  obtain ⟨last, ran, -, -, claimed⟩ := Ledger.dropOwner_sound within.sound found' owned unpinned
  have left : (drop guard).apply thread _ = last := Task.exec_ok ran
  exact within.leads.onward.claimed (left ▸ claimed (queue_kept allowed found' found ▸ queue))

/-- A guard that was left to a queue is released when the queue is drained. -/
theorem claimed_of_drained {held : Guard} {queue : QueueId}
    (allowed : AllowedAll thread operations {}) (drained : DrainedSince operations guard queue)
    (found : (after thread operations {}).guard? guard = some held)
    (its : held.queue = some queue) : (after thread operations {}).Claimed guard := by
  obtain ⟨before, middle, rest, rfl⟩ := drained
  have split : before ++ .drop guard :: (middle ++ .drain queue :: rest)
      = (before ++ .drop guard :: middle) ++ .drain queue :: rest := by simp
  rw [split] at allowed found ⊢
  have within := within allowed
  obtain ⟨earlier, -⟩ := allowedAll_append.mp allowed
  have dropped : .drop guard ∈ before ++ .drop guard :: middle := by simp
  obtain ⟨held', found', unowned⟩ := unowned_of_dropped earlier dropped
  obtain ⟨record, isThere⟩ := Option.isSome_iff_exists.mp within.allowed
  obtain ⟨last, ran, leads, released, -⟩ := Ledger.drain_sound within.sound isThere
  have left : (drain queue).apply thread _ = last := Task.exec_ok ran
  refine within.leads.onward.claimed (left ▸ ?_)
  cases claimed : held'.flags.claimed with
  | true => exact leads.onward.claimed ⟨held', found', claimed⟩
  | false =>
    obtain ⟨its', same, among⟩ :=
      ((within.sound.good guard held' found').awaited unowned claimed).resolve_left List.not_mem_nil
    rw [← queue_kept allowed found' found, its, Option.mem_some_iff] at same
    exact released guard (among record (same ▸ isThere))

/-- A guard whose owner is gone and that a teardown has reached is released. -/
theorem claimed_of_closing {held : Guard} {ledger : Ledger} (sound : Sound thread [] ledger)
    (found : ledger.guard? guard = some held) (unowned : held.owned = false)
    (closing : ledger.Closing guard) : held.flags.claimed = true := by
  obtain ⟨held', found', reached⟩ := closing
  rw [found, Option.mem_some_iff] at found'
  subst found'
  cases claimed : held.flags.claimed with
  | true => rfl
  | false =>
    have unreached := sound.unreached found ((sound.good guard held found).unpinned unowned) claimed
    rw [unreached] at reached
    cases reached

/-- An action that was built and whose guard was released ran once. -/
theorem once_of_claimed {loose : List GuardId} {ledger : Ledger} (acts : Acts loose ledger guard)
    (claimed : ledger.Claimed guard) : (ledger.causes guard).length = 1 := by
  obtain ⟨held, found, state⟩ := acts
  obtain ⟨held', found', flag⟩ := claimed
  rw [found, Option.mem_some_iff] at found'
  subst found'
  cases state with
  | inl finished => exact finished.2
  | inr rest =>
    cases rest with
    | inl armed =>
      rw [flag] at armed
      cases armed.1
    | inr lost =>
      rw [lost.unclaimed] at flag
      cases flag

theorem acts_of_built {plan : Guard} (allowed : AllowedAll thread operations {})
    (built : Built thread operations guard plan) (acts : plan.action.isSome = true) :
    Acts [] (after thread operations {}) guard ∧
      ∃ held, (after thread operations {}).guard? guard = some held ∧ held.queue = plan.queue := by
  obtain ⟨before, lifespan, rest, last, rfl, ran⟩ := built
  have within := within allowed
  have ends := Ledger.build_sound within.sound within.allowed.1 within.allowed.2 lifespan
  unfold Task.Ends at ends
  rw [ran] at ends
  obtain ⟨-, -, armed, held, found, queue⟩ := ends
  have left : (build plan lifespan).apply thread _ = last := Task.exec_ok ran
  have onward := within.leads.onward
  rw [left] at onward
  obtain ⟨held', found', same, -⟩ := onward.kept guard held found
  exact ⟨onward.acts guard (armed acts), held', found', same.trans queue⟩

/-! ## Exactly once -/

theorem at_most_once {ledger : Ledger} (sound : Sound thread [] ledger) (guard : GuardId) :
    (ledger.causes guard).length ≤ 1 := by
  cases found : ledger.guard? guard with
  | some held => exact (sound.good guard held found).once
  | none =>
    rw [sound.unknown guard found]
    exact Nat.zero_le 1

theorem never_of_refused (allowed : AllowedAll thread operations {})
    (refused : Refused thread operations guard) : (after thread operations {}).causes guard = [] := by
  obtain ⟨before, plan, lifespan, rest, interrupt, last, rfl, ran, rfl⟩ := refused
  have within := within allowed
  have ends := Ledger.build_sound within.sound within.allowed.1 within.allowed.2 lifespan
  unfold Task.Ends at ends
  rw [ran] at ends
  obtain ⟨-, claimed, unfired⟩ := ends
  have left : (build plan lifespan).apply thread (after thread before {}) = last :=
    Task.exec_error ran
  have onward := within.leads.onward
  rw [left] at onward
  obtain ⟨new, grown, -, -, none⟩ := onward.grown (after thread before {}).next
  rw [grown, none claimed, unfired, List.append_nil]

/-- The drain of a queue counts the guards whose release is open, and leaves alone those
    that a teardown has reached. -/
theorem drain_passes_over {ledger : Ledger} (sound : Sound thread [] ledger) {queue : QueueId}
    {record : ReleaseQueue} (found : ledger.queue? queue = some record) :
    ∃ last, Ledger.drain queue ledger = .ok (record.guards.countP ledger.isOpen) last ∧
      ∀ guard ∈ record.guards, ledger.Closing guard →
        ledger.isOpen guard = false ∧ last.causes guard = ledger.causes guard := by
  obtain ⟨last, ran, leads, -⟩ := Ledger.drain_sound sound found
  refine ⟨last, ran, fun guard among closing => ?_⟩
  obtain ⟨held, isThere⟩ := Option.isSome_iff_exists.mp ((sound.members queue record found).2 guard among)
  have unowned := ((sound.good guard held isThere).queued queue record found among).1
  have claimed := claimed_of_closing sound isThere unowned closing
  constructor
  · rw [Ledger.isOpen, isThere, Option.map_some, Option.getD_some, claimed, Bool.not_true]
  · obtain ⟨new, grown, -, -, none⟩ := leads.onward.grown guard
    rw [grown, none ⟨held, isThere, claimed⟩, List.append_nil]

/-- After any run of one thread, the action of a guard ran at most once.  It ran once if
    the owner went away and there was no queue, or the queue was drained since, or a
    lifespan that held the guard was torn down.  It did not run if the guard was refused.
    A drain passes over guards that a teardown released, and does not count them. -/
theorem released_exactly_once (thread : ThreadId) (operations : List Operation)
    (allowed : AllowedAll thread operations {}) (guard : GuardId) :
    ((after thread operations {}).causes guard).length ≤ 1 ∧
    (∀ plan, Built thread operations guard plan → plan.action.isSome = true →
      .drop guard ∈ operations →
      (plan.queue = none ∨
        (∃ queue, plan.queue = some queue ∧ DrainedSince operations guard queue) ∨
        TornDown thread operations {} guard) →
      ((after thread operations {}).causes guard).length = 1) ∧
    (Refused thread operations guard → (after thread operations {}).causes guard = []) ∧
    ∀ queue record, (after thread operations {}).queue? queue = some record →
      ∃ last, Ledger.drain queue (after thread operations {})
          = .ok (record.guards.countP (after thread operations {}).isOpen) last ∧
        (guard ∈ record.guards → TornDown thread operations {} guard →
          (after thread operations {}).isOpen guard = false ∧
            last.causes guard = (after thread operations {}).causes guard) := by
  have sound := (after_sound (sound_empty thread) allowed).sound
  refine ⟨at_most_once sound guard, ?_, never_of_refused allowed, ?_⟩
  · intro plan built acts dropped finished
    obtain ⟨armed, held, found, queue⟩ := acts_of_built allowed built acts
    refine once_of_claimed armed ?_
    rcases finished with none | ⟨its, isIts, drained⟩ | torn
    · exact claimed_of_dropped allowed dropped found (queue.trans none)
    · exact claimed_of_drained allowed drained found (queue.trans isIts)
    · obtain ⟨held', found', unowned⟩ := unowned_of_dropped allowed dropped
      exact ⟨held', found', claimed_of_closing sound found' unowned (closing_of_tornDown allowed torn)⟩
  · intro queue record found
    obtain ⟨last, ran, finished⟩ := drain_passes_over sound found
    exact ⟨last, ran, fun among torn => finished guard among (closing_of_tornDown allowed torn)⟩

/-- A guard is left to a queue, its lifespan ends, and the queue is drained. -/
def queuedThenEnded : List Operation :=
  [.newQueue, .newLifespan .null .memory,
    .build { handle := .null, action := some {}, queue := some 0 } (some 1),
    .drop 2, .teardown 1 true, .drain 0]

theorem released_once_queuedThenEnded :
    AllowedAll 0 queuedThenEnded {} ∧ ((after 0 queuedThenEnded {}).causes 2).length = 1 := by
  have allowed : AllowedAll 0 queuedThenEnded {} := by decide +kernel
  refine ⟨allowed, (released_exactly_once 0 queuedThenEnded allowed 2).2.1
    { handle := .null, action := some {}, queue := some 0 } ?_ rfl (by decide +kernel) (.inr (.inl ?_))⟩
  · exact ⟨[.newQueue, .newLifespan .null .memory], some 1, [.drop 2, .teardown 1 true, .drain 0],
      _, rfl, rfl⟩
  · exact ⟨0, rfl, queuedThenEnded.take 3, [.teardown 1 true], [], rfl⟩

end CatalogReplica.Lifetime.Operation
