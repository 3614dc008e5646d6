import CatalogReplica.Proofs.Lifetime.Lossless
import CatalogReplica.Proofs.Lifetime.Sweeping

/-!
# How many actions run

Where no guard is lost, a release runs the action of its guard.  A teardown or a drain then runs
as many actions as it counts releases, each of another guard.

* `Ledger.fired`: the guards whose actions ran.
* `Ledger.Fires`: the actions of some guards ran with a cause, and no others.
* `Ledger.Lossless.drain_fires`: a drain runs the actions of those who wait for their release.
* `Ledger.Lossless.teardown_fires`: a teardown runs the actions of those that it releases.
-/

namespace CatalogReplica.Lifetime

/-- The guard whose action ran. -/
def Happening.fired? : Happening → Option GuardId
  | .fired guard _ _ => some guard
  | .yielded _ _ => none

namespace Ledger

variable {thread : ThreadId} {reach : GuardId → Prop} {cause : ReleaseCause} {queue : QueueId} {guards : List GuardId}
  {before after ledger : Ledger} {id : GuardId}

/-! ## Actions that ran -/

/-- The guards whose actions ran, once for each time. -/
def fired (ledger : Ledger) : List GuardId := ledger.log.filterMap Happening.fired?

theorem count_fired (ledger : Ledger) (id : GuardId) : ledger.fired.count id = (ledger.causes id).length := by
  unfold fired causes
  induction ledger.log with
  | nil => rfl
  | cons happening log ih =>
    rw [List.filterMap_cons, List.filterMap_cons]
    cases happening with
    | fired guard handle cause =>
      simp only [Happening.fired?, List.count_cons, ih]
      by_cases same : guard = id <;> simp [same]
    | yielded guard handle => exact ih

/-- The releases of these guards were claimed and their actions ran, each of them once and with
    the cause; nothing else was released. -/
structure Fires (cause : ReleaseCause) (guards : List GuardId) (before after : Ledger) : Prop where
  once : guards.Nodup
  claims : ∀ id, id ∈ guards ↔ ¬ before.Claimed id ∧ after.Claimed id
  keeps : ∀ id, before.Claimed id → after.Claimed id
  causes : ∀ id, after.causes id = before.causes id ++ if id ∈ guards then [cause] else []

namespace Fires

theorem of_same (same : after.guards = before.guards) (log : after.log = before.log) :
    Fires cause [] before after where
  once := List.nodup_nil
  claims id := by simp [Claimed, guard?_congr same]
  keeps id claimed := by rwa [Claimed, guard?_congr same]
  causes id := by simp [Ledger.causes, log]

/-- As many actions ran as there are guards. -/
theorem fired (fires : Fires cause guards before after) : after.fired.length = before.fired.length + guards.length := by
  have perm : after.fired.Perm (before.fired ++ guards) := by
    refine List.perm_iff_count.mpr fun id => ?_
    rw [List.count_append, count_fired, count_fired, fires.causes, List.length_append, fires.once.count]
    split <;> rfl
  rw [perm.length_eq, List.length_append]

theorem trans {guards' : List GuardId} {last : Ledger} (first : Fires cause guards before after)
    (second : Fires cause guards' after last) : Fires cause (guards ++ guards') before last where
  once := by
    refine List.nodup_append.mpr ⟨first.once, second.once, ?_⟩
    rintro id among _ among' rfl
    exact ((second.claims id).mp among').1 ((first.claims id).mp among).2
  claims id := by
    rw [List.mem_append, first.claims, second.claims]
    constructor
    · rintro (⟨unclaimed, claimed⟩ | ⟨unclaimed, claimed⟩)
      · exact ⟨unclaimed, second.keeps id claimed⟩
      · exact ⟨fun before => unclaimed (first.keeps id before), claimed⟩
    · rintro ⟨unclaimed, claimed⟩
      by_cases mid : after.Claimed id
      · exact .inl ⟨unclaimed, mid⟩
      · exact .inr ⟨mid, claimed⟩
  keeps id claimed := second.keeps id (first.keeps id claimed)
  causes id := by
    rw [second.causes, first.causes, List.append_assoc]
    congr 1
    by_cases among : id ∈ guards
    · have claimed := ((first.claims id).mp among).2
      have apart : id ∉ guards' := fun among' => ((second.claims id).mp among').1 claimed
      simp [among, apart]
    · simp [among]

theorem claimed_iff (fires : Fires cause guards before after) (id : GuardId) :
    after.Claimed id ↔ before.Claimed id ∨ id ∈ guards := by
  rw [fires.claims]
  exact ⟨fun is => (Classical.em _).imp_right fun was => ⟨was, is⟩, fun either => either.elim (fires.keeps id) And.right⟩

section agree

variable {guards' : List GuardId} {before' after' : Ledger} (fires : Fires cause guards before after)
  (fires' : Fires cause guards' before' after') (first : ∀ id, before'.Claimed id ↔ before.Claimed id)
  (second : ∀ id, after'.Claimed id ↔ after.Claimed id)

include fires fires' first second

/-- What a release did is told by the guards that it claimed. -/
theorem mem_iff (id : GuardId) : id ∈ guards' ↔ id ∈ guards := by rw [fires'.claims, fires.claims, first, second]

theorem length_eq : guards'.length = guards.length :=
  ((List.perm_ext_iff_of_nodup fires'.once fires.once).mpr (fires.mem_iff fires' first second)).length_eq

theorem agree (causes : ∀ id, before'.causes id = before.causes id) (id : GuardId) : after'.causes id = after.causes id := by
  rw [fires'.causes, fires.causes, causes]
  simp only [fires.mem_iff fires' first second]

end agree

end Fires

/-- Where no guard is lost, whoever claims a release runs the action. -/
theorem Lossless.fires {may : GuardId → Prop} (lossless : before.Lossless queue) (sound : Sound thread [] before)
    (proceeds : Proceeds thread (· = cause) may before after) (once : guards.Nodup)
    (claims : ∀ id, id ∈ guards ↔ ¬ before.Claimed id ∧ after.Claimed id) : Fires cause guards before after := by
  refine ⟨once, claims, fun id => proceeds.onward.claimed, fun id => ?_⟩
  obtain ⟨new, grown, allowed, -, none⟩ := proceeds.onward.grown id
  rw [grown]
  congr 1
  by_cases was : before.Claimed id
  · rw [if_neg fun among => ((claims id).mp among).1 was]
    exact none was
  · cases found : before.guard? id with
    | none =>
      have unknown : after.guard? id = .none := by
        have absent : id ∉ before.guards.ids := fun among => by
          rw [← Numbered.isSome_get?, show before.guards.get? id = .none from found] at among
          cases among
        rw [← proceeds.steady.guards, ← Numbered.isSome_get?] at absent
        exact Option.not_isSome_iff_eq_none.mp absent
      have unfired := proceeds.sound.unknown id unknown
      rw [grown, List.append_eq_nil_iff] at unfired
      rw [unfired.2, if_neg]
      rintro among
      obtain ⟨held, found', -⟩ := ((claims id).mp among).2
      cases unknown.symm.trans found'
    | some held =>
      have unclaimed : held.flags.claimed = false := Bool.eq_false_iff.mpr fun claimed => was ⟨held, found, claimed⟩
      rw [(sound.good id held found).unfired unclaimed, List.nil_append] at grown
      -- the action could run, and ran or still can
      obtain ⟨held', found', state⟩ := proceeds.onward.acts id (lossless.acts found unclaimed)
      obtain ⟨claimed, ran⟩ | ⟨unclaimed', -⟩ | lost := state
      · rw [if_pos ((claims id).mpr ⟨was, held', found', claimed⟩)]
        rw [grown, List.length_eq_one_iff] at ran
        obtain ⟨one, rfl⟩ := ran
        rw [allowed one List.mem_cons_self]
      all_goals
        have unclaimed' : held'.flags.claimed = false := by first | assumption | exact lost.unclaimed
        rw [(proceeds.sound.good id held' found').unfired unclaimed'] at grown
        rw [if_neg, ← grown]
        rintro among
        obtain ⟨_, found'', claimed⟩ := ((claims id).mp among).2
        obtain rfl := Option.some.inj (found'.symm.trans found'')
        rw [unclaimed'] at claimed
        cases claimed

/-! ## Drains -/

/-- A guard that waits in the queue for its release. -/
def Waiting (ledger : Ledger) (id : GuardId) : Prop :=
  ∃ held, ledger.guard? id = some held ∧ held.owned = false ∧ held.flags.claimed = false

theorem isOpen_iff : ledger.isOpen id = true ↔ ∃ held, ledger.guard? id = some held ∧ held.flags.claimed = false := by
  unfold Ledger.isOpen
  cases ledger.guard? id <;> simp

/-- Where no guard is lost, those who wait are the ones in the queue whose release is open. -/
theorem Lossless.waiting_iff {record : ReleaseQueue} (lossless : ledger.Lossless queue) (sound : Sound thread [] ledger)
    (there : ledger.queue? queue = some record) : ledger.Waiting id ↔ id ∈ record.guards ∧ ledger.isOpen id = true := by
  rw [isOpen_iff]
  constructor
  · rintro ⟨held, found, unowned, unclaimed⟩
    obtain ⟨record', there', among⟩ := lossless.toRelies.queued sound found unowned unclaimed
    obtain rfl := Option.some.inj (there.symm.trans there')
    exact ⟨among, held, found, unclaimed⟩
  · rintro ⟨among, held, found, unclaimed⟩
    exact ⟨held, found, ((sound.good id held found).queued queue record there among).1, unclaimed⟩

/-- A drain runs the actions of the guards that wait for their release, and counts them. -/
theorem Lossless.drain_fires (lossless : ledger.Lossless queue) (sound : Sound thread [] ledger) :
    ∃ guards after, Ledger.drain queue ledger = .ok guards.length after ∧ Fires .unreachable guards ledger after ∧
      ∀ id, id ∈ guards ↔ ledger.Waiting id := by
  obtain ⟨record, there, -⟩ := lossless.engaged
  obtain ⟨after, run, -, claimed, others⟩ := drain_sound sound there
  have proceeds := (Task.Ends.of_ok run).mp (drain_proceeds sound queue)
  obtain ⟨once, known⟩ := sound.members queue record there
  refine ⟨record.guards.filter ledger.isOpen, after, ?_, ?_, fun id => ?_⟩
  · rw [← List.countP_eq_length_filter]
    exact run
  · refine lossless.fires sound proceeds (once.filter _) fun id => ?_
    rw [List.mem_filter, isOpen_iff]
    constructor
    · rintro ⟨among, held, found, unclaimed⟩
      refine ⟨?_, claimed id among⟩
      rintro ⟨_, found', was⟩
      obtain rfl := Option.some.inj (found.symm.trans found')
      rw [unclaimed] at was
      cases was
    · rintro ⟨was, held, found, is⟩
      by_cases among : id ∈ record.guards
      · obtain ⟨held', found'⟩ := Option.isSome_iff_exists.mp (known id among)
        exact ⟨among, held', found', Bool.eq_false_iff.mpr fun claimed => was ⟨held', found', claimed⟩⟩
      · rw [others id among] at found
        exact absurd ⟨held, found, is⟩ was
  · rw [List.mem_filter]
    exact (lossless.waiting_iff sound there).symm

/-! ## Teardowns -/

/-- Without lifespans inside it, a lifespan alone is torn down, and the actions of those guards of
    its run that are released. -/
theorem Lossless.teardown_fires {lifespan : LifespanId} (lossless : ledger.Lossless queue) (sound : Sound thread [] ledger)
    (flat : ∀ id scope, ledger.lifespan? id = some scope → scope.children = []) (standing : ledger.Standing lifespan)
    (close : Bool) : ∃ guards after, Ledger.teardown thread lifespan close ledger = .ok guards.length after ∧
      Fires .lifespanEnded guards ledger after ∧ Sweeps thread (ledger.table lifespan) guards.length ledger after ∧
      ∀ id, after.lifespan? id = if id = lifespan then (ledger.lifespan? id).map (emptied close) else ledger.lifespan? id := by
  obtain ⟨count, after, turns, run, -, walks⟩ := teardown_walks lifespan close sound
  obtain ⟨-, proceeds, -⟩ := (Task.Ends.of_ok run).mp (teardown_proceeds sound lifespan close)
  have itself (id : LifespanId) (among : id ∈ turns) : id = lifespan := by
    obtain ⟨root, isRoot, leading⟩ := walks.below id among
    obtain rfl := List.mem_singleton.mp isRoot
    obtain rfl | ⟨child, ⟨scope, found, nested⟩, -⟩ := Relation.ReflTransGen.cases_head leading
    · rfl
    · rw [flat _ scope found] at nested
      cases nested
  obtain rfl : turns = [lifespan] := by
    refine List.perm_singleton.mp ((List.perm_ext_iff_of_nodup walks.once (by simp)).mpr fun id => ?_)
    rw [List.mem_singleton]
    refine ⟨itself id, ?_⟩
    rintro rfl
    exact walks.whole id List.mem_cons_self standing
  have sweeps := walks.sweeps
  rw [List.flatMap_singleton] at sweeps
  have counted := sweeps.count
  subst counted
  refine ⟨_, after, run, ?_, sweeps, fun id => ?_⟩
  · exact lossless.fires sound proceeds (nodup_releases thread ledger _) fun _ => sweeps.mem_releases_iff
  · rw [walks.tables]
    by_cases same : id = lifespan
    · subst same
      rw [if_pos List.mem_cons_self, if_pos rfl, bne_self_eq_false, Bool.or_false]
    · rw [if_neg (by simpa using same), if_neg same]

end Ledger

end CatalogReplica.Lifetime
