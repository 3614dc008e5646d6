import Mathlib.Logic.Relation
import Mathlib.Data.List.Basic
import CatalogReplica.Proofs.Lifetime.Teardown

/-!
# What a teardown does, step by step

A teardown takes lifespan after lifespan, each one after those inside it, and comes to the
guards of each in turn.  What it does with a guard depends on that guard alone, and coming
to a guard twice is the same as coming to it once.

* `Guard.reached`: what becomes of a guard that a teardown has come to.
* `Ledger.Sweeps`: a teardown came to some guards, in order.
* `Ledger.Walks`: a teardown took some lifespans, in order, and came to their guards.
* `Ledger.teardown_walks`: every teardown does so, and takes just the lifespans below its
  own that have not ended.
-/

namespace CatalogReplica.Lifetime

variable {thread : ThreadId}

/-! ## One guard -/

/-- A teardown by the thread would release the guard: nobody did before, and the thread
    does not pin it. -/
def Guard.releasable (thread : ThreadId) (held : Guard) : Bool :=
  !held.flags.claimed && decide (thread ∉ held.holders)

/-- The guard once a teardown has reached it. -/
def Guard.closed (held : Guard) : Guard := { held with flags := { held.flags with closing := true } }

/-- The guard after a teardown by the thread has come to it: released, unless it was before
    or the thread pins it, so that the release waits for the pin to end. -/
def Guard.reached (thread : ThreadId) (held : Guard) : Guard :=
  if held.flags.claimed then held.closed
  else if thread ∈ held.holders then { held.closed with deferred := true }
  else held.closed.spent held.link

namespace Guard

variable {held : Guard}

theorem releasable_iff :
    held.releasable thread = true ↔ held.flags.claimed = false ∧ thread ∉ held.holders := by
  simp [releasable]

theorem spared_of_claimed (claimed : held.flags.claimed = true) : held.releasable thread = false := by
  rw [releasable, claimed, Bool.not_true, Bool.false_and]

theorem spared_of_pinned (pinned : thread ∈ held.holders) : held.releasable thread = false := by
  rw [releasable, decide_eq_false (not_not_intro pinned), Bool.and_false]

theorem reached_of_claimed (claimed : held.flags.claimed = true) : held.reached thread = held.closed :=
  if_pos claimed

theorem reached_of_pinned (unclaimed : held.flags.claimed = false) (pinned : thread ∈ held.holders) :
    held.reached thread = { held.closed with deferred := true } := by
  rw [reached, unclaimed, if_neg Bool.false_ne_true, if_pos pinned]

theorem reached_of_releasable (free : held.releasable thread = true) :
    held.reached thread = held.closed.spent held.link := by
  obtain ⟨unclaimed, unpinned⟩ := releasable_iff.mp free
  rw [reached, unclaimed, if_neg Bool.false_ne_true, if_neg unpinned]

/-- A teardown finds a guard released, finds it pinned, or may release it. -/
theorem found_cases (thread : ThreadId) (held : Guard) : held.flags.claimed = true ∨
    held.flags.claimed = false ∧ thread ∈ held.holders ∨ held.releasable thread = true := by
  cases claimed : held.flags.claimed with
  | true => exact .inl rfl
  | false =>
    by_cases pinned : thread ∈ held.holders
    · exact .inr (.inl ⟨rfl, pinned⟩)
    · exact .inr (.inr (releasable_iff.mpr ⟨claimed, pinned⟩))

/-- A guard that a teardown has come to is not released by another one. -/
theorem releasable_reached (held : Guard) : (held.reached thread).releasable thread = false := by
  obtain claimed | ⟨unclaimed, pinned⟩ | free := held.found_cases thread
  · have closed : held.closed.flags.claimed = true := claimed
    rw [reached_of_claimed claimed, releasable, closed]
    rfl
  · rw [reached_of_pinned unclaimed pinned]
    simp [releasable, closed, pinned]
  · rw [reached_of_releasable free]
    rfl

/-- Coming to a guard again changes nothing. -/
theorem reached_reached (held : Guard) : (held.reached thread).reached thread = held.reached thread := by
  obtain claimed | ⟨unclaimed, pinned⟩ | free := held.found_cases thread
  · have closed : held.closed.flags.claimed = true := claimed
    rw [reached_of_claimed claimed, reached_of_claimed closed]
    rfl
  · have closed : ({ held.closed with deferred := true } : Guard).flags.claimed = false := unclaimed
    rw [reached_of_pinned unclaimed pinned, reached_of_pinned closed pinned]
    rfl
  · rw [reached_of_releasable free]
    rfl

/-- A teardown reaches the guards that it comes to.  Their release is claimed or waits for a
    pin of the thread. -/
theorem settled_reached (held : Guard) : (held.reached thread).flags.closing = true ∧
    ((held.reached thread).flags.claimed = true ∨
      (held.reached thread).deferred = true ∧ thread ∈ (held.reached thread).holders) := by
  obtain claimed | ⟨unclaimed, pinned⟩ | free := held.found_cases thread
  · rw [reached_of_claimed claimed]
    exact ⟨rfl, .inl claimed⟩
  · rw [reached_of_pinned unclaimed pinned]
    exact ⟨rfl, .inr ⟨rfl, pinned⟩⟩
  · rw [reached_of_releasable free]
    exact ⟨rfl, .inl rfl⟩

/-- A teardown claims the releases of the guards that it may release, and of no others. -/
theorem claimed_reached (held : Guard) : (held.reached thread).flags.claimed = true ↔
    held.flags.claimed = true ∨ held.releasable thread = true := by
  obtain claimed | ⟨unclaimed, pinned⟩ | free := held.found_cases thread
  · rw [reached_of_claimed claimed]
    exact ⟨.inl, fun _ => claimed⟩
  · rw [reached_of_pinned unclaimed pinned]
    exact ⟨.inl, fun claimed => claimed.resolve_right fun free => (releasable_iff.mp free).2 pinned⟩
  · rw [reached_of_releasable free]
    exact ⟨fun _ => .inr free, fun _ => rfl⟩

end Guard

namespace Ledger

variable {loose : List GuardId} {before ledger mid after : Ledger} {id : GuardId} {held : Guard}

/-- Whether a teardown by the thread would release the guard. -/
def releasable (thread : ThreadId) (ledger : Ledger) (id : GuardId) : Bool :=
  ((ledger.guard? id).map (·.releasable thread)).getD false

/-- What is noted when a teardown runs the action of the guard, if it has one. -/
def firing (ledger : Ledger) (id : GuardId) : Option Happening :=
  (ledger.guard? id).bind fun held => held.action.map fun _ => .fired id held.handle .lifespanEnded

/-- A release that runs an action notes it. -/
theorem fireBy_log (drop : GuardId → Task Ledger Unit) (found : ledger.guard? id = some held)
    (quiet : held.Quiet) (cause : ReleaseCause) :
    (fireBy drop id cause).Ends ledger fun _ after =>
      after.log = ledger.log ++ (held.action.map fun _ => Happening.fired id held.handle cause).toList := by
  have counted := same_count ledger id cause.counter 1
  have found' : (ledger.count id cause.counter).guard? id = some held := by
    rw [guard?, counted.guards]
    exact found
  refine .next (Task.modify_run _ _) ?_
  generalize ledger.count id cause.counter = mid at counted found'
  refine .next (Task.get_run mid) (.next (Task.lift_run _ mid) ?_)
  simp only [takeAction, found', Option.map_some, Option.getD_some, Option.bind_some]
  cases act : held.action with
  | none =>
    have same : (mid.onGuard id fun held => { held with action := none }).log = ledger.log := counted.log
    exact same.trans (List.append_nil _).symm
  | some action =>
    obtain ⟨alone, whole⟩ := quiet action act
    have noted : ((mid.onGuard id fun held => { held with action := none }).note
        (.fired id held.handle cause)).log = ledger.log ++ [.fired id held.handle cause] :=
      congrArg (· ++ [Happening.fired id held.handle cause]) counted.log
    refine .next (Task.modify_run _ _) ?_
    rw [alone, whole]
    exact noted

/-- What a teardown does with a guard that nobody released before and nobody pins. -/
theorem release_ended (found : ledger.guard? id = some held) (quiet : held.Quiet)
    (unclaimed : held.flags.claimed = false) :
    ∃ after, release id .lifespanEnded ledger = .ok true after ∧
      after.guard? id = some (held.spent held.link) ∧
      (∀ other, other ≠ id → after.guard? other = ledger.guard? other) ∧
      after.log = ledger.log ++ (ledger.firing id).toList ∧ after.lifespans = ledger.lifespans := by
  have claimed := guard?_onGuard_self found fun held =>
    { held with flags := { held.flags with releasing := true } }
  obtain ⟨mid, fired, touched, tables, taken, -⟩ := fireBy_run dropOwner claimed quiet .lifespanEnded
  have log := fireBy_log dropOwner claimed quiet .lifespanEnded
  rw [Task.Ends.of_ok fired] at log
  refine ⟨mid.conclude id .lifespanEnded, ?_, guard?_onGuard_self taken _, fun other differs => ?_, ?_, tables⟩
  · unfold release
    rw [Task.bind_ok (Task.lift_run _ ledger)]
    simp only [claim, found, unclaimed, Bool.not_false, if_true]
    unfold run runBy
    rw [Task.bind_run, Task.bind_ok fired]
    rfl
  · refine ((Touches.onGuard mid id _).others other differs).trans ((touched.others other differs).trans ?_)
    exact (Touches.onGuard ledger id _).others other differs
  · rw [firing, found, Option.bind_some]
    exact log

/-! ## The guards of one table -/

/-- The guards that a teardown releases, given those that it comes to: each one when it comes
    to it for the first time. -/
def releases (thread : ThreadId) (ledger : Ledger) (visited : List GuardId) : List GuardId :=
  (visited.filter (ledger.releasable thread)).eraseDups

/-- A teardown by the thread came to the guards in order, released some, ran their actions
    and counted them. -/
structure Sweeps (thread : ThreadId) (visited : List GuardId) (count : Nat) (before after : Ledger) : Prop where
  guards : ∀ id, after.guard? id
    = if id ∈ visited then (before.guard? id).map (·.reached thread) else before.guard? id
  log : after.log = before.log ++ (before.releases thread visited).filterMap before.firing
  count : count = (before.releases thread visited).length

theorem mem_releases {visited : List GuardId} :
    id ∈ ledger.releases thread visited ↔ id ∈ visited ∧ ledger.releasable thread id = true := by
  rw [releases, List.mem_eraseDups, List.mem_filter]

theorem nodup_eraseDups (ids : List GuardId) : ids.eraseDups.Nodup := by
  induction size : ids.length using Nat.strongRecOn generalizing ids with
  | ind size inductionHypothesis =>
    cases ids with
    | nil => exact List.nodup_nil
    | cons id ids =>
      rw [List.eraseDups_cons, List.nodup_cons]
      refine ⟨fun among => ?_, inductionHypothesis _ ?_ _ rfl⟩
      · simp [List.mem_eraseDups] at among
      · rw [← size]
        exact Nat.lt_succ_of_le (List.length_filter_le _ ids)

/-- No guard is released twice. -/
theorem nodup_releases (thread : ThreadId) (ledger : Ledger) (visited : List GuardId) :
    (ledger.releases thread visited).Nodup :=
  nodup_eraseDups _

namespace Sweeps

variable {visited visited' : List GuardId} {count count' : Nat}

theorem refl (thread : ThreadId) (ledger : Ledger) : Sweeps thread [] 0 ledger ledger :=
  ⟨fun _ => rfl, (List.append_nil _).symm, rfl⟩

/-- Changes that leave guards and actions alone. -/
theorem of_same (guards : after.guards = before.guards) (log : after.log = before.log) :
    Sweeps thread [] 0 before after :=
  ⟨fun _ => by rw [guard?_congr guards]; rfl, by rw [log]; exact (List.append_nil _).symm, rfl⟩

/-- What can still be released has not been come to. -/
theorem releasable_iff (sweeps : Sweeps thread visited count before mid) (id : GuardId) :
    mid.releasable thread id = (before.releasable thread id && decide (id ∉ visited)) := by
  unfold releasable
  rw [sweeps.guards id]
  by_cases among : id ∈ visited
  · simp only [among, if_true, not_true_eq_false, decide_false, Bool.and_false, Option.map_map]
    cases before.guard? id with
    | none => rfl
    | some held => exact held.releasable_reached
  · simp only [among, if_false, not_false_eq_true, decide_true, Bool.and_true]

/-- What is released later is released by the whole. -/
theorem releases_append (sweeps : Sweeps thread visited count before mid) (visited' : List GuardId) :
    before.releases thread (visited ++ visited')
      = before.releases thread visited ++ mid.releases thread visited' := by
  unfold releases
  rw [List.filter_append, List.eraseDups_append, List.removeAll, List.filter_filter]
  congr 2
  refine List.filter_congr fun id _ => ?_
  rw [sweeps.releasable_iff id]
  cases free : before.releasable thread id <;> simp [free]

theorem firing_eq (sweeps : Sweeps thread visited count before mid) {id : GuardId}
    (free : mid.releasable thread id = true) : mid.firing id = before.firing id := by
  rw [sweeps.releasable_iff id, Bool.and_eq_true, decide_eq_true_eq] at free
  rw [firing, sweeps.guards id, if_neg free.2, firing]

theorem trans (first : Sweeps thread visited count before mid)
    (second : Sweeps thread visited' count' mid after) :
    Sweeps thread (visited ++ visited') (count + count') before after where
  guards id := by
    rw [second.guards id, first.guards id]
    by_cases among : id ∈ visited <;> by_cases among' : id ∈ visited'
    · simp only [among, among', List.mem_append, if_true, or_self, Option.map_map]
      cases before.guard? id with
      | none => rfl
      | some held => exact congrArg some held.reached_reached
    all_goals simp [among, among']
  log := by
    have later : (mid.releases thread visited').filterMap mid.firing
        = (mid.releases thread visited').filterMap before.firing :=
      List.filterMap_congr fun id among => first.firing_eq (mem_releases.mp among).2
    rw [second.log, first.log, later, first.releases_append, List.filterMap_append, List.append_assoc]
  count := by
    rw [first.count, second.count, first.releases_append, List.length_append]

/-- The guards that were released are those whose release was claimed meanwhile. -/
theorem mem_releases_iff (sweeps : Sweeps thread visited count before mid) {id : GuardId} :
    id ∈ before.releases thread visited ↔ ¬ before.Claimed id ∧ mid.Claimed id := by
  rw [mem_releases]
  unfold Claimed releasable
  rw [sweeps.guards]
  cases found : before.guard? id with
  | none => simp
  | some held =>
    by_cases among : id ∈ visited
    · simp only [among, true_and, if_true, Option.map_some, Option.getD_some, Option.mem_some_iff, exists_eq_left',
        Guard.claimed_reached]
      refine ⟨fun free => ⟨?_, .inr free⟩, fun claimed => claimed.2.resolve_left claimed.1⟩
      exact ne_true_of_eq_false (Guard.releasable_iff.mp free).1
    · simp [among]

end Sweeps

/-- What became of the one guard that a teardown came to tells the rest, since no other guard
    changed. -/
theorem Sweeps.single (found : ledger.guard? id = some held)
    (self : after.guard? id = some (held.reached thread))
    (others : ∀ other, other ≠ id → after.guard? other = ledger.guard? other)
    (log : after.log = ledger.log ++ if held.releasable thread then (ledger.firing id).toList else []) :
    Sweeps thread [id] (held.releasable thread).toNat ledger after := by
  have freed : ledger.releases thread [id] = if held.releasable thread then [id] else [] := by
    have free : ledger.releasable thread id = held.releasable thread := by
      rw [releasable, found, Option.map_some, Option.getD_some]
    rw [releases, List.filter_cons, List.filter_nil, free]
    split <;> rfl
  refine ⟨fun other => ?_, ?_, ?_⟩
  · by_cases same : other = id
    · subst same
      rw [self, if_pos List.mem_cons_self, found, Option.map_some]
    · rw [others other same, if_neg (by simpa using same)]
  · rw [log, freed]
    split
    · cases act : ledger.firing id <;> simp [act]
    · rfl
  · rw [freed]
    cases held.releasable thread <;> rfl

/-- A teardown comes to a guard that no other thread pins and that has no action any more if
    it was released before. -/
theorem releaseByLifespan_run (found : ledger.guard? id = some held)
    (spent : held.flags.claimed = true → held.action = none) (pinners : ∀ holder ∈ held.holders, holder = thread) :
    releaseByLifespan thread id ledger
      = (if held.flags.claimed then return false
        else if thread ∈ held.holders then do
          modify (·.onGuard id fun held => { held with deferred := true })
          return false
        else release id .lifespanEnded : Task Ledger Bool) (ledger.onGuard id Guard.closed) := by
  have found' : (ledger.onGuard id fun held =>
      { held with flags := { held.flags with closing := true } }).guard? id = some held.closed :=
    guard?_onGuard_self found _
  have closed : held.closed.flags.claimed = held.flags.claimed := rfl
  have pinned : held.closed.holders = held.holders := rfl
  unfold releaseByLifespan
  rw [Task.bind_ok (Task.modify_run _ ledger), Task.bind_ok (Task.get_run _), found']
  dsimp only
  rw [closed, pinned]
  split
  · next claimed =>
    rw [show held.closed.action = none from spent claimed]
    rfl
  · split
    · rfl
    · next unpinned =>
      -- no other thread can pin it
      have none : held.holders = [] := by
        apply List.eq_nil_iff_forall_not_mem.mpr
        intro holder among
        exact unpinned (pinners holder among ▸ among)
      rw [none]
      exact Task.bind_ok rfl

/-- A teardown comes to a guard. -/
theorem releaseByLifespan_sweeps (sound : Sound thread (id :: loose) ledger)
    (found : ledger.guard? id = some held) :
    ∃ after, releaseByLifespan thread id ledger = .ok (held.releasable thread) after ∧
      Sweeps thread [id] (held.releasable thread).toNat ledger after := by
  have good := sound.good id held found
  have found' : (ledger.onGuard id Guard.closed).guard? id = some held.closed := guard?_onGuard_self found _
  have touched := Touches.onGuard ledger id Guard.closed
  rw [releaseByLifespan_run found good.spent good.pinners]
  -- A guard reached is claimed already, pinned, or released now; only the last fires its action.
  obtain claimed | ⟨unclaimed, pinned⟩ | free := held.found_cases thread
  · have spared : held.releasable thread = false := Guard.spared_of_claimed claimed
    rw [if_pos claimed, spared]
    refine ⟨_, rfl, spared ▸ Sweeps.single found ?_ touched.others ?_⟩
    · rw [found', Guard.reached_of_claimed claimed]
    · rw [spared]
      exact (List.append_nil _).symm
  · have spared := Guard.spared_of_pinned pinned
    rw [if_neg (ne_true_of_eq_false unclaimed), if_pos pinned, spared]
    refine ⟨_, rfl, spared ▸ Sweeps.single found ?_ (touched.trans (.onGuard _ id _)).others ?_⟩
    · rw [Guard.reached_of_pinned unclaimed pinned]
      exact guard?_onGuard_self found' _
    · rw [spared]
      exact (List.append_nil _).symm
  · obtain ⟨unclaimed, unpinned⟩ := Guard.releasable_iff.mp free
    have firing' : (ledger.onGuard id Guard.closed).firing id = ledger.firing id := by
      rw [firing, found', firing, found]
      rfl
    obtain ⟨after, ran, self, others, log, -⟩ := release_ended found' good.quiet unclaimed
    rw [if_neg (ne_true_of_eq_false unclaimed), if_neg unpinned, free]
    refine ⟨after, ran, free ▸ Sweeps.single found ?_ (fun other differs => ?_) ?_⟩
    · rw [self, Guard.reached_of_releasable free]
      rfl
    · exact (others other differs).trans (touched.others other differs)
    · rw [log, firing', if_pos free]
      rfl

/-- A teardown comes to the guards of a table. -/
theorem releaseAll_sweeps (guards : List GuardId) (sound : Sound thread (guards ++ loose) ledger) :
    ∃ count after, releaseAll thread guards ledger = .ok count after ∧ Sweeps thread guards count ledger after := by
  induction guards generalizing ledger with
  | nil => exact ⟨0, ledger, rfl, .refl thread ledger⟩
  | cons id guards inductionHypothesis =>
    have counted := same_count ledger id .guardRegistered (-1)
    have first : Leads thread (· = .lifespanEnded) (fun _ => True) _ _ ledger _ := sound.same counted
    obtain ⟨held, found⟩ := Option.isSome_iff_exists.mp (first.sound.loose id List.mem_cons_self)
    obtain ⟨mid, ran, swept⟩ := releaseByLifespan_sweeps first.sound found
    obtain ⟨released', mid', ran', second, -⟩ := @releaseByLifespan_sound _ _ _ _ _ (fun _ => True) first.sound found trivial
    cases ran.symm.trans ran'
    obtain ⟨count, after, rest, later⟩ := inductionHypothesis second.sound
    refine ⟨(held.releasable thread).toNat + count, after, Task.sum_cons ?_ rest, ?_⟩
    · rw [Task.bind_ok (Task.modify_run _ ledger), Task.map_run, ran]
    · have whole := ((Sweeps.of_same counted.guards counted.log).trans swept).trans later
      rwa [Nat.zero_add] at whole

/-! ## Trees of lifespans -/

/-- The guards in the table of the lifespan. -/
def table (ledger : Ledger) (lifespan : LifespanId) : List GuardId :=
  ((ledger.lifespan? lifespan).map (·.guards)).getD []

/-- The lifespan is there and has not ended. -/
def Standing (ledger : Ledger) (lifespan : LifespanId) : Prop :=
  ∃ scope, ledger.lifespan? lifespan = some scope ∧ scope.ended = false

/-- The lifespan knows the other one as one that is inside it. -/
def Nests (ledger : Ledger) (lifespan child : LifespanId) : Prop :=
  ∃ scope, ledger.lifespan? lifespan = some scope ∧ child ∈ scope.children

/-- The lifespan is the other one or leads to it, from parents to children. -/
abbrev Leading (ledger : Ledger) : LifespanId → LifespanId → Prop := Relation.ReflTransGen ledger.Nests

/-- When a lifespan has its turn, those inside it that have not ended have had theirs. -/
def ChildrenFirst (ledger : Ledger) (turns : List LifespanId) : Prop :=
  ∀ earlier turn later, turns = earlier ++ turn :: later →
    ∀ child, ledger.Nests turn child → ledger.Standing child → child ∈ earlier

/-- A teardown of some lifespans took the given ones, in order, emptied their tables, came to
    the guards in them, and ended them as it is said. -/
structure Walks (thread : ThreadId) (shut : LifespanId → Bool) (roots turns : List LifespanId) (count : Nat)
    (before after : Ledger) : Prop where
  once : turns.Nodup
  standing : ∀ turn ∈ turns, before.Standing turn
  below : ∀ turn ∈ turns, ∃ root ∈ roots, before.Leading root turn
  whole : ∀ root ∈ roots, before.Standing root → root ∈ turns
  order : before.ChildrenFirst turns
  tables : ∀ id, after.lifespan? id
    = if id ∈ turns then (before.lifespan? id).map (emptied (shut id)) else before.lifespan? id
  sweeps : Sweeps thread (turns.flatMap before.table) count before after

/-- What knows lifespans inside it has not ended. -/
theorem Sound.standing_of_nests (sound : Sound thread loose ledger) {lifespan child : LifespanId}
    (nests : ledger.Nests lifespan child) : ledger.Standing lifespan := by
  obtain ⟨scope, found, among⟩ := nests
  refine ⟨scope, found, ?_⟩
  cases finished : scope.ended with
  | false => rfl
  | true =>
    rw [(sound.closed lifespan scope found finished).2] at among
    cases among

/-- The numbers of lifespans grow from parents to children. -/
theorem Sound.le_of_leading (sound : Sound thread loose ledger) {lifespan inner : LifespanId}
    (leading : ledger.Leading lifespan inner) : lifespan ≤ inner := by
  induction leading with
  | refl => exact Nat.le_refl _
  | tail _ nests inductionHypothesis =>
    obtain ⟨scope, found, among⟩ := nests
    exact Nat.le_of_lt (Nat.lt_of_le_of_lt inductionHypothesis (sound.inside _ scope found _ among).1)

/-- An element of two lists in a row is in the first one or in the second one. -/
theorem append_split {α : Type} {first second earlier later : List α} {one : α}
    (split : first ++ second = earlier ++ one :: later) :
    (∃ more, first = earlier ++ one :: more) ∨
      ∃ more, earlier = first ++ more ∧ second = more ++ one :: later := by
  obtain ⟨more, rfl, rest⟩ | ⟨more, rfl, rest⟩ := List.append_eq_append_iff.mp split
  · exact .inr ⟨more, rfl, rest⟩
  · cases more with
    | nil => exact .inr ⟨[], by rw [List.append_nil, List.append_nil], rest.symm⟩
    | cons head more =>
      obtain ⟨rfl, -⟩ := List.cons_eq_cons.mp rest
      exact .inl ⟨more, rfl⟩

/-- Turns may follow if those inside them have had theirs. -/
theorem ChildrenFirst.append {turns turns' : List LifespanId} (first : ledger.ChildrenFirst turns)
    (second : ∀ earlier turn later, turns' = earlier ++ turn :: later →
      ∀ child, ledger.Nests turn child → ledger.Standing child → child ∈ turns ++ earlier) :
    ledger.ChildrenFirst (turns ++ turns') := by
  intro earlier turn later split child nests standing
  obtain ⟨more, rfl⟩ | ⟨more, rfl, rest⟩ := append_split split
  · exact first earlier turn more rfl child nests standing
  · exact second more turn later rest child nests standing

/-- The turns up to some point include those of all that is inside. -/
theorem Sound.earlier_closed (sound : Sound thread loose ledger) {turns earlier rest : List LifespanId}
    (order : ledger.ChildrenFirst turns) (split : turns = earlier ++ rest) {lifespan inner : LifespanId}
    (among : lifespan ∈ earlier) (leading : ledger.Leading lifespan inner) (standing : ledger.Standing inner) :
    inner ∈ earlier := by
  induction leading using Relation.ReflTransGen.head_induction_on with
  | refl => exact among
  | head nests leading inductionHypothesis =>
    obtain ⟨first, second, rfl⟩ := List.append_of_mem among
    refine inductionHypothesis ?_
    rename_i lifespan child
    have alive : ledger.Standing child := by
      obtain rfl | ⟨next, nests, -⟩ := Relation.ReflTransGen.cases_head leading
      · exact standing
      · exact sound.standing_of_nests nests
    have had := order first lifespan (second ++ rest) (by rw [split, List.append_assoc]; rfl) child nests alive
    exact List.mem_append_left _ had

namespace Walks

variable {shut : LifespanId → Bool} {roots roots' turns turns' : List LifespanId} {count count' : Nat}

theorem refl (ended : ∀ root ∈ roots, ¬ ledger.Standing root) : Walks thread shut roots [] 0 ledger ledger where
  once := List.nodup_nil
  standing _ among := absurd among List.not_mem_nil
  below _ among := absurd among List.not_mem_nil
  whole root among standing := absurd standing (ended root among)
  order earlier _ _ split := absurd split.symm (List.append_ne_nil_of_right_ne_nil earlier (List.cons_ne_nil _ _))
  tables _ := rfl
  sweeps := .refl thread ledger

/-- No lifespan learns of another one inside it. -/
theorem nests (walks : Walks thread shut roots turns count before after) {lifespan child : LifespanId}
    (nests : after.Nests lifespan child) : before.Nests lifespan child := by
  obtain ⟨scope, found, among⟩ := nests
  rw [walks.tables] at found
  split at found
  · obtain ⟨old, -, rfl⟩ := Option.map_eq_some_iff.mp found
    cases among
  · exact ⟨scope, found, among⟩

theorem leading (walks : Walks thread shut roots turns count before after) {lifespan inner : LifespanId}
    (leading : after.Leading lifespan inner) : before.Leading lifespan inner :=
  Relation.ReflTransGen.mono (fun _ _ => walks.nests) _ _ leading

/-- What had no turn is as it was. -/
theorem lifespan?_of_not_mem (walks : Walks thread shut roots turns count before after) {id : LifespanId}
    (apart : id ∉ turns) : after.lifespan? id = before.lifespan? id := by
  rw [walks.tables, if_neg apart]

/-- With every turn a lifespan ends. -/
theorem standing_iff (walks : Walks thread shut roots turns count before after)
    (shuts : ∀ turn ∈ turns, shut turn = true) (id : LifespanId) :
    after.Standing id ↔ before.Standing id ∧ id ∉ turns := by
  unfold Standing
  rw [walks.tables]
  split
  · next among =>
    refine ⟨?_, fun standing => absurd among standing.2⟩
    rintro ⟨scope, found, alive⟩
    obtain ⟨old, -, rfl⟩ := Option.map_eq_some_iff.mp found
    have ended : shut id = false := alive
    rw [shuts id among] at ended
    cases ended
  · next apart => exact ⟨fun standing => ⟨standing, apart⟩, And.left⟩

/-- What has its turn in a second teardown could be used before the first one and had no turn in it. -/
theorem fresh (first : Walks thread shut roots turns count before mid) (shuts : ∀ turn ∈ turns, shut turn = true)
    (second : Walks thread shut roots' turns' count' mid after) {turn : LifespanId} (among : turn ∈ turns') :
    before.Standing turn ∧ turn ∉ turns := (first.standing_iff shuts turn).mp (second.standing turn among)

/-- One teardown after another. -/
theorem trans (first : Walks thread shut roots turns count before mid) (shuts : ∀ turn ∈ turns, shut turn = true)
    (second : Walks thread shut roots' turns' count' mid after) :
    Walks thread shut (roots ++ roots') (turns ++ turns') (count + count') before after where
  -- The first walk shuts all it turns to, so the second turns to none of them again.
  once := by
    rw [List.nodup_append]
    refine ⟨first.once, second.once, ?_⟩
    rintro turn among _ among' rfl
    exact (first.fresh shuts second among').2 among
  standing turn among :=
    (List.mem_append.mp among).elim (first.standing turn) fun later => (first.fresh shuts second later).1
  below turn among := by
    cases List.mem_append.mp among with
    | inl sooner =>
      obtain ⟨root, its, leading⟩ := first.below turn sooner
      exact ⟨root, List.mem_append_left _ its, leading⟩
    | inr later =>
      obtain ⟨root, its, leading⟩ := second.below turn later
      exact ⟨root, List.mem_append_right _ its, first.leading leading⟩
  whole root its standing := by
    by_cases had : root ∈ turns
    · exact List.mem_append_left _ had
    · cases List.mem_append.mp its with
      | inl sooner => exact absurd (first.whole root sooner standing) had
      | inr later =>
        exact List.mem_append_right _ (second.whole root later ((first.standing_iff shuts root).mpr ⟨standing, had⟩))
  order := by
    refine first.order.append fun earlier turn later split child nests standing => ?_
    by_cases had : child ∈ turns
    · exact List.mem_append_left _ had
    · have among : turn ∈ turns' := split ▸ List.mem_append_right _ List.mem_cons_self
      have nests' : mid.Nests turn child := by
        unfold Nests
        rwa [first.lifespan?_of_not_mem (first.fresh shuts second among).2]
      exact List.mem_append_right _
        (second.order earlier turn later split child nests' ((first.standing_iff shuts child).mpr ⟨standing, had⟩))
  tables id := by
    rw [second.tables, first.tables]
    by_cases had : id ∈ turns
    · have not' : id ∉ turns' := fun later => (first.fresh shuts second later).2 had
      rw [if_neg not', if_pos had, if_pos (List.mem_append_left _ had)]
    · by_cases had' : id ∈ turns'
      · rw [if_pos had', if_neg had, if_pos (List.mem_append_right _ had')]
      · rw [if_neg had', if_neg had, if_neg (by simp [had, had'])]
  sweeps := by
    have same : turns'.flatMap mid.table = turns'.flatMap before.table :=
      List.flatMap_congr fun turn among => by rw [table, first.lifespan?_of_not_mem (first.fresh shuts second among).2, table]
    rw [List.flatMap_append, ← same]
    exact first.sweeps.trans second.sweeps

end Walks

/-- Lifespans are torn down in order, given that each can be. -/
theorem walks_all {depth : Nat} {children : List LifespanId}
    (each : ∀ child ledger, Sound thread loose ledger → ledger.rank child ≤ depth →
      ∃ count after turns, teardownWithin thread depth child true ledger = .ok count after ∧
        Sound thread loose after ∧ after.lifespans.ids = ledger.lifespans.ids ∧
          Walks thread (fun _ => true) [child] turns count ledger after)
    (sound : Sound thread loose ledger) (shallow : ∀ child ∈ children, ledger.rank child ≤ depth) :
    ∃ count after turns, Task.sum (fun child => teardownWithin thread depth child true) children ledger
        = .ok count after ∧
      Sound thread loose after ∧ after.lifespans.ids = ledger.lifespans.ids ∧
        Walks thread (fun _ => true) children turns count ledger after := by
  induction children generalizing ledger with
  | nil => exact ⟨0, ledger, [], rfl, sound, rfl, .refl fun root among => absurd among List.not_mem_nil⟩
  | cons child children inductionHypothesis =>
    obtain ⟨count, mid, turns, ran, sound', ids, walks⟩ := each child ledger sound (shallow child List.mem_cons_self)
    obtain ⟨count', after, turns', rest, sound'', ids', walks'⟩ := inductionHypothesis sound' fun other among => by
      rw [rank_congr ids]
      exact shallow other (List.mem_cons_of_mem child among)
    exact ⟨count + count', after, turns ++ turns', Task.sum_cons ran rest, sound'', ids'.trans ids,
      walks.trans (fun _ _ => rfl) walks'⟩

/-! ## A lifespan that is entered -/

section entered

variable {lifespan other : LifespanId} {close : Bool} {guards : List GuardId}

theorem lifespan?_entered (differs : other ≠ lifespan) :
    (ledger.entered lifespan close guards).lifespan? other = ledger.lifespan? other :=
  (lifespan?_onLifespan ledger lifespan other _).trans (if_neg differs)

theorem lifespan?_entered_self :
    (ledger.entered lifespan close guards).lifespan? lifespan = (ledger.lifespan? lifespan).map (emptied close) :=
  (lifespan?_onLifespan ledger lifespan lifespan _).trans (if_pos rfl)

theorem standing_entered (differs : other ≠ lifespan) :
    (ledger.entered lifespan close guards).Standing other ↔ ledger.Standing other := by
  unfold Standing
  rw [lifespan?_entered differs]

theorem nests_entered {child : LifespanId} (differs : other ≠ lifespan) :
    (ledger.entered lifespan close guards).Nests other child ↔ ledger.Nests other child := by
  unfold Nests
  rw [lifespan?_entered differs]

/-- Nothing is inside what is entered any more. -/
theorem nests_of_entered {child : LifespanId} (nests : (ledger.entered lifespan close guards).Nests other child) :
    ledger.Nests other child := by
  obtain ⟨scope, found, among⟩ := nests
  obtain old | ⟨-, -, none⟩ := @lifespan?_emptied ledger lifespan close _ _ found
  · exact ⟨scope, old, among⟩
  · rw [none] at among
    cases among

end entered

section around

variable {lifespan : LifespanId} {scope : Lifespan} {close : Bool} {turns : List LifespanId} {below : Nat}
  (inner : Walks thread (fun _ => true) scope.children turns below (ledger.entered lifespan close scope.guards) mid)

include inner

/-- What has its turn within a lifespan is inside one of those that it knows. -/
theorem Walks.within {turn : LifespanId} (among : turn ∈ turns) : ∃ child ∈ scope.children, ledger.Leading child turn := by
  obtain ⟨child, its, leading⟩ := inner.below turn among
  exact ⟨child, its, Relation.ReflTransGen.mono (fun _ _ => nests_of_entered) _ _ leading⟩

variable (sound : Sound thread loose ledger) (found : ledger.lifespan? lifespan = some scope)

include sound found

/-- The numbers grow towards the inside, so the lifespan itself has no turn within. -/
theorem Walks.apart {turn : LifespanId} (among : turn ∈ turns) : turn ≠ lifespan := by
  rintro rfl
  obtain ⟨child, its, leading⟩ := inner.within among
  exact Nat.not_lt.mpr (sound.le_of_leading leading) (sound.inside turn scope found child its).1

/-- The lifespan has its turn after all that is inside it. -/
theorem Walks.order_around : ledger.ChildrenFirst (turns ++ [lifespan]) := by
  have differs {turn child : LifespanId} (leading : ledger.Leading lifespan turn) (nests : ledger.Nests turn child) :
      child ≠ lifespan := by
    rintro rfl
    obtain ⟨scope', found', among⟩ := nests
    exact Nat.not_lt.mpr (sound.le_of_leading leading) (sound.inside turn scope' found' child among).1
  have order : ledger.ChildrenFirst turns := fun earlier turn later split child nests standing => by
    have among : turn ∈ turns := split ▸ List.mem_append_right _ List.mem_cons_self
    obtain ⟨root, its, leading⟩ := inner.within among
    exact inner.order earlier turn later split child ((nests_entered (inner.apart sound found among)).mpr nests)
      ((standing_entered (differs (.head ⟨scope, found, its⟩ leading) nests)).mpr standing)
  refine order.append fun earlier turn later split child nests standing => List.mem_append_left _ ?_
  -- the turn is the last one, that of the lifespan itself
  obtain rfl : turn = lifespan := List.mem_singleton.mp (split ▸ List.mem_append_right _ List.mem_cons_self)
  obtain ⟨scope', found', among⟩ := nests
  cases found.symm.trans found'
  exact inner.whole child among ((standing_entered (differs .refl ⟨scope, found, among⟩)).mpr standing)

theorem Walks.tables_around (id : LifespanId) : mid.lifespan? id =
    if id ∈ turns ++ [lifespan] then (ledger.lifespan? id).map (emptied (close || id != lifespan)) else ledger.lifespan? id := by
  rw [inner.tables]
  by_cases its : id = lifespan
  · subst its
    rw [if_neg fun among => inner.apart sound found among rfl, if_pos (List.mem_append_right _ List.mem_cons_self),
      bne_self_eq_false, Bool.or_false, lifespan?_entered_self]
  · have ends : (close || id != lifespan) = true := by rw [bne_iff_ne.mpr its, Bool.or_true]
    rw [lifespan?_entered its, ends]
    simp only [List.mem_append, List.mem_singleton, its, or_false]

/-- A lifespan is emptied, those inside it are torn down, and then the teardown comes to the
    guards that were in its table. -/
theorem Walks.around {here : Nat} {last : Ledger} (alive : scope.ended = false)
    (swept : Sweeps thread scope.guards here mid last) (same : last.lifespans = mid.lifespans) :
    Walks thread (fun id => close || id != lifespan) [lifespan] (turns ++ [lifespan]) (below + here) ledger
      { last with busy := ledger.busy } where
  -- The walk inside turns to the children; the parent comes last, and is none of them.
  once := by
    rw [List.nodup_append]
    refine ⟨inner.once, List.pairwise_singleton _ _, ?_⟩
    rintro turn among _ among' rfl
    exact inner.apart sound found among (List.mem_singleton.mp among')
  standing turn among := by
    cases List.mem_append.mp among with
    | inl sooner => exact (standing_entered (inner.apart sound found sooner)).mp (inner.standing turn sooner)
    | inr last =>
      rw [List.mem_singleton.mp last]
      exact ⟨scope, found, alive⟩
  below turn among := by
    refine ⟨lifespan, List.mem_cons_self, ?_⟩
    cases List.mem_append.mp among with
    | inl sooner =>
      obtain ⟨child, its, leading⟩ := inner.within sooner
      exact .head ⟨scope, found, its⟩ leading
    | inr last => rw [List.mem_singleton.mp last]
  whole root its _ := List.mem_append_right _ its
  order := inner.order_around sound found
  tables id := (congrArg (Numbered.get? · id) same).trans (inner.tables_around sound found id)
  sweeps := by
    have tables : turns.flatMap (ledger.entered lifespan close scope.guards).table = turns.flatMap ledger.table :=
      List.flatMap_congr fun turn among => by rw [table, lifespan?_entered (inner.apart sound found among), table]
    have start : Sweeps thread [] 0 ledger (ledger.entered lifespan close scope.guards) := .of_same rfl rfl
    have finish : Sweeps thread [] 0 last { last with busy := ledger.busy } := .of_same rfl rfl
    have whole := ((start.trans inner.sweeps).trans swept).trans finish
    rw [Nat.zero_add, List.nil_append, tables, Nat.add_zero, List.append_nil] at whole
    rw [List.flatMap_append, List.flatMap_singleton]
    rwa [show scope.guards = ledger.table lifespan by rw [table, found]; rfl] at whole

end around

/-- A lifespan that is not there or has ended is not torn down. -/
theorem teardownWithin_fallen {lifespan : LifespanId} (fallen : ¬ ledger.Standing lifespan) (depth : Nat) (close : Bool) :
    teardownWithin thread depth lifespan close ledger = .ok 0 ledger := by
  cases depth with
  | zero => rfl
  | succ depth =>
    unfold teardownWithin
    rw [Task.bind_ok (Task.get_run ledger)]
    cases found : ledger.lifespan? lifespan with
    | none => rfl
    | some scope =>
      have finished : scope.ended = true := by
        cases finished : scope.ended with
        | true => rfl
        | false => exact absurd ⟨scope, found, finished⟩ fallen
      simp only [finished, if_true]
      rfl

/-- A teardown takes the lifespans below its own that have not ended, each one after those
    inside it, and comes to their guards. -/
theorem teardownWithin_walks (depth : Nat) (lifespan : LifespanId) (close : Bool) (ledger : Ledger)
    (sound : Sound thread loose ledger) (shallow : ledger.rank lifespan ≤ depth) :
    ∃ count after turns, teardownWithin thread depth lifespan close ledger = .ok count after ∧
      Sound thread loose after ∧ after.lifespans.ids = ledger.lifespans.ids ∧
        Walks thread (fun id => close || id != lifespan) [lifespan] turns count ledger after := by
  -- On the depth, as the children rank below their parent.
  induction depth generalizing loose lifespan close ledger with
  | zero =>
    have fallen : ¬ ledger.Standing lifespan := by
      rintro ⟨scope, found, -⟩
      exact absurd (rank_pos found) (Nat.not_lt.mpr shallow)
    exact ⟨0, ledger, [], rfl, sound, rfl, .refl fun root its => List.mem_singleton.mp its ▸ fallen⟩
  | succ depth inductionHypothesis =>
    by_cases standing : ledger.Standing lifespan
    · obtain ⟨scope, found, alive⟩ := standing
      have known : lifespan ∈ ledger.lifespans.ids :=
        Numbered.isSome_get?.mp (Option.isSome_iff_exists.mpr ⟨scope, found⟩)
      have first : Leads thread (· = .lifespanEnded) (fun _ => True) loose _ ledger _ := sound.enter found close
      have ids := (Cleared.enter ledger lifespan close scope.guards).ids
      obtain ⟨below, mid, turns, ran, sound', ids', inner⟩ := walks_all (fun child => inductionHypothesis child true)
        first.sound fun child among => by
          have less := rank_lt known (sound.inside lifespan scope found child among).1
          rw [rank_congr ids]
          exact Nat.lt_succ_iff.mp (Nat.lt_of_lt_of_le less shallow)
      obtain ⟨here, last, ran', swept⟩ := releaseAll_sweeps scope.guards sound'
      obtain ⟨here', last', ran'', third, -, tables⟩ :=
        @releaseAll_sound _ (fun _ => True) _ _ scope.guards sound' fun _ _ => trivial
      cases ran'.symm.trans ran''
      have fourth : Leads thread (· = .lifespanEnded) (fun _ => True) _ _ last { last with busy := ledger.busy } :=
        third.sound.same ⟨rfl, rfl, rfl, rfl, rfl⟩
      refine ⟨below + here, { last with busy := ledger.busy }, turns ++ [lifespan], ?_, fourth.sound, ?_,
        inner.around sound found alive swept tables⟩
      · rw [teardownWithin_open found alive]
        exact holding_run ((Task.bind_ok ran).trans (Task.bind_ok ran'))
      · have same : last.lifespans.ids = mid.lifespans.ids := by rw [tables]
        exact (same.trans ids').trans ids
    · exact ⟨0, ledger, [], teardownWithin_fallen standing _ close, sound, rfl,
        .refl fun root its => List.mem_singleton.mp its ▸ standing⟩

/-- A teardown takes just the lifespans that are its own or inside it, at any depth, and have
    not ended. -/
theorem teardown_walks (lifespan : LifespanId) (close : Bool) (sound : Sound thread loose ledger) :
    ∃ count after turns, teardown thread lifespan close ledger = .ok count after ∧ Sound thread loose after ∧
      Walks thread (fun id => close || id != lifespan) [lifespan] turns count ledger after := by
  obtain ⟨count, after, turns, ran, sound', -, walks⟩ := teardownWithin_walks ledger.lifespans.length lifespan close
    ledger sound (rank_le ledger lifespan)
  exact ⟨count, after, turns, (Task.bind_ok (Task.get_run ledger)).trans ran, sound', walks⟩

end Ledger

end CatalogReplica.Lifetime
