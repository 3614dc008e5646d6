import CatalogReplica.Proofs.Lifetime.AfterTeardown
import CatalogReplica.Proofs.Lifetime.Breaking

/-!
# Teardowns that break off

A teardown takes the guards out of the tables first and then comes to them one by one, and
only what it has come to is marked.  When an action breaks off, the teardown ends there:
whoever it did not come to is in no table of the lifespan any more, and as good as new.

* `Ledger.Halts`: a teardown came to its end, or to an action that broke off.
* `Ledger.Unwinds`: what a teardown of some lifespans leaves in either case.
* `Ledger.Weathers`: runs with teardowns of this kind.
* `Ledger.teardown_unwinds`: what became of each guard, and what will.
-/

namespace CatalogReplica

/-- What a task ends with before its value is changed. -/
theorem Task.Ends.map {σ α β : Type} {f : α → β} {body : Task σ α} {state : σ}
    {post : Except Interrupt β → σ → Prop}
    (ends : body.Ends state fun outcome after => post (outcome.map f) after) : (f <$> body).Ends state post := by
  unfold Task.Ends at ends ⊢
  rw [Task.map_run]
  cases ran : body state <;> rw [ran] at ends <;> exact ends

namespace Lifetime.Ledger

variable {thread : ThreadId} {ledger before mid after last : Ledger} {id : GuardId} {held : Guard}
  {lifespan : LifespanId} {close : Bool} {visited visited' : List GuardId} {outcome : Except Interrupt Nat}

/-! ## How far a teardown gets -/

/-- A teardown that came to the guards, in order, came to its end if no action broke off, and
    else to the first guard whose action did. -/
def Halts {α : Type} (thread : ThreadId) (ledger : Ledger) (visited : List GuardId) : Except Interrupt α → Prop
  | .ok _ => ∀ id ∈ visited, ledger.breaks thread id = false
  | .error interrupt => interrupt = .crash none ∧ ∃ earlier culprit, visited = earlier ++ [culprit] ∧
      ledger.breaks thread culprit = true ∧ ∀ id ∈ earlier, ledger.breaks thread id = false

/-- A teardown that did not break off goes on. -/
theorem Halts.onward {α : Type} {outcome : Except Interrupt α} (meets : Meets thread visited before mid)
    (whole : ∀ id ∈ visited, before.breaks thread id = false) (halts : Halts thread mid visited' outcome) :
    Halts thread before (visited ++ visited') outcome := by
  have later : ∀ {ids : List GuardId}, (∀ id ∈ ids, mid.breaks thread id = false) →
      ∀ id ∈ visited ++ ids, before.breaks thread id = false := by
    intro ids fine id among
    by_cases sooner : id ∈ visited
    · exact whole id sooner
    · have spared := fine id ((List.mem_append.mp among).resolve_left sooner)
      rwa [meets.breaks_eq, decide_eq_true sooner, Bool.and_true] at spared
  cases outcome with
  | ok _ => exact later halts
  | error interrupt =>
    obtain ⟨crash, earlier, culprit, rfl, broken, fine⟩ := halts
    rw [meets.breaks_eq, Bool.and_eq_true] at broken
    exact ⟨crash, visited ++ earlier, culprit, (List.append_assoc visited earlier [culprit]).symm, broken.1, later fine⟩

/-- A teardown comes to a guard. -/
theorem releaseByLifespan_halts (sound : Sound thread [] ledger.tame) (found : ledger.guard? id = some held) :
    (releaseByLifespan thread id).Ends ledger fun outcome after =>
      Meets thread [id] ledger after ∧ after.lifespans = ledger.lifespans ∧ Halts thread ledger [id] outcome := by
  have good := sound.of_tame found
  have found' : (ledger.onGuard id Guard.closed).guard? id = some held.closed := guard?_onGuard_self found _
  have touched := Touches.onGuard ledger id Guard.closed
  have breaks : ledger.breaks thread id = held.breaks thread := by
    rw [Ledger.breaks, found, Option.map_some, Option.getD_some]
  refine .of_run (releaseByLifespan_run found good.untaken good.pinners) ?_
  -- a guard that is not released breaks nothing off
  have spares {after : Ledger} (spared : held.releasable thread = false)
      (self : after.guard? id = some (held.reached thread)) (touched : Touches id ledger after)
      (causes : after.causes id = ledger.causes id) : Meets thread [id] ledger after ∧
        Halts thread ledger [id] (.ok false) := by
    have whole : held.breaks thread = false := by rw [Guard.breaks, spared, Bool.false_and]
    refine ⟨.single found (Guard.met_of_whole whole ▸ self) touched ?_, fun other among => ?_⟩
    · rw [causes, Guard.runs, spared, Bool.false_and]
      exact (List.append_nil _).symm
    · rw [List.mem_singleton.mp among, breaks, whole]
  obtain claimed | ⟨unclaimed, pinned⟩ | free := held.found_cases thread
  · rw [if_pos claimed]
    obtain ⟨meets, halts⟩ := spares (Guard.spared_of_claimed claimed)
      (found'.trans (by rw [Guard.reached_of_claimed claimed])) touched rfl
    exact ⟨meets, rfl, halts⟩
  · rw [if_neg (ne_true_of_eq_false unclaimed), if_pos pinned]
    obtain ⟨meets, halts⟩ := spares (Guard.spared_of_pinned pinned)
      ((guard?_onGuard_self found' _).trans (by rw [Guard.reached_of_pinned unclaimed pinned]))
      (touched.trans (.onGuard _ id fun held => { held with deferred := true })) rfl
    exact ⟨meets, rfl, halts⟩
  · obtain ⟨unclaimed, unpinned⟩ := Guard.releasable_iff.mp free
    have broken : held.breaks thread = held.closed.faulty := by
      rw [Guard.breaks, free, Bool.true_and]
      rfl
    have runs : held.runs thread = held.closed.action.isSome := by
      rw [Guard.runs, free, Bool.true_and]
      rfl
    rw [if_neg (ne_true_of_eq_false unclaimed), if_neg unpinned]
    obtain ⟨after, ran, touched', tables, self, causes⟩ := release_halts found' good.alone unclaimed
    have met : held.met thread
        = if held.closed.faulty then held.closed.stuck else held.closed.spent held.closed.link := by
      rw [Guard.met, broken, Guard.reached_of_releasable free]
      rfl
    have meets : Meets thread [id] ledger after :=
      .single found (met ▸ self) (touched.trans touched') (by rw [runs]; exact causes)
    unfold Task.Ends
    rw [ran]
    rw [broken] at breaks
    cases faulty : held.closed.faulty with
    | true => exact ⟨meets, tables, rfl, [], id, rfl, breaks.trans faulty, fun _ among => absurd among List.not_mem_nil⟩
    | false =>
      refine ⟨meets, tables, fun other among => ?_⟩
      rw [List.mem_singleton.mp among, breaks, faulty]

/-- Whether a guard is there is left alone. -/
theorem Meets.known (meets : Meets thread visited before after) (id : GuardId) :
    (after.guard? id).isSome = (before.guard? id).isSome := by
  rw [Bool.eq_iff_iff]
  exact Numbered.isSome_get?.trans (meets.ids ▸ Numbered.isSome_get?.symm)

/-- A guard is counted out, and the teardown comes to it. -/
theorem releaseOne_halts (sound : Sound thread [] ledger.tame) (known : (ledger.guard? id).isSome) :
    Task.Ends (do modify (·.count id .guardRegistered (-1)); Bool.toNat <$> releaseByLifespan thread id : Task Ledger Nat)
      ledger fun outcome after =>
        Meets thread [id] ledger after ∧ after.lifespans = ledger.lifespans ∧ Halts thread ledger [id] outcome := by
  have counted := same_count ledger id .guardRegistered (-1)
  have first : Meets thread [] ledger _ := .of_same counted
  have cleared : Cleared (fun _ => False) ledger _ := .of_lifespans counted.lifespans
  obtain ⟨held, found⟩ := Option.isSome_iff_exists.mp ((first.known id).trans known)
  refine .next (Task.modify_run _ ledger) (.map ((releaseByLifespan_halts (sound.meets first cleared) found).weaken ?_))
  rintro outcome after ⟨meets, tables, halts⟩
  have halts' : Halts thread ledger [id] outcome := .onward first nofun halts
  exact ⟨first.trans meets, tables.trans counted.lifespans, by cases outcome <;> exact halts'⟩

/-- A teardown comes to the guards of a table, or breaks off on the way. -/
theorem releaseAll_halts (guards : List GuardId) (sound : Sound thread [] ledger.tame)
    (known : ∀ id ∈ guards, (ledger.guard? id).isSome) :
    (releaseAll thread guards).Ends ledger fun outcome after => after.lifespans = ledger.lifespans ∧
      ∃ visited, visited ⊆ guards ∧ Meets thread visited ledger after ∧ Halts thread ledger visited outcome ∧
        (∀ count, outcome = .ok count → visited = guards) := by
  induction guards generalizing ledger with
  | nil => exact ⟨rfl, [], List.Subset.refl _, .of_same ⟨rfl, rfl, rfl, rfl, rfl⟩, nofun, fun _ _ => rfl⟩
  | cons id guards inductionHypothesis =>
    refine (releaseOne_halts sound (known id List.mem_cons_self)).bind ?_ ?_
    · rintro here mid ⟨meets, tables, whole⟩
      have cleared : Cleared (fun _ => False) ledger mid := .of_lifespans tables
      refine (inductionHypothesis (sound.meets meets cleared) fun other among => (meets.known other).trans
        (known other (List.mem_cons_of_mem id among))).bind (fun later after ends => ?_) fun interrupt after ends => ?_
      all_goals
        obtain ⟨tables', visited, within, meets', halts, finished⟩ := ends
        refine ⟨tables'.trans tables, id :: visited, List.cons_subset_cons id within, meets.trans meets',
          halts.onward meets whole, fun count ended => ?_⟩
      · exact congrArg (id :: ·) (finished later rfl)
      · cases ended
    · rintro interrupt mid ⟨meets, tables, halts⟩
      exact ⟨tables, [id], List.cons_subset_cons id (List.nil_subset guards), meets, halts, nofun⟩

/-! ## Trees of lifespans -/

/-- How a teardown of some lifespans ends: it came to guards that they held, in order, until
    one broke it off or until it had come to all of them. -/
structure Unwinds (thread : ThreadId) (roots : List LifespanId) (visited : List GuardId) (before after : Ledger)
    (outcome : Except Interrupt Nat) : Prop where
  meets : Meets thread visited before after
  halts : Halts thread before visited outcome
  held : ∀ id ∈ visited, ∃ root ∈ roots, before.Holds root id
  cleared : Cleared (fun id => outcome.isOk = true → id ∈ visited) before after
  whole : outcome.isOk = true → ∀ root ∈ roots, ∀ id, before.Holds root id → id ∈ visited

namespace Unwinds

variable {roots roots' : List LifespanId} {count : Nat}

/-- Nothing is torn down where nothing is held. -/
theorem nothing (ledger : Ledger) (count : Nat) (fallen : ∀ root ∈ roots, ∀ id, ¬ ledger.Holds root id) :
    Unwinds thread roots [] ledger ledger (.ok count) where
  meets := .of_same ⟨rfl, rfl, rfl, rfl, rfl⟩
  halts := nofun
  held := nofun
  cleared := .refl _ ledger
  whole := fun _ root its id holds => absurd holds (fallen root its id)

/-- One teardown after another. -/
theorem trans (first : Unwinds thread roots visited before mid (.ok count))
    (second : Unwinds thread roots' visited' mid after outcome) :
    Unwinds thread (roots ++ roots') (visited ++ visited') before after outcome where
  meets := first.meets.trans second.meets
  halts := second.halts.onward first.meets first.halts
  held id among := by
    cases List.mem_append.mp among with
    | inl sooner =>
      obtain ⟨root, its, holds⟩ := first.held id sooner
      exact ⟨root, List.mem_append_left _ its, holds⟩
    | inr later =>
      obtain ⟨root, its, holds⟩ := second.held id later
      exact ⟨root, List.mem_append_right _ its, first.cleared.held holds⟩
  cleared := (first.cleared.weaken fun _ among _ => List.mem_append_left _ (among rfl)).trans
    (second.cleared.weaken fun _ among whole => List.mem_append_right _ (among whole))
  whole finished root its id holds := by
    cases List.mem_append.mp its with
    | inl sooner => exact List.mem_append_left _ (first.whole rfl root sooner id holds)
    | inr later =>
      cases first.cleared.holds holds with
      | inl still => exact List.mem_append_right _ (second.whole finished root later id still)
      | inr reached => exact List.mem_append_left _ (reached rfl)

/-- What breaks a teardown off breaks off a teardown of more lifespans. -/
theorem stop {interrupt : Interrupt} (unwinds : Unwinds thread roots visited before after (.error interrupt)) :
    Unwinds thread (roots ++ roots') visited before after (.error interrupt) where
  meets := unwinds.meets
  halts := unwinds.halts
  held id among := by
    obtain ⟨root, its, holds⟩ := unwinds.held id among
    exact ⟨root, List.mem_append_left _ its, holds⟩
  cleared := unwinds.cleared
  whole := nofun

/-- How many guards were released does not matter. -/
theorem recount (unwinds : Unwinds thread roots visited before after (.ok count)) (count' : Nat) :
    Unwinds thread roots visited before after (.ok count') :=
  ⟨unwinds.meets, unwinds.halts, unwinds.held, unwinds.cleared, unwinds.whole⟩

/-- A lifespan is emptied, and its guards and those inside are come to. -/
theorem around (sound : Sound thread [] ledger.tame) {scope : Lifespan} (found : ledger.lifespan? lifespan = some scope)
    (meets : Meets thread visited (ledger.entered lifespan close scope.guards) last)
    (halts : Halts thread (ledger.entered lifespan close scope.guards) visited outcome)
    (held : ∀ id ∈ visited, id ∈ scope.guards ∨
      ∃ child ∈ scope.children, (ledger.entered lifespan close scope.guards).Holds child id)
    (cleared : Cleared (fun id => outcome.isOk = true → id ∈ visited) (ledger.entered lifespan close scope.guards) last)
    (whole : outcome.isOk = true → scope.guards ⊆ visited ∧ ∀ child ∈ scope.children,
      ∀ id, (ledger.entered lifespan close scope.guards).Holds child id → id ∈ visited) :
    Unwinds thread [lifespan] visited ledger { last with busy := ledger.busy } outcome := by
  have reached : outcome.isOk = true → ∀ id, ledger.Holds lifespan id → id ∈ visited := by
    intro finished id holds
    obtain ⟨scope', found', table⟩ := holds.table
    cases found.symm.trans found'
    cases table with
    | inl among => exact (whole finished).1 among
    | inr table =>
      -- what a lifespan inside holds, it holds still when its parent is emptied
      obtain ⟨child, among, holds⟩ := table
      have tamed : Cleared (fun _ => False) ledger.tame ledger := .of_lifespans rfl
      have entered : Cleared (fun _ => False) (ledger.entered lifespan close scope.guards)
          (ledger.tame.entered lifespan close scope.guards) := .of_lifespans rfl
      have later := (sound.inside lifespan scope found child among).1
      exact (whole finished).2 child among id (entered.held (sound.holds_entered later (tamed.held holds)))
  refine ⟨⟨meets.guards, meets.causes, meets.ids, meets.queues, meets.next⟩, ?_, ?_, ?_, ?_⟩
  · cases outcome <;> exact halts
  · intro id among
    refine ⟨lifespan, List.mem_cons_self, ?_⟩
    cases held id among with
    | inl its => exact .here found its
    | inr below =>
      obtain ⟨child, its, holds⟩ := below
      exact .inside found its ((Cleared.enter ledger lifespan close scope.guards).held holds)
  · have first := (Cleared.enter ledger lifespan close scope.guards).weaken fun id holds finished =>
      reached finished id holds
    exact (first.trans cleared).trans (.of_lifespans rfl)
  · intro finished root its
    rw [List.mem_singleton.mp its]
    exact reached finished

end Unwinds

/-- The lifespan has no guards in its table and none inside it. -/
def Bare (ledger : Ledger) (lifespan : LifespanId) : Prop :=
  ∀ scope, ledger.lifespan? lifespan = some scope → scope.guards = [] ∧ scope.children = []

theorem bare_entered (ledger : Ledger) (lifespan : LifespanId) (close : Bool) (guards : List GuardId) :
    (ledger.entered lifespan close guards).Bare lifespan := by
  intro scope found
  rw [entered, lifespan?] at found
  change (ledger.onLifespan lifespan (emptied close)).lifespan? lifespan = some scope at found
  rw [lifespan?_onLifespan, if_pos rfl] at found
  obtain ⟨old, -, rfl⟩ := Option.map_eq_some_iff.mp found
  exact ⟨rfl, rfl⟩

theorem Cleared.bare {reached : GuardId → Prop} (cleared : Cleared reached before after) (bare : before.Bare lifespan) :
    after.Bare lifespan := fun scope found =>
  (cleared.tables lifespan scope found).elim (bare scope) fun empty => ⟨empty.1, empty.2.1⟩

/-- Lifespans are torn down in order, until an action breaks off. -/
theorem unwinds_all {depth : Nat} {children : List LifespanId}
    (each : ∀ child ledger, Sound thread [] ledger.tame → ledger.rank child ≤ depth →
      (teardownWithin thread depth child true).Ends ledger fun outcome after =>
        (∃ visited, Unwinds thread [child] visited ledger after outcome) ∧ after.Bare child)
    (sound : Sound thread [] ledger.tame) (shallow : ∀ child ∈ children, ledger.rank child ≤ depth) :
    (Task.sum (fun child => teardownWithin thread depth child true) children).Ends ledger fun outcome after =>
      ∃ visited, Unwinds thread children visited ledger after outcome := by
  induction children generalizing ledger with
  | nil => exact ⟨[], .nothing ledger 0 nofun⟩
  | cons child children inductionHypothesis =>
    refine (each child ledger sound (shallow child List.mem_cons_self)).bind ?_
      fun interrupt after ⟨⟨visited, first⟩, _⟩ => ⟨visited, first.stop⟩
    rintro count mid ⟨⟨visited, first⟩, -⟩
    refine (inductionHypothesis (sound.meets first.meets first.cleared) fun other among => ?_).bind ?_ ?_
    · rw [rank_congr first.cleared.ids]
      exact shallow other (List.mem_cons_of_mem child among)
    · rintro more after ⟨visited', second⟩
      exact ⟨visited ++ visited', (first.trans second).recount (count + more)⟩
    · rintro interrupt after ⟨visited', second⟩
      exact ⟨visited ++ visited', first.trans second⟩

theorem holding_ends {α : Type} {guards : List GuardId} {body : Task Ledger α}
    {post : Except Interrupt α → Ledger → Prop}
    (ends : body.Ends { ledger with busy := guards ++ ledger.busy } fun outcome after =>
      post outcome { after with busy := ledger.busy }) : (holding guards body).Ends ledger post :=
  .next (Task.get_run ledger) (.next (Task.modify_run _ ledger) (.ensuring ends))

/-- A teardown comes to guards that its lifespan holds, until an action breaks off. -/
theorem teardownWithin_unwinds (depth : Nat) (lifespan : LifespanId) (close : Bool) (ledger : Ledger)
    (sound : Sound thread [] ledger.tame) (shallow : ledger.rank lifespan ≤ depth) :
    (teardownWithin thread depth lifespan close).Ends ledger fun outcome after =>
      (∃ visited, Unwinds thread [lifespan] visited ledger after outcome) ∧ after.Bare lifespan := by
  -- On the depth, as the children rank below their parent; the scope is bare whether or not the walk came through.
  induction depth generalizing lifespan close ledger with
  | zero =>
    have absent : ∀ scope, ledger.lifespan? lifespan ≠ some scope := fun scope found =>
      absurd (rank_pos found) (Nat.not_lt.mpr shallow)
    refine ⟨⟨[], .nothing ledger 0 fun root its id holds => ?_⟩, fun scope found => absurd found (absent scope)⟩
    obtain ⟨scope, found, -⟩ := holds.table
    rw [List.mem_singleton.mp its] at found
    exact absent scope found
  | succ depth inductionHypothesis =>
    by_cases standing : ledger.Standing lifespan
    · obtain ⟨scope, found, alive⟩ := standing
      have known : lifespan ∈ ledger.lifespans.ids :=
        Numbered.isSome_get?.mp (Option.isSome_iff_exists.mpr ⟨scope, found⟩)
      have cleared := Cleared.enter ledger lifespan close scope.guards
      have entered : Meets thread [] ledger (ledger.entered lifespan close scope.guards) :=
        ⟨fun _ => rfl, fun _ => (List.append_nil _).symm, rfl, rfl, rfl⟩
      have sound' := sound.meets entered cleared
      refine .of_run (teardownWithin_open found alive depth close)
        (holding_ends ((unwinds_all (fun child => inductionHypothesis child true) sound' ?_).bind ?_ ?_))
      · intro child among
        have less := rank_lt known (sound.inside lifespan scope found child among).1
        rw [rank_congr cleared.ids]
        exact Nat.lt_succ_iff.mp (Nat.lt_of_lt_of_le less shallow)
      · -- those inside came to their end, and the guards of the table are next
        rintro below mid ⟨visited, inner⟩
        have known : ∀ id ∈ scope.guards, (mid.guard? id).isSome := fun id among =>
          (inner.meets.known id).trans
            ((isSome_guard?_arming _ ledger id).symm.trans (sound.registered lifespan scope found id among))
        refine (releaseAll_halts scope.guards (sound'.meets inner.meets inner.cleared) known).bind
          (fun here last ends => ?_) fun interrupt last ends => ?_
        all_goals
          obtain ⟨tables, visited', within, meets, halts, finished⟩ := ends
          have emptied := (inner.cleared.trans (.of_lifespans tables)).bare (bare_entered ledger lifespan close scope.guards)
          refine ⟨⟨visited ++ visited', .around sound found (inner.meets.trans meets)
            (halts.onward inner.meets inner.halts) (fun id among => ?_)
            (Cleared.trans (inner.cleared.weaken fun id among _ => ?_) (.of_lifespans tables)) fun ended => ?_⟩, emptied⟩
          · refine (List.mem_append.mp among).elim (fun sooner => ?_) fun later => .inl (within later)
            exact .inr (inner.held id sooner)
          · exact List.mem_append_left visited' (among rfl)
        · rw [finished here rfl]
          exact ⟨List.subset_append_right _ _, fun child its id holds =>
            List.mem_append_left _ (inner.whole rfl child its id holds)⟩
        · cases ended
      · -- one inside broke off, and the guards of the table are not come to
        rintro interrupt mid ⟨visited, inner⟩
        exact ⟨⟨visited, .around sound found inner.meets inner.halts (fun id among => .inr (inner.held id among))
          inner.cleared nofun⟩, inner.cleared.bare (bare_entered ledger lifespan close scope.guards)⟩
    · have bare : ledger.Bare lifespan := fun scope found => by
        refine sound.closed lifespan scope found ?_
        cases finished : scope.ended with
        | true => rfl
        | false => exact absurd ⟨scope, found, finished⟩ standing
      refine (Task.Ends.of_ok (teardownWithin_fallen standing _ close)).mpr
        ⟨⟨[], .nothing ledger 0 fun root its id holds => ?_⟩, bare⟩
      rw [List.mem_singleton.mp its] at holds
      obtain ⟨scope, found, table⟩ := holds.table
      rw [(bare scope found).1, (bare scope found).2] at table
      simp at table

/-! ## Owners that a teardown missed -/

theorem dropOwner_tells (found : ledger.guard? id = some held) (alone : held.Alone) (exposed : held.Exposed) :
    (dropOwner id).Ends ledger fun _ after => after.causes id = ledger.causes id ++ [.unreachable] := by
  obtain ⟨owned, queue, unclaimed, acts⟩ := exposed
  have unowned := guard?_onGuard_self found fun held => { held with owned := false }
  have claimed := guard?_onGuard_self unowned fun held => { held with flags := { held.flags with releasing := true } }
  obtain ⟨mid, fired, -, -, taken, causes⟩ :=
    fireBy_halts (dropWithin ledger.guards.length) claimed alone .unreachable
  refine .next (Task.get_run ledger) ?_
  unfold dropWithin
  refine .next (Task.get_run ledger) ?_
  have unclaimed' : ({ held with owned := false } : Guard).flags.claimed = false := unclaimed
  simp only [found, owned, if_true, queue, claim, unowned, unclaimed', Bool.not_false]
  refine .next (Task.set_run _ _) ?_
  have told : mid.causes id = ledger.causes id ++ [.unreachable] := causes.trans (by rw [if_pos (by exact acts)]; rfl)
  unfold runBy
  cases broken : held.faulty with
  | true => exact .stop (fired.trans (if_pos broken)) told
  | false =>
    refine .next (fired.trans (if_neg (ne_true_of_eq_false broken))) ?_
    exact (conclude_run taken .unreachable).2.2.1.trans told

/-! ## Fair weather and foul -/

/-- What one thread can make of a ledger: it runs operations whose actions do not break off,
    and it tears lifespans down while any of the actions do. -/
inductive Weathers (thread : ThreadId) (start : Ledger) : Ledger → Prop where
  | start : Weathers thread start start
  | run {ledger : Ledger} (operations : List Operation) : Weathers thread start ledger →
      Operation.AllowedAll thread operations ledger.tame →
        Weathers thread start (Operation.after thread operations ledger.tame)
  | teardown {ledger : Ledger} (crashes : GuardId → Bool) (lifespan : LifespanId) (close : Bool) :
      Weathers thread start ledger →
        Weathers thread start (Task.exec (Ledger.teardown thread lifespan close) (ledger.arming crashes))

/-- No action of a sound ledger breaks off. -/
theorem Sound.tame_eq (sound : Sound thread [] ledger) : ledger.tame = ledger := by
  have same : ledger.guards.map (fun entry => (entry.1, entry.2.arming false)) = ledger.guards := by
    refine (List.map_congr_left fun entry among => ?_).trans (List.map_id _)
    obtain ⟨id, held⟩ := entry
    have quiet := (sound.good id held (Numbered.get?_of_mem sound.guards among)).quiet
    refine Prod.ext rfl ?_
    cases act : held.action with
    | none => rw [Guard.arming, act, Option.map_none, ← act]; rfl
    | some action =>
      have whole : { action with crashes := false } = action := by rw [← (quiet action act).2]
      rw [Guard.arming, act, Option.map_some, whole, ← act]
      rfl
  unfold tame arming
  rw [same]

/-- A teardown comes to guards that its lifespan holds, until an action breaks off. -/
theorem Sound.teardown_ends (sound : Sound thread [] ledger.tame) (lifespan : LifespanId) (close : Bool) :
    (teardown thread lifespan close).Ends ledger fun outcome after =>
      (∃ visited, Unwinds thread [lifespan] visited ledger after outcome) ∧ after.Bare lifespan :=
  .next (Task.get_run ledger)
    (teardownWithin_unwinds ledger.lifespans.length lifespan close ledger sound (rank_le ledger lifespan))

theorem Sound.teardown_leaves (sound : Sound thread [] ledger.tame) (lifespan : LifespanId) (close : Bool) :
    ∃ visited outcome,
      Unwinds thread [lifespan] visited ledger (Task.exec (teardown thread lifespan close) ledger) outcome := by
  have ends : (teardown thread lifespan close).Ends ledger fun _ after =>
      ∃ visited outcome, Unwinds thread [lifespan] visited ledger after outcome :=
    (sound.teardown_ends lifespan close).weaken fun outcome _ ⟨⟨visited, unwinds⟩, _⟩ => ⟨visited, outcome, unwinds⟩
  exact ends.exec

theorem closing_arming (crashes : GuardId → Bool) (ledger : Ledger) (id : GuardId) :
    (ledger.arming crashes).Closing id ↔ ledger.Closing id := by
  unfold Closing
  rw [guard?_arming]
  cases ledger.guard? id with
  | none => rfl
  | some held => simp [Guard.arming]

theorem Meets.closing (meets : Meets thread visited before after) (closing : before.Closing id) : after.Closing id := by
  obtain ⟨held, found, flag⟩ := closing
  unfold Closing
  rw [meets.guards id, found]
  split
  · exact ⟨held.met thread, rfl, (held.meeting thread).closing⟩
  · exact ⟨held, rfl, flag⟩

/-- Actions that a teardown runs are told that the lifespan ended. -/
theorem Meets.grown (meets : Meets thread visited before after) (id : GuardId) :
    ∃ new, after.causes id = before.causes id ++ new ∧ ∀ cause ∈ new, cause = .lifespanEnded := by
  refine ⟨_, meets.causes id, fun cause among => ?_⟩
  split at among
  · exact List.mem_singleton.mp among
  · cases among

/-- What a lifespan holds is there. -/
theorem Sound.found_of_holds (sound : Sound thread [] ledger.tame) (holds : ledger.Holds lifespan id) :
    ∃ held, ledger.guard? id = some held := by
  refine Option.isSome_iff_exists.mp ?_
  induction holds with
  | here found among => exact (isSome_guard?_arming _ ledger _).symm.trans (sound.registered _ _ found _ among)
  | inside _ _ _ inductionHypothesis => exact inductionHypothesis

namespace Weathers

variable {start : Ledger}

/-- Whatever the weather, the ledger stays sound. -/
theorem sound (weathers : Weathers thread start ledger) (sound : Sound thread [] start.tame) :
    Sound thread [] ledger.tame := by
  induction weathers with
  | start => exact sound
  | run operations _ allowed inductionHypothesis =>
    have leads := Operation.after_sound inductionHypothesis allowed
    rw [leads.sound.tame_eq]
    exact leads.sound
  | @teardown ledger crashes lifespan close _ inductionHypothesis =>
    rw [← tame_arming crashes] at inductionHypothesis
    obtain ⟨visited, outcome, unwinds⟩ := inductionHypothesis.teardown_leaves lifespan close
    exact inductionHypothesis.meets unwinds.meets unwinds.cleared

/-- Whatever the weather, the action of a guard that a teardown has reached is told that the
    lifespan ended. -/
theorem told (weathers : Weathers thread start ledger) (sound : Sound thread [] start.tame)
    (closing : start.Closing id) :
    ledger.Closing id ∧
      ∃ since, ledger.causes id = start.causes id ++ since ∧ ∀ cause ∈ since, cause = .lifespanEnded := by
  induction weathers with
  | start => exact ⟨closing, [], (List.append_nil _).symm, nofun⟩
  | @run ledger operations weathers allowed inductionHypothesis =>
    obtain ⟨closing', since, grown, native⟩ := inductionHypothesis
    have onward := (Operation.after_sound (weathers.sound sound) allowed).onward
    have tamed : ledger.tame.Closing id := (closing_arming _ ledger id).mpr closing'
    obtain ⟨new, grown', -, native', -⟩ := onward.grown id
    refine ⟨onward.closing tamed, since ++ new, ?_, fun cause among => ?_⟩
    · rw [grown', show ledger.tame.causes id = ledger.causes id from rfl, grown, List.append_assoc]
    · exact (List.mem_append.mp among).elim (native cause) (native' tamed cause)
  | @teardown ledger crashes lifespan close weathers inductionHypothesis =>
    obtain ⟨closing', since, grown, native⟩ := inductionHypothesis
    have armed : (ledger.arming crashes).Closing id := (closing_arming crashes ledger id).mpr closing'
    have sound' := weathers.sound sound
    rw [← tame_arming crashes] at sound'
    obtain ⟨visited, outcome, unwinds⟩ := sound'.teardown_leaves lifespan close
    obtain ⟨new, grown', native'⟩ := unwinds.meets.grown id
    refine ⟨unwinds.meets.closing armed, since ++ new, ?_, fun cause among => ?_⟩
    · rw [grown', show (ledger.arming crashes).causes id = ledger.causes id from rfl, grown, List.append_assoc]
    · exact (List.mem_append.mp among).elim (native cause) (native' cause)

end Weathers

/-- The teardown came to the guard: it is released, or the thread pins it.  If its action ran,
    it was told that the lifespan ended, and if it runs later, so it will be. -/
structure Reached (thread : ThreadId) (before last : Ledger) (guard : GuardId) : Prop where
  state : ∃ held ∈ last.guard? guard, held.flags.closing = true ∧
    (held.flags.claimed = true ∧ held.action = none ∨ held.deferred = true ∧ thread ∈ held.holders)
  causes : last.causes guard = before.causes guard ++ if before.runs thread guard then [.lifespanEnded] else []
  since : ∀ later, Weathers thread last later →
    ∃ since, later.causes guard = last.causes guard ++ since ∧ ∀ cause ∈ since, cause = .lifespanEnded

/-- The teardown did not come to the guard, and nobody can tell that there was one: when its
    owner goes away, the action is told that the owner is gone. -/
structure Missed (before last : Ledger) (guard : GuardId) : Prop where
  same : last.guard? guard = before.guard? guard
  causes : last.causes guard = before.causes guard
  dropped : ∀ held, last.guard? guard = some held → held.Exposed →
    (Task.exec (dropOwner guard) last).causes guard = last.causes guard ++ [.unreachable]

/-- A teardown, whatever actions break off, comes to some of the guards that its lifespan
    holds, in order: to all of them, or up to the first one whose action breaks off.  Those
    that it came to are released because the lifespan ended, at once or with their last pin.
    The others are as they were, while the table of the lifespan is empty. -/
theorem teardown_unwinds (weathers : Weathers thread {} ledger) (crashes : GuardId → Bool) (lifespan : LifespanId)
    (close : Bool) :
    (teardown thread lifespan close).Ends (ledger.arming crashes) fun outcome last =>
      ∃ visited : List GuardId, Halts thread (ledger.arming crashes) visited outcome ∧
        (∀ guard ∈ visited, (ledger.arming crashes).Holds lifespan guard) ∧
        (outcome.isOk = true → ∀ guard, (ledger.arming crashes).Holds lifespan guard → guard ∈ visited) ∧
        Cleared (fun guard => outcome.isOk = true → guard ∈ visited) (ledger.arming crashes) last ∧ last.Bare lifespan ∧
        (∀ guard ∈ visited, Reached thread (ledger.arming crashes) last guard) ∧
        ∀ guard, guard ∉ visited → Missed (ledger.arming crashes) last guard := by
  have sound := weathers.sound (Operation.sound_empty thread)
  rw [← tame_arming crashes] at sound
  refine (sound.teardown_ends lifespan close).weaken ?_
  rintro outcome last ⟨⟨visited, unwinds⟩, bare⟩
  have meets := unwinds.meets
  have sound' := sound.meets meets unwinds.cleared
  have held : ∀ guard ∈ visited, (ledger.arming crashes).Holds lifespan guard := fun guard among => by
    obtain ⟨root, its, holds⟩ := unwinds.held guard among
    exact List.mem_singleton.mp its ▸ holds
  refine ⟨visited, unwinds.halts, held, fun finished => unwinds.whole finished lifespan List.mem_cons_self,
    unwinds.cleared, bare, fun guard among => ?_, fun guard apart => ?_⟩
  · -- a guard that was come to stays reached, whatever comes later
    obtain ⟨old, found⟩ := sound.found_of_holds (held guard among)
    have meeting := old.meeting thread
    have found' : last.guard? guard = some (old.met thread) := by
      rw [meets.guards guard, if_pos among, found, Option.map_some]
    refine ⟨⟨_, found', meeting.closing, ?_⟩, ?_, fun later weathers => ?_⟩
    · exact meeting.settled.imp_left fun claimed => ⟨claimed, (sound'.of_tame found').untaken claimed⟩
    · rw [meets.causes guard]
      simp only [among, true_and]
    · exact (weathers.told sound' ⟨_, found', meeting.closing⟩).2
  · refine ⟨by rw [meets.guards guard, if_neg apart], ?_, fun held found exposed => ?_⟩
    · rw [meets.causes guard, if_neg fun ran => apart ran.1, List.append_nil]
    · exact (dropOwner_tells found (sound'.of_tame found).alone exposed).exec

/-- Two guards are in the table of one lifespan. -/
def sideBySide : Ledger :=
  Operation.after 0 [.newLifespan .null .memory, .build { handle := .null, action := some {} } (some 0),
    .build { handle := .null, action := some {} } (some 0)] {}

/-- Guard and lifespan are there without any release that broke off. -/
theorem weathers_sideBySide : Weathers 0 {} sideBySide := .run _ .start (by decide +kernel)

/-- The action of the first guard breaks the teardown off, and it misses the other one. -/
theorem teardown_unwinds_sideBySide :
    Weathers 0 {} sideBySide ∧
      Reached 0 (sideBySide.arming (· == 1)) (Task.exec (teardown 0 0 true) (sideBySide.arming (· == 1))) 1 ∧
        Missed (sideBySide.arming (· == 1)) (Task.exec (teardown 0 0 true) (sideBySide.arming (· == 1))) 2 := by
  have ends : (teardown 0 0 true).Ends (sideBySide.arming (· == 1)) fun _ last => ∃ visited : List GuardId,
      (∀ guard ∈ visited, Reached 0 (sideBySide.arming (· == 1)) last guard) ∧
        ∀ guard, guard ∉ visited → Missed (sideBySide.arming (· == 1)) last guard :=
    (teardown_unwinds weathers_sideBySide (· == 1) 0 true).weaken
      fun _ _ ⟨visited, _, _, _, _, _, reached, missed⟩ => ⟨visited, reached, missed⟩
  obtain ⟨visited, reached, missed⟩ := ends.exec
  refine ⟨weathers_sideBySide, reached 1 ?_, missed 2 fun among => ?_⟩
  · by_contra apart
    exact absurd (missed 1 apart).causes (by decide +kernel)
  · exact absurd (reached 2 among).causes (by decide +kernel)

/-- The owner of a guard inside a lifespan goes away with the action of a guard further inside,
    and so while the lifespan ends. -/
def ownedFromInside : List Operation :=
  [.newLifespan .null .memory, .child 0 .null .memory, .build { handle := .null, action := some {} } (some 0),
    .build { handle := .null, action := some { owns := [2] } } (some 1), .teardown 0 true]

/-- An owner that goes away after a teardown broke off, or in the middle of one, releases a
    guard that the lifespan held as if the lifespan were there. -/
theorem released_after_unwinding :
    (¬ ∀ thread ledger crashes lifespan close guard, Weathers thread {} ledger →
      (ledger.arming crashes).Holds lifespan guard → ¬ (ledger.arming crashes).Claimed guard →
        .unreachable ∉ (Task.exec (dropOwner guard)
          (Task.exec (teardown thread lifespan close) (ledger.arming crashes))).causes guard) ∧
    (Operation.after 0 ownedFromInside {}).causes 2 = [.unreachable] := by
  refine ⟨fun claim => ?_, by decide +kernel⟩
  have unclaimed : ¬ (sideBySide.arming (· == 1)).Claimed 2 := by
    unfold Claimed
    decide +kernel
  refine claim 0 sideBySide (· == 1) 0 true 2 weathers_sideBySide (.here rfl ?_) unclaimed ?_
  · decide +kernel
  · decide +kernel

end Lifetime.Ledger

end CatalogReplica
