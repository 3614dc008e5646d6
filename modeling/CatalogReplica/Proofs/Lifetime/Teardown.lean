import CatalogReplica.Proofs.Lifetime.Releases

/-!
# Teardowns

A teardown empties the table of its lifespan, tears the lifespans inside down, and then
reaches the guards that were in the table.  The numbers of lifespans grow from parents to
children, so a call stack as deep as there are lifespans is deep enough.

* `Ledger.Cleared`: tables are as they were, or empty and everything they held reached.
* `Ledger.teardown_sound`: a teardown reaches every guard that its lifespan holds, and
  lets no action run with another cause than its own.
-/

namespace CatalogReplica.Lifetime.Ledger

variable {thread : ThreadId} {allowed : ReleaseCause → Prop} {reach : GuardId → Prop}
  {loose loose' : List GuardId} {ledger before after last : Ledger}

/-! ## Changes that leave all guards alone -/

theorem guard?_congr (guards : after.guards = before.guards) : after.guard? = before.guard? := by
  funext id
  rw [guard?, guards, guard?]

theorem causes_congr (log : after.log = before.log) : after.causes = before.causes := by
  funext id
  rw [causes, log, causes]

/-- Nothing happens to guards that are as they were. -/
theorem Onward.of_guards (guards : after.guards = before.guards) (log : after.log = before.log)
    (lost : ∀ id held, before.guard? id = some held → Lost loose before id held →
      Lost loose' after id held) :
    Onward allowed reach loose loose' before after where
  kept id held found := by
    rw [guard?_congr guards]
    exact ⟨held, found, rfl, fun flag => flag, fun flag => flag, fun flag => flag⟩
  grown id := by
    rw [causes_congr log]
    exact ⟨[], (List.append_nil _).symm, by simp, by simp, by simp⟩
  closes id := by
    unfold Closing
    rw [guard?_congr guards]
    exact .inl
  acts id := by
    unfold Acts
    rw [guard?_congr guards, causes_congr log]
    rintro ⟨held, found, state⟩
    exact ⟨held, found, state.imp_right (.imp_right (lost id held found))⟩

theorem Sound.same (sound : Sound thread loose before) (same : Same before after) :
    Leads thread allowed reach loose loose before after := by
  obtain ⟨guards, lifespans, queues, next, log, busy, tally⟩ := before
  obtain ⟨guards', lifespans', queues', next', log', busy', tally'⟩ := after
  obtain ⟨rfl, rfl, rfl, rfl, rfl⟩ := same
  refine ⟨?_, .of_guards rfl rfl fun id held _ lost => ⟨lost.1, lost.2, lost.3, lost.4, lost.5⟩⟩
  refine ⟨sound.guards, fun id held found => ?_, sound.unknown, sound.loose, sound.queues, sound.members,
    sound.lifespans, sound.registered, sound.inside, sound.closed⟩
  exact (sound.good id held found).transfer rfl (.of_eq rfl) (Nat.le_refl _) fun among => among

/-- A lifespan whose table was emptied. -/
def emptied (close : Bool) (scope : Lifespan) : Lifespan :=
  { scope with ended := close, guards := [], children := [] }

theorem lifespan?_emptied {lifespan : LifespanId} {close : Bool} {other : LifespanId}
    {scope' : Lifespan}
    (found' : (ledger.onLifespan lifespan (emptied close)).lifespan? other = some scope') :
    ledger.lifespan? other = some scope' ∨
      other = lifespan ∧ scope'.guards = [] ∧ scope'.children = [] := by
  rw [lifespan?_onLifespan] at found'
  split at found'
  · next same =>
    obtain ⟨scope, -, rfl⟩ := Option.map_eq_some_iff.mp found'
    exact .inr ⟨same, rfl, rfl⟩
  · exact .inl found'

/-- The guards of a table that is emptied are to be come to. -/
theorem Sound.empty (sound : Sound thread loose ledger) {lifespan : LifespanId} {scope : Lifespan}
    (found : ledger.lifespan? lifespan = some scope) (close : Bool) :
    Leads thread allowed reach loose (scope.guards ++ loose) ledger
      (ledger.onLifespan lifespan (emptied close)) := by
  have ids := ids_onLifespan ledger lifespan (emptied close)
  -- The table's guards are loose from here on, until they are released.
  refine ⟨?_, .of_guards rfl rfl fun id held _ lost => ?_⟩
  · refine { guards := sound.guards, good := fun id held isThere => ?_,
             unknown := sound.unknown, loose := ?_, queues := sound.queues, members := sound.members, lifespans := ?_,
             registered := ?_, inside := ?_, closed := ?_ }
    · exact (sound.good id held isThere).transfer rfl (.of_eq rfl) (Nat.le_refl _)
        (List.mem_append_right _)
    · exact fun id among =>
        (List.mem_append.mp among).elim (sound.registered lifespan scope found id) (sound.loose id)
    · rw [ids]
      exact sound.lifespans
    · intro other scope' isThere id among
      cases lifespan?_emptied isThere with
      | inl old => exact sound.registered other scope' old id among
      | inr new =>
        rw [new.2.1] at among
        cases among
    · intro other scope' isThere child among
      rw [ids]
      cases lifespan?_emptied isThere with
      | inl old => exact sound.inside other scope' old child among
      | inr new =>
        rw [new.2.2] at among
        cases among
    · intro other scope' isThere finished
      cases lifespan?_emptied isThere with
      | inl old => exact sound.closed other scope' old finished
      | inr new => exact new.2
  · refine ⟨lost.unclaimed, lost.unowned, ?_, ?_, lost.queues⟩
    · intro among
      exact (List.mem_append.mp among).elim (lost.tables lifespan scope found) lost.settled
    · intro other scope' isThere among
      cases lifespan?_emptied isThere with
      | inl old => exact lost.tables other scope' old among
      | inr new =>
        rw [new.2.1] at among
        cases among

/-! ## What a teardown has cleared -/

/-- Every table is as it was, or it is empty and what it held is among the given guards. -/
structure Cleared (reached : GuardId → Prop) (before after : Ledger) : Prop where
  ids : after.lifespans.ids = before.lifespans.ids
  tables : ∀ lifespan scope', after.lifespan? lifespan = some scope' →
    before.lifespan? lifespan = some scope' ∨
      scope'.guards = [] ∧ scope'.children = [] ∧ ∀ id, before.Holds lifespan id → reached id

/-- What a lifespan holds is in its table or held by a lifespan inside. -/
theorem Holds.table {lifespan : LifespanId} {id : GuardId} (holds : ledger.Holds lifespan id) :
    ∃ scope, ledger.lifespan? lifespan = some scope ∧
      (id ∈ scope.guards ∨ ∃ child ∈ scope.children, ledger.Holds child id) := by
  cases holds with
  | here found among => exact ⟨_, found, .inl among⟩
  | inside found among below => exact ⟨_, found, .inr ⟨_, among, below⟩⟩

theorem lifespan?_of_ids (ids : after.lifespans.ids = before.lifespans.ids) {lifespan : LifespanId}
    {scope : Lifespan} (found : before.lifespan? lifespan = some scope) :
    ∃ scope', after.lifespan? lifespan = some scope' := by
  have among : lifespan ∈ after.lifespans.ids := by
    rw [ids]
    exact Numbered.isSome_get?.mp (Option.isSome_iff_exists.mpr ⟨scope, found⟩)
  exact Option.isSome_iff_exists.mp (Numbered.isSome_get?.mpr among)

section

variable {reached reached' : GuardId → Prop}

theorem Cleared.refl (reached : GuardId → Prop) (ledger : Ledger) : Cleared reached ledger ledger :=
  ⟨rfl, fun _ _ => .inl⟩

/-- What was held is held still, or it is among the guards. -/
theorem Cleared.holds (cleared : Cleared reached before after) {lifespan : LifespanId}
    {id : GuardId} (holds : before.Holds lifespan id) : after.Holds lifespan id ∨ reached id := by
  induction holds with
  | @here lifespan id scope found among =>
    obtain ⟨scope', found'⟩ := lifespan?_of_ids cleared.ids found
    cases cleared.tables lifespan scope' found' with
    | inl old =>
      rw [found, Option.some.injEq] at old
      subst old
      exact .inl (.here found' among)
    | inr empty => exact .inr (empty.2.2 id (.here found among))
  | @inside lifespan id scope child found among below inductionHypothesis =>
    obtain ⟨scope', found'⟩ := lifespan?_of_ids cleared.ids found
    cases cleared.tables lifespan scope' found' with
    | inl old =>
      rw [found, Option.some.injEq] at old
      subst old
      exact inductionHypothesis.imp_left (.inside found' among)
    | inr empty => exact .inr (empty.2.2 id (.inside found among below))

/-- Nothing is held that was not held before. -/
theorem Cleared.held (cleared : Cleared reached before after) {lifespan : LifespanId}
    {id : GuardId} (holds : after.Holds lifespan id) : before.Holds lifespan id := by
  induction holds with
  | here found' among =>
    cases cleared.tables _ _ found' with
    | inl old => exact .here old among
    | inr empty =>
      rw [empty.1] at among
      cases among
  | inside found' among _ inductionHypothesis =>
    cases cleared.tables _ _ found' with
    | inl old => exact .inside old among inductionHypothesis
    | inr empty =>
      rw [empty.2.1] at among
      cases among

theorem Cleared.weaken (cleared : Cleared reached before after)
    (weaker : ∀ id, reached id → reached' id) : Cleared reached' before after where
  ids := cleared.ids
  tables lifespan scope' found' :=
    (cleared.tables lifespan scope' found').imp_right fun ⟨guards, children, among⟩ =>
      ⟨guards, children, fun id holds => weaker id (among id holds)⟩

theorem Cleared.trans (first : Cleared reached before after) (second : Cleared reached after last) :
    Cleared reached before last where
  ids := second.ids.trans first.ids
  tables lifespan scope' found' := by
    cases second.tables lifespan scope' found' with
    | inl mid => exact first.tables lifespan scope' mid
    | inr empty =>
      refine .inr ⟨empty.1, empty.2.1, fun id holds => ?_⟩
      exact (first.holds holds).elim (empty.2.2 id) fun among => among

/-- Changes elsewhere clear nothing. -/
theorem Cleared.of_lifespans (same : after.lifespans = before.lifespans) :
    Cleared reached before after where
  ids := by rw [same]
  tables lifespan scope' found' := by
    rw [lifespan?, same] at found'
    exact .inl found'

/-- Emptying a table clears what its lifespan holds. -/
theorem Cleared.emptied (ledger : Ledger) (lifespan : LifespanId) (close : Bool) :
    Cleared (ledger.Holds lifespan) ledger (ledger.onLifespan lifespan (emptied close)) where
  ids := ids_onLifespan ledger lifespan (Ledger.emptied close)
  tables _ _ found' :=
    (lifespan?_emptied found').imp_right fun ⟨same, guards, children⟩ =>
      ⟨guards, children, fun _ holds => same ▸ holds⟩

end

/-! ## The guards of one table -/

/-- The teardown comes to the guards in order. -/
theorem releaseAll_sound (guards : List GuardId) (sound : Sound thread (guards ++ loose) ledger)
    (reached : ∀ id ∈ guards, reach id) :
    ∃ count after, releaseAll thread guards ledger = .ok count after ∧
      Leads thread (· = .lifespanEnded) reach (guards ++ loose) loose ledger after ∧
      (∀ id ∈ guards, after.Closing id) ∧ after.lifespans = ledger.lifespans := by
  induction guards generalizing ledger with
  | nil => exact ⟨0, ledger, rfl, sound.stay, nofun, rfl⟩
  | cons id guards inductionHypothesis =>
    have counted := same_count ledger id .guardRegistered (-1)
    have first : Leads thread (· = .lifespanEnded) reach _ _ ledger _ := sound.same counted
    obtain ⟨held, found⟩ := Option.isSome_iff_exists.mp
      (first.sound.loose id List.mem_cons_self)
    obtain ⟨released, mid, ran, second, closing, tables⟩ :=
      releaseByLifespan_sound first.sound found (reached id List.mem_cons_self)
    obtain ⟨count, after, rest, third, closing', tables'⟩ :=
      inductionHypothesis second.sound fun other among => reached other (List.mem_cons_of_mem id among)
    refine ⟨released.toNat + count, after, Task.sum_cons ?_ rest,
      (first.trans second).trans third, ?_, ?_⟩
    · rw [Task.bind_ok (Task.modify_run _ ledger), Task.map_run, ran]
    · intro other among
      cases List.mem_cons.mp among with
      | inl same => exact same ▸ third.onward.closing closing
      | inr later => exact closing' other later
    · exact (tables'.trans tables).trans counted.lifespans

/-! ## Depth -/

/-- How many lifespans may be inside the lifespan, or are it. -/
def rank (ledger : Ledger) (lifespan : LifespanId) : Nat :=
  ledger.lifespans.ids.countP fun other => decide (lifespan ≤ other)

theorem countP_le_lt {ids : List Nat} {a b : Nat} (known : a ∈ ids) (less : a < b) :
    ids.countP (fun other => decide (b ≤ other)) < ids.countP fun other => decide (a ≤ other) := by
  induction ids with
  | nil => cases known
  | cons id ids inductionHypothesis =>
    have fewer : ids.countP (fun other => decide (b ≤ other))
        ≤ ids.countP fun other => decide (a ≤ other) :=
      List.countP_mono_left fun other _ above => by
        simp only [decide_eq_true_eq] at above ⊢
        omega
    simp only [List.countP_cons, decide_eq_true_eq]
    cases List.mem_cons.mp known with
    | inl same =>
      subst same
      rw [if_neg (by omega), if_pos (Nat.le_refl _)]
      omega
    | inr among =>
      have strictly := inductionHypothesis among
      split <;> split <;> omega

theorem rank_lt {lifespan child : LifespanId} (known : lifespan ∈ ledger.lifespans.ids)
    (later : lifespan < child) : ledger.rank child < ledger.rank lifespan :=
  countP_le_lt known later

theorem rank_pos {lifespan : LifespanId} {scope : Lifespan}
    (found : ledger.lifespan? lifespan = some scope) : 0 < ledger.rank lifespan := by
  refine List.countP_pos_iff.mpr ⟨lifespan, ?_, decide_eq_true (Nat.le_refl _)⟩
  exact Numbered.isSome_get?.mp (Option.isSome_iff_exists.mpr ⟨scope, found⟩)

theorem rank_le (ledger : Ledger) (lifespan : LifespanId) :
    ledger.rank lifespan ≤ ledger.lifespans.length := by
  have bound := List.countP_le_length (p := fun other => decide (lifespan ≤ other))
    (l := ledger.lifespans.ids)
  rwa [Numbered.ids, List.length_map] at bound

theorem rank_congr (ids : after.lifespans.ids = before.lifespans.ids) (lifespan : LifespanId) :
    after.rank lifespan = before.rank lifespan := by
  rw [rank, ids, rank]

/-! ## Trees of lifespans -/

/-- What a teardown does with a lifespan. -/
structure TornDown (thread : ThreadId) (reach : GuardId → Prop) (loose : List GuardId)
    (lifespan : LifespanId) (before after : Ledger) : Prop where
  leads : Leads thread (· = .lifespanEnded) reach loose loose before after
  cleared : Cleared after.Closing before after
  closing : ∀ id, before.Holds lifespan id → after.Closing id

/-- The table of a lifespan is emptied, and its guards are gone through. -/
def entered (ledger : Ledger) (lifespan : LifespanId) (close : Bool) (guards : List GuardId) :
    Ledger :=
  { ledger.onLifespan lifespan (emptied close) with busy := guards ++ ledger.busy }

theorem Sound.enter (sound : Sound thread loose ledger) {lifespan : LifespanId} {scope : Lifespan}
    (found : ledger.lifespan? lifespan = some scope) (close : Bool) :
    Leads thread allowed reach loose (scope.guards ++ loose) ledger
      (ledger.entered lifespan close scope.guards) := by
  have first : Leads thread allowed reach loose (scope.guards ++ loose) ledger _ :=
    sound.empty found close
  exact first.trans (first.sound.same ⟨rfl, rfl, rfl, rfl, rfl⟩)

theorem Cleared.enter (ledger : Ledger) (lifespan : LifespanId) (close : Bool)
    (guards : List GuardId) :
    Cleared (ledger.Holds lifespan) ledger (ledger.entered lifespan close guards) :=
  (Cleared.emptied ledger lifespan close).trans (.of_lifespans rfl)

/-- Emptying a table changes nothing that the lifespans inside hold. -/
theorem Sound.holds_entered (sound : Sound thread loose ledger) {lifespan child : LifespanId}
    {close : Bool} {guards : List GuardId} {id : GuardId} (later : lifespan < child)
    (holds : ledger.Holds child id) : (ledger.entered lifespan close guards).Holds child id := by
  have elsewhere : ∀ other, lifespan < other →
      (ledger.entered lifespan close guards).lifespan? other = ledger.lifespan? other := by
    intro other later
    exact (lifespan?_onLifespan ledger lifespan other _).trans (if_neg (Nat.ne_of_gt later))
  induction holds with
  | here found among => exact .here ((elsewhere _ later).trans found) among
  | inside found among _ inductionHypothesis =>
    have below := sound.inside _ _ found _ among
    exact .inside ((elsewhere _ later).trans found) among
      (inductionHypothesis (Nat.lt_trans later below.1))

/-- Lifespans are torn down in order. -/
theorem tornDown_all {depth : Nat} {children : List LifespanId}
    (each : ∀ child ledger, Sound thread loose ledger → ledger.rank child ≤ depth →
      (∀ id, ledger.Holds child id → reach id) →
      ∃ count after, teardownWithin thread depth child true ledger = .ok count after ∧
        TornDown thread reach loose child ledger after)
    (sound : Sound thread loose ledger) (shallow : ∀ child ∈ children, ledger.rank child ≤ depth)
    (reached : ∀ child ∈ children, ∀ id, ledger.Holds child id → reach id) :
    ∃ count after,
      Task.sum (fun child => teardownWithin thread depth child true) children ledger
        = .ok count after ∧
      Leads thread (· = .lifespanEnded) reach loose loose ledger after ∧
      Cleared after.Closing ledger after ∧
      ∀ child ∈ children, ∀ id, ledger.Holds child id → after.Closing id := by
  induction children generalizing ledger with
  | nil => exact ⟨0, ledger, rfl, sound.stay, .refl _ ledger, nofun⟩
  | cons child children inductionHypothesis =>
    obtain ⟨count, mid, ran, torn⟩ := each child ledger sound (shallow child List.mem_cons_self)
      (reached child List.mem_cons_self)
    obtain ⟨count', after, rest, leads, cleared, closing⟩ := inductionHypothesis torn.leads.sound
      (fun other among => by
        rw [rank_congr torn.cleared.ids]
        exact shallow other (List.mem_cons_of_mem child among))
      (fun other among id holds =>
        reached other (List.mem_cons_of_mem child among) id (torn.cleared.held holds))
    refine ⟨count + count', after, Task.sum_cons ran rest, torn.leads.trans leads,
      (torn.cleared.weaken fun id => leads.onward.closing).trans cleared, ?_⟩
    intro other among id holds
    cases List.mem_cons.mp among with
    | inl same => exact leads.onward.closing (torn.closing id (same ▸ holds))
    | inr later =>
      exact (torn.cleared.holds holds).elim (closing other later id) leads.onward.closing

theorem holding_run {α : Type} {guards : List GuardId} {body : Task Ledger α} {value : α}
    (ran : body { ledger with busy := guards ++ ledger.busy } = .ok value after) :
    holding guards body ledger = .ok value { after with busy := ledger.busy } := by
  unfold holding
  rw [Task.bind_ok (Task.get_run ledger), Task.bind_ok (Task.modify_run _ ledger)]
  unfold Task.ensuring
  rw [ran]

/-- A lifespan that has not ended is emptied, and those inside it and its guards are come to. -/
theorem teardownWithin_open {lifespan : LifespanId} {scope : Lifespan} (found : ledger.lifespan? lifespan = some scope)
    (isOpen : scope.ended = false) (depth : Nat) (close : Bool) :
    teardownWithin thread (depth + 1) lifespan close ledger = holding scope.guards (do
      let below ← Task.sum (fun child => teardownWithin thread depth child true) scope.children
      let here ← releaseAll thread scope.guards
      return below + here) (ledger.onLifespan lifespan (emptied close)) := by
  rw [teardownWithin, Task.bind_ok (Task.get_run ledger), found]
  simp only [isOpen, Bool.false_eq_true, if_false]
  exact Task.bind_ok (Task.modify_run _ ledger)

/-- A lifespan that has not ended is torn down, if those inside can be. -/
theorem teardownWithin_succ {depth : Nat} {lifespan : LifespanId} {scope : Lifespan} (close : Bool)
    (each : ∀ child ledger, Sound thread (scope.guards ++ loose) ledger →
      ledger.rank child ≤ depth → (∀ id, ledger.Holds child id → reach id) →
      ∃ count after, teardownWithin thread depth child true ledger = .ok count after ∧
        TornDown thread reach (scope.guards ++ loose) child ledger after)
    (sound : Sound thread loose ledger) (found : ledger.lifespan? lifespan = some scope)
    (isOpen : scope.ended = false) (shallow : ledger.rank lifespan ≤ depth + 1)
    (reached : ∀ id, ledger.Holds lifespan id → reach id) :
    ∃ count after, teardownWithin thread (depth + 1) lifespan close ledger = .ok count after ∧
      TornDown thread reach loose lifespan ledger after := by
  have known : lifespan ∈ ledger.lifespans.ids :=
    Numbered.isSome_get?.mp (Option.isSome_iff_exists.mpr ⟨scope, found⟩)
  have first : Leads thread (· = .lifespanEnded) reach loose _ ledger _ := sound.enter found close
  have cleared := Cleared.enter ledger lifespan close scope.guards
  -- The children end first, then the guards of the table are released, then the flag of the walk is reset.
  obtain ⟨below, mid, ran, second, cleared', closing⟩ := tornDown_all each first.sound
    (fun child among => by
      have less := rank_lt known (sound.inside lifespan scope found child among).1
      rw [rank_congr cleared.ids]
      exact Nat.lt_succ_iff.mp (Nat.lt_of_lt_of_le less shallow))
    (fun child among id holds => reached id (.inside found among (cleared.held holds)))
  obtain ⟨here, last, ran', third, closing', tables⟩ := releaseAll_sound scope.guards second.sound
    fun id among => reached id (.here found among)
  have fourth : Leads thread (· = .lifespanEnded) reach _ _ last { last with busy := ledger.busy } :=
    third.sound.same ⟨rfl, rfl, rfl, rfl, rfl⟩
  -- What the scope holds is in its own table or in a child's, and both have been closed.
  have reaches : ∀ id, ledger.Holds lifespan id → last.Closing id := by
    intro id holds
    obtain ⟨scope', found', table⟩ := holds.table
    rw [found, Option.some.injEq] at found'
    subst found'
    cases table with
    | inl among => exact closing' id among
    | inr table =>
      obtain ⟨child, among, holds⟩ := table
      have later := (sound.inside lifespan scope found child among).1
      exact third.onward.closing (closing child among id (sound.holds_entered later holds))
  refine ⟨below + here, { last with busy := ledger.busy }, ?_,
    ((first.trans second).trans third).trans fourth, ?_, reaches⟩
  · rw [teardownWithin_open found isOpen]
    exact holding_run ((Task.bind_ok ran).trans (Task.bind_ok ran'))
  · exact ((cleared.weaken reaches).trans
      (cleared'.weaken fun id closing => third.onward.closing closing)).trans (.of_lifespans tables)

/-- A teardown reaches what its lifespan holds. -/
theorem teardownWithin_sound (depth : Nat) (lifespan : LifespanId) (close : Bool) (ledger : Ledger)
    (sound : Sound thread loose ledger) (shallow : ledger.rank lifespan ≤ depth)
    (reached : ∀ id, ledger.Holds lifespan id → reach id) :
    ∃ count after, teardownWithin thread depth lifespan close ledger = .ok count after ∧
      TornDown thread reach loose lifespan ledger after := by
  -- On the depth, as a scope's children rank below it; a scope that is gone or ended holds nothing.
  induction depth generalizing loose lifespan close ledger with
  | zero =>
    refine ⟨0, ledger, rfl, sound.stay, .refl _ ledger, fun id holds => ?_⟩
    obtain ⟨scope, found, -⟩ := holds.table
    exact absurd (rank_pos found) (Nat.not_lt.mpr shallow)
  | succ depth inductionHypothesis =>
    cases found : ledger.lifespan? lifespan with
    | none =>
      refine ⟨0, ledger, ?_, sound.stay, .refl _ ledger, fun id holds => ?_⟩
      · unfold teardownWithin
        rw [Task.bind_ok (Task.get_run ledger), found]
        rfl
      · obtain ⟨scope, found', -⟩ := holds.table
        rw [found] at found'
        cases found'
    | some scope =>
      cases finished : scope.ended with
      | true =>
        obtain ⟨guards, children⟩ := sound.closed lifespan scope found finished
        refine ⟨0, ledger, ?_, sound.stay, .refl _ ledger, fun id holds => ?_⟩
        · unfold teardownWithin
          rw [Task.bind_ok (Task.get_run ledger), found]
          simp only [finished, if_true]
          rfl
        · obtain ⟨scope', found', table⟩ := holds.table
          rw [found, Option.some.injEq] at found'
          subst found'
          rw [guards, children] at table
          simp at table
      | false =>
        exact teardownWithin_succ close (fun child => inductionHypothesis child true) sound found finished
          shallow reached

/-- A teardown reaches every guard that its lifespan holds, and lets no action run with
    another cause than its own. -/
theorem teardown_sound (lifespan : LifespanId) (close : Bool) (sound : Sound thread loose ledger) :
    ∃ count after, teardown thread lifespan close ledger = .ok count after ∧
      TornDown thread (ledger.Holds lifespan) loose lifespan ledger after := by
  obtain ⟨count, after, ran, torn⟩ := teardownWithin_sound ledger.lifespans.length lifespan close
    ledger sound (rank_le ledger lifespan) fun id holds => holds
  exact ⟨count, after, (Task.bind_ok (Task.get_run ledger)).trans ran, torn⟩

end CatalogReplica.Lifetime.Ledger
