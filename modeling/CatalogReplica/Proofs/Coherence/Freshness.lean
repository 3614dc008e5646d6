import CatalogReplica.Proofs.Coherence.Dated
import CatalogReplica.Proofs.Coherence.Reads

/-!
# What a commit leaves to be served

A batch detaches the cell of a gate when the gate is added, and trips that cell when it
commits.  In between, a slot that is computed runs under the fresh cell, and may be
served the memo of another slot that is still valid under the old one.  The commit does
not reach what it made of it.

* `Design.Fresh`: whatever is still served on a gate was made since a moment.
* `Design.after_fresh`: no operation makes a fresh gate stale.
* `Design.commit_fresh_iff`: reads after a commit are fresh just if the memos are that
  the commit leaves valid.
* `Design.commit_fresh_of_unread`: they are if nothing was read before the commit.
-/

namespace CatalogReplica.Coherence

variable {ν : Type}

/-! ## Memos of slots -/

namespace Workshop

/-- Acting on gates changes gates and batches alone. -/
theorem hosts_moment_act (shop : Workshop ν) (act : GateAct) :
    (shop.act act).hosts = shop.hosts ∧ (shop.act act).moment = shop.moment := by
  cases act with
  | openBatch batch => exact ⟨rfl, rfl⟩
  | add batch gate => unfold Workshop.act; dsimp only; split <;> exact ⟨rfl, rfl⟩
  | commit batch => unfold Workshop.act; dsimp only; split <;> exact ⟨rfl, rfl⟩
  | discard batch => exact ⟨rfl, rfl⟩
  | trip gate => exact ⟨rfl, rfl⟩

@[simp] theorem memo?_act (shop : Workshop ν) (act : GateAct) (slot : SlotRef) :
    (shop.act act).memo? slot = shop.memo? slot := by
  unfold Workshop.memo?
  rw [(hosts_moment_act shop act).1]

theorem onward_act (shop : Workshop ν) (act : GateAct) : shop.gates.Onward (shop.act act).gates := by
  cases act with
  | openBatch batch => exact .refl _
  | add batch gate =>
    unfold Workshop.act
    dsimp only
    split
    · exact .refl _
    · exact Batch.onward_add _ _ _
  | commit batch =>
    unfold Workshop.act
    dsimp only
    split
    · exact .refl _
    · exact Batch.onward_commit _ _
  | discard batch => exact .refl _
  | trip gate => exact Gates.onward_trip _ _

/-- The batch holds the cell that the memo is kept under, and will trip it. -/
def Detached (shop : Workshop ν) (batch : Nat) (memo : Memo (Dated ν)) : Prop :=
  ∃ opened cell, shop.batches.get? batch = some opened ∧ memo.cell = some cell ∧
    cell ∈ opened.cells ∧ cell < shop.gates.tripped.size

/-- A commit leaves just those memos valid that it holds no cells of. -/
theorem isValid_commit (shop : Workshop ν) (batch : Nat) (memo : Memo (Dated ν)) :
    memo.isValid (shop.act (.commit batch)).gates = true ↔
      memo.isValid shop.gates = true ∧ ¬ shop.Detached batch memo := by
  unfold Detached
  cases found : shop.batches.get? batch with
  | none =>
    simp [Workshop.act, found]
  | some opened =>
    cases governed : memo.cell with
    | none => simp [Memo.isValid, governed]
    | some cell =>
      simp only [Memo.isValid, governed, Workshop.act, found, Batch.isTripped_commit]
      simp [Classical.or_iff_not_imp_left]

/-- No cell goes away. -/
theorem size_act (shop : Workshop ν) (act : GateAct) :
    shop.gates.tripped.size ≤ (shop.act act).gates.tripped.size := by
  cases act with
  | openBatch batch => exact Nat.le_refl _
  | add batch gate =>
    unfold Workshop.act
    dsimp only
    split
    · exact Nat.le_refl _
    · exact Batch.size_add _ _ _
  | commit batch =>
    unfold Workshop.act
    dsimp only
    split
    · exact Nat.le_refl _
    · exact Nat.le_of_eq (Batch.size_tripCells _ _).symm
  | discard batch => exact Nat.le_refl _
  | trip gate => exact Gates.size_trip _ _

/-- A memo is found again in its slot, if its host has the slot. -/
theorem memo?_keep (shop : Workshop ν) (slot other : SlotRef) (memo kept : Memo (Dated ν))
    (found : ((view slot.host).update (·.keep slot.index memo) shop).memo? other = some kept) :
    (other = slot ∧ kept = memo) ∨ shop.memo? other = some kept := by
  obtain ⟨host, index⟩ := slot
  obtain ⟨otherHost, otherIndex⟩ := other
  simp only [Workshop.memo?, view, Array.getElem?_modify] at found ⊢
  by_cases sameHost : host = otherHost
  · subst sameHost
    cases table : shop.hosts[host]? with
    | none => simp [table] at found
    | some table' =>
      simp only [table, if_pos, Option.map_some, Option.bind_some, SlotTable.memo?,
        SlotTable.keep, Array.getElem?_setIfInBounds] at found ⊢
      by_cases sameIndex : index = otherIndex
      · subst sameIndex
        rw [if_pos rfl] at found
        split at found
        · exact .inl ⟨rfl, by simpa using found.symm⟩
        · cases found
      · rw [if_neg sameIndex] at found
        exact .inr found
  · rw [if_neg sameHost] at found
    exact .inr found

/-- A new host has no memos. -/
theorem hosts_newHost {shop : Workshop ν} {slots : Nat} {gates : List GateId} {slot : SlotRef}
    {memo : Memo (Dated ν)}
    (found : ({ shop with hosts := shop.hosts.push (.blank slots gates) } : Workshop ν).memo? slot
      = some memo) :
    (shop.hosts.push (.blank slots gates))[slot.host]? = shop.hosts[slot.host]? := by
  simp only [Workshop.memo?, Array.getElem?_push] at found ⊢
  split at found
  · simp only [Option.bind_some, SlotTable.memo?, SlotTable.blank, Array.getElem?_replicate] at found
    split at found <;> cases found
  · next old => rw [if_neg old]

end Workshop

/-! ## Fresh gates -/

/-- The batch is neither opened nor closed. -/
def GateAct.Leaves (batch : Nat) : GateAct → Prop
  | .openBatch other | .commit other | .discard other => other ≠ batch
  | .add _ _ | .trip _ => True

/-- Nothing is read, and the batch is neither opened nor closed. -/
def Move.Leaves (batch : Nat) : Move → Prop
  | .newGate | .newHost _ _ => True
  | .act done => done.Leaves batch
  | .read _ _ _ => False

namespace Design

/-- Whatever a slot on the gate keeps and still serves was made since the moment. -/
structure Fresh (design : Design ν) (gate : GateId) (moment : Nat) (shop : Workshop ν) : Prop where
  /-- Computations that start from now on start since the moment. -/
  reached : moment ≤ shop.moment
  /-- What is kept and valid was made since the moment. -/
  kept : ∀ slot memo, design.gateOf shop slot = some gate → shop.memo? slot = some memo →
    memo.isValid shop.gates = true → memo.value.Since moment

/-- Every slot is still governed by the gate that governed it. -/
def SameGates (design : Design ν) (shop after : Workshop ν) : Prop :=
  ∀ slot, design.gateOf after slot = design.gateOf shop slot

/-- How a task ends that started on a fresh gate: the gate is fresh still, and what
    the task gave, if anything, was made since the moment if it is for the gate. -/
structure FreshEnd (design : Design ν) (gate : GateId) (moment : Nat) (shop : Workshop ν)
    (forGate : Prop) (given : Option (Dated ν)) (after : Workshop ν) : Prop where
  /-- The gate is fresh. -/
  fresh : design.Fresh gate moment after
  /-- No slot was bound to another gate. -/
  same : design.SameGates shop after
  /-- What was given was made since the moment. -/
  since : forGate → ∀ dated ∈ given, dated.Since moment

/-- A way of reading slots that keeps a fresh gate fresh and serves fresh values. -/
def ReadsFresh (design : Design ν) (gate : GateId) (moment : Nat)
    (read : SlotRef → Access → Task (Workshop ν) (Dated ν)) : Prop :=
  ∀ slot access shop, design.Fresh gate moment shop →
    (read slot access).Ends shop fun outcome after =>
      design.FreshEnd gate moment shop (design.gateOf shop slot = some gate) outcome.toOption after

variable {design : Design ν} {gate : GateId} {moment : Nat} {shop : Workshop ν}

theorem SameGates.refl (shop : Workshop ν) : design.SameGates shop shop := fun _ => rfl

theorem SameGates.trans {after last : Workshop ν} (first : design.SameGates shop after)
    (second : design.SameGates after last) : design.SameGates shop last :=
  fun slot => (second slot).trans (first slot)

theorem gateOf_act (shop : Workshop ν) (act : GateAct) : design.SameGates shop (shop.act act) := by
  intro slot
  unfold gateOf
  rw [(Workshop.hosts_moment_act shop act).1]

/-- Keeping a memo leaves the gates of the hosts alone. -/
theorem gateOf_keep (shop : Workshop ν) (slot : SlotRef) (index : Nat) (memo : Memo (Dated ν)) :
    design.SameGates shop ((Workshop.view slot.host).update (·.keep index memo) shop) := by
  intro other
  unfold gateOf
  split
  · rfl
  · simp only [Workshop.view, Array.getElem?_modify]
    split
    · cases shop.hosts[other.host]? <;> rfl
    · rfl

/-- Whatever is done with gates, a fresh gate stays fresh: no cell becomes valid again. -/
theorem Fresh.act (fresh : design.Fresh gate moment shop) (act : GateAct) :
    design.Fresh gate moment (shop.act act) where
  reached := by
    rw [(Workshop.hosts_moment_act shop act).2]
    exact fresh.reached
  kept := by
    intro slot memo bound found valid
    rw [gateOf_act shop act slot] at bound
    rw [Workshop.memo?_act] at found
    exact fresh.kept slot memo bound found ((Workshop.onward_act shop act).valid_before valid)

theorem Fresh.start (fresh : design.Fresh gate moment shop) :
    design.Fresh gate moment (Workshop.start shop).2 where
  reached := Nat.le_succ_of_le fresh.reached
  kept := fresh.kept

/-- A memo that was made since the moment may be kept. -/
theorem Fresh.keep (fresh : design.Fresh gate moment shop) (slot : SlotRef)
    (memo : Memo (Dated ν)) (since : design.gateOf shop slot = some gate → memo.value.Since moment) :
    design.Fresh gate moment ((Workshop.view slot.host).update (·.keep slot.index memo) shop) where
  reached := fresh.reached
  kept := by
    intro other kept bound found valid
    rw [gateOf_keep shop slot slot.index memo other] at bound
    cases Workshop.memo?_keep shop slot other memo kept found with
    | inl new =>
      obtain ⟨rfl, rfl⟩ := new
      exact since bound
    | inr old => exact fresh.kept other kept bound old valid

/-- What happened before a task ended belongs to it. -/
theorem FreshEnd.before {mid after : Workshop ν} {forGate : Prop} {given : Option (Dated ν)}
    (same : design.SameGates shop mid)
    (rest : design.FreshEnd gate moment mid forGate given after) :
    design.FreshEnd gate moment shop forGate given after where
  fresh := rest.fresh
  same := same.trans rest.same
  since := rest.since

/-! ## Reads -/

/-- A run on a fresh gate gives a fresh value, if the slots it reads do. -/
theorem follow_fresh {read : SlotRef → Access → Task (Workshop ν) (Dated ν)}
    (reads : design.ReadsFresh gate moment read) (governed : Option GateId)
    (computation : Computation ν) (starts : List Nat) (shop : Workshop ν)
    (fresh : design.Fresh gate moment shop)
    (since : governed = some gate → ∀ start ∈ starts, moment ≤ start) :
    (design.follow read governed computation starts).Ends shop fun outcome after =>
      design.FreshEnd gate moment shop (governed = some gate)
        (outcome.toOption.map Computed.value) after := by
  -- On the computation: a read may add start times only when it is governed by the same gate.
  induction computation generalizing starts shop with
  | done result =>
    refine ⟨fresh, .refl shop, ?_⟩
    rintro bound dated ⟨⟩
    cases result <;> exact since bound
  | broken interrupt => exact ⟨fresh, .refl shop, fun _ _ given => by cases given⟩
  | read slot access next inductionHypothesis =>
    unfold follow
    refine .next (Task.get_run shop) ?_
    refine (reads slot access shop fresh).attempt.bind ?_ (fun _ _ ⟨_, broken, _⟩ => by cases broken)
    rintro outcome after ⟨_, ⟨⟩, served⟩
    cases outcome with
    | ok dated =>
      refine (inductionHypothesis (.ok dated.value) _ after served.fresh ?_).weaken
        fun _ _ => FreshEnd.before served.same
      intro bound start among
      split at among
      · next sameGate =>
        cases List.mem_append.mp among with
        | inl before => exact since bound start before
        | inr within => exact served.since (sameGate.trans bound) dated rfl start within
      · exact since bound start among
    | error interrupt =>
      exact (inductionHypothesis (.error interrupt) starts after served.fresh since).weaken
        fun _ _ => FreshEnd.before served.same
  | act act next inductionHypothesis =>
    exact (inductionHypothesis starts (shop.act act) (fresh.act act) since).weaken
      fun _ _ => FreshEnd.before (gateOf_act shop act)

/-- A run of a slot on a fresh gate gives a fresh value, if the slots it reads do. -/
theorem compute_fresh {read : SlotRef → Access → Task (Workshop ν) (Dated ν)}
    (reads : design.ReadsFresh gate moment read) (slot : SlotRef) (access : Access)
    (fresh : design.Fresh gate moment shop) :
    (design.compute read slot access).Ends shop fun outcome after =>
      design.FreshEnd gate moment shop (design.gateOf shop slot = some gate)
        (outcome.toOption.map Computed.value) after := by
  refine .next (Task.get_run shop) (.next (Task.lift_run _ shop) ?_)
  refine (follow_fresh reads (design.gateOf shop slot) (design.run slot access shop.moment)
    [shop.moment] _ fresh.start ?_).weaken fun _ _ => FreshEnd.before (fun _ => rfl)
  rintro - start among
  cases List.mem_singleton.mp among
  exact fresh.reached

/-- Slots on a fresh gate are served fresh values, and it stays fresh. -/
theorem get_fresh (depth : Nat) : design.ReadsFresh gate moment (design.get depth) := by
  induction depth with
  | zero => exact fun slot access shop fresh => ⟨fresh, .refl shop, fun _ _ given => by cases given⟩
  | succ depth inductionHypothesis =>
    intro slot access shop fresh
    refine TableView.read_ends
      ?crashed ?served ?refused (fun _ => compute_fresh inductionHypothesis slot access fresh) ?kept ?passed ?broken
    case crashed => exact fun _ => ⟨fresh, .refl shop, fun _ _ given => by cases given⟩
    case served =>
      intro memo found valid
      refine ⟨fresh, .refl shop, ?_⟩
      rintro bound _ ⟨⟩
      rw [TableView.memo?, design.index_spec] at found
      exact fresh.kept slot memo bound found valid
    case refused => exact fun fault _ => ⟨fresh, .refl shop, fun _ _ given => by cases given⟩
    case kept =>
      intro value cell after _ ended
      rw [design.index_spec]
      refine ⟨ended.fresh.keep slot _ ?_, ended.same.trans (gateOf_keep _ _ _ _), ?_⟩
      · intro bound
        rw [ended.same slot] at bound
        exact ended.since bound value rfl
      · exact fun bound => ended.since bound
    case passed => exact fun value after ended => ⟨ended.fresh, ended.same, ended.since⟩
    case broken =>
      exact fun interrupt after ended => ⟨ended.fresh, ended.same, fun _ _ given => by cases given⟩

/-! ## The clock -/

/-- A run does not turn the clock back, if the slots it reads do not. -/
theorem follow_moment {read : SlotRef → Access → Task (Workshop ν) (Dated ν)}
    (reads : ∀ slot access shop, moment ≤ shop.moment →
      (read slot access).Ends shop fun _ after => moment ≤ after.moment)
    (governed : Option GateId) (computation : Computation ν) (starts : List Nat)
    (shop : Workshop ν) (reached : moment ≤ shop.moment) :
    (design.follow read governed computation starts).Ends shop fun _ after =>
      moment ≤ after.moment := by
  induction computation generalizing starts shop with
  | done result => exact reached
  | broken interrupt => exact reached
  | read slot access next inductionHypothesis =>
    unfold follow
    refine .next (Task.get_run shop) ?_
    refine (reads slot access shop reached).attempt.bind ?_ (fun _ _ ⟨_, broken, _⟩ => by cases broken)
    rintro outcome after ⟨_, ⟨⟩, reachedAfter⟩
    cases outcome with
    | ok dated => exact inductionHypothesis _ _ after reachedAfter
    | error interrupt => exact inductionHypothesis _ _ after reachedAfter
  | act act next inductionHypothesis =>
    refine inductionHypothesis starts (shop.act act) ?_
    rw [(Workshop.hosts_moment_act shop act).2]
    exact reached

/-- No read turns the clock back. -/
theorem get_moment (depth : Nat) (slot : SlotRef) (access : Access) (shop : Workshop ν)
    (reached : moment ≤ shop.moment) :
    (design.get depth slot access).Ends shop fun _ after => moment ≤ after.moment := by
  induction depth generalizing slot access shop with
  | zero => exact reached
  | succ depth inductionHypothesis =>
    have ran : (design.compute (design.get depth) slot access).Ends shop fun _ after =>
        moment ≤ after.moment :=
      .next (Task.get_run shop) (.next (Task.lift_run _ shop)
        (follow_moment inductionHypothesis _ _ _ _ (Nat.le_succ_of_le reached)))
    exact TableView.read_ends (fun _ => reached) (fun _ _ _ => reached) (fun _ _ => reached) (fun _ => ran)
      (fun _ _ _ _ ended => ended) (fun _ _ ended => ended) (fun _ _ ended => ended)

/-! ## Runs of operations -/

/-- No operation makes a fresh gate stale. -/
theorem move_fresh (fresh : design.Fresh gate moment shop) (move : Move) :
    design.Fresh gate moment (design.move shop move) := by
  cases move with
  | newGate =>
    refine ⟨fresh.reached, fun slot memo bound found valid => ?_⟩
    exact fresh.kept slot memo bound found
      ((Gates.Onward.of_eq (Gates.isTripped_newGate shop.gates)).valid_before valid)
  | newHost slots gates =>
    refine ⟨fresh.reached, fun slot memo bound found valid => ?_⟩
    have old := Workshop.hosts_newHost found
    refine fresh.kept slot memo ?_ ?_ valid
    · rw [← bound]
      simp only [gateOf, Design.move, old]
    · rw [← found]
      simp only [Workshop.memo?, Design.move, old]
  | act act => exact fresh.act act
  | read slot access depth =>
    exact Task.Ends.exec ((get_fresh depth slot access shop fresh).weaken fun _ _ => FreshEnd.fresh)

/-- No run of operations makes a fresh gate stale. -/
theorem after_fresh (moves : List Move) (fresh : design.Fresh gate moment shop) :
    design.Fresh gate moment (design.after moves shop) := by
  induction moves generalizing shop with
  | nil => exact fresh
  | cons move moves inductionHypothesis => exact inductionHypothesis (move_fresh fresh move)

/-- No operation turns the clock back. -/
theorem move_moment (shop : Workshop ν) (move : Move) :
    shop.moment ≤ (design.move shop move).moment := by
  cases move with
  | newGate => exact Nat.le_refl _
  | newHost slots gates => exact Nat.le_refl _
  | act act => exact Nat.le_of_eq (Workshop.hosts_moment_act shop act).2.symm
  | read slot access depth =>
    exact Task.Ends.exec (get_moment depth slot access shop (Nat.le_refl shop.moment))

theorem after_moment (moves : List Move) (shop : Workshop ν) :
    shop.moment ≤ (design.after moves shop).moment := by
  induction moves generalizing shop with
  | nil => exact Nat.le_refl _
  | cons move moves inductionHypothesis =>
    exact Nat.le_trans (move_moment shop move) (inductionHypothesis (design.move shop move))

/-! ## Reads after a commit -/

/-- Whatever comes later, reads of the slots on the gate give values that were made
    since the moment. -/
def ServesSince (design : Design ν) (gate : GateId) (moment : Nat) (shop : Workshop ν) : Prop :=
  ∀ later slot access depth dated final,
    design.gateOf (design.after later shop) slot = some gate →
      design.get depth slot access (design.after later shop) = .ok dated final →
        dated.Since moment

/-- A valid memo is served, even to who cannot go any deeper. -/
theorem get_memo {slot : SlotRef} {memo : Memo (Dated ν)} (found : shop.memo? slot = some memo)
    (valid : memo.isValid shop.gates = true) (access : Access) :
    design.get 1 slot access shop = .ok memo.value shop := by
  have kept : (Workshop.view slot.host).memo? (design.spec slot) shop = some memo := by
    rw [TableView.memo?, design.index_spec]
    exact found
  exact TableView.read_memo kept valid

/-- Reads are fresh from now on just if everything is that is kept and valid. -/
theorem servesSince_iff (reached : moment ≤ shop.moment) :
    design.ServesSince gate moment shop ↔ design.Fresh gate moment shop := by
  constructor
  · intro serves
    refine ⟨reached, fun slot memo bound found valid => ?_⟩
    exact serves [] slot .mutator 1 memo.value shop bound (get_memo found valid .mutator)
  · intro fresh later slot access depth dated final bound given
    have served := get_fresh depth slot access _ (after_fresh later fresh)
    unfold Task.Ends at served
    rw [given] at served
    exact served.since bound dated rfl

/-- When reads after a commit are fresh: a gate is added to a batch, some operations
    follow, and the batch commits.  Then all reads of slots on the gate give what was
    made since the gate was added, just if each memo that is valid when the batch
    commits either was made since then or is kept under a cell that the batch trips.
    Nothing in the operations in between makes that so. -/
theorem commit_fresh_iff (design : Design ν) (shop : Workshop ν) (batch : Nat) (gate : GateId)
    (middle : List Move) :
    let closing := design.after (.act (.add batch gate) :: middle) shop
    design.ServesSince gate shop.moment (closing.act (.commit batch)) ↔
      ∀ slot memo, design.gateOf closing slot = some gate → closing.memo? slot = some memo →
        memo.isValid closing.gates = true →
          memo.value.Since shop.moment ∨ closing.Detached batch memo := by
  intro closing
  have reached : shop.moment ≤ (closing.act (.commit batch)).moment := by
    rw [(Workshop.hosts_moment_act closing (.commit batch)).2]
    exact after_moment _ shop
  rw [servesSince_iff reached]
  constructor
  · intro fresh slot memo bound found valid
    by_cases detached : closing.Detached batch memo
    · exact .inr detached
    · have after := (Workshop.isValid_commit closing batch memo).mpr ⟨valid, detached⟩
      rw [← gateOf_act closing (.commit batch) slot] at bound
      rw [← Workshop.memo?_act closing (.commit batch) slot] at found
      exact .inl (fresh.kept slot memo bound found after)
  · intro condition
    refine ⟨reached, fun slot memo bound found after => ?_⟩
    rw [gateOf_act closing (.commit batch) slot] at bound
    rw [Workshop.memo?_act closing (.commit batch) slot] at found
    obtain ⟨valid, attached⟩ := (Workshop.isValid_commit closing batch memo).mp after
    exact (condition slot memo bound found valid).resolve_right attached

/-! ## Commits with no reads before them -/

/-- The batch holds the cell, and whatever slots on the gate keep and still serve is kept
    under that cell. -/
structure Awaits (design : Design ν) (gate : GateId) (batch : Nat) (cell : CellId)
    (shop : Workshop ν) : Prop where
  /-- The batch is open and holds the cell. -/
  held : ∃ opened, shop.batches.get? batch = some opened ∧ cell ∈ opened.cells
  /-- The cell exists. -/
  inside : cell < shop.gates.tripped.size
  /-- What is kept and valid is kept under the cell. -/
  under : ∀ slot memo, design.gateOf shop slot = some gate → shop.memo? slot = some memo →
    memo.isValid shop.gates = true → memo.cell = some cell

/-- Whatever is done with gates, a batch that is left open still holds its cells. -/
theorem Awaits.act {batch : Nat} {cell : CellId} (awaits : design.Awaits gate batch cell shop)
    {act : GateAct} (leaves : act.Leaves batch) : design.Awaits gate batch cell (shop.act act) where
  held := by
    obtain ⟨opened, isOpen, within⟩ := awaits.held
    -- The batch keeps its cells under every act but its own opening, commit and discard, and those are excluded.
    cases act with
    | openBatch other =>
      refine ⟨opened, ?_, within⟩
      simp only [Workshop.act, Assoc.get?_set, if_neg (Ne.symm leaves), isOpen]
    | add other added =>
      by_cases same : batch = other
      · subst same
        refine ⟨(opened.add added shop.gates).1, ?_, Batch.cells_add within added shop.gates⟩
        simp only [Workshop.act, isOpen, Assoc.get?_set, if_true]
      · refine ⟨opened, ?_, within⟩
        unfold Workshop.act
        dsimp only
        split
        · exact isOpen
        · simp only [Assoc.get?_set, if_neg same, isOpen]
    | commit other =>
      refine ⟨opened, ?_, within⟩
      unfold Workshop.act
      dsimp only
      split
      · exact isOpen
      · simp only [Assoc.get?_erase, if_neg (Ne.symm leaves), isOpen]
    | discard other =>
      refine ⟨opened, ?_, within⟩
      simp only [Workshop.act, Assoc.get?_erase, if_neg (Ne.symm leaves), isOpen]
    | trip tripped => exact ⟨opened, isOpen, within⟩
  inside := Nat.lt_of_lt_of_le awaits.inside (Workshop.size_act shop act)
  under := by
    intro slot memo bound found valid
    rw [gateOf_act shop act slot] at bound
    rw [Workshop.memo?_act] at found
    exact awaits.under slot memo bound found ((Workshop.onward_act shop act).valid_before valid)

theorem Awaits.move {batch : Nat} {cell : CellId} (awaits : design.Awaits gate batch cell shop)
    {move : Move} (leaves : move.Leaves batch) :
    design.Awaits gate batch cell (design.move shop move) := by
  cases move with
  | newGate =>
    refine ⟨awaits.held, ?_, fun slot memo bound found valid => ?_⟩
    · exact Nat.lt_of_lt_of_le awaits.inside (Gates.size_newGate shop.gates)
    · exact awaits.under slot memo bound found
        ((Gates.Onward.of_eq (Gates.isTripped_newGate shop.gates)).valid_before valid)
  | newHost slots gates =>
    refine ⟨awaits.held, awaits.inside, fun slot memo bound found valid => ?_⟩
    have old := Workshop.hosts_newHost found
    refine awaits.under slot memo ?_ ?_ valid
    · rw [← bound]
      simp only [gateOf, Design.move, old]
    · rw [← found]
      simp only [Workshop.memo?, Design.move, old]
  | act act => exact awaits.act leaves
  | read slot access depth => exact leaves.elim

/-- Reads after a commit are fresh if nothing was read while the batch was open and, when
    the gate was added, its current cell was the only one that something was kept under
    and valid. -/
theorem commit_fresh_of_unread {batch : Nat} {opened : Batch} {cell : CellId} {middle : List Move}
    (isOpen : shop.batches.get? batch = some opened) (absent : gate ∉ opened.gates)
    (current : shop.gates.currentCell? gate = some cell)
    (inside : cell < shop.gates.tripped.size)
    (under : ∀ slot memo, design.gateOf shop slot = some gate → shop.memo? slot = some memo →
      memo.isValid shop.gates = true → memo.cell = some cell)
    (unread : ∀ move ∈ middle, move.Leaves batch) :
    design.ServesSince gate shop.moment
      ((design.after (.act (.add batch gate) :: middle) shop).act (.commit batch)) := by
  have added : design.Awaits gate batch cell (shop.act (.add batch gate)) := by
    refine ⟨⟨(opened.add gate shop.gates).1, ?_, Batch.mem_cells_add absent current⟩, ?_, ?_⟩
    · simp only [Workshop.act, isOpen, Assoc.get?_set, if_true]
    · exact Nat.lt_of_lt_of_le inside (Workshop.size_act shop _)
    · intro slot memo bound found valid
      rw [gateOf_act shop _ slot] at bound
      rw [Workshop.memo?_act] at found
      exact under slot memo bound found ((Workshop.onward_act shop _).valid_before valid)
  have closing : design.Awaits gate batch cell (design.after middle (shop.act (.add batch gate))) := by
    clear under
    generalize shop.act (.add batch gate) = start at added
    induction middle generalizing start with
    | nil => exact added
    | cons move middle inductionHypothesis =>
      exact inductionHypothesis (fun later among => unread later (List.mem_cons_of_mem _ among)) _
        (added.move (unread move List.mem_cons_self))
  have reached : shop.moment ≤ (design.after (.act (.add batch gate) :: middle) shop).moment :=
    after_moment _ shop
  rw [← (Workshop.hosts_moment_act (design.after _ shop) (.commit batch)).2] at reached
  refine (servesSince_iff reached).mpr ⟨reached, fun slot memo bound found after => ?_⟩
  obtain ⟨valid, attached⟩ := (Workshop.isValid_commit _ batch memo).mp after
  rw [gateOf_act _ (.commit batch) slot] at bound
  rw [Workshop.memo?_act] at found
  obtain ⟨open', isOpen', within⟩ := closing.held
  exact absurd ⟨open', cell, isOpen', closing.under slot memo bound found valid, within,
    closing.inside⟩ attached

/-! ## A stale read -/

/-- Two slots on one gate, one of which is computed from the other. -/
def pair : Design Int where
  spec slot := ⟨slot.index, "slot", .gate 0, .duplicate, .any⟩
  index_spec _ := rfl
  run
    | ⟨_, 0⟩, _, _ => .done (.cached 1)
    | _, access, _ => .read ⟨0, 0⟩ access fun
        | .ok value => .done (.cached (value + 10))
        | .error interrupt => .broken interrupt

/-- The first slot is read, and a batch opened. -/
def pairBefore : List Move :=
  [.newGate, .newHost 2 [0], .read ⟨0, 0⟩ .mutator 1, .act (.openBatch 0)]

/-- The second slot is read after the gate was added to the batch, which commits. -/
def pairCommitted : Workshop Int :=
  (pair.after [.act (.add 0 0), .read ⟨0, 1⟩ .mutator 2] (pair.after pairBefore {})).act (.commit 0)

/-- The first slot is read before the gate is added to a batch and the second one
    after it.  What the second one then serves for good is made of what was kept before. -/
theorem commit_leaves_stale :
    ¬ ∀ (design : Design Int) (before middle : List Move) (batch : Nat) (gate : GateId)
        (opened : Batch),
      let shop := design.after before {}
      let closing := design.after (.act (.add batch gate) :: middle) shop
      closing.batches.get? batch = some opened → gate ∈ opened.gates →
        design.ServesSince gate shop.moment (closing.act (.commit batch)) := by
  intro claim
  have serves : pair.ServesSince 0 1 pairCommitted :=
    claim pair pairBefore [.read ⟨0, 1⟩ .mutator 2] 0 0 ⟨[0], [0]⟩ (by decide +kernel) (by decide)
  -- The memo is of moment 1, but made of one of moment 0; the gate was added at moment 1.
  have kept : pairCommitted.memo? ⟨0, 1⟩ = some ⟨⟨11, [1, 0]⟩, some 1⟩ := by decide +kernel
  have stale := serves [] ⟨0, 1⟩ .mutator 1 ⟨11, [1, 0]⟩ _ (by decide +kernel)
    (get_memo kept (by decide +kernel) .mutator)
  exact absurd (stale 0 (by decide)) (by decide)

end Design

end CatalogReplica.Coherence
