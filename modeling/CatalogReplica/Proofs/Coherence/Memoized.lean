import CatalogReplica.Proofs.Coherence.Engine

/-!
# What memos hold

At every point of a run, in the midst of computations too, what a slot or a bound keeps is
what the computation of it left that ended last with a value to keep, under the cell that
was current when that computation started.  A get serves it while that cell is not tripped.

* `Engine.Sound`: memos are what the computations left.
* `Engine.Leads`: what happens on the way from one state to a later one.
* `Program.get_ends`: a get keeps `Engine.Sound`.
* `Program.memos_valid`: what is kept, and what a get does.
-/

namespace CatalogReplica.Coherence

variable {ν : Type}

namespace Engine

variable {engine before after last : Engine ν}

/-- Keeps a memo. -/
def keep (engine : Engine ν) (site : Site) (memo : Memo ν) : Engine ν :=
  match site with
  | .slot host index => { engine with hosts := engine.hosts.modify host (·.keep index memo) }
  | .bound id => { engine with bounds := engine.bounds.modify id ({ · with memo := some memo }) }

/-- A computation has ended, and the memo that it leaves is kept. -/
def settled (engine : Engine ν) (finished : Finished ν) : Engine ν :=
  match finished.memo? with
  | some memo => (engine.ended finished).keep finished.site memo
  | none => engine.ended finished

/-- Hosts and bounds have gates that exist. -/
structure Gated (engine : Engine ν) : Prop where
  hosts : ∀ (host : Nat) (table : SlotTable ν), engine.hosts[host]? = some table →
    ∀ gate ∈ table.gates, gate < engine.gates.current.size
  bounds : ∀ (id : Nat) (bound : Bound ν), engine.bounds[id]? = some bound →
    bound.gate < engine.gates.current.size

/-- Memos are what the computations left. -/
structure Sound (engine : Engine ν) : Prop where
  kept : ∀ site, engine.memo? site = engine.last? site
  gated : engine.Gated

/-- From one state to a later one: computations start and end and gates are acted on;
    hosts keep their gates and the number of their slots, and bounds keep their gates. -/
structure Leads (before after : Engine ν) : Prop where
  started : before.started ≤ after.started
  finished : ∃ ended, after.finished = ended ++ before.finished ∧
    ∀ finished ∈ ended, before.started ≤ finished.number
  steps : ∃ during, after.steps = before.steps ++ during
  hosts : ∀ (host : Nat) (table : SlotTable ν), before.hosts[host]? = some table →
    ∃ table' : SlotTable ν, after.hosts[host]? = some table' ∧ table'.gates = table.gates ∧
      table'.memos.size = table.memos.size
  bounds : ∀ (id : Nat) (bound : Bound ν), before.bounds[id]? = some bound →
    ∃ bound' : Bound ν, after.bounds[id]? = some bound' ∧ bound'.gate = bound.gate

namespace Leads

theorem refl (engine : Engine ν) : engine.Leads engine where
  started := Nat.le_refl _
  finished := ⟨[], rfl, fun _ among => nomatch among⟩
  steps := ⟨[], (List.append_nil _).symm⟩
  hosts _ table found := ⟨table, found, rfl, rfl⟩
  bounds _ bound found := ⟨bound, found, rfl⟩

theorem trans (first : before.Leads after) (second : after.Leads last) : before.Leads last where
  started := Nat.le_trans first.started second.started
  finished := by
    obtain ⟨one, same, early⟩ := first.finished
    obtain ⟨two, same', early'⟩ := second.finished
    refine ⟨two ++ one, by rw [same', same, List.append_assoc], fun finished among => ?_⟩
    cases List.mem_append.mp among with
    | inl later => exact Nat.le_trans first.started (early' finished later)
    | inr sooner => exact early finished sooner
  steps := by
    obtain ⟨one, same⟩ := first.steps
    obtain ⟨two, same'⟩ := second.steps
    exact ⟨one ++ two, by rw [same', same, List.append_assoc]⟩
  hosts host table found := by
    obtain ⟨table', found', gates, size⟩ := first.hosts host table found
    obtain ⟨table'', found'', gates', size'⟩ := second.hosts host table' found'
    exact ⟨table'', found'', gates'.trans gates, size'.trans size⟩
  bounds id bound found := by
    obtain ⟨bound', found', gate⟩ := first.bounds id bound found
    obtain ⟨bound'', found'', gate'⟩ := second.bounds id bound' found'
    exact ⟨bound'', found'', gate'.trans gate⟩

end Leads

/-! ## Deeds -/

/-- An operation on gates takes no gate away. -/
theorem current_step_size (yard : Yard) (step : GateStep) :
    yard.gates.current.size ≤ (yard.step step).gates.current.size := by
  rw [Nat.le_iff_lt_or_eq]
  cases step with
  | newGate => exact .inl (by simp [Yard.step])
  | newCell => exact .inr rfl
  | act act =>
    refine .inr ?_
    rw [Yard.step]
    cases act with
    | openBatch batch => rw [Yard.act, Yard.gates_drop]
    | add batch gate =>
      cases found : yard.batches.get? batch with
      | none => rw [Yard.act_add_unopened found]
      | some opened => rw [Yard.act_add found, Batch.current_size_add]
    | commit batch =>
      cases found : yard.batches.get? batch with
      | none => rw [Yard.act_commit_unopened found]
      | some opened => rw [Yard.act_commit found, Batch.current_commit]
    | discard batch => rw [Yard.act, Yard.gates_drop]
    | trip gate => rw [Yard.act, Gates.trip, Batch.current_commit, Batch.current_size_add]

theorem gates_step (engine : Engine ν) (step : GateStep) :
    (engine.deed (.gates step)).gates = (engine.yard.step step).gates := by
  simp only [gates, yard, deed, Yard.run_append, Yard.after, List.foldl_cons, List.foldl_nil]

theorem deed_host (engine : Engine ν) (slots : Nat) (gates : List GateId) :
    engine.deed (.host slots gates) = engine ∨
      (∀ gate ∈ gates, gate < engine.gates.current.size) ∧
        engine.deed (.host slots gates) =
          { engine with hosts := engine.hosts.push (.blank slots gates) } := by
  by_cases known : ∀ gate ∈ gates, gate < engine.gates.current.size
  · exact .inr ⟨known, if_pos known⟩
  · exact .inl (if_neg known)

theorem deed_bind (engine : Engine ν) (gate : GateId) :
    engine.deed (.bind gate) = engine ∨ gate < engine.gates.current.size ∧
      engine.deed (.bind gate) = { engine with bounds := engine.bounds.push { gate, plan := [] } } := by
  by_cases known : gate < engine.gates.current.size
  · exact .inr ⟨known, if_pos known⟩
  · exact .inl (if_neg known)

/-- Changing a host in a way that keeps its gates and slots. -/
theorem leads_modify (engine : Engine ν) (host : Nat) {f : SlotTable ν → SlotTable ν}
    (gates : ∀ table, (f table).gates = table.gates)
    (size : ∀ table, (f table).memos.size = table.memos.size) :
    engine.Leads { engine with hosts := engine.hosts.modify host f } := by
  have hosts : ∀ (other : Nat) (table : SlotTable ν), engine.hosts[other]? = some table →
      ∃ table' : SlotTable ν, (engine.hosts.modify host f)[other]? = some table' ∧
        table'.gates = table.gates ∧ table'.memos.size = table.memos.size := by
    intro other table found
    rw [Array.getElem?_modify]
    split
    · exact ⟨f table, by rw [found]; rfl, gates table, size table⟩
    · exact ⟨table, found, rfl, rfl⟩
  exact ⟨Nat.le_refl _, (Leads.refl engine).finished, (Leads.refl engine).steps, hosts,
    (Leads.refl engine).bounds⟩

theorem Gated.modify_hosts (gated : engine.Gated) (host : Nat) {f : SlotTable ν → SlotTable ν}
    (gates : ∀ table, (f table).gates = table.gates) :
    Gated { engine with hosts := engine.hosts.modify host f } := by
  refine ⟨fun other table found => ?_, gated.bounds⟩
  simp only [Array.getElem?_modify] at found
  split at found
  · obtain ⟨old, found', rfl⟩ := Option.map_eq_some_iff.mp found
    rw [gates]
    exact gated.hosts other old found'
  · exact gated.hosts other table found

theorem leads_deed (engine : Engine ν) (deed : Deed) : engine.Leads (engine.deed deed) := by
  have still := Leads.refl engine
  cases deed with
  | gates step => exact ⟨still.started, still.finished, ⟨[step], rfl⟩, still.hosts, still.bounds⟩
  | host slots gates =>
    obtain same | ⟨-, pushed⟩ := engine.deed_host slots gates
    · rw [same]
      exact still
    · rw [pushed]
      refine ⟨still.started, still.finished, still.steps, fun host table found => ?_, still.bounds⟩
      have known := (Array.getElem?_eq_some_iff.mp found).1
      exact ⟨table, by rw [Array.getElem?_push, if_neg (Nat.ne_of_lt known), found], rfl, rfl⟩
  | bind gate =>
    obtain same | ⟨-, pushed⟩ := engine.deed_bind gate
    · rw [same]
      exact still
    · rw [pushed]
      refine ⟨still.started, still.finished, still.steps, still.hosts, fun id bound found => ?_⟩
      have known := (Array.getElem?_eq_some_iff.mp found).1
      exact ⟨bound, by rw [Array.getElem?_push, if_neg (Nat.ne_of_lt known), found], rfl⟩
  | evict host => exact engine.leads_modify host (fun _ => rfl) fun _ => rfl

/-- A deed changes no memo. -/
theorem memo?_deed (engine : Engine ν) (deed : Deed) (site : Site) :
    (engine.deed deed).memo? site = engine.memo? site := by
  cases deed with
  | gates step => rfl
  | host slots gates =>
    obtain same | ⟨-, pushed⟩ := engine.deed_host slots gates
    · rw [same]
    · rw [pushed]
      cases site with
      | bound id => rfl
      | slot other index =>
        simp only [memo?, Array.getElem?_push]
        split
        · next new =>
          -- a new host has no memo, and no memo was found where it is now
          simp only [new, Array.getElem?_size, Option.bind_some, Option.bind_none, SlotTable.memo?,
            SlotTable.blank, Array.getElem?_replicate]
          split <;> rfl
        · rfl
  | bind gate =>
    obtain same | ⟨-, pushed⟩ := engine.deed_bind gate
    · rw [same]
    · rw [pushed]
      cases site with
      | slot other index => rfl
      | bound id =>
        simp only [memo?, Array.getElem?_push]
        split
        · next new => simp only [new, Array.getElem?_size, Option.bind_some, Option.bind_none]
        · rfl
  | evict host =>
    cases site with
    | bound id => rfl
    | slot other index =>
      simp only [deed, memo?, Array.getElem?_modify]
      split
      · cases engine.hosts[other]? <;> rfl
      · rfl

theorem last?_deed (engine : Engine ν) (deed : Deed) (site : Site) :
    (engine.deed deed).last? site = engine.last? site := by
  cases deed with
  | gates step => rfl
  | host slots gates => obtain same | ⟨-, same⟩ := engine.deed_host slots gates <;> rw [same]; rfl
  | bind gate => obtain same | ⟨-, same⟩ := engine.deed_bind gate <;> rw [same]; rfl
  | evict host => rfl

theorem Gated.deed (gated : engine.Gated) (deed : Deed) : (engine.deed deed).Gated := by
  -- A new table or binding names known gates only; the others change no table's gates.
  cases deed with
  | gates step =>
    have grown := current_step_size engine.yard step
    constructor
    · intro host table found gate among
      rw [gates_step]
      exact Nat.lt_of_lt_of_le (gated.hosts host table found gate among) grown
    · intro id bound found
      rw [gates_step]
      exact Nat.lt_of_lt_of_le (gated.bounds id bound found) grown
  | host slots gates =>
    obtain same | ⟨known, pushed⟩ := engine.deed_host slots gates
    · rw [same]
      exact gated
    · rw [pushed]
      refine ⟨fun host table found => ?_, gated.bounds⟩
      rw [Array.getElem?_push] at found
      split at found
      · cases found
        exact known
      · exact gated.hosts host table found
  | bind gate =>
    obtain same | ⟨known, pushed⟩ := engine.deed_bind gate
    · rw [same]
      exact gated
    · rw [pushed]
      refine ⟨gated.hosts, fun id bound found => ?_⟩
      rw [Array.getElem?_push] at found
      split at found
      · cases found
        exact known
      · exact gated.bounds id bound found
  | evict host => exact gated.modify_hosts host fun _ => rfl

theorem Sound.deed (sound : engine.Sound) (deed : Deed) : (engine.deed deed).Sound :=
  ⟨fun site => by rw [memo?_deed, last?_deed, sound.kept site], sound.gated.deed deed⟩

/-! ## Computations -/

/-- The slot or the bound exists. -/
def Has (engine : Engine ν) : Site → Prop
  | .slot host index => ∃ table, engine.hosts[host]? = some table ∧ index < table.memos.size
  | .bound id => id < engine.bounds.size

theorem Has.leads {site : Site} (has : before.Has site) (leads : before.Leads after) : after.Has site := by
  cases site with
  | slot host index =>
    obtain ⟨table, found, inside⟩ := has
    obtain ⟨table', found', -, size⟩ := leads.hosts host table found
    exact ⟨table', found', size ▸ inside⟩
  | bound id =>
    obtain ⟨bound', found', -⟩ := leads.bounds id _ (Array.getElem?_eq_getElem has)
    exact (Array.getElem?_eq_some_iff.mp found').1

/-- A memo that is kept shows at its own site alone. -/
theorem memo?_keep {site : Site} (has : engine.Has site) (memo : Memo ν) (other : Site) :
    (engine.keep site memo).memo? other = if other = site then some memo else engine.memo? other := by
  cases site with
  | slot host index =>
    obtain ⟨table, found, inside⟩ := has
    cases other with
    | bound id => rfl
    | slot host' index' =>
      simp only [keep, memo?, Array.getElem?_modify, Site.slot.injEq]
      by_cases here : host = host'
      · subst here
        simp only [if_true, found, Option.map_some, Option.bind_some, SlotTable.memo?, SlotTable.keep,
          Array.getElem?_setIfInBounds, true_and]
        by_cases same : index = index'
        · subst same
          simp only [if_true, inside, Option.join_some]
        · simp only [same, if_false, Ne.symm same]
      · simp only [here, if_false, Ne.symm here, false_and]
  | bound id =>
    cases other with
    | slot host index => rfl
    | bound id' =>
      simp only [keep, memo?, Array.getElem?_modify, Site.bound.injEq]
      by_cases here : id = id'
      · subst here
        have found : engine.bounds[id]? = some engine.bounds[id] := Array.getElem?_eq_getElem has
        simp only [if_true, found, Option.map_some, Option.bind_some]
      · simp only [here, if_false, Ne.symm here]

theorem leads_keep (engine : Engine ν) (site : Site) (memo : Memo ν) :
    engine.Leads (engine.keep site memo) := by
  cases site with
  | slot host index =>
    exact engine.leads_modify host (fun _ => rfl) fun _ => Array.size_setIfInBounds
  | bound id =>
    have still := Leads.refl engine
    refine ⟨still.started, still.finished, still.steps, still.hosts, fun other bound found => ?_⟩
    simp only [keep, Array.getElem?_modify]
    split
    · exact ⟨{ bound with memo := some memo }, by rw [found]; rfl, rfl⟩
    · exact ⟨bound, found, rfl⟩

theorem leads_begun (engine : Engine ν) : engine.Leads engine.begun := by
  have still := Leads.refl engine
  exact ⟨Nat.le_succ _, still.finished, still.steps, still.hosts, still.bounds⟩

theorem Leads.settled (leads : before.Leads after) (finished : Finished ν)
    (number : before.started ≤ finished.number) : before.Leads (after.settled finished) := by
  have closed : before.Leads (after.ended finished) := by
    obtain ⟨ended, same, early⟩ := leads.finished
    refine ⟨leads.started, ⟨finished :: ended, ?_, fun one among => ?_⟩, leads.steps, leads.hosts,
      leads.bounds⟩
    · rw [Engine.ended, same, List.cons_append]
    · cases List.mem_cons.mp among with
      | inl last => exact last ▸ number
      | inr before => exact early one before
  unfold Engine.settled
  split
  · exact closed.trans (leads_keep _ _ _)
  · exact closed

theorem memo?_settled {finished : Finished ν} (has : engine.Has finished.site) (other : Site) :
    (engine.settled finished).memo? other
      = (if finished.site = other then finished.memo? else none).or (engine.memo? other) := by
  have has' : (engine.ended finished).Has finished.site := has
  unfold settled
  cases kept : finished.memo? with
  | none => simp only [ite_self, Option.none_or]; rfl
  | some memo =>
    simp only [memo?_keep has', eq_comm]
    split
    · rfl
    · rfl

theorem finished_settled (engine : Engine ν) (finished : Finished ν) :
    (engine.settled finished).finished = finished :: engine.finished := by
  unfold settled
  split
  · cases finished.site <;> rfl
  · rfl

theorem gates_settled (engine : Engine ν) (finished : Finished ν) : (engine.settled finished).gates = engine.gates := by
  unfold settled
  split
  · cases finished.site <;> rfl
  · rfl

theorem last?_settled (engine : Engine ν) (finished : Finished ν) (site : Site) :
    (engine.settled finished).last? site
      = (if finished.site = site then finished.memo? else none).or (engine.last? site) := by
  unfold last?
  rw [finished_settled, List.findSome?_cons]
  cases (if finished.site = site then finished.memo? else none) <;> rfl

theorem Gated.keep (gated : engine.Gated) (site : Site) (memo : Memo ν) :
    (engine.keep site memo).Gated := by
  cases site with
  | slot host index => exact gated.modify_hosts host fun _ => rfl
  | bound id =>
    refine ⟨gated.hosts, fun other bound found => ?_⟩
    simp only [Engine.keep, Array.getElem?_modify] at found
    split at found
    · obtain ⟨old, found', rfl⟩ := Option.map_eq_some_iff.mp found
      exact gated.bounds other old found'
    · exact gated.bounds other bound found

theorem Sound.settled (sound : engine.Sound) {finished : Finished ν} (has : engine.Has finished.site) :
    (engine.settled finished).Sound := by
  refine ⟨fun other => by rw [memo?_settled has, last?_settled, sound.kept], ?_⟩
  have closed : (engine.ended finished).Gated := ⟨sound.gated.hosts, sound.gated.bounds⟩
  unfold Engine.settled
  split
  · exact closed.keep _ _
  · exact closed

theorem Sound.begun (sound : engine.Sound) : engine.begun.Sound :=
  ⟨sound.kept, sound.gated.hosts, sound.gated.bounds⟩

/-- A gate that governs a get exists, so it has a current cell. -/
theorem Gated.cell (gated : engine.Gated) (program : Program ν) {reading : Reading} {gate : GateId}
    (governs : program.gate? engine reading = some gate) :
    ∃ cell, program.cell? engine reading = some cell ∧ engine.gates.currentCell? gate = some cell := by
  have known : gate < engine.gates.current.size := by
    cases reading with
    | slot host declaration access =>
      unfold Program.gate? at governs
      dsimp only at governs
      split at governs
      · cases governs
      · obtain ⟨table, found, listed⟩ := Option.bind_eq_some_iff.mp governs
        exact gated.hosts host table found gate (List.mem_of_getElem? listed)
    | bound id =>
      obtain ⟨bound, found, rfl⟩ := Option.map_eq_some_iff.mp governs
      exact gated.bounds id bound found
  obtain ⟨cell, current⟩ := Gates.currentCell?_isSome known
  exact ⟨cell, by rw [Program.cell?, governs, Option.bind_some, current], current⟩

end Engine

namespace Program

variable {program : Program ν} {engine mid : Engine ν} {reading : Reading} {depth : Nat}
  {outcome : Except Interrupt (Computed ν)}

/-! ## One get -/

/-- Where the value of a get is kept. -/
def place (program : Program ν) : Reading → Place (Engine ν) ν
  | .slot host declaration _ => (Engine.view host).place (program.spec declaration)
  | .bound id => Engine.place id

theorem peek_place (program : Program ν) (engine : Engine ν) (reading : Reading) :
    (program.place reading).peek engine
      = (engine.memo? (program.site reading)).bind (·.get? engine.gates) := by
  cases reading with
  | slot host declaration access => exact TableView.peek_place _ _ _
  | bound id =>
    simp only [place, Engine.place, Bounds.place, Engine.bounded, site, Engine.memo?]
    cases engine.bounds[id]? <;> rfl

theorem keep_place (program : Program ν) (engine : Engine ν) (reading : Reading) (memo : Memo ν) :
    (program.place reading).keep memo engine = engine.keep (program.site reading) memo := by
  cases reading <;> rfl

theorem gate?_slot (program : Program ν) {host declaration : Nat} (access : Access)
    {table : SlotTable ν} (found : engine.hosts[host]? = some table) :
    program.gate? engine (.slot host declaration access)
      = match (program.spec declaration).binding with
        | .fixed => none
        | .gate index => table.gates[index]? := by
  cases bound : (program.spec declaration).binding <;> simp only [gate?, bound, found, Option.bind_some]

theorem cell_place (inRange : program.InRange engine reading) :
    (program.place reading).cell engine = .ok (program.cell? engine reading) engine := by
  cases reading with
  | slot host declaration access =>
    obtain ⟨table, held, -, gated⟩ := inRange
    rw [cell?, program.gate?_slot access held]
    change (Engine.view host).cell (program.spec declaration) engine = _
    unfold TableView.cell
    cases bound : (program.spec declaration).binding with
    | fixed => rfl
    | gate index =>
      obtain ⟨gate, governs⟩ := gated index bound
      dsimp only
      rw [Task.bind_ok (Task.get_run engine), held, Option.bind_some, governs]
      rfl
  | bound id =>
    have found : engine.bounds[id]? = some engine.bounds[id] := Array.getElem?_eq_getElem inRange
    have taken : (Bounds.place id : Place (Bounds ν) ν).cell engine.bounded
        = .ok (program.cell? engine (.bound id)) engine.bounded := by
      simp only [Bounds.place]
      rw [Task.bind_ok (Task.get_run engine.bounded)]
      simp only [Engine.bounded, cell?, gate?, found, Option.map_some, Option.bind_some]
      rfl
    simp only [place, Engine.place, Task.within, taken]
    rfl

/-- A get of what is there is a read of its place. -/
theorem get_place (inRange : program.InRange engine reading) (depth : Nat) :
    program.get (depth + 1) reading engine
      = (program.place reading).read (program.refusal reading)
          (program.compute (program.get depth) reading) engine := by
  cases reading with
  | slot host declaration access =>
    have found : (Engine.view host).Has (program.spec declaration) engine := inRange
    rw [get, TableView.read, Task.bind_ok found.require_run]
    rfl
  | bound id =>
    have inside : id < engine.bounds.size := inRange
    have required : Engine.require id engine = .ok () engine := by
      unfold Engine.require
      rw [Task.bind_ok (Task.get_run engine)]
      simp only [inside, if_true, Task.pure_run]
    rw [get, Task.bind_ok required]
    rfl

/-- A valid memo is served. -/
theorem get_served (inRange : program.InRange engine reading) {memo : Memo ν}
    (kept : engine.memo? (program.site reading) = some memo) (valid : memo.isValid engine.gates = true) :
    program.get (depth + 1) reading engine = .ok memo.value engine := by
  have peeked : (program.place reading).peek engine = some memo.value := by
    rw [peek_place, kept, Option.bind_some, Memo.get?, if_pos valid]
  rw [get_place inRange]
  unfold Place.read
  rw [Task.bind_ok (Task.get_run engine), peeked]
  cases reading <;> rfl

/-- Without a valid memo nothing is served. -/
theorem peek_invalid (invalid : ∀ memo, engine.memo? (program.site reading) = some memo →
    memo.isValid engine.gates = false) : (program.place reading).peek engine = none := by
  rw [peek_place]
  cases kept : engine.memo? (program.site reading) with
  | none => rfl
  | some memo => rw [Option.bind_some, Memo.get?, invalid memo kept]; rfl

/-- A get that would have to compute and may not ends without having changed anything. -/
theorem get_refused (inRange : program.InRange engine reading)
    (invalid : ∀ memo, engine.memo? (program.site reading) = some memo → memo.isValid engine.gates = false)
    {fault : Fault} (refused : program.refusal reading = some fault) :
    program.get (depth + 1) reading engine = .error (.fault fault) engine := by
  rw [get_place inRange]
  unfold Place.read
  rw [Task.bind_ok (Task.get_run engine), peek_invalid invalid, refused]
  rfl

/-- A get that computes ends as its computation does, which is recorded. -/
theorem get_computes (computes : program.Computes engine reading)
    (ran : Task.attempt ((program.course reading engine.started).follow (program.get depth)) engine.begun
      = .ok outcome mid) :
    program.get (depth + 1) reading engine
      = Task.ofOutcome (outcome.map Computed.value) (mid.settled
          ⟨program.site reading, engine.started, program.cell? engine reading, outcome⟩) := by
  have ended : program.compute (program.get depth) reading engine = Task.ofOutcome outcome (mid.ended
      ⟨program.site reading, engine.started, program.cell? engine reading, outcome⟩) := by
    unfold compute
    rw [Task.bind_ok (Task.get_run engine), Task.bind_ok (Task.set_run engine.begun engine), Task.bind_ok ran,
      Task.bind_ok (Task.modify_run _ mid)]
  rw [get_place computes.inRange]
  unfold Place.read
  rw [Task.bind_ok (Task.get_run engine), peek_invalid computes.invalid, computes.allowed]
  dsimp only
  unfold Place.compute
  rw [Task.bind_ok (cell_place computes.inRange)]
  cases outcome with
  | error interrupt => rw [Task.bind_error ended]; rfl
  | ok result =>
    rw [Task.bind_ok ended]
    cases result with
    | cached value =>
      dsimp only
      rw [Task.bind_ok (Task.modify_run _ _), keep_place]
      cases reading <;> rfl
    | transient value => cases reading <;> rfl

/-- A get of what is not there changes nothing. -/
theorem get_still (absent : ¬ program.InRange engine reading) (depth : Nat) :
    (program.get (depth + 1) reading).Ends engine fun _ after => after = engine := by
  cases reading with
  | bound id =>
    have outside : ¬ id < engine.bounds.size := absent
    have broken : Engine.require id engine = .error (.crash none) engine := by
      unfold Engine.require
      rw [Task.bind_ok (Task.get_run engine)]
      simp only [outside, if_false]
      rfl
    exact .stop broken rfl
  | slot host declaration access =>
    cases (Engine.view host).require_run (program.spec declaration) engine with
    | inr failed => exact .stop failed rfl
    | inl found =>
      refine .next found (Place.read_ends (fun _ _ => rfl) (fun _ _ _ => rfl) fun _ _ => ?_)
      cases (Engine.view host).cell_run (program.spec declaration) engine with
      | inr failed => exact .stop failed rfl
      | inl taken => exact absurd (TableView.has_of_run found taken) absent

/-- A get of what is there serves a valid memo, is refused, or computes. -/
theorem serves_or_computes (inRange : program.InRange engine reading) :
    (∃ memo, engine.memo? (program.site reading) = some memo ∧ memo.isValid engine.gates = true) ∨
      (∀ memo, engine.memo? (program.site reading) = some memo → memo.isValid engine.gates = false) ∧
        ((∃ fault, program.refusal reading = some fault) ∨ program.Computes engine reading) := by
  by_cases served : ∃ memo, engine.memo? (program.site reading) = some memo ∧ memo.isValid engine.gates = true
  · exact .inl served
  · have invalid : ∀ memo, engine.memo? (program.site reading) = some memo → memo.isValid engine.gates = false :=
      fun memo kept => Bool.eq_false_iff.mpr fun valid => served ⟨memo, kept, valid⟩
    cases allowed : program.refusal reading with
    | some fault => exact .inr ⟨invalid, .inl ⟨fault, rfl⟩⟩
    | none => exact .inr ⟨invalid, .inr ⟨inRange, invalid, allowed⟩⟩

theorem InRange.has (inRange : program.InRange engine reading) : engine.Has (program.site reading) := by
  cases reading with
  | slot host declaration access =>
    obtain ⟨table, found, inside, -⟩ := inRange
    exact ⟨table, found, inside⟩
  | bound id => exact inRange

/-! ## All gets -/

/-- A get keeps soundness if its computation does. -/
theorem get_sound {depth : Nat} (sound : engine.Sound)
    (computed : program.Computes engine reading →
      ((program.course reading engine.started).follow (program.get depth)).Ends engine.begun
        fun _ after => after.Sound ∧ engine.begun.Leads after) :
    (program.get (depth + 1) reading).Ends engine fun _ after => after.Sound ∧ engine.Leads after := by
  by_cases inRange : program.InRange engine reading
  · obtain ⟨memo, kept, valid⟩ | ⟨invalid, ⟨fault, refused⟩ | computes⟩ := serves_or_computes inRange
    · exact (Task.Ends.of_ok (get_served inRange kept valid)).mpr ⟨sound, .refl engine⟩
    · unfold Task.Ends
      rw [get_refused inRange invalid refused]
      exact ⟨sound, .refl engine⟩
    · obtain ⟨outcome, mid, ran, ended⟩ := Task.attempt_run
        ((program.course reading engine.started).follow (program.get depth)) engine.begun
      obtain ⟨sound', leads⟩ := ended _ (computed computes)
      -- whatever was computed, cached and tripped meanwhile, the engine is sound when the
      -- result is settled, and the slot is still there
      refine .of_run (get_computes computes ran) (.ofOutcome ⟨sound'.settled ?_, ?_⟩)
      · exact (inRange.has.leads engine.leads_begun).leads leads
      · exact (engine.leads_begun.trans leads).settled _ (Nat.le_refl _)
  · refine (get_still inRange depth).weaken fun _ after same => ?_
    rw [same]
    exact ⟨sound, .refl engine⟩

end Program

/-- Following a computation keeps soundness if its gets do. -/
theorem Course.follow_sound {get : Reading → Task (Engine ν) ν}
    (gets : ∀ reading (engine : Engine ν), engine.Sound →
      (get reading).Ends engine fun _ after => after.Sound ∧ engine.Leads after)
    (course : Course ν) {engine : Engine ν} (sound : engine.Sound) :
    (course.follow get).Ends engine fun _ after => after.Sound ∧ engine.Leads after := by
  -- the rest of a course starts from the engine that its first get or deed leaves
  induction course generalizing engine with
  | done result => exact ⟨sound, .refl engine⟩
  | broken interrupt => exact ⟨sound, .refl engine⟩
  | get reading next ih =>
    rw [follow]
    refine (gets reading engine sound).attempt.bind ?_ fun interrupt after ⟨_, same, _⟩ => nomatch same
    rintro outcome after ⟨inner, -, sound', leads⟩
    exact (ih outcome sound').weaken fun _ _ ⟨sound'', leads'⟩ => ⟨sound'', leads.trans leads'⟩
  | deed deed next ih =>
    rw [follow]
    refine .next (Task.modify_run _ engine) ?_
    exact (ih (sound.deed deed)).weaken fun _ _ ⟨sound', leads⟩ =>
      ⟨sound', (engine.leads_deed deed).trans leads⟩

namespace Program

/-- Every get keeps soundness. -/
theorem get_ends (program : Program ν) (depth : Nat) (reading : Reading) (engine : Engine ν)
    (sound : engine.Sound) :
    (program.get depth reading).Ends engine fun _ after => after.Sound ∧ engine.Leads after := by
  -- the gets of a computation are one level deeper in the call stack
  induction depth generalizing reading engine with
  | zero => exact ⟨sound, .refl engine⟩
  | succ depth ih => exact get_sound sound fun _ => Course.follow_sound ih _ sound.begun

/-- What a run of operations leaves is sound. -/
theorem run_sound (program : Program ν) (moves : List EngineMove) : (program.run moves).Sound := by
  have start : ({} : Engine ν).Sound := by
    refine ⟨fun site => ?_, fun host table found => ?_, fun id bound found => ?_⟩
    · cases site <;> rfl
    · cases found
    · cases found
  unfold run
  -- soundness is all that the induction needs of the start
  generalize ({} : Engine ν) = engine at start
  induction moves generalizing engine with
  | nil => exact start
  | cons move moves ih =>
    refine ih _ ?_
    cases move with
    | deed deed => exact start.deed deed
    | get reading depth =>
      exact Task.Ends.exec ((program.get_ends depth reading engine start).weaken fun _ _ both => both.1)

end Program

/-- A computation passes through sound states if its gets do. -/
theorem Course.passes_sound {get : Reading → Task (Engine ν) ν}
    {inside : Reading → Engine ν → Engine ν → Prop}
    (gets : ∀ reading (engine : Engine ν), engine.Sound →
      (get reading).Ends engine fun _ after => after.Sound ∧ engine.Leads after)
    (insides : ∀ reading (engine state : Engine ν), engine.Sound → inside reading engine state → state.Sound)
    (course : Course ν) {engine state : Engine ν} (sound : engine.Sound)
    (passes : course.Passes get inside engine state) : state.Sound := by
  induction course generalizing engine with
  | done result => exact passes ▸ sound
  | broken interrupt => exact passes ▸ sound
  | get reading next ih =>
    obtain same | within | later := passes
    · exact same ▸ sound
    · exact insides reading engine state sound within
    · obtain ⟨outcome, after, -, ended⟩ := Task.attempt_run (get reading) engine
      exact ih outcome (ended _ (gets reading engine sound)).1 (ended _ later)
  | deed deed next ih =>
    obtain same | later := passes
    · exact same ▸ sound
    · exact ih (sound.deed deed) later

namespace Program

theorem inside_sound (program : Program ν) (depth : Nat) (reading : Reading) (engine state : Engine ν)
    (sound : engine.Sound) (inside : program.Inside depth reading engine state) : state.Sound := by
  induction depth generalizing reading engine state with
  | zero => cases inside
  | succ depth ih => exact Course.passes_sound (program.get_ends depth) ih _ sound.begun inside.2

/-- Every state of a run is sound. -/
theorem Reaches.sound {program : Program ν} {moves : List EngineMove} {state : Engine ν}
    (reaches : program.Reaches moves state) : state.Sound := by
  obtain rfl | ⟨depth, reading, inside⟩ := reaches
  · exact program.run_sound moves
  · exact program.inside_sound depth reading _ _ (program.run_sound moves) inside

/-! ## Which memos are valid -/

/-- What a get does that computes: its computation runs once, from the state of the get to
    `mid`, with the outcome, and leaves `after` when it has ended. -/
structure Runs (program : Program ν) (depth : Nat) (reading : Reading) (before : Engine ν)
    (outcome : Except Interrupt (Computed ν)) (mid after : Engine ν) : Prop where
  /-- The computation is followed to its end. -/
  followed : Task.attempt ((program.course reading before.started).follow (program.get depth)) before.begun
    = .ok outcome mid
  /-- What ended in the meantime had started later. -/
  nested : ∃ inner, mid.finished = inner ++ before.finished ∧
    ∀ finished ∈ inner, before.started < finished.number
  /-- The computation is the one that ended last, under the cell that was current when it
      started. -/
  recorded : after.finished = ⟨program.site reading, before.started, program.cell? before reading, outcome⟩
    :: mid.finished
  /-- The get gives what the computation gave. -/
  given : program.get (depth + 1) reading before = Task.ofOutcome (outcome.map Computed.value) after
  /-- A value to keep is kept, and anything else keeps nothing. -/
  kept : after.memo? (program.site reading)
    = (Finished.memo? ⟨program.site reading, before.started, program.cell? before reading, outcome⟩).or
      (mid.memo? (program.site reading))
  /-- Other memos are left alone. -/
  others : ∀ site, site ≠ program.site reading → after.memo? site = mid.memo? site
  /-- If its cell was tripped in the meantime, at whatever depth, the memo is invalid. -/
  spoiled : ∀ cell value, program.cell? before reading = some cell → mid.gates.isTripped cell = true →
    outcome = .ok (.cached value) → ∃ memo, after.memo? (program.site reading) = some memo ∧
      memo.value = value ∧ memo.isValid after.gates = false
  /-- If its gate was tripped in the meantime, at whatever depth, the memo is invalid, unless
      a batch took the cell and withholds it. -/
  tripped : ∀ gate during value, program.gate? before reading = some gate →
    after.steps = before.steps ++ during → .act (.trip gate) ∈ during → outcome = .ok (.cached value) →
    ∃ cell, after.memo? (program.site reading) = some ⟨value, some cell⟩ ∧
      ((⟨value, some cell⟩ : Memo ν).isValid after.gates = true ↔ after.yard.Withholds cell)

/-- A get that computes runs its computation once. -/
theorem Computes.runs {program : Program ν} {reading : Reading} {engine : Engine ν}
    (computes : program.Computes engine reading) (sound : engine.Sound) (depth : Nat) :
    ∃ outcome mid after, program.Runs depth reading engine outcome mid after := by
  obtain ⟨outcome, mid, ran, ended⟩ := Task.attempt_run
    ((program.course reading engine.started).follow (program.get depth)) engine.begun
  obtain ⟨sound', leads⟩ := ended _ (Course.follow_sound (program.get_ends depth) _ sound.begun)
  obtain ⟨inner, same, later⟩ := leads.finished
  -- The computation may nest others, but it comes back to its own site, where its value is kept.
  have has : mid.Has (program.site reading) := (computes.inRange.has.leads engine.leads_begun).leads leads
  have closed : ∀ other, (mid.settled _).memo? other = _ := Engine.memo?_settled
    (show mid.Has (Finished.site
      ⟨program.site reading, engine.started, program.cell? engine reading, outcome⟩) from has)
  refine ⟨outcome, mid, mid.settled _, ran, ⟨inner, same, later⟩, Engine.finished_settled _ _,
    get_computes computes ran, ?_, ?_, ?_, ?_⟩
  · rw [closed, if_pos rfl]
  · intro other differs
    rw [closed, if_neg (Ne.symm differs), Option.none_or]
  · intro cell value taken spent cached
    refine ⟨⟨value, some cell⟩, ?_, rfl, ?_⟩
    · rw [closed, if_pos rfl, Finished.memo?, cached, taken]
      rfl
    · rw [Memo.isValid_cell rfl, Engine.gates_settled, spent]
      rfl
  · intro gate during value governs extended trips cached
    obtain ⟨cell, taken, current⟩ := sound.gated.cell program governs
    refine ⟨cell, ?_, ?_⟩
    · rw [closed, if_pos rfl, Finished.memo?, cached, taken]
      rfl
    · -- the cell was current when the computation started, and has left its gate since
      have fated := (Yard.Sound.run engine.steps).fated current
      have past := Yard.past_of_trip fated trips
      rw [Memo.isValid_cell rfl, Bool.not_eq_true', Engine.gates, Engine.yard, extended, Yard.run_append]
      exact ((Yard.Sound.run engine.steps).after during).untripped_iff (fated.after during) past

/-- In every state of a run a memo is the value of the computation of its slot or bound that
    ended last with a value to keep, under the cell that was current on its gate when that
    computation started.  A get gives the memo and changes nothing just if it is valid;
    else a reader is refused what the mutator alone may compute, and otherwise the
    computation runs once. -/
theorem memos_valid (program : Program ν) (moves : List EngineMove) (state : Engine ν)
    (reaches : program.Reaches moves state) :
    (∀ site, state.memo? site = state.last? site) ∧
    ∀ depth reading, program.InRange state reading →
      (∀ memo, state.memo? (program.site reading) = some memo → memo.isValid state.gates = true →
        program.get (depth + 1) reading state = .ok memo.value state) ∧
      ((∀ memo, state.memo? (program.site reading) = some memo → memo.isValid state.gates = false) →
        (∀ host declaration, reading = .slot host declaration .reader →
          (program.spec declaration).affinity = .mutator →
          program.get (depth + 1) reading state
            = .error (.fault (.wrongContext (program.spec declaration).name)) state) ∧
        ((∀ host declaration, reading = .slot host declaration .reader →
          (program.spec declaration).affinity ≠ .mutator) →
          ∃ outcome mid after, program.Runs depth reading state outcome mid after)) := by
  have sound := reaches.sound
  refine ⟨sound.kept, fun depth reading inRange => ⟨fun memo kept valid => get_served inRange kept valid,
    fun invalid => ⟨fun host declaration same mutators => ?_, fun others => ?_⟩⟩⟩
  · refine get_refused inRange invalid ?_
    rw [same]
    exact if_pos ⟨mutators, rfl⟩
  · refine Computes.runs ⟨inRange, invalid, ?_⟩ sound depth
    cases reading with
    | bound id => rfl
    | slot host declaration access =>
      refine if_neg fun ⟨mutators, reader⟩ => ?_
      subst reader
      exact others host declaration rfl mutators

/-- A slot that gets a bound which trips the gate of both. -/
def nestedTrip : Program Nat where
  spec _ := { index := 0, name := "outer" }
  course
    | .slot .., _ => .get (.bound 0) fun _ => .done (.cached 7)
    | .bound _, _ => .deed (.gates (.act (.trip 0))) (.done (.cached 1))

/-- A trip by a nested computation leaves the slot with an invalid memo. -/
theorem memos_valid_nestedTrip :
    nestedTrip.InRange (nestedTrip.run [.deed (.gates .newGate), .deed (.host 1 [0]), .deed (.bind 0)])
      (.slot 0 0 .mutator) ∧
    ∃ outcome mid after, nestedTrip.Runs 1 (.slot 0 0 .mutator)
        (nestedTrip.run [.deed (.gates .newGate), .deed (.host 1 [0]), .deed (.bind 0)]) outcome mid after ∧
      after.memo? (.slot 0 0) = some ⟨7, some 0⟩ ∧ after.gates.isTripped 0 = true := by
  generalize started : nestedTrip.run [.deed (.gates .newGate), .deed (.host 1 [0]), .deed (.bind 0)] = state
  have inRange : nestedTrip.InRange state (.slot 0 0 .mutator) := by
    subst started
    refine ⟨.blank 1 [0], rfl, by decide, fun index bound => ?_⟩
    cases bound
    exact ⟨0, rfl⟩
  obtain ⟨-, gets⟩ := memos_valid nestedTrip _ state (.inl started.symm)
  obtain ⟨-, computes⟩ := gets 1 (.slot 0 0 .mutator) inRange
  have invalid : ∀ memo, state.memo? (nestedTrip.site (.slot 0 0 .mutator)) = some memo →
      memo.isValid state.gates = false := by
    subst started
    exact fun memo kept => nomatch kept
  obtain ⟨outcome, mid, after, runs⟩ := (computes invalid).2 fun host declaration same => nomatch same
  have last : (nestedTrip.get 2 (.slot 0 0 .mutator)).exec state = after := by
    unfold Task.exec
    rw [runs.given]
    cases outcome <;> rfl
  refine ⟨inRange, outcome, mid, after, runs, ?_, ?_⟩ <;> rw [← last, ← started]
  · decide
  · decide

end Program

end CatalogReplica.Coherence
