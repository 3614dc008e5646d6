import CatalogReplica.Proofs.Identity.Twins

/-!
# Shared and confined identity caches

One thread that runs a script over a cache does not see whether the cache is shared, into
how many shards it is split, or how it spreads its keys.

* `Step.sequential`: one thread carries the step out alone.
* `allShown`: the reports of a run, without what depends on dead entries.
* `told`: the departures that the reports of a run tell.
* `step_abreast`, `steps_abreast`: what one step does to two runs, and what a script does.
* `flavors_agree`: the two kinds of caches agree.
-/

namespace CatalogReplica.Identity.Script

/-! ## What a run shows -/

mutual

/-- Whether one thread carries the step out, and those of its constructor, alone. -/
def Step.sequential : Step → Bool
  | .lookup _ inner _ _ _ => allSequential inner
  | .concurrent _ _ _ _ _ _ => false
  | _ => true

/-- Whether one thread carries out all steps. -/
def allSequential : List Step → Bool
  | [] => true
  | first :: rest => first.sequential && allSequential rest

end

mutual

/-- What the step gives, unless it tells of dead entries or of the kind of the cache. -/
def Step.shown : Step → Answer → Answer
  | .lookup _ inner _ _ _, .lookup outcome ran => .lookup outcome (ran.map (allShown inner))
  | .fill _ _ _, .count _ | .purge, .count _ | .length, .size _ | .info, .info _ _ => .void
  | _, answer => answer

/-- The reports of the steps, without what depends on dead entries. -/
def allShown : List Step → List Report → List Report
  | first :: rest, (answer, activity) :: reports =>
      (first.shown answer, activity.shown) :: allShown rest reports
  | _, _ => []

end

mutual

/-- The departures that the answer tells: those while a constructor ran. -/
def Answer.told : Answer → List (Nat × Departure)
  | .lookup _ ran => toldRan ran
  | _ => []

/-- The departures that the reports of a constructor tell, if it ran. -/
def toldRan : Option (List (Answer × Activity)) → List (Nat × Departure)
  | some reports => told reports
  | none => []

/-- The departures that the reports tell, those while constructors ran among them. -/
def told : List (Answer × Activity) → List (Nat × Departure)
  | [] => []
  | report :: reports => toldReport report ++ told reports

/-- The departures that the report tells. -/
def toldReport : Answer × Activity → List (Nat × Departure)
  | (answer, activity) => answer.told ++ activity.departures

end

/-! ## Steps -/

open Desk (Twins Moved Ended)

/-- Two runs that differ in dead entries take the step alike. -/
def Step.Abreast (step : Step) : Prop :=
  ∀ one two, one.Twins two →
    step.shown (Script.step step one).1 = step.shown (Script.step step two).1 ∧
      Moved (Script.step step one).1.told (Script.step step two).1.told one two
        (Script.step step one).2 (Script.step step two).2

/-- Two runs that differ in dead entries take the steps alike. -/
def Abreast (script : List Step) : Prop :=
  ∀ one two, one.Twins two →
    allShown script (steps script one).1 = allShown script (steps script two).1 ∧
      Moved (told (steps script one).1) (told (steps script two).1) one two
        (steps script one).2 (steps script two).2

theorem nil_abreast : Abreast [] := fun _ _ twins => ⟨rfl, twins.still⟩

theorem cons_abreast {first : Step} {rest : List Step} (one : first.Abreast) (all : Abreast rest) :
    Abreast (first :: rest) := by
  intro before before' twins
  obtain ⟨answer, stepped⟩ := one before before' twins
  obtain ⟨activity, reported⟩ := stepped.twins.activity
  obtain ⟨reports, ran⟩ := all _ _ reported.twins
  exact ⟨congrArg₂ List.cons (Prod.ext answer activity) reports, (stepped.trans reported).trans ran⟩

/-! ### Constructors -/

/-- The fault that the answer of a lookup passes on. -/
def Answer.fault? : Answer → Option FaultKind
  | .lookup (.error (.fault fault)) _ => some fault.kind
  | _ => none

theorem fault?_shown (step : Step) (answer : Answer) : (step.shown answer).fault? = answer.fault? := by
  cases answer with
  | lookup outcome ran =>
    obtain (fault | note) | item := outcome <;> cases step <;> rfl
  | _ => cases step <;> rfl

theorem steps_length (script : List Step) (desk : Desk) : (steps script desk).1.length = script.length := by
  induction script generalizing desk with
  | nil => rfl
  | cons first rest ih => exact congrArg (· + 1) (ih _)

/-- The first fault among the answers shows. -/
theorem findSome?_shown {script : List Step} {reports : List Report} (whole : reports.length = script.length) :
    (allShown script reports).findSome? (·.1.fault?) = reports.findSome? (·.1.fault?) := by
  induction script generalizing reports with
  | nil =>
    rw [List.length_eq_zero_iff.mp whole]
    rfl
  | cons first rest ih =>
    obtain _ | ⟨⟨answer, activity⟩, reports⟩ := reports
    · cases whole
    · have same := fault?_shown first answer
      simp only [allShown, List.findSome?_cons, same, ih (Nat.succ.inj whole)]

/-- How a constructor ends after its steps. -/
theorem conclude_eq (reports : List Report) (propagate : Bool) (ending : Ending) (desk : Desk) :
    Desk.conclude reports propagate ending desk =
      match (if propagate then reports.findSome? (·.1.fault?) else none), ending with
      | some kind, _ => .error (.fault { kind, message := "propagated" }) { desk with inner := some reports }
      | none, .crash note => .error (.crash (Coherence.PlanEnd.note note)) { desk with inner := some reports }
      | none, .fail kind message => .error (.fault { kind, message }) { desk with inner := some reports }
      | none, .value text => Desk.construct text { desk with inner := some reports } := by
  change (match (if propagate then reports.findSome? fun report : Report => report.1.fault? else none), ending with
    | some kind, _ => (Task.fail { kind, message := "propagated" } : Task Desk Item)
    | none, .crash note => Task.crash (Coherence.PlanEnd.note note)
    | none, .fail kind message => Task.fail { kind, message }
    | none, .value text => Desk.construct text) { desk with inner := some reports } = _
  cases (if propagate then reports.findSome? (·.1.fault?) else none) with
  | some kind => rfl
  | none => cases ending <;> rfl

namespace Desk

/-- Steps before the end of a constructor. -/
theorem Ended.after {one two mid mid' : Desk} {first first' : List (Nat × Departure)}
    {related later : Relation}
    {ended ended' : EStateM.Result Interrupt Desk Item} (moved : Moved first first' one two mid mid')
    (ends : Ended related mid mid' ended ended')
    (shows : ∀ {ran ran' rest rest'}, related ran ran' rest rest' →
      later ran ran' (first ++ rest) (first' ++ rest')) :
    Ended later one two ended ended' := by
  cases ends with
  | ok next held made related => exact .ok (moved.trans next) held made (shows related)
  | error next related => exact .error (moved.trans next) (shows related)

/-- Two constructors whose steps report the same end the same way. -/
theorem Twins.conclude {one two : Desk} (twins : one.Twins two) {script : List Step} {reports reports' : List Report}
    (shown : allShown script reports = allShown script reports') (whole : reports.length = script.length)
    (whole' : reports'.length = script.length) (propagate : Bool) (ending : Ending) :
    Ended (fun ran ran' told told' => ran = some reports ∧ ran' = some reports' ∧ told = [] ∧ told' = []) one two
      (Desk.conclude reports propagate ending one) (Desk.conclude reports' propagate ending two) := by
  have moved := twins.ran (some reports) (some reports')
  have faults : reports.findSome? (·.1.fault?) = reports'.findSome? (·.1.fault?) := by
    rw [← findSome?_shown whole, shown, findSome?_shown whole']
  rw [conclude_eq, conclude_eq, faults]
  cases (if propagate then reports'.findSome? (·.1.fault?) else none) with
  | some kind => exact .error moved ⟨rfl, rfl, rfl, rfl⟩
  | none =>
    cases ending with
    | crash note => exact .error moved ⟨rfl, rfl, rfl, rfl⟩
    | fail kind message => exact .error moved ⟨rfl, rfl, rfl, rfl⟩
    | value text =>
      obtain ⟨item, _, _, run, run', next, held, made, inner, inner'⟩ := moved.twins.construct text
      dsimp only
      rw [run, run']
      exact .ok (moved.trans next) held made ⟨inner, inner', rfl, rfl⟩

end Desk

/-! ### Every step -/

/-- The constructor that takes the steps. -/
def taking (inner : List Step) (propagate : Bool) (ending : Ending) : Task Desk Item := fun desk =>
  Desk.conclude (steps inner desk).1 propagate ending (steps inner desk).2

theorem step_lookup (key : Nat) (inner : List Step) (propagate : Bool) (ending : Ending) (keep : Option String)
    (desk : Desk) :
    step (.lookup key inner propagate ending keep) desk =
      match Desk.view.lookup 0 key (taking inner propagate ending) { desk with inner := none } with
      | .ok item last => (.lookup (.ok item) last.inner, last.releaseAll keep (some item))
      | .error interrupt last => (.lookup (.error interrupt) last.inner, last) := by
  unfold step Desk.run
  change _ = match Desk.view.lookup 0 key (fun desk => Desk.conclude (steps inner desk).1 propagate ending _) _ with
    | .ok _ _ => _ | .error _ _ => _
  cases Desk.view.lookup 0 key (fun desk => Desk.conclude (steps inner desk).1 propagate ending (steps inner desk).2)
    { desk with inner := none } <;> rfl

/-- A lookup whose constructor takes its steps alike. -/
theorem lookup_abreast {inner : List Step} (all : Abreast inner) (key : Nat) (propagate : Bool) (ending : Ending)
    (keep : Option String) : (Step.lookup key inner propagate ending keep).Abreast := by
  intro one two twins
  let related (ran ran' : Option (List Report)) (told told' : List (Nat × Departure)) : Prop :=
    ran.map (allShown inner) = ran'.map (allShown inner) ∧ told = toldRan ran ∧ told' = toldRan ran'
  have start := twins.ran none none
  have ended : Ended related { one with inner := none } { two with inner := none }
      (Desk.view.lookup 0 key (taking inner propagate ending) { one with inner := none })
      (Desk.view.lookup 0 key (taking inner propagate ending) { two with inner := none }) := by
    refine start.twins.lookup key ⟨rfl, rfl, rfl⟩ fun mid mid' mids _ _ => ?_
    obtain ⟨shown, moved⟩ := all mid mid' mids
    refine .after moved (moved.twins.conclude shown (steps_length _ _) (steps_length _ _) propagate ending) ?_
    rintro _ _ _ _ ⟨rfl, rfl, rfl, rfl⟩
    rw [List.append_nil, List.append_nil]
    exact ⟨congrArg some shown, rfl, rfl⟩
  rw [step_lookup, step_lookup]
  generalize Desk.view.lookup 0 key (taking inner propagate ending) { one with inner := none } = left at ended ⊢
  generalize Desk.view.lookup 0 key (taking inner propagate ending) { two with inner := none } = left' at ended ⊢
  cases ended with
  | ok moved held _ shows =>
    obtain ⟨shown, rfl, rfl⟩ := shows
    have released := moved.twins.releaseAll (rfl : some _ = some _) (by rintro _ ⟨⟩; exact held) keep
    have all := (start.trans moved).trans released
    rw [List.append_nil, List.append_nil] at all
    exact ⟨congrArg (Answer.lookup _) shown, all⟩
  | error moved shows =>
    obtain ⟨shown, rfl, rfl⟩ := shows
    exact ⟨congrArg (Answer.lookup _) shown, start.trans moved⟩

/-- Keys are filled alike. -/
theorem fill_moved (hold : Bool) (keys : List Nat) {one two : Desk} (twins : one.Twins two) :
    Moved [] [] one two (one.fill hold keys) (two.fill hold keys) := by
  induction keys generalizing one two with
  | nil => exact twins.still
  | cons key keys ih =>
    let related (_ _ : Option (List Report)) (told told' : List (Nat × Departure)) : Prop := told = [] ∧ told' = []
    have ended : Ended related one two (Desk.view.lookup 0 key (Desk.construct "v") one)
        (Desk.view.lookup 0 key (Desk.construct "v") two) := by
      refine twins.lookup key ⟨rfl, rfl⟩ fun mid mid' mids _ _ => ?_
      obtain ⟨item, _, _, run, run', moved, held, made, -, -⟩ := mids.construct "v"
      rw [run, run']
      exact .ok moved held made ⟨rfl, rfl⟩
    unfold Desk.fill
    generalize Desk.view.lookup 0 key (Desk.construct "v") one = left at ended ⊢
    generalize Desk.view.lookup 0 key (Desk.construct "v") two = left' at ended ⊢
    cases ended with
    | ok moved held _ shows =>
      obtain ⟨rfl, rfl⟩ := shows
      have released := moved.trans (moved.twins.release held (if hold then some s!"k{key}" else none))
      exact released.trans (ih released.twins)
    | error moved shows =>
      obtain ⟨rfl, rfl⟩ := shows
      exact moved.trans (ih moved.twins)

mutual

/-- A step of one thread is taken alike. -/
theorem step_abreast : (step : Step) → step.sequential = true → step.Abreast
  | .lookup key inner propagate ending keep, sequential =>
      lookup_abreast (steps_abreast inner sequential) key propagate ending keep
  | .concurrent _ _ _ _ _ _, sequential => absurd sequential Bool.false_ne_true
  | .fill first last hold, _ => fun _ _ twins => ⟨rfl, fill_moved hold _ twins⟩
  | .get key keep, _ => fun one two twins => by
      obtain ⟨same, held, moved⟩ := twins.get? key
      exact ⟨congrArg Answer.item same, moved.trans (moved.twins.releaseAll same held keep)⟩
  | .evict key keep, _ => fun one two twins => by
      obtain ⟨same, held, moved⟩ := twins.evict key
      exact ⟨congrArg Answer.item same, moved.trans (moved.twins.releaseAll same held keep)⟩
  | .drop name, _ => fun one two twins => by
      have same : (one.named.get? name).isSome = (two.named.get? name).isSome := by rw [twins.named]
      exact ⟨congrArg Answer.truth same, twins.forget name⟩
  | .clear, _ => fun _ _ twins => ⟨rfl, twins.clear⟩
  | .live, _ => fun one two twins => by
      have same : one.cache.live one.alive = two.cache.live two.alive := by
        rw [← twins.alive, twins.cache.live]
      exact ⟨congrArg (fun entries => Answer.entries (byKey entries)) same, twins.still⟩
  | .purge, _ => fun _ _ twins => ⟨rfl, twins.purge⟩
  | .relieve, _ => fun _ _ twins => ⟨congrArg Answer.count twins.relieve.1, twins.relieve.2⟩
  | .length, _ => fun _ _ twins => ⟨rfl, twins.still⟩
  | .same a b, _ => fun one two twins => by
      unfold step
      rw [twins.named]
      split <;> exact ⟨rfl, twins.still⟩
  | .info, _ => fun _ _ twins => ⟨rfl, twins.still⟩

/-- The steps of one thread are taken alike. -/
theorem steps_abreast : (script : List Step) → allSequential script = true → Abreast script
  | [], _ => nil_abreast
  | first :: rest, sequential =>
      have parts := (Bool.and_eq_true _ _).mp sequential
      cons_abreast (step_abreast first parts.1) (steps_abreast rest parts.2)

end

/-! ## Whole runs -/

/-- Every departure is told in the report of its step. -/
theorem steps_departures (script : List Step) {desk : Desk} (none : desk.departures = []) :
    (steps script desk).2.departures = [] := by
  induction script generalizing desk with
  | nil => exact none
  | cons first rest ih => exact ih rfl

section runs

variable (name : String) (retention : Retention) (shards : Nat) (spread spread' : Nat → Nat)

/-- Empty caches are alike however they are shared and spread their keys. -/
theorem start_twins (discipline discipline' : Discipline) :
    Twins { cache := { name, retention, discipline, spread } }
      { cache := { name, retention, discipline := discipline', spread := spread' } } where
  named := rfl
  held := rfl
  constructed := rfl
  unreported := rfl
  tally _ _ := rfl
  reported _ _ := rfl
  alive := rfl
  cache := ⟨⟨rfl, rfl, rfl, rfl⟩, rfl⟩
  sound := ⟨List.nodup_nil, fun _ => nofun, nofun⟩
  sound' := ⟨List.nodup_nil, fun _ => nofun, nofun⟩

/-- A script that one thread runs over a shared cache, with any number of shards and any way to
    spread the keys, and over a confined one.  All reports show the same, those inside the
    constructors too: each lookup with its outcome and whether its constructor ran, each object
    that was got or evicted, the live entries, the numbers of relieved objects, what was freed,
    and the hits, misses and constructions.  The runs end with the same live entries and differ
    in dead entries alone: an entry that is in one table only is told to have left the other. -/
theorem flavors_agree {script : List Step} (alone : allSequential script = true) :
    let shared := steps script { cache := { name, retention, discipline := .shared shards, spread } }
    let confined := steps script { cache := { name, retention, discipline := .confined, spread := spread' } }
    allShown script shared.1 = allShown script confined.1 ∧
      shared.2.Alike confined.2 ∧
      ∀ key, Note.gone key (told shared.1) + (shared.2.cache.has key).toNat
        = Note.gone key (told confined.1) + (confined.2.cache.has key).toNat := by
  intro shared confined
  have start := start_twins name retention spread spread' (.shared shards) .confined
  obtain ⟨shown, moved⟩ := steps_abreast script alone _ _ start
  refine ⟨shown, moved.twins.toAlike, fun key => ?_⟩
  have level := moved.level key
  have told (discipline : Discipline) (spread : Nat → Nat) :
      (steps script { cache := { name, retention, discipline, spread } }).2.departures = [] :=
    steps_departures script rfl
  simpa [Desk.due, told, Note.gone, Cache.has, Cache.find?] using level

end runs

/-- The constructor of 1 asks for its own key, and constructs an object of 2 that dies at once;
    asking for it removes the dead entry of the confined cache. -/
def nestedScript : List Step := [
  .lookup 1 [.lookup 1 [] true (.value "own") none, .lookup 2 [] true (.value "other") none, .get 2 none]
    false (.value "outer") (some "outer"),
  .lookup 3 [] true (.crash "stop") none,
  .get 1 none,
  .drop "outer"]

/-- The runs of the script end with two entries and with one. -/
theorem agree_nestedScript :
    let shared := steps nestedScript { cache := { name := "mirrors", discipline := .shared 8, spread := id } }
    let confined := steps nestedScript { cache := { name := "mirrors", discipline := .confined, spread := id } }
    allSequential nestedScript = true ∧ shared.2.cache.length = 2 ∧ confined.2.cache.length = 1 ∧
      allShown nestedScript shared.1 = allShown nestedScript confined.1 :=
  have alone : allSequential nestedScript = true := by decide
  ⟨alone, by decide +kernel, by decide +kernel, (flavors_agree "mirrors" .weak 8 id id alone).1⟩

end CatalogReplica.Identity.Script
