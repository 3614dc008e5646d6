import CatalogReplica.Proofs.Lifetime.Carrying

/-!
# References that guards still have

A guard on an address has a reference on what is there.  It gives the reference back when
it is released because it became unreachable, and in no other case.

* `Ledger.outstanding`: how many guards on an address still have their references.
* `Ledger.Booked`: since some earlier ledger, as many references were given back as guards
  have none any more.
* `Ledger.booked_carried`: operations on guards keep the books.
* `Ledger.build_booked`: a guard that is built has a reference.
-/

namespace CatalogReplica

/-- Two counts over a table differ at one number alone. -/
theorem Numbered.countP_of_others {α : Type} {table : Numbered α} {id : Nat} {value : α} {p q : Nat × α → Bool}
    (once : table.ids.Nodup) (found : table.get? id = some value)
    (same : ∀ entry, entry.1 ≠ id → p entry = q entry) :
    table.countP p + (q (id, value)).toNat = table.countP q + (p (id, value)).toNat := by
  induction table with
  | nil => cases found
  | cons entry table ih =>
    obtain ⟨key, first⟩ := entry
    simp only [ids, List.map_cons, List.nodup_cons] at once
    rw [List.countP_cons, List.countP_cons]
    by_cases here : id = key
    · -- the rest of the table has other numbers
      subst here
      have rest : table.countP p = table.countP q := by
        refine List.countP_congr fun entry among => ?_
        rw [same entry fun its => once.1 (its ▸ List.mem_map_of_mem among)]
      have isFirst : first = value := by simpa [get?] using found
      subst isFirst
      cases p (id, first) <;> cases q (id, first) <;> simp [rest]
    · have elsewhere : Numbered.get? table id = some value := by
        have skip : (id == key) = false := by simpa using here
        simpa only [get?, List.lookup_cons, skip] using found
      have later := ih once.2 elsewhere
      rw [same (key, first) (Ne.symm here)]
      omega

namespace Lifetime

/-- The address whose reference is given back, if one is. -/
def Happening.givenBack? : Happening → Option Address
  | .fired _ handle .unreachable => some handle
  | _ => none

namespace Ledger

/-- The guard is on the address and was not released because it became unreachable. -/
def stillHas (causes : GuardId → List ReleaseCause) (address : Address) (entry : GuardId × Guard) : Bool :=
  entry.2.handle == address && !(causes entry.1).contains .unreachable

/-- How many guards on an address were not released because they became unreachable. -/
def outstanding (ledger : Ledger) (address : Address) : Nat :=
  ledger.guards.countP (stillHas ledger.causes address)

/-- The guards and lifespans are in order: actions let nothing go and have not run yet, no
    lifespan is inside another one, and those that are kept take guards. -/
structure Ordered (kept : List LifespanId) (ledger : Ledger) : Prop where
  once : ledger.guards.ids.Nodup ∧ ∀ id ∈ ledger.guards.ids, id < ledger.next
  scopes : ledger.lifespans.ids.Nodup ∧ ∀ id ∈ ledger.lifespans.ids, id < ledger.next
  alone : ∀ id held action, ledger.guard? id = some held → held.action = some action → action.owns = []
  armed : ∀ id held, ledger.guard? id = some held → held.action.isSome = true → ledger.causes id = []
  unknown : ∀ id, ledger.guard? id = none → ledger.causes id = []
  flat : ∀ lifespan scope, ledger.lifespan? lifespan = some scope → scope.children = []
  takes : ∀ lifespan ∈ kept, ∃ scope, ledger.lifespan? lifespan = some scope ∧ scope.ended = false

/-- The books since an earlier ledger. -/
structure Booked (base : Ledger) (kept : List LifespanId) (ledger : Ledger) : Prop extends Ordered kept ledger where
  balance : ∃ new, ledger.log = base.log ++ new ∧
    ∀ address, base.outstanding address = ledger.outstanding address + (new.filterMap Happening.givenBack?).count address

variable {base ledger : Ledger} {kept : List LifespanId} {id : GuardId}

theorem Ordered.booked (ordered : Ordered kept ledger) : Booked ledger kept ledger :=
  ⟨ordered, [], (List.append_nil _).symm, fun _ => rfl⟩

theorem Ordered.fewer {fewer : List LifespanId} (ordered : Ordered kept ledger) (among : fewer ⊆ kept) :
    Ordered fewer ledger :=
  { ordered with takes := fun lifespan its => ordered.takes lifespan (among its) }

/-- Nothing is out of order where there is nothing. -/
theorem ordered_of_nothing (guards : ledger.guards = []) (lifespans : ledger.lifespans = []) (log : ledger.log = []) :
    Ordered [] ledger := by
  have noGuard (id : GuardId) : ledger.guard? id = none := by
    rw [guard?, guards]
    rfl
  have noScope (id : LifespanId) : ledger.lifespan? id = none := by
    rw [lifespan?, lifespans]
    rfl
  constructor <;> simp_all [causes, Numbered.ids]

/-! ## Changes -/

theorem outstanding_onGuard (ledger : Ledger) (id : GuardId) {f : Guard → Guard}
    (same : ∀ held : Guard, (f held).handle = held.handle) (address : Address) :
    (ledger.onGuard id f).outstanding address = ledger.outstanding address := by
  unfold outstanding onGuard Numbered.update
  rw [List.countP_map]
  refine List.countP_congr fun entry _ => ?_
  simp only [Function.comp_apply]
  split <;> simp [stillHas, same, causes]

/-- A guard is changed, and its action at most taken away. -/
theorem Ordered.onGuard (ordered : Ordered kept ledger) (id : GuardId) {f : Guard → Guard}
    (action : ∀ held : Guard, (f held).action = held.action ∨ (f held).action = none) :
    Ordered kept (ledger.onGuard id f) := by
  have found (other : GuardId) (held' : Guard) (there : (ledger.onGuard id f).guard? other = some held') :
      ∃ held, ledger.guard? other = some held ∧ (held'.action = held.action ∨ held'.action = none) := by
    rw [guard?_onGuard] at there
    split at there
    · obtain ⟨held, before, rfl⟩ := Option.map_eq_some_iff.mp there
      exact ⟨held, before, action held⟩
    · exact ⟨held', there, .inl rfl⟩
  refine ⟨by rw [ids_onGuard]; exact ordered.once, ordered.scopes, ?_, ?_, ?_, ordered.flat, ordered.takes⟩
  · intro other held' act there its
    obtain ⟨held, there, same | gone⟩ := found other held' there
    · exact ordered.alone other held act there (same ▸ its)
    · rw [gone] at its
      cases its
  · intro other held' there its
    obtain ⟨held, there, same | gone⟩ := found other held' there
    · exact ordered.armed other held there (same ▸ its)
    · rw [gone] at its
      cases its
  · intro other absent
    refine ordered.unknown other ?_
    rw [guard?_onGuard] at absent
    split at absent
    · exact Option.map_eq_none_iff.mp absent
    · exact absent

/-- A lifespan is changed that still takes guards if it is kept. -/
theorem Ordered.onLifespan (ordered : Ordered kept ledger) (lifespan : LifespanId) {f : Lifespan → Lifespan}
    (flat : ∀ scope : Lifespan, scope.children = [] → (f scope).children = [])
    (takes : lifespan ∈ kept → ∀ scope : Lifespan, scope.ended = false → (f scope).ended = false) :
    Ordered kept (ledger.onLifespan lifespan f) := by
  refine ⟨ordered.once, by rw [ids_onLifespan]; exact ordered.scopes, ordered.alone, ordered.armed, ordered.unknown, ?_, ?_⟩
  · intro other scope' found
    rw [lifespan?_onLifespan] at found
    split at found
    · obtain ⟨scope, before, rfl⟩ := Option.map_eq_some_iff.mp found
      exact flat scope (ordered.flat other scope before)
    · exact ordered.flat other scope' found
  · intro other among
    obtain ⟨scope, found, isOpen⟩ := ordered.takes other among
    rw [lifespan?_onLifespan, found]
    split
    · next same =>
      subst same
      exact ⟨f scope, rfl, takes among scope isOpen⟩
    · exact ⟨scope, rfl, isOpen⟩

theorem Ordered.tally (ordered : Ordered kept ledger) (tally : Tally) : Ordered kept { ledger with tally } :=
  ⟨ordered.once, ordered.scopes, ordered.alone, ordered.armed, ordered.unknown, ordered.flat, ordered.takes⟩

theorem Ordered.count (ordered : Ordered kept ledger) (id : GuardId) (counter : Counter) (n : Int) :
    Ordered kept (ledger.count id counter n) := by
  unfold Ledger.count
  split
  · exact ordered.tally _
  · exact ordered

theorem Ordered.guard?_next (ordered : Ordered kept ledger) : ledger.guard? ledger.next = none := by
  refine Option.not_isSome_iff_eq_none.mp fun there => ?_
  exact Nat.lt_irrefl _ (ordered.once.2 _ (Numbered.isSome_get?.mp there))

/-- A guard is added. -/
theorem Ordered.addGuard (ordered : Ordered kept ledger) {plan : Guard}
    (alone : ∀ action, plan.action = some action → action.owns = []) :
    Ordered kept (ledger.addGuard plan).2 := by
  -- The guard added has a number of its own, so each other guard is found as before.
  have found (other : GuardId) (held : Guard) (there : (ledger.addGuard plan).2.guard? other = some held) :
      ledger.guard? other = some held ∨ other = ledger.next ∧ held = plan := by
    change Numbered.get? (ledger.guards.add ledger.next plan) other = some held at there
    rw [Numbered.get?_add] at there
    cases before : ledger.guards.get? other with
    | some value =>
      rw [before] at there
      exact .inl (before.trans there)
    | none =>
      rw [before, Option.none_or] at there
      split at there
      · next same => exact .inr ⟨same, (Option.some.inj there).symm⟩
      · cases there
  refine ⟨⟨Numbered.nodup_add ordered.once.1 ordered.once.2 plan, Numbered.below_add ordered.once.2 plan⟩,
    ⟨ordered.scopes.1, fun id among => Nat.lt_succ_of_lt (ordered.scopes.2 id among)⟩, ?_, ?_, ?_, ordered.flat,
    ordered.takes⟩
  · intro other held action there its
    obtain before | ⟨-, rfl⟩ := found other held there
    · exact ordered.alone other held action before its
    · exact alone action its
  · intro other held there its
    obtain before | ⟨rfl, -⟩ := found other held there
    · exact ordered.armed other held before its
    · exact ordered.unknown _ ordered.guard?_next
  · intro other absent
    refine ordered.unknown other ?_
    change Numbered.get? (ledger.guards.add ledger.next plan) other = none at absent
    rw [Numbered.get?_add] at absent
    exact (Option.or_eq_none_iff.mp absent).1

theorem Ordered.not_kept (ordered : Ordered kept ledger) : ledger.next ∉ kept := by
  intro among
  obtain ⟨scope, found, -⟩ := ordered.takes _ among
  have known := Numbered.isSome_get?.mp (Option.isSome_of_eq_some found)
  exact Nat.lt_irrefl _ (ordered.scopes.2 _ known)

/-- A lifespan is added, and kept. -/
theorem Ordered.addLifespan (ordered : Ordered kept ledger) (address : Address) (kind : LifespanKind) :
    Ordered (ledger.next :: kept) (ledger.addLifespan address kind).2 := by
  have found (other : LifespanId) :
      (ledger.addLifespan address kind).2.lifespan? other
        = (ledger.lifespan? other).or (if other = ledger.next then some { address, kind } else none) :=
    Numbered.get?_add ledger.lifespans ledger.next other _
  have fresh : ledger.lifespan? ledger.next = none := by
    refine Option.not_isSome_iff_eq_none.mp fun there => ?_
    exact Nat.lt_irrefl _ (ordered.scopes.2 _ (Numbered.isSome_get?.mp there))
  refine ⟨⟨ordered.once.1, fun id among => Nat.lt_succ_of_lt (ordered.once.2 id among)⟩,
    ⟨Numbered.nodup_add ordered.scopes.1 ordered.scopes.2 _, Numbered.below_add ordered.scopes.2 _⟩,
    ordered.alone, ordered.armed, ordered.unknown, ?_, ?_⟩
  · -- A scope is the one added, which starts open and without children, or was there before.
    intro other scope there
    rw [found] at there
    cases before : ledger.lifespan? other with
    | some value =>
      rw [before] at there
      cases there
      exact ordered.flat other scope before
    | none =>
      rw [before, Option.none_or] at there
      split at there
      · cases there
        rfl
      · cases there
  · intro other among
    rw [found]
    cases List.mem_cons.mp among with
    | inl same =>
      subst same
      rw [fresh, Option.none_or, if_pos rfl]
      exact ⟨_, rfl, rfl⟩
    | inr before =>
      obtain ⟨scope, there, isOpen⟩ := ordered.takes other before
      rw [there]
      exact ⟨scope, rfl, isOpen⟩

theorem Booked.onGuard (booked : Booked base kept ledger) (id : GuardId) {f : Guard → Guard}
    (handle : ∀ held : Guard, (f held).handle = held.handle)
    (action : ∀ held : Guard, (f held).action = held.action ∨ (f held).action = none) :
    Booked base kept (ledger.onGuard id f) := by
  refine ⟨booked.toOrdered.onGuard id action, ?_⟩
  obtain ⟨new, log, balance⟩ := booked.balance
  exact ⟨new, log, fun address => by rw [outstanding_onGuard ledger id handle]; exact balance address⟩

/-- The action of a guard runs for the first time: if the guard became unreachable, the
    reference is given back. -/
theorem Booked.fire (booked : Booked base kept ledger) {held : Guard} {action : Action}
    (found : ledger.guard? id = some held) (act : held.action = some action) (cause : ReleaseCause) :
    Booked base kept ((ledger.disarmed id).note (.fired id held.handle cause)) := by
  have disarmed := booked.onGuard id (f := fun held => { held with action := none }) (fun _ => rfl) fun _ => .inr rfl
  have unfired : ledger.causes id = [] := booked.armed id held found (by rw [act]; rfl)
  have other (one : GuardId) (differs : one ≠ id) :
      ((ledger.disarmed id).note (.fired id held.handle cause)).causes one = ledger.causes one := by
    rw [causes_note_fired, if_neg (Ne.symm differs), List.append_nil]
    rfl
  have own : ((ledger.disarmed id).note (.fired id held.handle cause)).causes id = [cause] := by
    rw [causes_note_fired, if_pos rfl]
    exact congrArg (· ++ [cause]) unfired
  have taken : (ledger.disarmed id).guard? id = some { held with action := none } := guard?_onGuard_self found _
  refine ⟨⟨disarmed.once, disarmed.scopes, disarmed.alone, ?_, ?_, disarmed.flat, disarmed.takes⟩, ?_⟩
  · intro one held' there its
    by_cases same : one = id
    · subst same
      rw [show held' = _ from Option.some.inj (there.symm.trans taken)] at its
      cases its
    · rw [other one same]
      exact disarmed.armed one held' there its
  · intro one absent
    have differs : one ≠ id := by
      rintro rfl
      cases absent.symm.trans taken
    rw [other one differs]
    exact disarmed.unknown one absent
  · obtain ⟨new, log, balance⟩ := disarmed.balance
    refine ⟨new ++ [.fired id held.handle cause], ?_, fun address => ?_⟩
    · rw [← List.append_assoc, ← log]
      rfl
    · -- the counts before and after differ at this guard alone
      have counts := Numbered.countP_of_others disarmed.once.1 taken
        (p := stillHas ledger.causes address)
        (q := stillHas ((ledger.disarmed id).note (.fired id held.handle cause)).causes address)
        (fun entry differs => by rw [stillHas, stillHas, other entry.1 differs])
      -- The firing gives the handle back just when the guard became unreachable, and then one fewer is outstanding.
      have fewer : (ledger.disarmed id).outstanding address
          = ((ledger.disarmed id).note (.fired id held.handle cause)).outstanding address
            + ([Happening.fired id held.handle cause].filterMap Happening.givenBack?).count address := by
        have had : stillHas ledger.causes address (id, { held with action := none }) = (held.handle == address) := by
          simp [stillHas, unfired]
        rw [had, stillHas, own] at counts
        cases cause with
        | unreachable =>
          change List.countP _ _ + (held.handle == address && false).toNat = _ at counts
          rw [Bool.and_false] at counts
          have gives : [held.handle].count address = (held.handle == address).toNat := by
            rw [List.count_singleton]
            cases held.handle == address <;> rfl
          exact counts.trans (congrArg _ gives.symm)
        | lifespanEnded =>
          change List.countP _ _ + (held.handle == address && true).toNat = _ at counts
          rw [Bool.and_true] at counts
          exact Nat.add_right_cancel counts
      rw [List.filterMap_append, List.count_append, balance address]
      change (ledger.disarmed id).outstanding address + _ = _
      omega

theorem booked_carried (base : Ledger) (kept : List LifespanId) :
    TornCarried (fun _ => True) (fun lifespan close => close = true → lifespan ∉ kept) (Booked base kept) where
  tally ledger tally booked := ⟨booked.toOrdered.tally tally, booked.balance⟩
  busy ledger busy booked := ⟨⟨booked.once, booked.scopes, booked.alone, booked.armed, booked.unknown, booked.flat,
    booked.takes⟩, booked.balance⟩
  queues ledger queues _ booked := ⟨⟨booked.once, booked.scopes, booked.alone, booked.armed, booked.unknown, booked.flat,
    booked.takes⟩, booked.balance⟩
  owns _ _ _ _ _ _ _ _ _ := trivial
  guard ledger id f stays booked := booked.onGuard id (fun held => (stays held).handle) fun held => .inl (stays held).action
  disown ledger id _ booked := booked.onGuard id (fun _ => rfl) fun _ => .inl rfl
  disarm ledger id booked := booked.onGuard id (fun _ => rfl) fun _ => .inr rfl
  fire ledger id held action cause found act booked := booked.fire found act cause
  -- A yield is no firing: the causes stay, and the handle is not counted as given back.
  yield ledger id handle booked := by
    have causes : (ledger.note (.yielded id handle)).causes = ledger.causes := by
      funext other
      simp [Ledger.causes, note]
    have same (address : Address) : (ledger.note (.yielded id handle)).outstanding address = ledger.outstanding address := by
      rw [outstanding, causes]
      rfl
    obtain ⟨new, log, balance⟩ := booked.balance
    refine ⟨⟨booked.once, booked.scopes, booked.alone, causes ▸ booked.armed, causes ▸ booked.unknown, booked.flat,
      booked.takes⟩, new ++ [.yielded id handle], ?_, fun address => ?_⟩
    · rw [← List.append_assoc, ← log]
      rfl
    · rw [same, balance address, List.filterMap_append, List.count_append]
      rfl
  forget ledger id lifespan _ booked :=
    ⟨booked.toOrdered.onLifespan lifespan (fun _ flat => flat) fun _ _ isOpen => isOpen, booked.balance⟩
  empty ledger lifespan close apart booked := by
    refine ⟨booked.toOrdered.onLifespan lifespan (fun _ _ => rfl) fun among _ _ => ?_, booked.balance⟩
    simpa using fun closes => apart closes among
  inside ledger lifespan close scope _ booked found child among := by
    rw [booked.flat lifespan scope found] at among
    cases among

/-- A guard that is added has a reference. -/
theorem outstanding_addGuard (ordered : Ordered kept ledger) (plan : Guard) (address : Address) :
    (ledger.addGuard plan).2.outstanding address = ledger.outstanding address + (plan.handle == address).toNat := by
  have unfired := ordered.unknown _ ordered.guard?_next
  have own : stillHas ledger.causes address (ledger.next, plan) = (plan.handle == address) := by
    simp [stillHas, unfired]
  change (ledger.guards ++ [(ledger.next, plan)]).countP (stillHas ledger.causes address) = _
  rw [List.countP_append, List.countP_singleton, own]
  cases plan.handle == address <;> rfl

/-- A guard that is built is registered to a lifespan that is kept, and has a reference. -/
theorem build_booked (ordered : Ordered kept ledger) {lifespan : LifespanId} (among : lifespan ∈ kept) {plan : Guard}
    (alone : ∀ action, plan.action = some action → action.owns = []) (unreleased : plan.isReleased = false) :
    ∃ after, build plan (some lifespan) ledger = .ok ledger.next after ∧ Ordered kept after ∧ after.log = ledger.log ∧
      ∀ address, after.outstanding address = ledger.outstanding address + (plan.handle == address).toNat := by
  have added := ordered.addGuard alone
  have there : (ledger.addGuard plan).2.guard? ledger.next = some plan := by
    change Numbered.get? (ledger.guards.add ledger.next plan) ledger.next = _
    rw [Numbered.get?_add, show Numbered.get? ledger.guards ledger.next = none from ordered.guard?_next]
    simp
  have counts := outstanding_addGuard ordered plan
  have log : (ledger.addGuard plan).2.log = ledger.log := rfl
  obtain ⟨scope, found, isOpen⟩ := added.takes lifespan among
  -- the table may gain the guard, which nothing is counted by
  have registered : ∃ table, register ledger.next lifespan (ledger.addGuard plan).2
      = .ok () (table.onGuard ledger.next fun held => { held with link := some lifespan }) ∧ Ordered kept table ∧
        table.log = (ledger.addGuard plan).2.log ∧ table.guards = (ledger.addGuard plan).2.guards := by
    unfold register
    rw [Task.bind_ok (Task.get_run _)]
    simp only [there, found, unreleased, isOpen, Bool.false_eq_true, if_false]
    split
    · exact ⟨_, rfl, added, rfl, rfl⟩
    · have joined := added.onLifespan lifespan (f := fun scope => { scope with guards := scope.guards ++ [ledger.next] })
        (fun _ flat => flat) fun _ _ isOpen => isOpen
      have same := same_count ((ledger.addGuard plan).2.onLifespan lifespan fun scope =>
        { scope with guards := scope.guards ++ [ledger.next] }) ledger.next .guardRegistered 1
      exact ⟨_, rfl, joined.count _ _ _, same.log, same.guards⟩
  obtain ⟨table, ran, orderly, silent, guards⟩ := registered
  refine ⟨table.onGuard ledger.next fun held => { held with link := some lifespan }, ?_,
    orderly.onGuard ledger.next fun _ => .inl rfl, silent.trans log, fun address => ?_⟩
  · unfold build
    rw [Task.bind_ok (Task.lift_run _ ledger)]
    change (Task.attempt (register ledger.next lifespan) >>= _) (ledger.addGuard plan).2 = _
    rw [Task.bind_run, Task.attempt, ran]
    rfl
  · have linked := outstanding_onGuard table ledger.next (f := fun held => { held with link := some lifespan })
      (fun _ => rfl) address
    refine linked.trans ?_
    rw [← counts address, outstanding, outstanding, guards]
    unfold causes
    rw [silent]

end Ledger

end Lifetime

end CatalogReplica
