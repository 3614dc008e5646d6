import Mathlib.Data.List.Induction
import CatalogReplica.Proofs.Lifetime.Runs
import CatalogReplica.Proofs.Lifetime.Enrolment
import CatalogReplica.Proofs.Lifetime.Sweeping

/-!
# Trees of lifespans

A run makes lifespans inside one another, and forgets those that have ended.  Whatever it
forgets, the tree in which the lifespans were made is the one that a teardown takes down.

* `Operation.Born`: the run made one lifespan inside another one.
* `Ledger.Kindred`: a ledger remembers the tree, apart from what has ended.
* `Operation.TornTree`: what a teardown does with a tree.
* `Operation.tree_torn_down`: every teardown of every run does so.
-/

namespace CatalogReplica.Lifetime

namespace Ledger

variable {thread : ThreadId} {loose : List GuardId} {born : LifespanId → LifespanId → Prop}
  {base before ledger after : Ledger} {id : GuardId} {shut : LifespanId → Bool} {root : LifespanId}
  {turns : List LifespanId} {count : Nat}

/-- The lifespan has ended. -/
def Ended (ledger : Ledger) (lifespan : LifespanId) : Prop :=
  ∃ scope, ledger.lifespan? lifespan = some scope ∧ scope.ended = true

/-- The guard is in the table of the lifespan. -/
def Registered (ledger : Ledger) (lifespan : LifespanId) (guard : GuardId) : Prop :=
  ∃ scope, ledger.lifespan? lifespan = some scope ∧ guard ∈ scope.guards

/-! ## Changes that leave the tree alone -/

/-- The lifespans are the same ones, in the same tree, and the same ones have ended. -/
def SameTree (before after : Ledger) : Prop :=
  ∀ id, (after.lifespan? id).map (fun scope => (scope.children, scope.ended))
    = (before.lifespan? id).map fun scope => (scope.children, scope.ended)

theorem SameTree.refl (ledger : Ledger) : ledger.SameTree ledger := fun _ => rfl

theorem SameTree.onLifespan (same : base.SameTree ledger) (lifespan : LifespanId) (f : Lifespan → Lifespan)
    (keeps : ∀ scope : Lifespan, (f scope).children = scope.children ∧ (f scope).ended = scope.ended) :
    base.SameTree (ledger.onLifespan lifespan f) := by
  intro id
  rw [← same id, lifespan?_onLifespan]
  split
  · cases ledger.lifespan? id with
    | none => rfl
    | some scope => exact congrArg some (Prod.ext (keeps scope).1 (keeps scope).2)
  · rfl

theorem sameTree_carried (base : Ledger) : Carried (fun _ => True) (SameTree base) where
  tally _ _ before := before
  busy _ _ before := before
  queues _ _ _ before := before
  owns _ _ _ _ _ _ _ _ _ := trivial
  guard _ _ _ _ before := before
  disown _ _ _ before := before
  disarm _ _ before := before
  fire _ _ _ _ _ _ _ before := before
  yield _ _ _ before := before
  forget _ _ lifespan _ before := before.onLifespan lifespan _ fun _ => ⟨rfl, rfl⟩

theorem register_sameTree (base : Ledger) (id : GuardId) (lifespan : LifespanId) :
    (register id lifespan).Keeps (SameTree base) := by
  intro ledger before
  refine .next (Task.get_run ledger) ?_
  cases ledger.guard? id with
  | none => exact before
  | some held =>
    cases ledger.lifespan? lifespan with
    | none => exact before
    | some scope =>
      dsimp only
      split
      · exact before
      · split
        · exact before
        · split
          · exact before
          · have listed := before.onLifespan lifespan (fun scope => { scope with guards := scope.guards ++ [id] })
              fun _ => ⟨rfl, rfl⟩
            exact (sameTree_carried base).count listed id .guardRegistered 1

theorem build_sameTree (base : Ledger) (plan : Guard) (lifespan : Option LifespanId) :
    (build plan lifespan).Keeps (SameTree base) := by
  refine .bind (.lift fun _ before => before) fun id => ?_
  cases lifespan with
  | none => exact .pure _
  | some lifespan =>
    refine .bind (register_sameTree base id lifespan).attempt fun outcome => ?_
    cases outcome with
    | ok _ => exact .pure _
    | error interrupt =>
      exact .bind ((sameTree_carried base).withdraw id) fun _ =>
        .bind ((sameTree_carried base).dropOwner trivial) fun _ => .throw _

theorem deregister_sameTree (same : base.SameTree ledger) (id : GuardId) (lifespan : LifespanId) :
    base.SameTree (ledger.deregister id lifespan).2 := by
  have forgotten : base.SameTree (ledger.forget id lifespan).2 := by
    unfold forget
    cases ledger.lifespan? lifespan with
    | none => exact same
    | some scope =>
      dsimp only
      split
      · have gone := same.onLifespan lifespan (fun scope => { scope with guards := scope.guards.erase id })
          fun _ => ⟨rfl, rfl⟩
        exact (sameTree_carried base).count gone id .guardRegistered (-1)
      · exact same
  unfold deregister
  dsimp only
  split <;> exact forgotten

/-! ## What a lifespan takes -/

/-- The end of a lifespan is told apart from everything else that may be wrong. -/
theorem child_ended {lifespan : LifespanId} {scope : Lifespan} (found : ledger.lifespan? lifespan = some scope)
    (ended : scope.ended = true) (address : Address) (kind : LifespanKind) :
    child lifespan address kind ledger = .error (.fault scope.endedFault) ledger := by
  unfold child
  rw [Task.bind_ok (Task.get_run ledger), found]
  simp only [ended, if_true]
  rfl

theorem register_ended {lifespan : LifespanId} {scope : Lifespan} {held : Guard}
    (found : ledger.lifespan? lifespan = some scope) (ended : scope.ended = true)
    (isThere : ledger.guard? id = some held) (usable : held.isReleased = false) :
    register id lifespan ledger = .error (.fault scope.endedFault) ledger := by
  unfold register
  rw [Task.bind_ok (Task.get_run ledger), isThere, found]
  simp only [usable, ended, Bool.false_eq_true, if_false, if_true]
  rfl

/-- A lifespan that is not there or has ended takes no other one inside it. -/
theorem child_fallen {lifespan : LifespanId} (fallen : ¬ ledger.Standing lifespan) (address : Address)
    (kind : LifespanKind) : ∃ interrupt, child lifespan address kind ledger = .error interrupt ledger := by
  cases found : ledger.lifespan? lifespan with
  | none =>
    refine ⟨.crash none, ?_⟩
    unfold child
    rw [Task.bind_ok (Task.get_run ledger), found]
    rfl
  | some scope =>
    cases ended : scope.ended with
    | true => exact ⟨_, child_ended found ended address kind⟩
    | false => exact absurd ⟨scope, found, ended⟩ fallen

/-- A lifespan that has not ended takes another one inside it, and forgets those that have. -/
theorem child_run (sound : Sound thread loose ledger) {lifespan : LifespanId} {scope : Lifespan}
    (found : ledger.lifespan? lifespan = some scope) (alive : scope.ended = false) (address : Address)
    (kind : LifespanKind) :
    ∃ after, child lifespan address kind ledger = .ok ledger.next after ∧
      after.lifespan? ledger.next = some { address, kind } ∧
      (∃ children, after.lifespan? lifespan = some { scope with children } ∧
        ∀ inner, inner ∈ children ↔ inner = ledger.next ∨ inner ∈ scope.children ∧ ledger.Standing inner) ∧
      ∀ other, other ≠ ledger.next → other ≠ lifespan → after.lifespan? other = ledger.lifespan? other := by
  have known : lifespan ∈ ledger.lifespans.ids :=
    Numbered.isSome_get?.mp (Option.isSome_iff_exists.mpr ⟨scope, found⟩)
  have older : lifespan ≠ ledger.next := Nat.ne_of_lt (sound.lifespans lifespan known)
  have fresh : ledger.lifespans.get? ledger.next = none := by
    rw [← Option.not_isSome_iff_eq_none, Numbered.isSome_get?]
    exact fun among => Nat.lt_irrefl _ (sound.lifespans _ among)
  have added : ∀ other, (ledger.addLifespan address kind).2.lifespan? other
      = (ledger.lifespans.get? other).or (if other = ledger.next then some { address, kind } else none) :=
    fun other => Numbered.get?_add ledger.lifespans ledger.next other _
  unfold child
  rw [Task.bind_ok (Task.get_run ledger), found]
  dsimp only
  rw [if_neg (ne_true_of_eq_false alive)]
  let isOpen (inner : LifespanId) : Bool := !((ledger.lifespan? inner).map (·.ended)).getD true
  refine ⟨_, Task.bind_ok (Task.set_run _ _), ?_, ⟨scope.children.filter isOpen ++ [ledger.next], ?_, fun inner => ?_⟩,
    fun other new differs => ?_⟩
  · rw [lifespan?_onLifespan, if_neg (Ne.symm older), added, fresh, if_pos rfl]
    rfl
  · rw [lifespan?_onLifespan, if_pos rfl, added, show ledger.lifespans.get? lifespan = some scope from found,
      Option.some_or]
    rfl
  · have open_iff : isOpen inner = true ↔ ledger.Standing inner := by
      unfold isOpen Standing
      cases ledger.lifespan? inner <;> simp
    rw [List.mem_append, List.mem_filter, open_iff, List.mem_singleton, or_comm]
  · rw [lifespan?_onLifespan, if_neg differs, added, if_neg new, Option.or_none]
    rfl

/-- A lifespan that has not ended takes guards that were not released. -/
theorem register_run {lifespan : LifespanId} {scope : Lifespan} {held : Guard}
    (found : ledger.lifespan? lifespan = some scope) (alive : scope.ended = false)
    (isThere : ledger.guard? id = some held) (usable : held.isReleased = false) :
    ∃ after, register id lifespan ledger = .ok () after ∧ after.Registered lifespan id := by
  unfold register
  rw [Task.bind_ok (Task.get_run ledger), isThere, found]
  simp only [usable, alive, Bool.false_eq_true, if_false]
  by_cases among : id ∈ scope.guards
  · simp only [among, if_true]
    exact ⟨_, Task.set_run _ _, scope, found, among⟩
  · simp only [among, if_false]
    refine ⟨_, Task.set_run _ _, { scope with guards := scope.guards ++ [id] }, ?_,
      List.mem_append_right _ List.mem_cons_self⟩
    have changed : (ledger.onLifespan lifespan fun scope => { scope with guards := scope.guards ++ [id] }).lifespan?
        lifespan = some { scope with guards := scope.guards ++ [id] } := by
      rw [lifespan?_onLifespan, if_pos rfl, found]
      rfl
    rw [← changed, lifespan?, onGuard, (same_count _ id .guardRegistered 1).lifespans, lifespan?]

/-- A lifespan that has ended takes nothing more, and tearing it down does nothing. -/
structure Shut (thread : ThreadId) (ledger : Ledger) (lifespan : LifespanId) (scope : Lifespan) : Prop where
  kind : scope.endedFault.kind = .lifespanEnded
  teardown : ∀ close, teardown thread lifespan close ledger = .ok 0 ledger
  child : ∀ address kind, child lifespan address kind ledger = .error (.fault scope.endedFault) ledger
  register : ∀ guard held, ledger.guard? guard = some held → held.isReleased = false →
    register guard lifespan ledger = .error (.fault scope.endedFault) ledger

/-- A lifespan that has not ended takes lifespans and guards. -/
structure Usable (ledger : Ledger) (lifespan : LifespanId) : Prop where
  child : ∀ address kind, ∃ made after, child lifespan address kind ledger = .ok made after ∧
    after.Nests lifespan made ∧ after.Standing made
  register : ∀ guard held, ledger.guard? guard = some held → held.isReleased = false →
    ∃ after, register guard lifespan ledger = .ok () after ∧ after.Registered lifespan guard

theorem shut_of_ended {lifespan : LifespanId} {scope : Lifespan} (found : ledger.lifespan? lifespan = some scope)
    (ended : scope.ended = true) : ledger.Shut thread lifespan scope where
  kind := rfl
  teardown close := by
    have fallen : ¬ ledger.Standing lifespan := by
      rintro ⟨scope', found', standing⟩
      cases found.symm.trans found'
      rw [ended] at standing
      cases standing
    exact (Task.bind_ok (Task.get_run ledger)).trans (teardownWithin_fallen fallen _ close)
  child := child_ended found ended
  register _ _ isThere usable := register_ended found ended isThere usable

theorem Sound.usable (sound : Sound thread loose ledger) {lifespan : LifespanId} {scope : Lifespan}
    (found : ledger.lifespan? lifespan = some scope) (alive : scope.ended = false) : ledger.Usable lifespan where
  child address kind := by
    obtain ⟨after, ran, made, ⟨children, listed, children_iff⟩, -⟩ := child_run sound found alive address kind
    exact ⟨ledger.next, after, ran, ⟨_, listed, (children_iff _).mpr (.inl rfl)⟩, _, made, rfl⟩
  register _ _ isThere usable := register_run found alive isThere usable

/-! ## Trees that are remembered -/

/-- Every lifespan made inside another one is remembered by it, unless it has ended; and no
    lifespan remembers others. -/
structure Kindred (born : LifespanId → LifespanId → Prop) (ledger : Ledger) : Prop where
  known : ∀ parent child, born parent child → ∃ scope inner, ledger.lifespan? parent = some scope ∧
    ledger.lifespan? child = some inner ∧ (child ∈ scope.children ∨ inner.ended = true)
  nests : ∀ parent child, ledger.Nests parent child → born parent child

theorem SameTree.lifespan? (same : before.SameTree after) {lifespan : LifespanId} {scope : Lifespan}
    (found : before.lifespan? lifespan = some scope) :
    ∃ scope', after.lifespan? lifespan = some scope' ∧ scope'.children = scope.children ∧ scope'.ended = scope.ended := by
  have shape := same lifespan
  rw [found, Option.map_some] at shape
  obtain ⟨scope', found', shape⟩ := Option.map_eq_some_iff.mp shape
  obtain ⟨children, ended⟩ := Prod.mk.injEq .. ▸ shape
  exact ⟨scope', found', children, ended⟩

theorem SameTree.symm (same : before.SameTree after) : after.SameTree before := fun id => (same id).symm

theorem Kindred.sameTree (kindred : Kindred born before) (same : before.SameTree after) : Kindred born after where
  known parent child its := by
    obtain ⟨scope, inner, found, found', state⟩ := kindred.known parent child its
    obtain ⟨scope', there, children, -⟩ := same.lifespan? found
    obtain ⟨inner', there', -, ended⟩ := same.lifespan? found'
    exact ⟨scope', inner', there, there', by rwa [children, ended]⟩
  nests parent child nests := by
    obtain ⟨scope', found', among⟩ := nests
    obtain ⟨scope, found, children, -⟩ := same.symm.lifespan? found'
    exact kindred.nests parent child ⟨scope, found, children ▸ among⟩

/-- A lifespan that is inside no other one is new. -/
theorem Kindred.addLifespan (kindred : Kindred born ledger) (address : Address) (kind : LifespanKind) :
    Kindred born (ledger.addLifespan address kind).2 where
  known parent child its := by
    obtain ⟨scope, inner, found, found', state⟩ := kindred.known parent child its
    have kept : ∀ {id scope}, ledger.lifespan? id = some scope →
        (ledger.addLifespan address kind).2.lifespan? id = some scope := by
      intro id scope found
      refine (Numbered.get?_add ledger.lifespans ledger.next id _).trans ?_
      rw [show ledger.lifespans.get? id = some scope from found, Option.some_or]
    exact ⟨scope, inner, kept found, kept found', state⟩
  nests parent child nests := by
    obtain ⟨scope, found, among⟩ := nests
    have found := (Numbered.get?_add ledger.lifespans ledger.next parent _).symm.trans found
    obtain old | ⟨-, new⟩ := Option.or_eq_some_iff.mp found
    · exact kindred.nests parent child ⟨scope, old, among⟩
    · split at new
      · cases new
        cases among
      · cases new

/-- A lifespan is new inside another one. -/
theorem Kindred.child {grown : LifespanId → LifespanId → Prop} (kindred : Kindred born ledger)
    (sound : Sound thread loose ledger) {lifespan : LifespanId} {scope : Lifespan}
    (found : ledger.lifespan? lifespan = some scope) {address : Address} {kind : LifespanKind} {children : List LifespanId}
    (made : after.lifespan? ledger.next = some { address, kind })
    (listed : after.lifespan? lifespan = some { scope with children })
    (children_iff : ∀ inner, inner ∈ children ↔ inner = ledger.next ∨ inner ∈ scope.children ∧ ledger.Standing inner)
    (others : ∀ other, other ≠ ledger.next → other ≠ lifespan → after.lifespan? other = ledger.lifespan? other)
    (grows : ∀ parent child, grown parent child ↔ born parent child ∨ parent = lifespan ∧ child = ledger.next) :
    Kindred grown after := by
  have older : ∀ {id scope}, ledger.lifespan? id = some scope → id ≠ ledger.next := fun found =>
    Nat.ne_of_lt (sound.lifespans _ (Numbered.isSome_get?.mp (Option.isSome_iff_exists.mpr ⟨_, found⟩)))
  -- No scope ends here, so a child that had ended has ended still.
  have ended : ∀ {id inner}, ledger.lifespan? id = some inner →
      ∃ inner', after.lifespan? id = some inner' ∧ inner'.ended = inner.ended := by
    intro id inner found'
    by_cases its : id = lifespan
    · subst its
      cases found.symm.trans found'
      exact ⟨_, listed, rfl⟩
    · exact ⟨inner, (others id (older found') its).trans found', rfl⟩
  refine ⟨fun parent child its => ?_, fun parent child nests => ?_⟩
  · cases (grows parent child).mp its with
    | inl old =>
      obtain ⟨outer, inner, there, there', state⟩ := kindred.known parent child old
      obtain ⟨inner', found', same⟩ := ended there'
      by_cases its : parent = lifespan
      · subst its
        cases found.symm.trans there
        refine ⟨_, inner', listed, found', ?_⟩
        cases finished : inner.ended with
        | true => exact .inr (same.trans finished)
        | false =>
          refine .inl ((children_iff child).mpr (.inr ⟨state.resolve_right ?_, inner, there', finished⟩))
          exact ne_true_of_eq_false finished
      · exact ⟨outer, inner', (others parent (older there) its).trans there, found', by rwa [same]⟩
    | inr new =>
      obtain ⟨rfl, rfl⟩ := new
      exact ⟨_, _, listed, made, .inl ((children_iff _).mpr (.inl rfl))⟩
  · obtain ⟨outer, there, among⟩ := nests
    refine (grows parent child).mpr ?_
    -- The new scope has no children yet, and only its parent's list is changed.
    by_cases new : parent = ledger.next
    · subst new
      cases made.symm.trans there
      cases among
    · by_cases its : parent = lifespan
      · subst its
        cases listed.symm.trans there
        cases (children_iff child).mp among with
        | inl this => exact .inr ⟨rfl, this⟩
        | inr old => exact .inl (kindred.nests parent child ⟨scope, found, old.1⟩)
      · exact .inl (kindred.nests parent child ⟨outer, (others parent new its).symm.trans there, among⟩)

/-- A teardown forgets lifespans that it ends. -/
theorem Kindred.walks (kindred : Kindred born before) (sound : Sound thread loose before) {root : LifespanId}
    {close : Bool} {turns : List LifespanId} {count : Nat}
    (walks : Walks thread (fun id => close || id != root) [root] turns count before after) : Kindred born after where
  known parent child its := by
    obtain ⟨scope, inner, found, found', state⟩ := kindred.known parent child its
    rw [walks.tables parent, walks.tables child, found, found']
    by_cases had : child ∈ turns
    · rw [if_pos had]
      by_cases its : child = root
      · -- the teardown started from the child and came to nothing outside
        subst its
        obtain ⟨alive, there, standing⟩ := walks.standing child had
        cases found'.symm.trans there
        have among := state.resolve_right (ne_true_of_eq_false standing)
        have outside : parent ∉ turns := fun had' => by
          obtain ⟨root, same, leading⟩ := walks.below parent had'
          rw [List.mem_singleton.mp same] at leading
          exact Nat.not_lt.mpr (sound.le_of_leading leading) (sound.inside parent scope found child among).1
        rw [if_neg outside]
        exact ⟨scope, _, rfl, rfl, .inl among⟩
      · have ends : (close || child != root) = true := by rw [bne_iff_ne.mpr its, Bool.or_true]
        -- A child the walk came to has been shut.
        split <;> exact ⟨_, _, rfl, rfl, .inr ends⟩
    · rw [if_neg had]
      by_cases had' : parent ∈ turns
      · rw [if_pos had']
        refine ⟨_, inner, rfl, rfl, .inr ?_⟩
        cases finished : inner.ended with
        | true => rfl
        | false =>
          have among := state.resolve_right (ne_true_of_eq_false finished)
          -- The parent was turned to, so its standing children were turned to before it.
          obtain ⟨earlier, later, rfl⟩ := List.append_of_mem had'
          exact absurd (List.mem_append_left _ (walks.order earlier parent later rfl child ⟨scope, found, among⟩
            ⟨inner, found', finished⟩)) had
      · rw [if_neg had']
        exact ⟨scope, inner, rfl, rfl, state⟩
  nests parent child nests := kindred.nests parent child (walks.nests nests)

/-! ## What is in the tree -/

theorem Registered.standing (sound : Sound thread loose ledger) {lifespan : LifespanId} {guard : GuardId}
    (registered : ledger.Registered lifespan guard) : ledger.Standing lifespan := by
  obtain ⟨scope, found, among⟩ := registered
  refine ⟨scope, found, ?_⟩
  cases finished : scope.ended with
  | false => rfl
  | true =>
    rw [(sound.closed lifespan scope found finished).1] at among
    cases among

theorem mem_table {lifespan : LifespanId} {guard : GuardId} :
    guard ∈ ledger.table lifespan ↔ ledger.Registered lifespan guard := by
  unfold table Registered
  cases ledger.lifespan? lifespan with
  | none => simp
  | some scope => simp

/-- What has not ended is remembered by what it is inside. -/
theorem Kindred.descends (kindred : Kindred born ledger) (sound : Sound thread loose ledger) {lifespan inner : LifespanId}
    (descends : Relation.TransGen born lifespan inner) (standing : ledger.Standing inner) :
    Relation.TransGen ledger.Nests lifespan inner := by
  have nests : ∀ {parent child}, born parent child → ledger.Standing child → ledger.Nests parent child := by
    rintro parent child its ⟨alive, there, finished⟩
    obtain ⟨scope, inner, found, found', state⟩ := kindred.known parent child its
    cases there.symm.trans found'
    exact ⟨scope, found, state.resolve_right (ne_true_of_eq_false finished)⟩
  induction descends with
  | single its => exact .single (nests its standing)
  | tail _ its inductionHypothesis =>
    have last := nests its standing
    exact .tail (inductionHypothesis (sound.standing_of_nests last)) last

/-- Numbers grow towards the inside. -/
theorem Sound.lt_of_descends (sound : Sound thread loose ledger) {lifespan inner : LifespanId}
    (descends : Relation.TransGen ledger.Nests lifespan inner) : lifespan < inner := by
  obtain ⟨child, ⟨scope, found, among⟩, leading⟩ := Relation.TransGen.head'_iff.mp descends
  exact Nat.lt_of_lt_of_le (sound.inside lifespan scope found child among).1 (sound.le_of_leading leading)

/-- A teardown takes what is inside and has not ended. -/
theorem Walks.taken (walks : Walks thread shut [root] turns count before after) (sound : Sound thread loose before)
    (kindred : Kindred born before) {node : LifespanId} (under : Relation.ReflTransGen born root node)
    (standing : before.Standing node) : node ∈ turns := by
  have leading : before.Leading root node := by
    obtain rfl | descends := Relation.reflTransGen_iff_eq_or_transGen.mp under
    · exact .refl
    · exact (kindred.descends sound descends standing).to_reflTransGen
  have alive : before.Standing root := by
    obtain rfl | ⟨child, nests, -⟩ := Relation.ReflTransGen.cases_head leading
    · exact standing
    · exact sound.standing_of_nests nests
  exact sound.earlier_closed walks.order (List.append_nil turns).symm (walks.whole root List.mem_cons_self alive)
    leading standing

/-- A teardown takes nothing that is outside. -/
theorem Walks.under (walks : Walks thread shut [root] turns count before after) (kindred : Kindred born before)
    {turn : LifespanId} (among : turn ∈ turns) : Relation.ReflTransGen born root turn := by
  obtain ⟨start, its, leading⟩ := walks.below turn among
  rw [List.mem_singleton.mp its] at leading
  exact Relation.ReflTransGen.mono kindred.nests _ _ leading

/-- What is come to in turn comes before what is come to later only. -/
theorem releases_ordered {first second : List GuardId} {id other : GuardId}
    (among : id ∈ first) (apart : other ∉ first) (freed : id ∈ ledger.releases thread (first ++ second))
    (freed' : other ∈ ledger.releases thread (first ++ second)) :
    [id, other].Sublist (ledger.releases thread (first ++ second)) := by
  have free := (mem_releases.mp freed).2
  have here : id ∈ (first.filter (ledger.releasable thread)).eraseDups :=
    List.mem_eraseDups.mpr (List.mem_filter.mpr ⟨among, free⟩)
  have away : other ∉ (first.filter (ledger.releasable thread)).eraseDups := fun sooner =>
    apart (List.mem_filter.mp (List.mem_eraseDups.mp sooner)).1
  unfold releases at freed' ⊢
  rw [List.filter_append, List.eraseDups_append] at freed' ⊢
  have later := (List.mem_append.mp freed').resolve_left away
  exact .append (List.singleton_sublist.mpr here) (List.singleton_sublist.mpr later)

/-! ## What becomes of a tree that is taken down -/

section walks

variable {lifespan inner node : LifespanId} {guard around : GuardId} {scope : Lifespan}
  (walks : Walks thread shut [root] turns count before after)

include walks

/-- What has ended has no turn. -/
theorem Walks.lifespan?_of_ended (found : before.lifespan? lifespan = some scope) (finished : scope.ended = true) :
    after.lifespan? lifespan = some scope := by
  have apart : lifespan ∉ turns := fun among => by
    obtain ⟨alive, found', standing⟩ := walks.standing lifespan among
    cases found.symm.trans found'
    rw [finished] at standing
    cases standing
  exact (walks.lifespan?_of_not_mem apart).trans found

theorem Walks.lifespan?_of_mem (among : lifespan ∈ turns) :
    after.lifespan? lifespan = (before.lifespan? lifespan).map (emptied (shut lifespan)) := by
  rw [walks.tables, if_pos among]

theorem Walks.lifespan?_root (standing : before.Standing root) :
    after.lifespan? root = (before.lifespan? root).map (emptied (shut root)) :=
  walks.lifespan?_of_mem (walks.whole root List.mem_cons_self standing)

theorem Walks.root_ended (closes : shut root = true) (isThere : (before.lifespan? root).isSome) : after.Ended root := by
  obtain ⟨scope, found⟩ := Option.isSome_iff_exists.mp isThere
  cases finished : scope.ended with
  | true => exact ⟨scope, walks.lifespan?_of_ended found finished, finished⟩
  | false => exact ⟨_, (walks.lifespan?_root ⟨scope, found, finished⟩).trans (congrArg _ found), closes⟩

theorem Walks.root_standing (leaves : shut root = false) (standing : before.Standing root) : after.Standing root := by
  have ⟨scope, found, _⟩ := standing
  exact ⟨_, (walks.lifespan?_root standing).trans (congrArg _ found), leaves⟩

/-- Guards whose tables had no turn are as they were. -/
theorem Walks.untouched (kindred : Kindred born before)
    (outer : ∀ node, Relation.ReflTransGen born root node → ¬ before.Registered node guard) :
    after.guard? guard = before.guard? guard ∧ guard ∉ before.releases thread (turns.flatMap before.table) := by
  have apart : guard ∉ turns.flatMap before.table := fun among => by
    obtain ⟨node, turn, listed⟩ := List.mem_flatMap.mp among
    exact outer node (walks.under kindred turn) (mem_table.mp listed)
  exact ⟨by rw [walks.sweeps.guards, if_neg apart], fun freed => apart (mem_releases.mp freed).1⟩

variable (sound : Sound thread [] before) (kindred : Kindred born before)

include sound kindred

/-- Everything inside the root has ended, if whatever it takes down is shut. -/
theorem Walks.inside_ended (shuts : ∀ inner, root < inner → shut inner = true) (descends : Relation.TransGen born root inner) :
    after.Ended inner := by
  obtain ⟨parent, -, its⟩ := Relation.TransGen.tail'_iff.mp descends
  obtain ⟨scope, alive, -, found, -⟩ := kindred.known parent inner its
  cases finished : alive.ended with
  | true => exact ⟨alive, walks.lifespan?_of_ended found finished, finished⟩
  | false =>
    have later := sound.lt_of_descends (kindred.descends sound descends ⟨alive, found, finished⟩)
    have among := walks.taken sound kindred descends.to_reflTransGen ⟨alive, found, finished⟩
    exact ⟨_, (walks.lifespan?_of_mem among).trans (congrArg _ found), shuts inner later⟩

/-- What was registered in the tree had been released before, is released now, or waits for a pin of the thread. -/
theorem Walks.settled (under : Relation.ReflTransGen born root node) (registered : before.Registered node guard) :
    ∃ held, after.guard? guard = some held ∧ held.isReleased = true ∧
      (before.Claimed guard ∨ guard ∈ before.releases thread (turns.flatMap before.table) ∨
        held.deferred = true ∧ thread ∈ held.holders) := by
  have among := walks.taken sound kindred under (registered.standing sound)
  have visited : guard ∈ turns.flatMap before.table := List.mem_flatMap.mpr ⟨node, among, mem_table.mpr registered⟩
  obtain ⟨scope, found, listed⟩ := registered
  obtain ⟨held, isThere⟩ := Option.isSome_iff_exists.mp (sound.registered node scope found guard listed)
  obtain ⟨closing, state⟩ := @Guard.settled_reached thread held
  refine ⟨held.reached thread, by rw [walks.sweeps.guards, if_pos visited, isThere]; rfl, ?_, ?_⟩
  · rw [Guard.isReleased, closing, Bool.or_true]
  · rw [Guard.claimed_reached] at state
    obtain (claimed | free) | deferred := state
    · exact .inl ⟨held, isThere, claimed⟩
    · refine .inr (.inl (mem_releases.mpr ⟨visited, ?_⟩))
      rw [releasable, isThere]
      exact free
    · exact .inr (.inr deferred)

/-- A guard that is registered inside is released before one that is registered around it only. -/
theorem Walks.released_before (under : Relation.ReflTransGen born root inner) (registered : before.Registered inner guard)
    (only : ∀ node, Relation.ReflTransGen born root node → before.Registered node around → Relation.TransGen born node inner)
    (freed : guard ∈ before.releases thread (turns.flatMap before.table))
    (freed' : around ∈ before.releases thread (turns.flatMap before.table)) :
    [guard, around].Sublist (before.releases thread (turns.flatMap before.table)) := by
  have standing := registered.standing sound
  have among := walks.taken sound kindred under standing
  -- the turns until the inner one are what decides: no table of theirs has the guard that is around
  obtain ⟨first, second, split⟩ := List.append_of_mem among
  have halves : turns.flatMap before.table
      = (first ++ [inner]).flatMap before.table ++ second.flatMap before.table := by
    rw [split, ← List.flatMap_append, List.append_assoc]
    rfl
  rw [halves] at freed freed' ⊢
  refine releases_ordered ?_ (fun sooner => ?_) freed freed'
  · exact List.mem_flatMap.mpr ⟨inner, List.mem_append_right _ List.mem_cons_self, mem_table.mpr registered⟩
  · obtain ⟨node, turn, listed⟩ := List.mem_flatMap.mp sooner
    have its : node ∈ turns := by
      rw [split]
      exact (List.mem_append.mp turn).elim (List.mem_append_left _) fun last =>
        List.mem_append_right _ (List.mem_singleton.mp last ▸ List.mem_cons_self)
    have inside := kindred.descends sound (only node (walks.under kindred its) (mem_table.mp listed)) standing
    cases List.mem_append.mp turn with
    | inl earlier =>
      -- what had its turn before came after all that is inside it
      have twice := sound.earlier_closed walks.order split earlier inside.to_reflTransGen standing
      have once := walks.once
      rw [split, List.nodup_append] at once
      exact once.2.2 inner twice inner List.mem_cons_self rfl
    | inr last =>
      rw [List.mem_singleton.mp last] at inside
      exact Nat.lt_irrefl _ (sound.lt_of_descends inside)

/-- All tables of the tree are empty. -/
theorem Walks.emptied_tables (under : Relation.ReflTransGen born root node) : ¬ after.Registered node guard := by
  rintro ⟨scope, found, listed⟩
  rw [walks.tables] at found
  split at found
  · obtain ⟨old, -, rfl⟩ := Option.map_eq_some_iff.mp found
    cases listed
  · next apart =>
    have registered : before.Registered node guard := ⟨scope, found, listed⟩
    exact apart (walks.taken sound kindred under (registered.standing sound))

end walks

end Ledger

namespace Operation

open Ledger (Sound Kindred SameTree Walks)

variable {thread : ThreadId} {operations : List Operation} {before last ledger : Ledger} {lifespan : LifespanId}

/-! ## The tree of a run -/

/-- The run made one lifespan inside another one. -/
def Born (thread : ThreadId) (operations : List Operation) (parent child : LifespanId) : Prop :=
  ∃ before address kind rest made, operations = before ++ .child parent address kind :: rest ∧
    Ledger.child parent address kind (after thread before {}) = .ok child made

/-- The lifespan was made inside the other one, at any depth. -/
abbrev Descends (thread : ThreadId) (operations : List Operation) : LifespanId → LifespanId → Prop :=
  Relation.TransGen (Born thread operations)

/-- The node is the lifespan or was made inside it, at any depth. -/
abbrev Under (thread : ThreadId) (operations : List Operation) : LifespanId → LifespanId → Prop :=
  Relation.ReflTransGen (Born thread operations)

theorem born_concat {operation : Operation} {parent child : LifespanId} :
    Born thread (operations ++ [operation]) parent child ↔ Born thread operations parent child ∨
      ∃ address kind made, operation = .child parent address kind ∧
        Ledger.child parent address kind (after thread operations {}) = .ok child made := by
  constructor
  · rintro ⟨before, address, kind, rest, made, split, ran⟩
    obtain ⟨more, rfl⟩ | ⟨more, rfl, last⟩ := Ledger.append_split split
    · exact .inl ⟨before, address, kind, more, made, rfl, ran⟩
    · cases more with
      | nil =>
        obtain ⟨rfl, -⟩ := List.cons_eq_cons.mp last
        rw [List.append_nil] at ran
        exact .inr ⟨address, kind, made, rfl, ran⟩
      | cons head more =>
        have none := (List.cons_eq_cons.mp last).2
        exact absurd none.symm (List.append_ne_nil_of_right_ne_nil more (List.cons_ne_nil _ _))
  · rintro (⟨before, address, kind, rest, made, rfl, ran⟩ | ⟨address, kind, made, rfl, ran⟩)
    · exact ⟨before, address, kind, rest ++ [operation], made, by rw [List.append_assoc]; rfl, ran⟩
    · exact ⟨operations, address, kind, [], made, rfl, ran⟩

/-- An operation that neither makes nor tears down lifespans leaves the tree alone. -/
theorem apply_sameTree (thread : ThreadId) (ledger : Ledger) {operation : Operation}
    (outer : ∀ address kind, operation ≠ .newLifespan address kind)
    (inner : ∀ parent address kind, operation ≠ .child parent address kind)
    (kept : ∀ lifespan close, operation ≠ .teardown lifespan close) :
    ledger.SameTree (operation.apply thread ledger) := by
  have carried := Ledger.sameTree_carried ledger
  have start := SameTree.refl ledger
  cases operation with
  | newLifespan address kind => exact absurd rfl (outer address kind)
  | child parent address kind => exact absurd rfl (inner parent address kind)
  | teardown lifespan close => exact absurd rfl (kept lifespan close)
  | newQueue => exact start
  | holdQueue queue => exact start
  | letQueueGo queue =>
    have keeps : (Ledger.letQueueGo queue).Keeps ledger.SameTree :=
      .bind (.modify fun _ before => before) fun _ => .bind .get fun _ =>
        carried.reapBy (fun _ _ => carried.dropOwner trivial) _
    exact (keeps ledger start).exec
  | build plan lifespan => exact (Ledger.build_sameTree ledger plan lifespan ledger start).exec
  | register guard lifespan => exact (Ledger.register_sameTree ledger guard lifespan ledger start).exec
  | deregister guard lifespan => exact Ledger.deregister_sameTree start guard lifespan
  | pin guard =>
    have keeps : (Ledger.pin thread guard).Keeps ledger.SameTree :=
      .bind .get fun _ => .bind (.ofOutcome _) fun _ => .bind (.modify fun _ before => before) fun _ => .pure _
    exact (keeps ledger start).exec
  | unpin guard => exact (carried.unpin thread guard ledger start).exec
  | drop guard => exact (carried.dropOwner trivial ledger start).exec
  | drain queue => exact (carried.drain queue ledger start).exec

/-- A ledger remembers what its run made, apart from what has ended. -/
theorem kindred_after (allowed : AllowedAll thread operations {}) :
    Kindred (Born thread operations) (after thread operations {}) := by
  -- On the operations from the back: only the last can have made a child that was not there.
  induction operations using List.reverseRecOn with
  | nil =>
    refine ⟨?_, ?_⟩
    · rintro parent child ⟨before, address, kind, rest, made, split, -⟩
      exact absurd split.symm (List.append_ne_nil_of_right_ne_nil before (List.cons_ne_nil _ _))
    · rintro parent child ⟨scope, found, -⟩
      cases found
  | append_singleton operations operation inductionHypothesis =>
    obtain ⟨earlier, now⟩ := allowedAll_append.mp allowed
    have sound := (after_sound (Operation.sound_empty thread) earlier).sound
    have kindred := inductionHypothesis earlier
    have born := @born_concat thread operations operation
    rw [after_append]
    change Kindred _ (operation.apply thread (after thread operations {}))
    generalize after thread operations {} = ledger at sound kindred born
    have same (others : ∀ parent address kind, operation ≠ .child parent address kind) :
        Born thread (operations ++ [operation]) = Born thread operations := by
      funext parent child
      refine propext (born.trans (or_iff_left ?_))
      rintro ⟨address, kind, made, rfl, -⟩
      exact others parent address kind rfl
    cases operation with
    | newLifespan address kind =>
      rw [same fun _ _ _ => Operation.noConfusion]
      exact kindred.addLifespan address kind
    | child lifespan address kind =>
      by_cases standing : ledger.Standing lifespan
      · obtain ⟨scope, found, alive⟩ := standing
        obtain ⟨made, ran, new, ⟨children, listed, children_iff⟩, others⟩ :=
          Ledger.child_run sound found alive address kind
        rw [show (child lifespan address kind).apply thread ledger = made from Task.exec_ok ran]
        refine kindred.child sound found new listed children_iff others fun parent inner => born.trans (or_congr_right ?_)
        constructor
        · rintro ⟨address', kind', made', same, ran'⟩
          cases same
          cases ran.symm.trans ran'
          exact ⟨rfl, rfl⟩
        · rintro ⟨rfl, rfl⟩
          exact ⟨address, kind, made, rfl, ran⟩
      · obtain ⟨interrupt, refused⟩ := Ledger.child_fallen standing address kind
        rw [show (child lifespan address kind).apply thread ledger = ledger from Task.exec_error refused]
        have none : Born thread (operations ++ [.child lifespan address kind]) = Born thread operations := by
          funext parent inner
          refine propext (born.trans (or_iff_left ?_))
          rintro ⟨address', kind', made', same, ran⟩
          cases same
          cases refused.symm.trans ran
        rwa [none]
    | teardown lifespan close =>
      rw [same fun _ _ _ => Operation.noConfusion]
      obtain ⟨count, last, turns, ran, -, walks⟩ := Ledger.teardown_walks lifespan close sound
      rw [show (teardown lifespan close).apply thread ledger = last from Task.exec_ok ran]
      exact kindred.walks sound walks
    | _ =>
      rw [same fun _ _ _ => Operation.noConfusion]
      exact kindred.sameTree (apply_sameTree thread ledger (fun _ _ => Operation.noConfusion)
        (fun _ _ _ => Operation.noConfusion) fun _ _ => Operation.noConfusion)

/-! ## Teardowns of trees -/

/-- What a teardown of the lifespan does with the tree that the run made below it, given the
    guards that it released. -/
structure TornTree (thread : ThreadId) (operations : List Operation) (lifespan : LifespanId) (close : Bool)
    (count : Nat) (released : List GuardId) (before after : Ledger) : Prop where
  /-- Everything inside has ended. -/
  ends : ∀ inner, Descends thread operations lifespan inner → after.Ended inner
  /-- The lifespan itself has ended, or can be used as before. -/
  itself : if close then (before.lifespan? lifespan).isSome → after.Ended lifespan
    else before.Standing lifespan → after.Standing lifespan
  /-- What was registered had been released before, is released now, or waits for a pin of
      the thread. -/
  settled : ∀ node guard, Under thread operations lifespan node → before.Registered node guard →
    ∃ held, after.guard? guard = some held ∧ held.isReleased = true ∧
      (before.Claimed guard ∨ guard ∈ released ∨ held.deferred = true ∧ thread ∈ held.holders)
  /-- The guards that were released are those whose release was claimed meanwhile, ... -/
  claimed : ∀ guard, guard ∈ released ↔ ¬ before.Claimed guard ∧ after.Claimed guard
  /-- ... none of them twice, ... -/
  once : released.Nodup
  /-- ... all of them counted, ... -/
  counted : count = released.length
  /-- ... and their actions ran in this order: -/
  ran : after.log = before.log ++ released.filterMap before.firing
  /-- a guard that is registered inside comes before one that is registered around it only. -/
  ordered : ∀ inner guard around, Under thread operations lifespan inner → before.Registered inner guard →
    (∀ node, Under thread operations lifespan node → before.Registered node around →
      Descends thread operations node inner) →
    guard ∈ released → around ∈ released → [guard, around].Sublist released
  /-- All tables of the tree are empty. -/
  empty : ∀ node, Under thread operations lifespan node → ∀ guard, ¬ after.Registered node guard
  /-- Guards that are registered outside only are as they were, ... -/
  untouched : ∀ guard, (∀ node, Under thread operations lifespan node → ¬ before.Registered node guard) →
    after.guard? guard = before.guard? guard ∧ guard ∉ released
  /-- ... and so are the lifespans outside. -/
  outside : ∀ other, ¬ Under thread operations lifespan other → after.lifespan? other = before.lifespan? other

/-- A teardown that takes the lifespans below its own, each one after those inside it, takes
    down the tree. -/
theorem tornTree_of_walks {close : Bool} {turns : List LifespanId} {count : Nat} (sound : Sound thread [] before)
    (kindred : Kindred (Born thread operations) before)
    (walks : Walks thread (fun id => close || id != lifespan) [lifespan] turns count before last) :
    TornTree thread operations lifespan close count (before.releases thread (turns.flatMap before.table))
      before last where
  ends inner descends := walks.inside_ended sound kindred
    (fun inner later => by rw [bne_iff_ne.mpr (Nat.ne_of_gt later), Bool.or_true]) descends
  itself := by
    cases close with
    | true => exact walks.root_ended rfl
    | false => exact walks.root_standing (bne_self_eq_false lifespan)
  settled _ _ := walks.settled sound kindred
  claimed _ := walks.sweeps.mem_releases_iff
  once := Ledger.nodup_releases thread before _
  counted := walks.sweeps.count
  ran := walks.sweeps.log
  ordered _ _ _ := walks.released_before sound kindred
  empty _ under _ := walks.emptied_tables sound kindred under
  untouched _ := walks.untouched kindred
  outside _ apart := walks.lifespan?_of_not_mem fun among => apart (walks.under kindred among)

/-- After any run of one thread, tearing a lifespan down takes down the tree that the run made
    below it; and before and after, a lifespan can be used just as long as it has not ended. -/
theorem tree_torn_down (thread : ThreadId) (operations : List Operation) (allowed : AllowedAll thread operations {})
    (lifespan : LifespanId) (close : Bool) :
    ∃ count released last, Ledger.teardown thread lifespan close (after thread operations {}) = .ok count last ∧
      TornTree thread operations lifespan close count released (after thread operations {}) last ∧
      ∀ ledger, ledger = after thread operations {} ∨ ledger = last → ∀ node scope, ledger.lifespan? node = some scope →
        if scope.ended then ledger.Shut thread node scope else ledger.Usable node := by
  have sound := (after_sound (sound_empty thread) allowed).sound
  obtain ⟨count, last, turns, ran, sound', walks⟩ := Ledger.teardown_walks lifespan close sound
  have answers : ∀ {ledger}, Sound thread [] ledger → ∀ node scope, ledger.lifespan? node = some scope →
      if scope.ended then ledger.Shut thread node scope else ledger.Usable node := by
    intro ledger sound node scope found
    split
    · next ended => exact Ledger.shut_of_ended found ended
    · next alive => exact sound.usable found (Bool.eq_false_iff.mpr alive)
  refine ⟨count, _, last, ran, tornTree_of_walks sound (kindred_after allowed) walks, ?_⟩
  rintro ledger (rfl | rfl)
  · exact answers sound
  · exact answers sound'

/-- A lifespan with two inside it, one in the other; the inner one was ended and made anew, and
    a guard is in the outermost and in the innermost table. -/
def nested : List Operation :=
  [.newLifespan .null .owner, .child 0 .null .memory, .child 1 .null .memory, .teardown 2 true, .child 1 .null .memory,
    .build { handle := .null, action := some {} } (some 0), .build { handle := .null, action := some {} } (some 3),
    .register 4 3, .build { handle := .null, action := some {} } (some 1), .pin 6]

theorem tree_torn_down_nested : AllowedAll 0 nested {} ∧
    ∃ count last, Ledger.teardown 0 0 false (after 0 nested {}) = .ok count last ∧ last.Ended 1 ∧ last.Ended 2 ∧
      last.Ended 3 := by
  have allowed : AllowedAll 0 nested {} := by decide +kernel
  obtain ⟨count, released, last, ran, torn, -⟩ := tree_torn_down 0 nested allowed 0 false
  have first : Born 0 nested 0 1 := ⟨nested.take 1, .null, .memory, nested.drop 2, _, rfl, rfl⟩
  have second : Born 0 nested 1 2 := ⟨nested.take 2, .null, .memory, nested.drop 3, _, rfl, rfl⟩
  have third : Born 0 nested 1 3 := ⟨nested.take 4, .null, .memory, nested.drop 5, _, rfl, rfl⟩
  exact ⟨allowed, count, last, ran, torn.ends 1 (.single first), torn.ends 2 (.tail (.single first) second),
    torn.ends 3 (.tail (.single first) third)⟩

end Operation

end CatalogReplica.Lifetime
