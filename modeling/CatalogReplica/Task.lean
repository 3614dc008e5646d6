import CatalogReplica.Fault

/-!
# Stateful operations

A `Task` turns a state into a value and a new state, or is interrupted: by a
fault, which its caller sees, or by breaking off.  An interrupt does not undo
what the task changed before.

* `Task.ensuring` runs a last change of the state in either case.
* `Task.attempt` turns the outcome of a task into a value.
-/

namespace CatalogReplica

/-- How an operation can fail to give a value: with a fault that its caller sees,
    or by breaking off, with a note where the library words one. -/
inductive Interrupt where
  | fault (fault : Fault)
  | crash (note : Option String)
  deriving DecidableEq, Inhabited, Repr

/-- A stateful operation.  Whatever it changed before an interrupt stays. -/
abbrev Task (σ : Type) := EStateM Interrupt σ

namespace Task

variable {σ τ α β : Type}

/-- Ends the operation with a fault. -/
def fail (fault : Fault) : Task σ α := throw (.fault fault)

/-- Breaks the operation off, with a note where the library words one. -/
def crash (note : Option String := none) : Task σ α := throw (.crash note)

/-- Gives the value or ends with the fault. -/
def ofExcept : Except Fault α → Task σ α
  | .ok value => pure value
  | .error fault => fail fault

/-- Gives the value or is interrupted. -/
def ofOutcome : Except Interrupt α → Task σ α
  | .ok value => pure value
  | .error interrupt => throw interrupt

/-- Runs `body` and then `finish`, whether the body gave a value or was
    interrupted. -/
def ensuring (body : Task σ α) (finish : σ → σ) : Task σ α := fun state =>
  match body state with
  | .ok value state => .ok value (finish state)
  | .error interrupt state => .error interrupt (finish state)

/-- Runs the task and gives its outcome as a value. -/
def attempt (body : Task σ α) : Task σ (Except Interrupt α) := fun state =>
  match body state with
  | .ok value state => .ok (.ok value) state
  | .error interrupt state => .ok (.error interrupt) state

/-- The state that the task leaves, whatever its outcome. -/
def exec (body : Task σ α) (state : σ) : σ :=
  match body state with
  | .ok _ state => state
  | .error _ state => state

/-- Runs a plain change of the state that also gives a value. -/
def lift (change : σ → α × σ) : Task σ α := fun state =>
  let (value, state) := change state
  .ok value state

/-- Runs a task on a part of the state. -/
def within (get : σ → τ) (set : τ → σ → σ) (body : Task τ α) : Task σ α := fun state =>
  match body (get state) with
  | .ok value part => .ok value (set part state)
  | .error interrupt part => .error interrupt (set part state)

/-- Adds up what the task gives for the elements, in order. -/
def sum (each : β → Task σ Nat) : List β → Task σ Nat
  | [] => pure 0
  | first :: rest => do
      let n ← each first
      let m ← sum each rest
      return n + m

/-! ## Running tasks

What the building blocks of tasks do to a state. -/

@[simp] theorem pure_run (value : α) (state : σ) : (pure value : Task σ α) state = .ok value state :=
  rfl

theorem bind_run (body : Task σ α) (next : α → Task σ β) (state : σ) :
    (body >>= next) state = match body state with
      | .ok value state => next value state
      | .error interrupt state => .error interrupt state := by
  change EStateM.bind body next state = _
  unfold EStateM.bind
  cases body state <;> rfl

/-- A task goes on where the one before it ended. -/
theorem bind_ok {body : Task σ α} {next : α → Task σ β} {state state' : σ} {value : α}
    (ended : body state = .ok value state') : (body >>= next) state = next value state' := by
  rw [bind_run, ended]

/-- An interrupt ends a sequence of tasks. -/
theorem bind_error {body : Task σ α} {next : α → Task σ β} {state state' : σ}
    {interrupt : Interrupt} (ended : body state = .error interrupt state') :
    (body >>= next) state = .error interrupt state' := by
  rw [bind_run, ended]

theorem map_run (f : α → β) (body : Task σ α) (state : σ) :
    (f <$> body) state = match body state with
      | .ok value state => .ok (f value) state
      | .error interrupt state => .error interrupt state := by
  change EStateM.map f body state = _
  unfold EStateM.map
  cases body state <;> rfl

theorem discard_run (body : Task σ α) (state : σ) :
    (discard body : Task σ PUnit) state = match body state with
      | .ok _ state => .ok ⟨⟩ state
      | .error interrupt state => .error interrupt state := by
  change EStateM.map (Function.const α PUnit.unit) body state = _
  unfold EStateM.map
  cases body state <;> rfl

@[simp] theorem get_run (state : σ) : (get : Task σ σ) state = .ok state state := rfl

@[simp] theorem set_run (next state : σ) : (set next : Task σ PUnit) state = .ok ⟨⟩ next := rfl

@[simp] theorem modify_run (f : σ → σ) (state : σ) :
    (modify f : Task σ PUnit) state = .ok ⟨⟩ (f state) := rfl

@[simp] theorem throw_run (interrupt : Interrupt) (state : σ) :
    (throw interrupt : Task σ α) state = .error interrupt state := rfl

@[simp] theorem lift_run (change : σ → α × σ) (state : σ) :
    lift change state = .ok (change state).1 (change state).2 := rfl

theorem exec_ok {body : Task σ α} {state state' : σ} {value : α}
    (ended : body state = .ok value state') : body.exec state = state' := by
  rw [exec, ended]

theorem exec_error {body : Task σ α} {state state' : σ} {interrupt : Interrupt}
    (ended : body state = .error interrupt state') : body.exec state = state' := by
  rw [exec, ended]

/-- What the tasks for the elements give is added up. -/
theorem sum_cons {each : β → Task σ Nat} {first : β} {rest : List β} {state mid last : σ}
    {n m : Nat} (one : each first state = .ok n mid) (others : sum each rest mid = .ok m last) :
    sum each (first :: rest) state = .ok (n + m) last := by
  unfold sum
  rw [bind_ok one, bind_ok others]
  rfl

/-! ## What holds when a task ends -/

/-- Started in the state, the task ends with an outcome and a state as described. -/
def Ends (body : Task σ α) (state : σ) (post : Except Interrupt α → σ → Prop) : Prop :=
  match body state with
  | .ok value state => post (.ok value) state
  | .error interrupt state => post (.error interrupt) state

theorem Ends.weaken {body : Task σ α} {state : σ} {post weak : Except Interrupt α → σ → Prop}
    (ends : body.Ends state post) (weaker : ∀ outcome state, post outcome state → weak outcome state) :
    body.Ends state weak := by
  unfold Ends at ends ⊢
  cases ran : body state <;> rw [ran] at ends <;> exact weaker _ _ ends

/-- Two descriptions of one end. -/
theorem Ends.both {body : Task σ α} {state : σ} {post post' : Except Interrupt α → σ → Prop}
    (ends : body.Ends state post) (ends' : body.Ends state post') :
    body.Ends state fun outcome after => post outcome after ∧ post' outcome after := by
  unfold Ends at ends ends' ⊢
  cases ran : body state <;> rw [ran] at ends ends' <;> exact ⟨ends, ends'⟩

/-- What holds of the end under a condition. -/
theorem Ends.given {condition : Prop} {body : Task σ α} {state : σ} {post : Except Interrupt α → σ → Prop}
    (ends : condition → body.Ends state post) : body.Ends state fun outcome after => condition → post outcome after := by
  unfold Ends at ends ⊢
  cases ran : body state <;> rw [ran] at ends <;> exact ends

/-- A task that gave a value ends as described if the value and the state are so. -/
theorem Ends.of_ok {body : Task σ α} {state after : σ} {value : α} {post : Except Interrupt α → σ → Prop}
    (ended : body state = .ok value after) : body.Ends state post ↔ post (.ok value) after := by
  unfold Ends
  rw [ended]

/-- One task after another: what holds after the first one is what the second one
    starts from, unless the first one is interrupted. -/
theorem Ends.bind {body : Task σ α} {next : α → Task σ β} {state : σ}
    {mid : Except Interrupt α → σ → Prop} {post : Except Interrupt β → σ → Prop}
    (first : body.Ends state mid)
    (second : ∀ value state, mid (.ok value) state → (next value).Ends state post)
    (broken : ∀ interrupt state, mid (.error interrupt) state → post (.error interrupt) state) :
    (body >>= next).Ends state post := by
  unfold Ends at first ⊢
  rw [bind_run]
  cases ran : body state with
  | ok value after =>
    rw [ran] at first
    exact second value after first
  | error interrupt after =>
    rw [ran] at first
    exact broken interrupt after first

theorem Ends.pure {value : α} {state : σ} {post : Except Interrupt α → σ → Prop}
    (holds : post (.ok value) state) : (pure value : Task σ α).Ends state post := holds

theorem Ends.lift {change : σ → α × σ} {state : σ} {post : Except Interrupt α → σ → Prop}
    (after : post (.ok (change state).1) (change state).2) : (lift change).Ends state post := after

/-- A task that gave a value is followed by the rest. -/
theorem Ends.next {body : Task σ α} {next : α → Task σ β} {state mid : σ} {value : α}
    {post : Except Interrupt β → σ → Prop} (ended : body state = .ok value mid)
    (rest : (next value).Ends mid post) : (body >>= next).Ends state post := by
  unfold Ends
  rw [bind_ok ended]
  exact rest

/-- A task that was interrupted is followed by nothing. -/
theorem Ends.stop {body : Task σ α} {next : α → Task σ β} {state mid : σ} {interrupt : Interrupt}
    {post : Except Interrupt β → σ → Prop} (ended : body state = .error interrupt mid)
    (holds : post (.error interrupt) mid) : (body >>= next).Ends state post := by
  unfold Ends
  rw [bind_error ended]
  exact holds

/-- What holds whatever the outcome holds of the state that the task leaves. -/
theorem Ends.exec {body : Task σ α} {state : σ} {post : σ → Prop}
    (ends : body.Ends state fun _ after => post after) : post (body.exec state) := by
  unfold Ends at ends
  unfold Task.exec
  cases ran : body state <;> rw [ran] at ends <;> exact ends

/-- An attempt is never interrupted. -/
theorem Ends.attempt {body : Task σ α} {state : σ} {post : Except Interrupt α → σ → Prop}
    (ends : body.Ends state post) :
    (attempt body).Ends state fun outcome after => ∃ inner, outcome = .ok inner ∧ post inner after := by
  unfold Ends at ends ⊢
  unfold Task.attempt
  cases ran : body state <;> rw [ran] at ends <;> exact ⟨_, rfl, ends⟩

/-- How a task ended can be said of its attempt. -/
theorem attempt_run (body : Task σ α) (state : σ) :
    ∃ outcome after, attempt body state = .ok outcome after ∧
      ∀ post, body.Ends state post → post outcome after := by
  unfold Ends attempt
  cases body state <;> exact ⟨_, _, rfl, fun _ ends => ends⟩

/-- A task that runs as another one does ends as that one does. -/
theorem Ends.of_run {body other : Task σ α} {state start : σ} {post : Except Interrupt α → σ → Prop}
    (same : body state = other start) (ends : other.Ends start post) : body.Ends state post := by
  unfold Ends at ends ⊢
  rw [same]
  exact ends

/-- A task of which the outcome and the state afterwards are known. -/
theorem Ends.run {body : Task σ α} {state last : σ} {value : α}
    (ends : body.Ends state fun outcome after => outcome = .ok value ∧ after = last) : body state = .ok value last := by
  unfold Ends at ends
  cases ran : body state with
  | ok _ _ =>
    rw [ran] at ends
    obtain ⟨⟨⟩, rfl⟩ := ends
    rfl
  | error _ _ =>
    rw [ran] at ends
    cases ends.1

/-- An outcome is what it is. -/
theorem Ends.ofOutcome {outcome : Except Interrupt α} {state : σ} {post : Except Interrupt α → σ → Prop}
    (holds : post outcome state) : (ofOutcome outcome : Task σ α).Ends state post := by
  cases outcome <;> exact holds

/-! ## What a task keeps -/

/-- The task keeps what holds of the state, whatever its outcome. -/
def Keeps (body : Task σ α) (holds : σ → Prop) : Prop :=
  ∀ state, holds state → body.Ends state fun _ after => holds after

theorem Keeps.pure (value : α) {holds : σ → Prop} : (pure value : Task σ α).Keeps holds :=
  fun _ before => before

theorem Keeps.throw (interrupt : Interrupt) {holds : σ → Prop} : (throw interrupt : Task σ α).Keeps holds :=
  fun _ before => before

theorem Keeps.get {holds : σ → Prop} : (get : Task σ σ).Keeps holds := fun _ before => before

theorem Keeps.modify {f : σ → σ} {holds : σ → Prop} (step : ∀ state, holds state → holds (f state)) :
    (modify f : Task σ PUnit).Keeps holds := step

theorem Keeps.lift {change : σ → α × σ} {holds : σ → Prop}
    (step : ∀ state, holds state → holds (change state).2) : (lift change).Keeps holds := step

theorem Keeps.bind {body : Task σ α} {next : α → Task σ β} {holds : σ → Prop} (first : body.Keeps holds)
    (second : ∀ value, (next value).Keeps holds) : (body >>= next).Keeps holds :=
  fun state before => (first state before).bind (fun value after => second value after) fun _ _ after => after

theorem Keeps.map {body : Task σ α} {holds : σ → Prop} (keeps : body.Keeps holds) (f : α → β) :
    (f <$> body).Keeps holds := by
  intro state before
  have ends := keeps state before
  unfold Ends at ends ⊢
  rw [map_run]
  cases ran : body state <;> rw [ran] at ends <;> exact ends

theorem Keeps.sum {each : β → Task σ Nat} {holds : σ → Prop} {list : List β}
    (keeps : ∀ one ∈ list, (each one).Keeps holds) : (Task.sum each list).Keeps holds := by
  induction list with
  | nil => exact .pure 0
  | cons first rest ih =>
    refine (keeps first List.mem_cons_self).bind fun _ => .bind (ih fun one among => ?_) fun _ => .pure _
    exact keeps one (List.mem_cons_of_mem _ among)

theorem Keeps.forM {each : β → Task σ PUnit} {holds : σ → Prop} {list : List β}
    (keeps : ∀ one ∈ list, (each one).Keeps holds) : (list.forM each).Keeps holds := by
  induction list with
  | nil => exact .pure PUnit.unit
  | cons first rest ih =>
    have later : (rest.forM each).Keeps holds := ih fun one among => keeps one (List.mem_cons_of_mem _ among)
    exact (keeps first List.mem_cons_self).bind fun _ => later

/-- The last change is made whatever the outcome. -/
theorem Ends.ensuring {body : Task σ α} {finish : σ → σ} {state : σ}
    {post : Except Interrupt α → σ → Prop}
    (ends : body.Ends state fun outcome after => post outcome (finish after)) :
    (ensuring body finish).Ends state post := by
  unfold Ends at ends ⊢
  unfold Task.ensuring
  cases ran : body state <;> rw [ran] at ends <;> exact ends

theorem Ends.discard {body : Task σ α} {state : σ} {post : σ → Prop} (ends : body.Ends state fun _ => post) :
    (discard body : Task σ PUnit).Ends state fun _ => post := by
  unfold Ends at ends ⊢
  rw [discard_run]
  cases ran : body state <;> rw [ran] at ends <;> exact ends

theorem Keeps.ensuring {body : Task σ α} {finish : σ → σ} {holds : σ → Prop} (keeps : body.Keeps holds)
    (finishes : ∀ state, holds state → holds (finish state)) : (ensuring body finish).Keeps holds :=
  fun state before => .ensuring ((keeps state before).weaken fun _ => finishes)

theorem Keeps.attempt {body : Task σ α} {holds : σ → Prop} (keeps : body.Keeps holds) : (attempt body).Keeps holds :=
  fun state before => (keeps state before).attempt.weaken fun _ _ ⟨_, _, after⟩ => after

theorem Keeps.discard {body : Task σ α} {holds : σ → Prop} (keeps : body.Keeps holds) :
    (discard body : Task σ PUnit).Keeps holds := fun state before => (keeps state before).discard

theorem Keeps.ofOutcome (outcome : Except Interrupt α) {holds : σ → Prop} : (ofOutcome outcome : Task σ α).Keeps holds :=
  fun _ before => .ofOutcome before

end Task

end CatalogReplica
