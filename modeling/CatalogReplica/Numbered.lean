/-!
# Numbered tables

A table holds values under numbers that are handed out once.  `Numbered.update`
changes the value of one number and leaves the others alone.
-/

namespace CatalogReplica

/-- Values under numbers. -/
abbrev Numbered (α : Type) := List (Nat × α)

namespace Numbered

variable {α : Type}

/-- What has the number. -/
def get? (table : Numbered α) (id : Nat) : Option α := table.lookup id

/-- Whether something has the number. -/
def has (table : Numbered α) (id : Nat) : Bool := (table.get? id).isSome

/-- Adds a value under a number that is not in use. -/
def add (table : Numbered α) (id : Nat) (value : α) : Numbered α := table ++ [(id, value)]

def update (table : Numbered α) (id : Nat) (f : α → α) : Numbered α :=
  table.map fun entry => if entry.1 == id then (entry.1, f entry.2) else entry

def erase (table : Numbered α) (id : Nat) : Numbered α := table.filter fun entry => entry.1 != id

/-- The numbers in use, in the order in which they were added. -/
def ids (table : Numbered α) : List Nat := table.map (·.1)

/-- A change shows at its own number alone. -/
theorem get?_update (table : Numbered α) (id other : Nat) (f : α → α) :
    (table.update id f).get? other
      = if other = id then (table.get? other).map f else table.get? other := by
  induction table with
  | nil => simp [update, get?]
  | cons entry table ih =>
    obtain ⟨key, value⟩ := entry
    simp only [update, get?, List.map_cons] at ih ⊢
    by_cases ho : other = key
    · subst ho
      by_cases hk : other = id <;> simp [hk]
    · have skip : (other == key) = false := by simpa using ho
      have hd : (if (key == id) = true then (key, f value) else (key, value)).1 = key := by
        split <;> rfl
      rw [List.lookup_cons, List.lookup_cons, hd, skip]
      exact ih

/-- Changing values keeps the numbers. -/
theorem ids_update (table : Numbered α) (id : Nat) (f : α → α) :
    (table.update id f).ids = table.ids := by
  simp only [update, ids, List.map_map]
  apply List.map_congr_left
  intro entry _
  simp only [Function.comp_apply]
  split <;> rfl

/-- Forgetting a number leaves the others alone. -/
theorem get?_erase (table : Numbered α) (id other : Nat) :
    (table.erase id).get? other = if other = id then none else table.get? other := by
  induction table with
  | nil => simp [erase, get?]
  | cons entry table ih =>
    obtain ⟨key, value⟩ := entry
    simp only [erase, get?] at ih ⊢
    by_cases gone : key = id
    · subst gone
      by_cases same : other = key
      · subst same
        simpa using ih
      · have skip : (other == key) = false := by simpa using same
        simpa [List.lookup_cons, skip, same] using ih
    · by_cases same : other = key
      · subst same
        simp [gone]
      · have skip : (other == key) = false := by simpa using same
        simpa [List.lookup_cons, skip, gone] using ih

/-- What has a number after a value was added. -/
theorem get?_add (table : Numbered α) (id other : Nat) (value : α) :
    (table.add id value).get? other
      = (table.get? other).or (if other = id then some value else none) := by
  unfold add get?
  rw [List.lookup_append]
  by_cases same : other = id
  · subst same
    simp
  · have skip : (other == id) = false := by simpa using same
    simp [List.lookup_cons, skip, same]

@[simp] theorem ids_add (table : Numbered α) (id : Nat) (value : α) :
    (table.add id value).ids = table.ids ++ [id] := by
  simp [add, ids]

/-- Numbers are handed out once if each one is above those in use. -/
theorem nodup_add {table : Numbered α} {next : Nat} (once : table.ids.Nodup)
    (below : ∀ id ∈ table.ids, id < next) (value : α) : (table.add next value).ids.Nodup := by
  rw [ids_add, List.nodup_append]
  refine ⟨once, by simp, ?_⟩
  rintro id among _ (_ | ⟨_, ⟨⟩⟩) rfl
  exact Nat.lt_irrefl _ (below id among)

theorem below_add {table : Numbered α} {next : Nat} (below : ∀ id ∈ table.ids, id < next)
    (value : α) : ∀ id ∈ (table.add next value).ids, id < next + 1 := by
  intro id among
  rw [ids_add] at among
  cases List.mem_append.mp among with
  | inl old => exact Nat.lt_succ_of_lt (below id old)
  | inr new => exact List.mem_singleton.mp new ▸ Nat.lt_succ_self next

theorem mem_of_get? {table : Numbered α} {id : Nat} {value : α}
    (found : table.get? id = some value) : (id, value) ∈ table := by
  obtain ⟨before, later, rfl, -⟩ := List.lookup_eq_some_iff.mp found
  exact List.mem_append_right before List.mem_cons_self

/-- A number is in use just if something has it. -/
theorem isSome_get? {table : Numbered α} {id : Nat} :
    (table.get? id).isSome = true ↔ id ∈ table.ids := by
  simp [get?, ids, List.lookup_isSome_iff]

/-- With each number in use once, an entry is what has its number. -/
theorem get?_of_mem {table : Numbered α} (once : table.ids.Nodup) {id : Nat} {value : α}
    (among : (id, value) ∈ table) : table.get? id = some value := by
  induction table with
  | nil => cases among
  | cons entry table ih =>
    obtain ⟨key, first⟩ := entry
    simp only [ids, List.map_cons, List.nodup_cons] at once
    rw [get?, List.lookup_cons]
    cases List.mem_cons.mp among with
    | inl same =>
      cases same
      rw [beq_self_eq_true]
    | inr later =>
      have other : (id == key) = false := by
        rw [beq_eq_false_iff_ne]
        rintro rfl
        exact once.1 (List.mem_map_of_mem later)
      rw [other]
      exact ih once.2 later

/-- What is found after others were forgotten was found before. -/
theorem get?_of_filter {table : Numbered α} (once : table.ids.Nodup) {keep : Nat × α → Bool}
    {id : Nat} {value : α} (found : Numbered.get? (table.filter keep) id = some value) :
    table.get? id = some value :=
  get?_of_mem once (List.mem_filter.mp (mem_of_get? found)).1

end Numbered

end CatalogReplica
