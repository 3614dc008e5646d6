import Mathlib.Data.List.Pairwise
import CatalogReplica.Storage.Layout

/-!
# Where columns lie

Fields are appended one behind the other, so the spots of two names share no byte, and no spot
reaches beyond the row.

* `FieldSpot.stop`: the offset behind a column.
* `Layout.Tiled`: every field starts where the ones before it have ended.
* `Layout.field?_apart`: columns of different names share no byte.
* `Layout.field?_withFields`: with distinct names, every field is found as it was declared.
-/

namespace CatalogReplica.Storage

namespace ColumnType

theorem size_pos (type : ColumnType) : 0 < type.size := by
  cases type <;> decide

theorem align_pos (type : ColumnType) : 0 < type.align := by
  cases type <;> decide

end ColumnType

theorem le_roundUp_unit (n : Nat) {unit : Nat} (some : 0 < unit) : n ≤ roundUp n unit := by
  have split := Nat.div_add_mod (n + (unit - 1)) unit
  have rest := Nat.mod_lt (n + (unit - 1)) some
  rw [Nat.mul_comm] at split
  unfold roundUp
  omega

/-- The offset behind the column. -/
def FieldSpot.stop (spot : FieldSpot) : Nat := spot.offset + spot.type.size

namespace Layout

variable {layout : Layout} {name other : String} {type : ColumnType} {spot spot' : FieldSpot}

/-- Every field starts where the ones before it have ended, and ends inside the row. -/
structure Tiled (layout : Layout) : Prop where
  ordered : layout.fields.Pairwise fun later earlier => earlier.2.stop ≤ later.2.offset
  inside : ∀ field ∈ layout.fields, field.2.stop ≤ layout.size

theorem tiled_blank (classOid : Oid) : ({ classOid } : Layout).Tiled := ⟨.nil, fun _ among => nomatch among⟩

theorem Tiled.withField (tiled : layout.Tiled) (name : String) (type : ColumnType) : (layout.withField name type).Tiled := by
  have after : layout.size ≤ roundUp layout.size type.align := le_roundUp_unit layout.size type.align_pos
  constructor
  · refine List.pairwise_cons.mpr ⟨fun field among => ?_, tiled.ordered⟩
    exact Nat.le_trans (tiled.inside field among) after
  · intro field among
    cases List.mem_cons.mp among with
    | inl new =>
      subst new
      exact Nat.le_refl _
    | inr old =>
      have within := tiled.inside field old
      change field.2.stop ≤ roundUp layout.size type.align + type.size
      omega

theorem Tiled.withFields (tiled : layout.Tiled) (fields : List (String × ColumnType)) : (layout.withFields fields).Tiled := by
  induction fields generalizing layout with
  | nil => exact tiled
  | cons field fields inductionHypothesis => exact inductionHypothesis (tiled.withField field.1 field.2)

/-! ## Columns -/

theorem mem_of_field? (found : layout.field? name = some spot) : (name, spot) ∈ layout.fields := by
  obtain ⟨before, rest, split, -⟩ := List.lookup_eq_some_iff.mp found
  rw [split]
  exact List.mem_append_right before List.mem_cons_self

theorem field?_inside (tiled : layout.Tiled) (found : layout.field? name = some spot) : spot.stop ≤ layout.size :=
  tiled.inside _ (mem_of_field? found)

/-- Columns of different names share no byte. -/
theorem field?_apart (tiled : layout.Tiled) (differs : name ≠ other) (found : layout.field? name = some spot)
    (found' : layout.field? other = some spot') : spot.stop ≤ spot'.offset ∨ spot'.stop ≤ spot.offset := by
  have apart : layout.fields.Pairwise fun one two =>
      one.2.stop ≤ two.2.offset ∨ two.2.stop ≤ one.2.offset := tiled.ordered.imp Or.inr
  have : Std.Symm fun one two : String × FieldSpot => one.2.stop ≤ two.2.offset ∨ two.2.stop ≤ one.2.offset :=
    ⟨fun _ _ => Or.symm⟩
  exact apart.forall (mem_of_field? found) (mem_of_field? found') fun same => differs (congrArg Prod.fst same)

theorem field?_withField (layout : Layout) (name other : String) (type : ColumnType) :
    (layout.withField name type).field? other
      = if other = name then some ⟨roundUp layout.size type.align, type⟩ else layout.field? other := by
  unfold field? withField
  by_cases same : other = name
  · subst same
    simp
  · have skip : (other == name) = false := by simpa using same
    simp [List.lookup_cons, skip, same]

/-- A field that is appended under another name leaves a column where it is. -/
theorem field?_withFields_of_not_mem {fields : List (String × ColumnType)} (absent : name ∉ fields.map (·.1)) :
    (layout.withFields fields).field? name = layout.field? name := by
  induction fields generalizing layout with
  | nil => rfl
  | cons field fields inductionHypothesis =>
    rw [List.map_cons, List.mem_cons, not_or] at absent
    change ((layout.withField field.1 field.2).withFields fields).field? name = _
    rw [inductionHypothesis absent.2, field?_withField, if_neg absent.1]

/-- With distinct names, every field is found as it was declared. -/
theorem field?_withFields {fields : List (String × ColumnType)} (distinct : (fields.map (·.1)).Nodup)
    (declared : (name, type) ∈ fields) : ∃ spot, (layout.withFields fields).field? name = some spot ∧ spot.type = type := by
  induction fields generalizing layout with
  | nil => cases declared
  | cons field fields inductionHypothesis =>
    obtain ⟨fresh, distinct⟩ := List.nodup_cons.mp distinct
    change ∃ spot, ((layout.withField field.1 field.2).withFields fields).field? name = some spot ∧ spot.type = type
    cases List.mem_cons.mp declared with
    | inl new =>
      subst new
      refine ⟨⟨roundUp layout.size type.align, type⟩, ?_, rfl⟩
      rw [field?_withFields_of_not_mem fresh, field?_withField, if_pos rfl]
    | inr later => exact inductionHypothesis distinct later

/-- What is found was appended, or was there before. -/
theorem field?_withFields_cases {fields : List (String × ColumnType)}
    (found : (layout.withFields fields).field? name = some spot) :
    (name, spot.type) ∈ fields ∨ layout.field? name = some spot := by
  induction fields generalizing layout with
  | nil => exact .inr found
  | cons field fields inductionHypothesis =>
    have found : ((layout.withField field.1 field.2).withFields fields).field? name = some spot := found
    obtain later | before := inductionHypothesis found
    · exact .inl (List.mem_cons_of_mem _ later)
    · rw [field?_withField] at before
      split at before
      next same =>
        cases before
        subst same
        exact .inl List.mem_cons_self
      next => exact .inr before

theorem declared_of_field? {classOid : Oid} {fields : List (String × ColumnType)}
    (found : (({ classOid } : Layout).withFields fields).field? name = some spot) : (name, spot.type) ∈ fields :=
  (field?_withFields_cases found).resolve_right (by rintro ⟨⟩)

end Layout

end CatalogReplica.Storage
