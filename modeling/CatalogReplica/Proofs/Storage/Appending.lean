import CatalogReplica.Proofs.Storage.Spots

/-!
# Fields in the order of appending

A layout is the outcome of calls of `Layout.withField`.  Every call appends one field, also when its
name is there already; the name is then found at the new field, and the room of the old one stays
taken.

* `Layout.appended?`: the field that one of the calls appends.
* `Layout.appended?_eq`: it lies at the first fitting offset behind the fields before it.
* `Layout.stop_le_of_lt`: the fields lie in the order of their calls.
* `Layout.field?_eq_appended?`: a name is found at the field of its last call.
* `Layout.columns_apart`: what this says about the columns of the layout.
-/

namespace CatalogReplica.Storage

/-! ## Rounding up -/

theorem dvd_roundUp (n unit : Nat) : unit ∣ roundUp n unit := Nat.dvd_mul_left _ _

theorem roundUp_lt (n : Nat) {unit : Nat} (some : 0 < unit) : roundUp n unit < n + unit := by
  have split := Nat.div_mul_le_self (n + (unit - 1)) unit
  unfold roundUp
  omega

/-! ## Bytes of a column -/

/-- The byte of the row belongs to the column. -/
def FieldSpot.Covers (spot : FieldSpot) (byte : Nat) : Prop := spot.offset ≤ byte ∧ byte < spot.stop

theorem FieldSpot.offset_lt_stop (spot : FieldSpot) : spot.offset < spot.stop :=
  Nat.lt_add_of_pos_right spot.type.size_pos

theorem FieldSpot.not_covers {spot spot' : FieldSpot} (apart : spot.stop ≤ spot'.offset ∨ spot'.stop ≤ spot.offset)
    {byte : Nat} (covers : spot.Covers byte) : ¬ spot'.Covers byte := by
  unfold Covers at covers ⊢
  omega

namespace Layout

variable {classOid : Oid} {calls : List (String × ColumnType)} {i j : Nat} {name : String} {spot spot' : FieldSpot}

theorem withFields_append (layout : Layout) (calls calls' : List (String × ColumnType)) :
    layout.withFields (calls ++ calls') = (layout.withFields calls).withFields calls' := List.foldl_append

theorem size_le_withFields (layout : Layout) (calls : List (String × ColumnType)) : layout.size ≤ (layout.withFields calls).size := by
  induction calls generalizing layout with
  | nil => exact Nat.le_refl _
  | cons call calls inductionHypothesis =>
    refine Nat.le_trans ?_ (inductionHypothesis (layout.withField call.1 call.2))
    exact Nat.le_trans (le_roundUp_unit layout.size call.2.align_pos) (Nat.le_add_right _ _)

/-- The layout of the calls before call `i`. -/
def upTo (classOid : Oid) (calls : List (String × ColumnType)) (i : Nat) : Layout :=
  ({ classOid } : Layout).withFields (calls.take i)

theorem upTo_length (classOid : Oid) (calls : List (String × ColumnType)) :
    upTo classOid calls calls.length = ({ classOid } : Layout).withFields calls := by
  rw [upTo, List.take_length]

theorem upTo_succ (within : i < calls.length) :
    upTo classOid calls (i + 1) = (upTo classOid calls i).withField calls[i].1 calls[i].2 := by
  rw [upTo, List.take_add_one, List.getElem?_eq_getElem within, withFields_append]
  rfl

theorem size_upTo_mono (ordered : i ≤ j) : (upTo classOid calls i).size ≤ (upTo classOid calls j).size := by
  obtain ⟨more, rfl⟩ := Nat.exists_eq_add_of_le ordered
  rw [upTo, upTo, List.take_add, withFields_append]
  exact size_le_withFields _ _

/-! ## The field of a call -/

/-- The field that call `i` appends: where its name is found right after the call. -/
def appended? (classOid : Oid) (calls : List (String × ColumnType)) (i : Nat) : Option FieldSpot :=
  match calls[i]? with
  | some (name, _) => (upTo classOid calls (i + 1)).field? name
  | none => none

theorem appended?_eq (within : i < calls.length) :
    appended? classOid calls i = some ⟨roundUp (upTo classOid calls i).size calls[i].2.align, calls[i].2⟩ := by
  rw [appended?, List.getElem?_eq_getElem within]
  change (upTo classOid calls (i + 1)).field? calls[i].1 = _
  rw [upTo_succ within, field?_withField, if_pos rfl]

theorem lt_length_of_appended? (held : appended? classOid calls i = some spot) : i < calls.length := by
  refine Nat.lt_of_not_le fun outside => ?_
  rw [appended?, List.getElem?_eq_none outside] at held
  cases held

theorem eq_of_appended? (held : appended? classOid calls i = some spot) :
    ∃ within : i < calls.length, spot = ⟨roundUp (upTo classOid calls i).size calls[i].2.align, calls[i].2⟩ := by
  have within := lt_length_of_appended? held
  rw [appended?_eq within] at held
  exact ⟨within, (Option.some.inj held).symm⟩

theorem align_dvd_appended? (held : appended? classOid calls i = some spot) : spot.type.align ∣ spot.offset := by
  obtain ⟨within, rfl⟩ := eq_of_appended? held
  exact dvd_roundUp _ _

/-- After a call, the layout ends with its field. -/
theorem stop_appended? (held : appended? classOid calls i = some spot) : spot.stop = (upTo classOid calls (i + 1)).size := by
  obtain ⟨within, rfl⟩ := eq_of_appended? held
  rw [upTo_succ within]
  rfl

theorem stop_le_of_lt (ordered : i < j) (held : appended? classOid calls i = some spot)
    (held' : appended? classOid calls j = some spot') : spot.stop ≤ spot'.offset := by
  obtain ⟨-, rfl⟩ := eq_of_appended? held'
  calc spot.stop = (upTo classOid calls (i + 1)).size := stop_appended? held
    _ ≤ (upTo classOid calls j).size := size_upTo_mono ordered
    _ ≤ roundUp (upTo classOid calls j).size calls[j].2.align := le_roundUp_unit _ (ColumnType.align_pos _)

/-- Before the next field, less than one unit of its alignment is left out. -/
theorem offset_lt_stop_add_align (held : appended? classOid calls i = some spot)
    (held' : appended? classOid calls (i + 1) = some spot') : spot'.offset < spot.stop + spot'.type.align := by
  obtain ⟨-, rfl⟩ := eq_of_appended? held'
  rw [stop_appended? held]
  exact roundUp_lt _ (ColumnType.align_pos _)

/-! ## The last call of a name -/

/-- Call `i` has the name, and no call behind it. -/
structure LastOf (calls : List (String × ColumnType)) (name : String) (i : Nat) : Prop where
  named : calls[i]?.map (·.1) = some name
  last : ∀ j, i < j → calls[j]?.map (·.1) ≠ some name

theorem LastOf.lt_length (last : LastOf calls name i) : i < calls.length := by
  refine Nat.lt_of_not_le fun outside => ?_
  have named := last.named
  rw [List.getElem?_eq_none outside] at named
  cases named

theorem LastOf.cons (call : String × ColumnType) (last : LastOf calls name i) : LastOf (call :: calls) name (i + 1) := by
  refine ⟨last.named, fun j behind => ?_⟩
  obtain ⟨j, rfl⟩ := Nat.exists_eq_add_of_lt behind
  exact last.last (i + 1 + j) (by omega)

theorem exists_lastOf (called : name ∈ calls.map (·.1)) : ∃ i, LastOf calls name i := by
  induction calls with
  | nil => cases called
  | cons call calls inductionHypothesis =>
    by_cases later : name ∈ calls.map (·.1)
    · obtain ⟨i, last⟩ := inductionHypothesis later
      exact ⟨i + 1, last.cons call⟩
    · obtain rfl := (List.mem_cons.mp called).resolve_right later
      refine ⟨0, rfl, fun j behind same => later ?_⟩
      obtain ⟨j, rfl⟩ := Nat.exists_eq_succ_of_ne_zero (Nat.ne_of_gt behind)
      rw [List.getElem?_cons_succ, ← List.getElem?_map] at same
      exact List.mem_of_getElem? same

theorem LastOf.not_mem_drop (last : LastOf calls name i) : name ∉ (calls.drop (i + 1)).map (·.1) := by
  intro among
  obtain ⟨j, at'⟩ := List.mem_iff_getElem?.mp among
  rw [List.getElem?_map, List.getElem?_drop] at at'
  exact last.last (i + 1 + j) (by omega) at'

/-- A name is found at the field of its last call. -/
theorem field?_eq_appended? (last : LastOf calls name i) :
    (({ classOid } : Layout).withFields calls).field? name = appended? classOid calls i := by
  have within := last.lt_length
  have named := last.named
  rw [List.getElem?_eq_getElem within] at named
  have split : ({ classOid } : Layout).withFields calls = (upTo classOid calls (i + 1)).withFields (calls.drop (i + 1)) := by
    rw [upTo, ← withFields_append, List.take_append_drop]
  rw [split, field?_withFields_of_not_mem last.not_mem_drop, appended?, List.getElem?_eq_getElem within, ← Option.some.inj named]

theorem called_of_field? (found : (({ classOid } : Layout).withFields calls).field? name = some spot) :
    name ∈ calls.map (·.1) := by
  have declared := declared_of_field? found
  exact List.mem_map_of_mem declared

theorem field_eq_ok {layout : Layout} : layout.field name = .ok spot ↔ layout.field? name = some spot := by
  unfold field
  cases layout.field? name with
  | none => simp
  | some spot => simp

/-- Where the calls of `Layout.withField` put their fields, whatever names they repeat.  A layout answers just the
    names of its calls, each with the field of its last call; the columns are aligned, end inside the row and share
    no byte.  The fields of all calls, the replaced ones among them, lie in the order of the calls, each as soon
    behind the one before it as its alignment allows. -/
theorem columns_apart (classOid : Oid) (calls : List (String × ColumnType)) :
    let layout := ({ classOid } : Layout).withFields calls
    (∀ name, (∃ spot, layout.field name = .ok spot) ↔ name ∈ calls.map (·.1))
    ∧ (∀ name spot, layout.field name = .ok spot →
        spot.type.align ∣ spot.offset ∧ spot.stop ≤ layout.size
        ∧ (∀ other spot', other ≠ name → layout.field other = .ok spot' → ∀ byte, spot.Covers byte → ¬ spot'.Covers byte)
        ∧ ∃ i, LastOf calls name i ∧ appended? classOid calls i = some spot)
    ∧ (∀ i (within : i < calls.length), ∃ spot, appended? classOid calls i = some spot ∧ spot.type = calls[i].2
        ∧ (i = 0 → spot.offset = 0) ∧ spot.stop ≤ layout.size)
    ∧ (∀ i j spot spot', i < j → appended? classOid calls i = some spot → appended? classOid calls j = some spot' →
        spot.offset < spot'.offset ∧ spot.stop ≤ spot'.offset ∧ (j = i + 1 → spot'.offset - spot.stop < spot'.type.align)) := by
  intro layout
  have answers : ∀ {name spot}, layout.field name = .ok spot →
      ∃ i, LastOf calls name i ∧ appended? classOid calls i = some spot := by
    intro name spot found
    rw [field_eq_ok] at found
    obtain ⟨i, last⟩ := exists_lastOf (called_of_field? found)
    exact ⟨i, last, (field?_eq_appended? last).symm.trans found⟩
  have ends : ∀ {i spot}, appended? classOid calls i = some spot → spot.stop ≤ layout.size := by
    intro i spot held
    calc spot.stop = (upTo classOid calls (i + 1)).size := stop_appended? held
      _ ≤ (upTo classOid calls calls.length).size := size_upTo_mono (lt_length_of_appended? held)
      _ = layout.size := congrArg Layout.size (upTo_length classOid calls)
  refine ⟨fun name => ⟨?_, ?_⟩, fun name spot found => ?_, fun i within => ?_, fun i j spot spot' ordered held held' => ?_⟩
  · rintro ⟨spot, found⟩
    exact called_of_field? (field_eq_ok.mp found)
  · intro called
    obtain ⟨i, last⟩ := exists_lastOf called
    exact ⟨_, field_eq_ok.mpr ((field?_eq_appended? last).trans (appended?_eq last.lt_length))⟩
  · obtain ⟨i, last, held⟩ := answers found
    refine ⟨align_dvd_appended? held, ends held, fun other spot' differs found' byte => ?_, i, last, held⟩
    exact FieldSpot.not_covers (field?_apart ((tiled_blank classOid).withFields calls) differs.symm (field_eq_ok.mp found)
      (field_eq_ok.mp found'))
  · refine ⟨_, appended?_eq within, rfl, ?_, ends (appended?_eq within)⟩
    rintro rfl
    change roundUp 0 calls[0].2.align = 0
    have low := roundUp_lt 0 calls[0].2.align_pos
    rw [Nat.zero_add] at low
    exact Nat.eq_zero_of_dvd_of_lt (dvd_roundUp _ _) low
  · have apart := stop_le_of_lt ordered held held'
    refine ⟨Nat.lt_of_lt_of_le spot.offset_lt_stop apart, apart, ?_⟩
    rintro rfl
    have close := offset_lt_stop_add_align held held'
    omega

/-- The second `a` takes the name over and leaves three bytes of padding behind the first one. -/
theorem columns_apart_repeated_name :
    let calls := [("a", .char), ("a", .oid), ("b", .name), ("c", .i16)]
    let layout := ({ classOid := ⟨9⟩ } : Layout).withFields calls
    layout.field "a" = .ok ⟨4, .oid⟩ ∧ layout.field "b" = .ok ⟨8, .name⟩
      ∧ appended? ⟨9⟩ calls 0 = some ⟨0, .char⟩ ∧ appended? ⟨9⟩ calls 1 = some ⟨4, .oid⟩
      ∧ (∃ i, LastOf calls "a" i ∧ appended? ⟨9⟩ calls i = some ⟨4, .oid⟩)
      ∧ (∀ byte, FieldSpot.Covers ⟨4, .oid⟩ byte → ¬ FieldSpot.Covers ⟨8, .name⟩ byte)
      ∧ 4 - (FieldSpot.mk 0 .char).stop < ColumnType.align .oid := by
  intro calls layout
  obtain ⟨-, columns, -, order⟩ := columns_apart ⟨9⟩ calls
  have a : layout.field "a" = .ok ⟨4, .oid⟩ := field_eq_ok.mpr (by decide +kernel)
  have b : layout.field "b" = .ok ⟨8, .name⟩ := field_eq_ok.mpr (by decide +kernel)
  have first : appended? ⟨9⟩ calls 0 = some ⟨0, .char⟩ := by decide +kernel
  have second : appended? ⟨9⟩ calls 1 = some ⟨4, .oid⟩ := by decide +kernel
  obtain ⟨-, -, apart, last⟩ := columns "a" _ a
  exact ⟨a, b, first, second, last, apart "b" _ (by decide) b, (order 0 1 _ _ Nat.one_pos first second).2.2 rfl⟩

end Layout

end CatalogReplica.Storage
