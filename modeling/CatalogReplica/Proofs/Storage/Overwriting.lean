import Mathlib.Data.List.Induction
import CatalogReplica.Proofs.Storage.RoundTrip
import CatalogReplica.Proofs.Storage.Windows

/-!
# Writing over what was written

A write puts the bytes of its value over those of the column and leaves the bytes behind them.
Only a name may be shorter than its column, so only of a longer name something is left.

* `layered`: what shows of a column after a write.
* `Draft.writeAll_shows`: the columns of a row after a sequence of writes.
* `Draft.shown_blank`: names written over each other reach as far as the longest of them.
* `Row.last_write_exact`: a write replaces the ones before it if none of them reaches further.
-/

namespace CatalogReplica.Storage

/-- How many bytes of its column the value is put over. -/
def ColumnValue.extent : ColumnValue → Nat
  | name value => ((bytesOfText value).take (ColumnType.nameLength - 1)).length
  | value => value.type.size

theorem Draft.length_encode_eq (memory : Memory) (value : ColumnValue) : (encode memory value).1.length = value.extent := by
  cases value with
  | text value => cases value <;> exact length_bytesOfNat 8 _
  | i16 | i32 | oid | oidList => exact length_bytesOfNat _ _
  | bool | char | name => rfl

theorem ColumnValue.extent_le (value : ColumnValue) : value.extent ≤ value.type.size := by
  rw [← Draft.length_encode_eq {} value]
  exact Draft.length_encode {} value

theorem ColumnValue.extent_eq {value : ColumnValue} (whole : value.type ≠ .name) : value.extent = value.type.size := by
  cases value with
  | name => exact absurd rfl whole
  | _ => rfl

/-! ## Writing over bytes -/

/-- The bytes of a column after a value was put over them. -/
def layered (under value : List UInt8) : List UInt8 := value ++ under.drop value.length

section

variable {bytes under first second live value : List UInt8} {offset width : Nat}

/-- The second value replaces the first one just if what the first one leaves behind it was there before. -/
theorem overwrite_overwrite_iff (room : offset + first.length ≤ bytes.length) :
    overwrite (overwrite bytes offset first) offset second = overwrite bytes offset second
      ↔ first.drop second.length = (stretch bytes offset first.length).drop second.length := by
  have front : (bytes.take offset).length = offset := List.length_take_of_le (by omega)
  -- Both sides start alike; what is left to compare lies behind the second value.
  have before : (overwrite bytes offset first).take offset = bytes.take offset := by
    unfold overwrite
    rw [List.append_assoc, List.take_left' front]
  have behind : (overwrite bytes offset first).drop (offset + second.length)
      = first.drop second.length ++ bytes.drop (offset + max first.length second.length) := by
    have skip : first.length + (second.length - first.length) = max first.length second.length := by omega
    unfold overwrite
    rw [List.append_assoc, List.drop_append, List.drop_eq_nil_of_le (by omega), front, List.nil_append,
      Nat.add_sub_cancel_left, List.drop_append, List.drop_drop, Nat.add_assoc, skip]
  have there : bytes.drop (offset + second.length)
      = (stretch bytes offset first.length).drop second.length ++ bytes.drop (offset + max first.length second.length) := by
    have skip : second.length + (first.length - second.length) = max first.length second.length := by omega
    have split := List.take_append_drop (first.length - second.length) (bytes.drop (offset + second.length))
    rw [List.drop_drop, Nat.add_assoc, skip] at split
    rw [stretch, List.drop_take, List.drop_drop, split]
  unfold overwrite at before behind ⊢
  rw [before, behind, there, List.append_cancel_left_eq, List.append_cancel_right_eq]

theorem length_layered (under value : List UInt8) : (layered under value).length = max under.length value.length := by
  simp [layered]
  omega

theorem zero_not_mem_layered (solid : 0 ∉ under) (clean : 0 ∉ value) : 0 ∉ layered under value := by
  simp only [layered, List.mem_append, not_or]
  exact ⟨clean, fun zero => solid (List.mem_of_mem_drop zero)⟩

/-- A value that is put over another one with zeros behind it shows with the rest of the other one. -/
theorem layered_padded (short : value.length ≤ width) (within : live.length ≤ width) :
    layered (padded live width) value = padded (layered live value) width := by
  have left : width - live.length - (value.length - live.length) = width - (value.length + (live.length - value.length)) := by
    omega
  simp only [layered, padded, List.drop_append, List.drop_replicate, List.append_assoc, List.length_append,
    List.length_drop, left]

theorem layered_eq_self : layered live value = value ↔ live.length ≤ value.length := by
  simp [layered]

/-- With zeros behind it, a text shows as far as it goes. -/
theorem takeWhile_padded (clean : 0 ∉ live) (within : live.length < width) :
    (padded live width).takeWhile (· != 0) = live := by
  obtain ⟨more, rest⟩ := Nat.exists_eq_add_of_lt within
  have filled : width - live.length = more + 1 := by omega
  rw [padded, filled, List.replicate_succ]
  exact takeWhile_terminated clean _

theorem padded_inj (clean : 0 ∉ live) (clean' : 0 ∉ value) (within : live.length < width) (within' : value.length < width) :
    padded live width = padded value width ↔ live = value := by
  constructor
  · intro same
    rw [← takeWhile_padded clean within, same, takeWhile_padded clean' within']
  · intro same
    rw [same]

end

namespace Draft

variable {draft : Draft} {layout : Layout} {memory : Memory} {columns before others : List (String × ColumnValue)}
  {column : String} {spot : FieldSpot} {value : ColumnValue} {under : List UInt8}

/-! ## A sequence of writes -/

/-- The bytes that each value is turned into, and the memory with what lies outside of them. -/
def encodeAll (memory : Memory) : List (String × ColumnValue) → List (String × List UInt8) × Memory
  | [] => ([], memory)
  | (column, value) :: columns =>
      let rest := encodeAll (encode memory value).2 columns
      ((column, (encode memory value).1) :: rest.1, rest.2)

/-- What shows of a column after bytes were written to columns in order. -/
def shown (column : String) : List UInt8 → List (String × List UInt8) → List UInt8
  | under, [] => under
  | under, (name, bytes) :: written => shown column (if name = column then layered under bytes else under) written

theorem encodeAll_append (memory : Memory) (before others : List (String × ColumnValue)) :
    encodeAll memory (before ++ others)
      = ((encodeAll memory before).1 ++ (encodeAll (encodeAll memory before).2 others).1,
          (encodeAll (encodeAll memory before).2 others).2) := by
  induction before generalizing memory with
  | nil => rfl
  | cons first before inductionHypothesis => simp [encodeAll, inductionHypothesis]

theorem encodeAll_grows (memory : Memory) (columns : List (String × ColumnValue)) :
    memory.Grows (encodeAll memory columns).2 := by
  induction columns generalizing memory with
  | nil => exact .refl memory
  | cons first columns inductionHypothesis => exact (encode_grows memory first.2).trans (inductionHypothesis _)

theorem encodeAll_sound (sound : memory.Sound) (columns : List (String × ColumnValue)) :
    (encodeAll memory columns).2.Sound := by
  induction columns generalizing memory with
  | nil => exact sound
  | cons first columns inductionHypothesis => exact inductionHypothesis (encode_sound sound first.2)

theorem mem_encodeAll {entry : String × List UInt8} (among : entry ∈ (encodeAll memory columns).1) :
    ∃ value at', (entry.1, value) ∈ columns ∧ entry.2 = (encode at' value).1 := by
  induction columns generalizing memory with
  | nil => cases among
  | cons first columns inductionHypothesis =>
    cases List.mem_cons.mp among with
    | inl new => exact ⟨first.2, memory, by simp [new], by rw [new]⟩
    | inr later =>
      obtain ⟨value, at', among, bytes⟩ := inductionHypothesis later
      exact ⟨value, at', List.mem_cons_of_mem _ among, bytes⟩

theorem encodeAll_of_mem (memory : Memory) (among : (column, value) ∈ columns) :
    ∃ bytes, (column, bytes) ∈ (encodeAll memory columns).1 ∧ bytes.length = value.extent := by
  induction columns generalizing memory with
  | nil => cases among
  | cons first columns inductionHypothesis =>
    cases List.mem_cons.mp among with
    | inl new =>
      subst new
      exact ⟨_, List.mem_cons_self, length_encode_eq memory value⟩
    | inr later =>
      obtain ⟨bytes, among, length⟩ := inductionHypothesis _ later
      exact ⟨bytes, List.mem_cons_of_mem _ among, length⟩

theorem shown_append (under : List UInt8) (written later : List (String × List UInt8)) :
    shown column under (written ++ later) = shown column (shown column under written) later := by
  induction written generalizing under with
  | nil => rfl
  | cons first written inductionHypothesis => exact inductionHypothesis _

theorem length_shown {written : List (String × List UInt8)}
    (short : ∀ bytes, (column, bytes) ∈ written → bytes.length ≤ under.length) :
    (shown column under written).length = under.length := by
  induction written generalizing under with
  | nil => rfl
  | cons first written inductionHypothesis =>
    obtain ⟨name, bytes⟩ := first
    have rest : ∀ bytes, (column, bytes) ∈ written → bytes.length ≤ under.length := fun bytes among =>
      short bytes (List.mem_cons_of_mem _ among)
    rw [shown]
    split
    next one =>
      subst one
      have same : (layered under bytes).length = under.length :=
        (length_layered under bytes).trans (Nat.max_eq_left (short bytes List.mem_cons_self))
      rw [inductionHypothesis (same.symm ▸ rest), same]
    next => exact inductionHypothesis rest

theorem shown_of_not_mem {written : List (String × List UInt8)} (absent : column ∉ written.map (·.1)) :
    shown column under written = under := by
  induction written with
  | nil => rfl
  | cons first written inductionHypothesis =>
    rw [List.map_cons, List.mem_cons, not_or] at absent
    rw [shown, if_neg (Ne.symm absent.1), inductionHypothesis absent.2]

/-- The column of a write shows its value with what was there behind it, and the other columns stay. -/
theorem write_shows (tiled : layout.Tiled) (same : draft.layout = layout) (whole : draft.bytes.length = layout.size)
    (found : layout.field? column = some spot) (fitting : spot.type = value.type) (memory : Memory) :
    ∃ next, draft.write column value memory = .ok next (encode memory value).2
      ∧ next.layout = layout ∧ next.bytes.length = layout.size
      ∧ ∀ name spot', layout.field? name = some spot' →
        stretch next.bytes spot'.offset spot'.type.size
          = shown name (stretch draft.bytes spot'.offset spot'.type.size) [(column, (encode memory value).1)] := by
  have inside := Layout.field?_inside tiled found
  have short := length_encode memory value
  rw [FieldSpot.stop, fitting] at inside
  have room : spot.offset + (encode memory value).1.length ≤ draft.bytes.length := by omega
  refine ⟨_, write_ok (same ▸ found) fitting memory, same, (length_overwrite room).trans whole, fun name spot' found' => ?_⟩
  by_cases one : column = name
  · subst one
    cases found.symm.trans found'
    simp only [shown, if_true]
    exact stretch_overwrite room (fitting ▸ short)
  · have apart := Layout.field?_apart tiled (Ne.symm one) found' found
    simp only [FieldSpot.stop, fitting] at apart
    simp only [shown, if_neg one]
    exact stretch_overwrite_apart room (by omega)

/-- After a sequence of writes every column shows what was written to it, layer by layer. -/
theorem writeAll_shows (draft : Draft) (tiled : layout.Tiled) (same : draft.layout = layout) (whole : draft.bytes.length = layout.size)
    (fitting : ∀ column ∈ columns, ∃ spot, layout.field? column.1 = some spot ∧ spot.type = column.2.type) (memory : Memory) :
    ∃ next, draft.writeAll columns memory = .ok next (encodeAll memory columns).2
      ∧ next.layout = layout ∧ next.bytes.length = layout.size
      ∧ ∀ name spot, layout.field? name = some spot →
        stretch next.bytes spot.offset spot.type.size
          = shown name (stretch draft.bytes spot.offset spot.type.size) (encodeAll memory columns).1 := by
  induction columns generalizing draft memory with
  | nil => exact ⟨draft, rfl, same, whole, fun _ _ _ => rfl⟩
  | cons first rest inductionHypothesis =>
    obtain ⟨spot, found, fits⟩ := fitting first List.mem_cons_self
    obtain ⟨mid, wrote, same, whole, shows⟩ := write_shows tiled same whole found fits memory
    obtain ⟨next, others, same, whole, shows'⟩ := inductionHypothesis mid same whole
      (fun other among => fitting other (List.mem_cons_of_mem _ among)) (encode memory first.2).2
    refine ⟨next, ?_, same, whole, fun name spot found => ?_⟩
    · rw [writeAll, Task.bind_ok wrote, others]
      rfl
    · rw [shows' name spot found, shows name spot found]
      rfl

/-! ## Names -/

/-- Over zeros, values without zero bytes show as far as the longest of them reaches, and zeros behind it. -/
theorem shown_blank (width : Nat) {written : List (String × List UInt8)}
    (clean : ∀ bytes, (column, bytes) ∈ written → 0 ∉ bytes ∧ bytes.length ≤ width) :
    ∃ live, shown column (List.replicate width 0) written = padded live width ∧ 0 ∉ live
      ∧ ∀ n, live.length ≤ n ↔ ∀ bytes, (column, bytes) ∈ written → bytes.length ≤ n := by
  -- The writes are taken from the last one, since each is put over what the ones before it leave.
  induction written using List.reverseRecOn with
  | nil => exact ⟨[], by simp [shown, padded], by simp, by simp⟩
  | append_singleton written last inductionHypothesis =>
    obtain ⟨name, bytes⟩ := last
    obtain ⟨live, shows, solid, reach⟩ := inductionHypothesis fun bytes among =>
      clean bytes (List.mem_append_left _ among)
    rw [shown_append, shows]
    by_cases one : name = column
    · subst one
      obtain ⟨nonzero, fits⟩ := clean bytes (by simp)
      have within : live.length ≤ width := (reach width).mpr fun bytes among => (clean bytes (List.mem_append_left _ among)).2
      refine ⟨layered live bytes, ?_, ?_, fun n => ?_⟩
      · simp only [shown, if_true]
        exact layered_padded fits within
      · exact zero_not_mem_layered solid nonzero
      · rw [length_layered, Nat.max_le, reach n]
        simp only [List.mem_append, List.mem_singleton, Prod.mk.injEq, true_and, or_imp, forall_and, forall_eq]
    · have skip : ∀ bytes', (column, bytes') ≠ (name, bytes) := fun _ same => one (congrArg Prod.fst same).symm
      refine ⟨live, by simp only [shown, if_neg one], solid, fun n => ?_⟩
      rw [reach n]
      simp [skip]

end Draft

/-- A column shows the value on top of what the values before it left: it is read as that value, and holds zeros
    behind it, just if none of them reaches further. -/
theorem Row.Cell.readBy_name_iff {row : Row} {column value : String} {live : List UInt8} (clean : '\x00' ∉ value.toList)
    (solid : 0 ∉ live) (within : live.length < ColumnType.nameLength)
    (cell : row.Cell column .name
      (padded (layered live ((bytesOfText value).take (ColumnType.nameLength - 1))) ColumnType.nameLength)) :
    (ColumnValue.name value).ReadBy (row.get .name column) ↔ live.length ≤ (ColumnValue.name value).extent := by
  obtain ⟨kept, cut⟩ : ∃ kept, (bytesOfText value).take (ColumnType.nameLength - 1) = kept := ⟨_, rfl⟩
  have extent : (ColumnValue.name value).extent = kept.length := congrArg List.length cut
  rw [cut] at cell
  have keptSolid : 0 ∉ kept := fun zero => zero_not_mem_bytesOfText clean (List.mem_of_mem_take (cut ▸ zero))
  have keptShort : kept.length ≤ ColumnType.nameLength - 1 := cut ▸ List.length_take_le _ _
  have layeredShort : (layered live kept).length < ColumnType.nameLength := by
    rw [length_layered]
    omega
  rw [extent, ← layered_eq_self]
  constructor
  · intro reads
    have got := cell.get_name
    rw [takeWhile_padded (zero_not_mem_layered solid keptSolid) layeredShort] at got
    cases decoded : textOfBytes? kept with
    | some text =>
      simp only [ColumnValue.ReadBy, ColumnValue.kept?, cut, decoded, Option.map_some] at reads
      obtain ⟨shown, decodes, got⟩ | ⟨-, fault, got, -⟩ := got
      · cases reads.symm.trans got
        rw [← bytesOfText_textOfBytes? decodes, bytesOfText_textOfBytes? decoded]
      · cases reads.symm.trans got
    | none =>
      -- Only a name that was cut can be torn, and nothing reaches further than that.
      have torn : ColumnType.nameLength - 1 < (bytesOfText value).length := by
        apply Nat.lt_of_not_le
        intro short
        rw [← cut, List.take_of_length_le short, textOfBytes?_bytesOfText] at decoded
        cases decoded
      rw [layered_eq_self, ← cut, List.length_take]
      omega
  · intro alike
    rw [alike, ← cut] at cell
    exact cell.readBy_name clean

namespace Draft

/-- No value that was written to the column before reaches further than this one. -/
def Covers (column : String) (value : ColumnValue) (before : List (String × ColumnValue)) : Prop :=
  ∀ other, (column, other) ∈ before → other.extent ≤ value.extent

variable {memory : Memory} {columns before others : List (String × ColumnValue)} {column : String} {value : ColumnValue}

theorem covers_iff : Covers column value before
    ↔ ∀ bytes, (column, bytes) ∈ (encodeAll memory before).1 → bytes.length ≤ value.extent := by
  constructor
  · intro covers bytes among
    obtain ⟨other, at', among, encoded⟩ := mem_encodeAll among
    have encoded : bytes = (encode at' other).1 := encoded
    rw [encoded, length_encode_eq]
    exact covers other among
  · intro short other among
    obtain ⟨bytes, among, length⟩ := encodeAll_of_mem memory among
    exact length ▸ short bytes among

/-- What a column shows that was written last in the middle of the sequence. -/
theorem shown_last (under : List UInt8) (absent : column ∉ others.map (·.1)) :
    shown column under (encodeAll memory (before ++ (column, value) :: others)).1
      = layered (shown column under (encodeAll memory before).1) (encode (encodeAll memory before).2 value).1 := by
  have untouched : column ∉ (encodeAll (encode (encodeAll memory before).2 value).2 others).1.map (·.1) := by
    intro among
    obtain ⟨entry, among, same⟩ := List.mem_map.mp among
    obtain ⟨other, -, among, -⟩ := mem_encodeAll among
    exact absent (List.mem_map.mpr ⟨_, among, same⟩)
  rw [encodeAll_append, encodeAll, shown_append, shown, if_pos rfl, shown_of_not_mem untouched]

/-- The bytes of a column whose type has one width are those of the value that was written last. -/
theorem layered_whole {under : List UInt8} (whole : value.type ≠ .name) (length : under.length = value.type.size)
    (memory : Memory) :
    layered under (encode memory value).1 = padded (encode memory value).1 value.type.size := by
  have full : (encode memory value).1.length = value.type.size :=
    (length_encode_eq memory value).trans (ColumnValue.extent_eq whole)
  rw [padded_of_length full, layered, List.drop_eq_nil_of_le (by omega), List.append_nil]

/-- Names that were written to one column show up to the end of the longest of them. -/
theorem shown_names (memory : Memory) (before : List (String × ColumnValue))
    (name : ∀ other, (column, other) ∈ before → other.type = .name ∧ other.Storable) :
    ∃ live, shown column (List.replicate ColumnType.nameLength 0) (encodeAll memory before).1 = padded live ColumnType.nameLength
      ∧ 0 ∉ live ∧ live.length < ColumnType.nameLength
      ∧ ∀ value, live.length ≤ value.extent ↔ Covers column value before := by
  have clean : ∀ bytes, (column, bytes) ∈ (encodeAll memory before).1 → 0 ∉ bytes ∧ bytes.length ≤ ColumnType.nameLength - 1 := by
    intro bytes among
    obtain ⟨other, at', among, encoded⟩ := mem_encodeAll among
    have ⟨named, storable⟩ := name other among
    cases other with
    | name text =>
      have encoded : bytes = (bytesOfText text).take (ColumnType.nameLength - 1) := encoded
      rw [encoded]
      exact ⟨fun zero => zero_not_mem_bytesOfText storable (List.mem_of_mem_take zero), List.length_take_le _ _⟩
    | _ => cases named
  obtain ⟨live, shows, solid, reach⟩ := shown_blank ColumnType.nameLength fun bytes among =>
    ⟨(clean bytes among).1, Nat.le_trans (clean bytes among).2 (Nat.sub_le _ _)⟩
  have within := (reach (ColumnType.nameLength - 1)).mpr fun bytes among => (clean bytes among).2
  exact ⟨live, shows, solid, Nat.lt_of_le_of_lt within (by decide), fun value => (reach _).trans covers_iff.symm⟩

/-- A second write of a column replaces the first one just if what that leaves behind it was there before. -/
theorem write_write_iff {draft : Draft} {spot : FieldSpot} {first second : ColumnValue}
    (room : spot.offset + first.type.size ≤ draft.bytes.length) (found : draft.layout.field? column = some spot)
    (fits : spot.type = second.type) (memory : Memory) :
    draft.write column second (encode memory first).2
        = .ok ⟨draft.layout, overwrite (overwrite draft.bytes spot.offset (encode memory first).1) spot.offset
            (encode (encode memory first).2 second).1⟩ (encode (encode memory first).2 second).2
      ↔ (encode memory first).1.drop second.extent = (stretch draft.bytes spot.offset first.extent).drop second.extent := by
  have short := length_encode memory first
  rw [write_ok found fits _, ← length_encode_eq memory first, ← length_encode_eq (encode memory first).2 second,
    ← overwrite_overwrite_iff (by omega)]
  simp [eq_comm]

end Draft

section

variable {row : Row} {memory : Memory} {before : List (String × ColumnValue)} {column : String} {value : ColumnValue}

/-- A column that values were written to, the given one last, holds it and is read as it just if the ones before
    it do not reach further. -/
theorem Row.Cell.last_exact (sound : memory.Sound) (low : 0 < memory.next)
    (storable : ∀ other, (column, other) ∈ before ++ [(column, value)] → other.Storable ∧ other.type = value.type)
    (grows : (Draft.encodeAll memory (before ++ [(column, value)])).2.Grows row.memory) (room : row.memory.next ≤ UInt64.size)
    (cell : row.Cell column value.type (layered
      (Draft.shown column (List.replicate value.type.size 0) (Draft.encodeAll memory before).1)
      (Draft.encode (Draft.encodeAll memory before).2 value).1)) :
    (layered (Draft.shown column (List.replicate value.type.size 0) (Draft.encodeAll memory before).1)
          (Draft.encode (Draft.encodeAll memory before).2 value).1
        = padded (Draft.encode (Draft.encodeAll memory before).2 value).1 value.type.size ↔ Draft.Covers column value before)
      ∧ (value.ReadBy (row.get value.type column) ↔ Draft.Covers column value before)
      ∧ (value.type ≠ .name → Draft.Covers column value before) := by
  have fitting : ∀ other, (column, other) ∈ before → other.Storable ∧ other.type = value.type := fun other among =>
    storable other (List.mem_append_left _ among)
  have clean := (storable value (by simp)).1
  -- Only names vary in length; every other type overwrites the whole of its place.
  by_cases whole : value.type = .name
  · cases value with
    | name text =>
      obtain ⟨live, shows, solid, within, reach⟩ := Draft.shown_names memory before fun other among =>
        ⟨(fitting other among).2, (fitting other among).1⟩
      have short : ((bytesOfText text).take (ColumnType.nameLength - 1)).length < ColumnType.nameLength :=
        Nat.lt_of_le_of_lt (List.length_take_le _ _) (by decide)
      have clean' : 0 ∉ (bytesOfText text).take (ColumnType.nameLength - 1) := fun zero =>
        zero_not_mem_bytesOfText clean (List.mem_of_mem_take zero)
      have bytes := layered_padded (Nat.le_of_lt short) (Nat.le_of_lt within)
      simp only [ColumnValue.type, ColumnType.size, Draft.encode] at cell ⊢
      rw [shows, bytes] at cell
      have padding := padded_inj (zero_not_mem_layered solid clean') clean'
        (length_layered _ _ ▸ Nat.max_lt.mpr ⟨within, short⟩) short
      rw [shows, bytes, cell.readBy_name_iff clean solid within, ← reach]
      exact ⟨padding.trans layered_eq_self, Iff.rfl, fun other => absurd rfl other⟩
    | _ => cases whole
  · have covers : Draft.Covers column value before := by
      intro other among
      have same := (fitting other among).2
      rw [ColumnValue.extent_eq whole, ← same]
      exact other.extent_le
    have length : (Draft.shown column (List.replicate value.type.size 0) (Draft.encodeAll memory before).1).length
        = value.type.size := by
      have zeros : (List.replicate value.type.size (0 : UInt8)).length = value.type.size := List.length_replicate
      rw [Draft.length_shown, zeros]
      intro bytes among
      rw [zeros, ← ColumnValue.extent_eq whole]
      exact Draft.covers_iff.mp covers bytes among
    have bytes := Draft.layered_whole whole length (Draft.encodeAll memory before).2
    rw [bytes] at cell ⊢
    rw [Draft.encodeAll_append] at grows
    have reads := Row.get_written clean (Draft.encodeAll_sound sound before)
      (Nat.lt_of_lt_of_le low (Draft.encodeAll_grows memory before).1) grows room cell
    exact ⟨iff_of_true rfl covers, iff_of_true reads covers, fun _ => covers⟩

end

/-- The second of two values of a column replaces the first one just if what the first one leaves behind it was
    there before, as in every column but a name. -/
theorem Draft.write_twice {draft : Draft} {column : String} {spot : FieldSpot} {first second : ColumnValue}
    (tiled : draft.layout.Tiled) (whole : draft.bytes.length = draft.layout.size)
    (found : draft.layout.field? column = some spot) (fits : spot.type = first.type) (fits' : spot.type = second.type)
    (memory : Memory) :
    ∃ mid between next last, draft.write column first memory = .ok mid between ∧ mid.write column second between = .ok next last
      ∧ (draft.write column second between = .ok next last
        ↔ (Draft.encode memory first).1.drop second.extent
          = (stretch draft.bytes spot.offset first.extent).drop second.extent)
      ∧ (second.type ≠ .name → draft.write column second between = .ok next last) := by
  have inside := Layout.field?_inside tiled found
  rw [FieldSpot.stop, fits, ← whole] at inside
  have replaces := Draft.write_write_iff inside found fits' memory
  have again (bytes : List UInt8) : (⟨draft.layout, bytes⟩ : Draft).layout.field? column = some spot := found
  refine ⟨_, _, _, _, Draft.write_ok found fits memory, Draft.write_ok (again _) fits' _, replaces, fun other => ?_⟩
  -- Nothing of the first value is left behind a second one of the same width.
  have reach := ColumnValue.extent_eq other
  have small := first.extent_le
  rw [← fits, fits', ← reach] at small
  refine replaces.mpr ?_
  rw [List.drop_eq_nil_of_le (Draft.length_encode_eq memory first ▸ small), List.drop_eq_nil_of_le]
  exact Nat.le_trans (List.length_take_le _ _) small

/-- What a second write of a column does to the first one, in any state of a row that is being written: the
    second value replaces the first one just if what the first one leaves behind it was there before, which is so
    in every column but a name.  So after any sequence of writes, starting from zeros, a column holds its last
    value with zeros behind it, and is read as that value, just if no earlier value of it reaches further. -/
theorem Row.last_write_exact (classOid : Oid) (fields : List (String × ColumnType)) :
    let layout := ({ classOid } : Layout).withFields fields
    (∀ (draft : Draft) (memory : Memory) (column : String) (spot : FieldSpot) (first second : ColumnValue),
      draft.layout = layout → draft.bytes.length = layout.size → layout.field? column = some spot →
      spot.type = first.type → spot.type = second.type →
      ∃ mid between next last, draft.write column first memory = .ok mid between ∧ mid.write column second between = .ok next last
        ∧ (draft.write column second between = .ok next last
          ↔ (Draft.encode memory first).1.drop second.extent
            = (stretch draft.bytes spot.offset first.extent).drop second.extent)
        ∧ (second.type ≠ .name → draft.write column second between = .ok next last))
    ∧ ∀ (earlier : List (List UInt8)) (before others : List (String × ColumnValue)) (column : String) (value : ColumnValue),
      (∀ write ∈ before ++ (column, value) :: others,
        write.2.Storable ∧ ∃ spot, layout.field? write.1 = some spot ∧ spot.type = write.2.type) →
      column ∉ others.map (·.1) →
      ∃ address written,
        writeRow layout (before ++ (column, value) :: others) (({} : Memory).allocAll earlier) = .ok address written
        ∧ ∀ later, (written.allocAll later).next ≤ UInt64.size →
          let row : Row := ⟨written.allocAll later, layout, address⟩
          ∃ memory bytes, (Draft.encode memory value).2.Grows row.memory ∧ row.Cell column value.type bytes
            ∧ (bytes = padded (Draft.encode memory value).1 value.type.size ↔ Draft.Covers column value before)
            ∧ (value.ReadBy (row.get value.type column) ↔ Draft.Covers column value before)
            ∧ (value.type ≠ .name → Draft.Covers column value before) := by
  intro layout
  have tiled : layout.Tiled := (Layout.tiled_blank classOid).withFields fields
  constructor
  · intro draft memory column spot first second same whole found fits fits'
    exact Draft.write_twice (same ▸ tiled) (same ▸ whole) (same ▸ found) fits fits' memory
  · intro earlier before others column value fitting absent
    have sound : (({} : Memory).allocAll earlier).Sound := Memory.sound_blank.allocAll earlier
    have low : 0 < (({} : Memory).allocAll earlier).next := Nat.lt_of_lt_of_le (by decide) (Memory.grows_allocAll earlier).1
    generalize ({} : Memory).allocAll earlier = memory at sound low ⊢
    obtain ⟨-, spot, found, fits⟩ := fitting (column, value) (by simp)
    obtain ⟨draft, wrote, same, whole, shows⟩ := Draft.writeAll_shows (Draft.blank layout) tiled rfl
      List.length_replicate (fun write among => (fitting write among).2) memory
    have here := shows column spot found
    have zeros : stretch (Draft.blank layout).bytes spot.offset spot.type.size = List.replicate spot.type.size 0 :=
      stretch_zeros (Layout.field?_inside tiled found)
    rw [Draft.shown_last _ absent, zeros, fits] at here
    have grown : (Draft.encodeAll memory (before ++ [(column, value)])).2.Grows
        (Draft.encodeAll memory (before ++ (column, value) :: others)).2 := by
      rw [List.append_cons before (column, value) others, Draft.encodeAll_append memory (before ++ [(column, value)]) others]
      exact Draft.encodeAll_grows _ others
    have soundAfter := Draft.encodeAll_sound sound (before ++ (column, value) :: others)
    have lowAfter := Nat.lt_of_lt_of_le low (Draft.encodeAll_grows memory (before ++ (column, value) :: others)).1
    generalize (Draft.encodeAll memory (before ++ (column, value) :: others)).2 = filled at wrote grown soundAfter lowAfter
    refine ⟨(filled.alloc draft.bytes).1, (filled.alloc draft.bytes).2, ?_, fun later room => ?_⟩
    · rw [writeRow, Task.bind_ok wrote]
      rfl
    · have grows : (filled.alloc draft.bytes).2.Grows _ := Memory.grows_allocAll later
      have cell := Draft.cell_of_finished (same ▸ tiled) (same ▸ whole) soundAfter lowAfter (same ▸ found) grows room
      rw [fits, here, same] at cell
      have fits' : ∀ other, (column, other) ∈ before ++ [(column, value)] → other.Storable ∧ other.type = value.type := by
        intro other among
        have among : (column, other) ∈ before ++ (column, value) :: others :=
          List.append_cons before (column, value) others ▸ List.mem_append_left _ among
        obtain ⟨storable, spot', found', same⟩ := fitting (column, other) among
        cases found.symm.trans found'
        exact ⟨storable, same.symm.trans fits⟩
      have grows := (grown.trans (filled.grows_alloc draft.bytes)).trans grows
      have exact' := cell.last_exact sound low fits' grows room
      rw [Draft.encodeAll_append] at grows
      exact ⟨(Draft.encodeAll memory before).2, _, grows, cell, exact'⟩

theorem Row.last_write_exact_names :
    let layout := ({ classOid := ⟨1259⟩ } : Layout).withFields [("reltype", .oid), ("relname", .name)]
    ∃ address written,
      writeRow layout [("relname", .name "ab"), ("reltype", .oid ⟨7⟩), ("relname", .name "items"), ("reltype", .oid ⟨8⟩)]
        (({} : Memory).allocAll [[1]]) = .ok address written
      ∧ Row.get ⟨written, layout, address⟩ .name "relname" = .ok (.name "items")
      ∧ Row.get ⟨written, layout, address⟩ .oid "reltype" = .ok (.oid ⟨8⟩) := by
  intro layout
  obtain ⟨-, run⟩ := Row.last_write_exact ⟨1259⟩ [("reltype", .oid), ("relname", .name)]
  have fitting : ∀ write ∈ [("relname", ColumnValue.name "ab"), ("reltype", .oid ⟨7⟩), ("relname", .name "items"),
      ("reltype", .oid ⟨8⟩)], write.2.Storable ∧ ∃ spot, layout.field? write.1 = some spot ∧ spot.type = write.2.type := by
    simp only [List.forall_mem_cons, List.not_mem_nil, false_imp_iff, implies_true, and_true]
    exact ⟨⟨by decide +kernel, _, rfl, rfl⟩, ⟨trivial, _, rfl, rfl⟩, ⟨by decide +kernel, _, rfl, rfl⟩, ⟨trivial, _, rfl, rfl⟩⟩
  obtain ⟨address, written, wrote, names⟩ := run [[1]] [("relname", .name "ab"), ("reltype", .oid ⟨7⟩)] [("reltype", .oid ⟨8⟩)]
    "relname" (.name "items") fitting (by decide)
  obtain ⟨address', written', wrote', oids⟩ := run [[1]]
    [("relname", .name "ab"), ("reltype", .oid ⟨7⟩), ("relname", .name "items")] [] "reltype" (.oid ⟨8⟩) fitting (by decide)
  cases wrote.symm.trans wrote'
  have room : (written.allocAll []).next ≤ UInt64.size := by
    rw [← Task.exec_ok wrote]
    decide +kernel
  obtain ⟨-, -, -, -, -, name, -⟩ := names [] room
  obtain ⟨-, -, -, -, -, oid, whole⟩ := oids [] room
  have covers : Draft.Covers "relname" (.name "items") [("relname", .name "ab"), ("reltype", .oid ⟨7⟩)] := by
    intro other among
    simp only [List.mem_cons, Prod.mk.injEq, List.not_mem_nil, or_false, true_and] at among
    obtain rfl | ⟨different, -⟩ := among
    · decide +kernel
    · exact absurd different (by decide)
  have kept : ColumnValue.kept? (.name "items") = some (.name "items") := by decide +kernel
  have name := name.mpr covers
  rw [ColumnValue.ReadBy, kept] at name
  exact ⟨address, written, wrote, name, oid.mpr (whole (by decide))⟩

/-- The shorter name that is written second is read with the end of the longer one that was written first. -/
theorem Row.name_overwritten :
    let layout := ({ classOid := ⟨9⟩ } : Layout).withFields [("n", .name)]
    let once := (writeRow layout [("n", .name "ab")]).exec {}
    let twice := (writeRow layout [("n", .name "items"), ("n", .name "ab")]).exec {}
    Row.name ⟨once, layout, ⟨0x1000⟩⟩ "n" = .ok "ab" ∧ Row.name ⟨twice, layout, ⟨0x1000⟩⟩ "n" = .ok "abems" := by
  decide +kernel

end CatalogReplica.Storage
