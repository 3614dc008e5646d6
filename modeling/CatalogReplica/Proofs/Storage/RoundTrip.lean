import CatalogReplica.Proofs.Storage.Getting

/-!
# Rows read back as written

While a row is being written, a column that was written holds the bytes of its value, and one that
was not still holds zeros.  A write changes one column and adds regions behind those that the
earlier columns point to.  What a finished row gives back follows column by column.

* `Draft.Filled`: what a draft holds after some columns were written.
* `Draft.writeAll_fills`: writing columns of the layout, each once, fills them.
* `writeRow_reads`: the columns of a written row give back what was written.
* `Row.reads_back`: every column of a written row gives back what was written, for good.
-/

namespace CatalogReplica.Storage

namespace Memory

/-- Allocates the regions in order. -/
def allocAll (memory : Memory) : List (List UInt8) → Memory
  | [] => memory
  | bytes :: rest => (memory.alloc bytes).2.allocAll rest

variable {memory : Memory}

theorem grows_allocAll (regions : List (List UInt8)) : memory.Grows (memory.allocAll regions) := by
  induction regions generalizing memory with
  | nil => exact .refl memory
  | cons bytes rest inductionHypothesis => exact (memory.grows_alloc bytes).trans inductionHypothesis

theorem Sound.allocAll (sound : memory.Sound) (regions : List (List UInt8)) : (memory.allocAll regions).Sound := by
  induction regions generalizing memory with
  | nil => exact sound
  | cons bytes rest inductionHypothesis => exact inductionHypothesis (sound.alloc bytes)

end Memory

/-- Encoding a value only adds regions. -/
theorem Draft.encode_grows (memory : Memory) (value : ColumnValue) : memory.Grows (encode memory value).2 :=
  (encode_adds value memory).1

theorem Draft.encode_sound {memory : Memory} (sound : memory.Sound) (value : ColumnValue) : (encode memory value).2.Sound :=
  (encode_adds value memory).2 sound

namespace Draft

variable {draft : Draft} {memory larger : Memory} {written columns : List (String × ColumnValue)} {column name : String}
  {value : ColumnValue} {spot : FieldSpot}

/-- The column holds the bytes that the value was turned into, in a memory that has only grown since. -/
def Wrote (draft : Draft) (memory : Memory) (column : String) (value : ColumnValue) : Prop :=
  ∃ spot before, draft.layout.field? column = some spot ∧ spot.type = value.type
    ∧ before.Sound ∧ 0 < before.next ∧ (encode before value).2.Grows memory
    ∧ stretch draft.bytes spot.offset value.type.size = padded (encode before value).1 value.type.size

/-- The draft of a row of the layout, with the given columns written and zeros in the others. -/
structure Filled (draft : Draft) (layout : Layout) (memory : Memory) (written : List (String × ColumnValue)) : Prop where
  same : draft.layout = layout
  whole : draft.bytes.length = layout.size
  sound : memory.Sound
  low : 0 < memory.next
  wrote : ∀ column ∈ written, draft.Wrote memory column.1 column.2
  blank : ∀ name spot, layout.field? name = some spot → name ∉ written.map (·.1) →
    stretch draft.bytes spot.offset spot.type.size = List.replicate spot.type.size 0

theorem filled_blank {layout : Layout} (tiled : layout.Tiled) (sound : memory.Sound) (low : 0 < memory.next) :
    (blank layout).Filled layout memory [] where
  same := rfl
  whole := List.length_replicate
  sound := sound
  low := low
  wrote := fun _ among => nomatch among
  blank := fun _ _ found _ => stretch_zeros (Layout.field?_inside tiled found)

variable {layout : Layout}

theorem write_ok (found : draft.layout.field? column = some spot) (fitting : spot.type = value.type) (memory : Memory) :
    draft.write column value memory
      = .ok { draft with bytes := overwrite draft.bytes spot.offset (encode memory value).1 } (encode memory value).2 := by
  have put : draft.put column value.type (encode memory value).1
      = .ok { draft with bytes := overwrite draft.bytes spot.offset (encode memory value).1 } := by
    unfold Draft.put
    rw [found]
    dsimp only
    rw [if_pos fitting, List.take_of_length_le (length_encode memory value)]
  unfold Draft.write
  rw [Task.bind_run, Task.lift_run]
  dsimp only
  rw [put]
  rfl

/-- Writing a column that was not written before fills it and no other. -/
theorem write_fills (tiled : layout.Tiled) (filled : draft.Filled layout memory written)
    (found : layout.field? column = some spot) (fitting : spot.type = value.type) (fresh : column ∉ written.map (·.1)) :
    ∃ next later, draft.write column value memory = .ok next later
      ∧ next.Filled layout later (written ++ [(column, value)]) := by
  obtain ⟨same, whole, sound, low, wrote, blank⟩ := filled
  have inside : spot.offset + value.type.size ≤ draft.bytes.length := by
    rw [whole, ← fitting]
    exact Layout.field?_inside tiled found
  have short : (encode memory value).1.length ≤ value.type.size := length_encode memory value
  have room : spot.offset + (encode memory value).1.length ≤ draft.bytes.length := by omega
  have grows : memory.Grows (encode memory value).2 := encode_grows memory value
  -- A column of another name shares no byte with the one that is written.
  have others : ∀ name spot', layout.field? name = some spot' → name ≠ column →
      stretch (overwrite draft.bytes spot.offset (encode memory value).1) spot'.offset spot'.type.size
        = stretch draft.bytes spot'.offset spot'.type.size := by
    intro name spot' found' differs
    have apart := Layout.field?_apart tiled differs found' found
    simp only [FieldSpot.stop, fitting] at apart
    exact stretch_overwrite_apart room (by omega)
  refine ⟨_, _, write_ok (same ▸ found) fitting memory, same, (length_overwrite room).trans whole, encode_sound sound value,
    Nat.lt_of_lt_of_le low grows.1, ?_, ?_⟩
  · intro other among
    cases List.mem_append.mp among with
    | inl earlier =>
      obtain ⟨spot', before, found', fitting', before_sound, before_low, grown, bytes⟩ := wrote other earlier
      rw [same] at found'
      have differs : other.1 ≠ column := fun one => fresh (one ▸ List.mem_map_of_mem earlier)
      refine ⟨spot', before, same ▸ found', fitting', before_sound, before_low, grown.trans grows, ?_⟩
      rw [← fitting', others other.1 spot' found' differs, fitting', bytes]
    | inr new =>
      cases List.mem_singleton.mp new
      refine ⟨spot, memory, same ▸ found, fitting, sound, low, .refl _, ?_⟩
      rw [stretch_overwrite room short, ← fitting, blank column spot found fresh, List.drop_replicate, padded]
  · intro name spot' found' absent
    rw [List.map_append, List.mem_append, not_or] at absent
    have differs : name ≠ column := fun one => absent.2 (List.mem_singleton.mpr one)
    rw [others name spot' found' differs, blank name spot' found' absent.1]

/-- Writing columns of the layout, each once and none that was written before, fills them all. -/
theorem writeAll_fills (tiled : layout.Tiled) (filled : draft.Filled layout memory written)
    (fitting : ∀ column ∈ columns, ∃ spot, layout.field? column.1 = some spot ∧ spot.type = column.2.type)
    (once : ((written ++ columns).map (·.1)).Nodup) :
    ∃ next later, draft.writeAll columns memory = .ok next later ∧ next.Filled layout later (written ++ columns) := by
  induction columns generalizing draft memory written with
  | nil =>
    rw [List.append_nil]
    exact ⟨draft, memory, rfl, filled⟩
  | cons first rest inductionHypothesis =>
    obtain ⟨column, value⟩ := first
    obtain ⟨spot, found, same⟩ := fitting (column, value) List.mem_cons_self
    have fresh : column ∉ written.map (·.1) := by
      rw [List.map_append, List.map_cons] at once
      exact fun earlier => (List.nodup_append.mp once).2.2 column earlier column List.mem_cons_self rfl
    obtain ⟨mid, between, first, filled⟩ := write_fills tiled filled found same fresh
    have regroup : written ++ (column, value) :: rest = (written ++ [(column, value)]) ++ rest := List.append_cons ..
    rw [regroup] at once ⊢
    obtain ⟨next, later, others, filled⟩ := inductionHypothesis filled
      (fun other among => fitting other (List.mem_cons_of_mem _ among)) once
    refine ⟨next, later, ?_, filled⟩
    unfold writeAll
    rw [Task.bind_ok first, others]

/-- The columns of a finished row have the bytes that they had in its draft. -/
theorem cell_of_finished (tiled : draft.layout.Tiled) (whole : draft.bytes.length = draft.layout.size) (sound : memory.Sound)
    (low : 0 < memory.next) (found : draft.layout.field? name = some spot) (grows : (memory.alloc draft.bytes).2.Grows larger)
    (room : larger.next ≤ UInt64.size) :
    Row.Cell ⟨larger, draft.layout, (memory.alloc draft.bytes).1⟩ name spot.type (stretch draft.bytes spot.offset spot.type.size) :=
  ⟨draft.bytes, spot, Memory.holds_alloc sound low grows room, found, rfl, whole ▸ Layout.field?_inside tiled found, rfl⟩

end Draft

/-- Columns of the layout are written, each once and in any order.  As long as memory can be addressed
    every one of them gives back what is kept of its value, whatever is allocated later. -/
theorem writeRow_reads (classOid : Oid) {fields : List (String × ColumnType)} (distinct : (fields.map (·.1)).Nodup)
    {memory : Memory} (sound : memory.Sound) (low : 0 < memory.next) {columns : List (String × ColumnValue)}
    (once : (columns.map (·.1)).Nodup) (fitting : ∀ column ∈ columns, (column.1, column.2.type) ∈ fields)
    (storable : ∀ column ∈ columns, column.2.Storable) :
    ∃ address written, writeRow (({ classOid } : Layout).withFields fields) columns memory = .ok address written ∧
      ∀ larger, written.Grows larger → larger.next ≤ UInt64.size → ∀ column ∈ columns,
        column.2.ReadBy (Row.get ⟨larger, ({ classOid } : Layout).withFields fields, address⟩ column.2.type column.1) := by
  have tiled : (({ classOid } : Layout).withFields fields).Tiled := (Layout.tiled_blank classOid).withFields fields
  obtain ⟨draft, between, wrote, filled⟩ := Draft.writeAll_fills tiled (Draft.filled_blank tiled sound low)
    (fun column among => Layout.field?_withFields distinct (fitting column among))
    (show (([] ++ columns : List (String × ColumnValue)).map (·.1)).Nodup from once)
  have layout := filled.same
  refine ⟨(between.alloc draft.bytes).1, (between.alloc draft.bytes).2, ?_, fun larger grows room column among => ?_⟩
  · unfold writeRow
    rw [Task.bind_ok wrote]
    rfl
  · obtain ⟨spot, before, found, same, before_sound, before_low, grown, bytes⟩ := filled.wrote column among
    have cell := Draft.cell_of_finished (layout ▸ tiled) (layout ▸ filled.whole) filled.sound filled.low found grows room
    rw [same, bytes, layout] at cell
    exact Row.get_written (storable column among) before_sound before_low
      ((grown.trans (between.grows_alloc draft.bytes)).trans grows) room cell

/-- A column that is not written is read as the blank value of its type, whatever is allocated later. -/
theorem writeRow_blank (classOid : Oid) {fields : List (String × ColumnType)} (distinct : (fields.map (·.1)).Nodup)
    {memory : Memory} (sound : memory.Sound) (low : 0 < memory.next) {columns : List (String × ColumnValue)}
    (once : (columns.map (·.1)).Nodup) (fitting : ∀ column ∈ columns, (column.1, column.2.type) ∈ fields)
    {name : String} {type : ColumnType} (there : (name, type) ∈ fields) (absent : name ∉ columns.map (·.1)) :
    ∃ address written, writeRow (({ classOid } : Layout).withFields fields) columns memory = .ok address written ∧
      ∀ larger, written.Grows larger → larger.next ≤ UInt64.size →
        Row.get ⟨larger, ({ classOid } : Layout).withFields fields, address⟩ type name = .ok type.blank := by
  have tiled : (({ classOid } : Layout).withFields fields).Tiled := (Layout.tiled_blank classOid).withFields fields
  obtain ⟨draft, between, wrote, filled⟩ := Draft.writeAll_fills tiled (Draft.filled_blank tiled sound low)
    (fun column among => Layout.field?_withFields distinct (fitting column among))
    (show (([] ++ columns : List (String × ColumnValue)).map (·.1)).Nodup from once)
  have layout := filled.same
  refine ⟨(between.alloc draft.bytes).1, (between.alloc draft.bytes).2, ?_, fun larger grows room => ?_⟩
  · unfold writeRow
    rw [Task.bind_ok wrote]
    rfl
  · obtain ⟨spot, found, rfl⟩ : ∃ spot, (({ classOid } : Layout).withFields fields).field? name = some spot ∧ spot.type = type :=
      Layout.field?_withFields distinct there
    have cell := Draft.cell_of_finished (layout ▸ tiled) (layout ▸ filled.whole) filled.sound filled.low (layout.symm ▸ found)
      grows room
    rw [filled.blank name spot found absent, layout] at cell
    exact cell.get_blank

/-- In a layout of fields with distinct names, columns of it are written, each once and in any order,
    on top of whatever was allocated before.  The row then gives back, whatever is allocated later: from
    a column that was written, the value; from one that was not, the blank value of its type; and a
    native fault where the layout has no such column of the type asked for.  A name comes back cut to
    the bytes before its terminator, or as a native fault where these are no text. -/
theorem Row.reads_back (classOid : Oid) (fields : List (String × ColumnType)) (distinct : (fields.map (·.1)).Nodup)
    (earlier : List (List UInt8)) (columns : List (String × ColumnValue)) (once : (columns.map (·.1)).Nodup)
    (fitting : ∀ column ∈ columns, (column.1, column.2.type) ∈ fields) (storable : ∀ column ∈ columns, column.2.Storable) :
    ∃ address written,
      writeRow (({ classOid } : Layout).withFields fields) columns (({} : Memory).allocAll earlier) = .ok address written
      ∧ ∀ later, (written.allocAll later).next ≤ UInt64.size →
        let row : Row := ⟨written.allocAll later, ({ classOid } : Layout).withFields fields, address⟩
        (∀ column ∈ columns, column.2.ReadBy (row.get column.2.type column.1))
        ∧ (∀ field ∈ fields, field.1 ∉ columns.map (·.1) → row.get field.2 field.1 = .ok field.2.blank)
        ∧ ∀ name type, (name, type) ∉ fields → ∃ fault, row.get type name = .error (.fault fault) ∧ fault.kind = .native := by
  have tiled : (({ classOid } : Layout).withFields fields).Tiled := (Layout.tiled_blank classOid).withFields fields
  have sound : (({} : Memory).allocAll earlier).Sound := Memory.sound_blank.allocAll earlier
  have low : 0 < (({} : Memory).allocAll earlier).next :=
    Nat.lt_of_lt_of_le (by decide) (Memory.grows_allocAll earlier).1
  obtain ⟨draft, memory, wrote, filled⟩ := Draft.writeAll_fills tiled (Draft.filled_blank tiled sound low)
    (fun column among => Layout.field?_withFields distinct (fitting column among))
    (show (([] ++ columns : List (String × ColumnValue)).map (·.1)).Nodup from once)
  rw [List.nil_append] at filled
  have layout := filled.same
  refine ⟨(memory.alloc draft.bytes).1, (memory.alloc draft.bytes).2, ?_, fun later room => ⟨?_, ?_, ?_⟩⟩
  · unfold writeRow
    rw [Task.bind_ok wrote]
    rfl
  · intro column among
    have grows : (memory.alloc draft.bytes).2.Grows _ := Memory.grows_allocAll later
    obtain ⟨spot, before, found, same, before_sound, before_low, grown, bytes⟩ := filled.wrote column among
    have cell := Draft.cell_of_finished (layout ▸ tiled) (layout ▸ filled.whole) filled.sound filled.low found grows room
    -- What the value was turned into was in memory before the row, and memory has only grown since.
    rw [same, bytes, layout] at cell
    exact Row.get_written (storable column among) before_sound before_low
      ((grown.trans (memory.grows_alloc draft.bytes)).trans grows) room cell
  · intro field among absent
    have grows : (memory.alloc draft.bytes).2.Grows _ := Memory.grows_allocAll later
    obtain ⟨spot, found, same⟩ : ∃ spot, (({ classOid } : Layout).withFields fields).field? field.1 = some spot
      ∧ spot.type = field.2 := Layout.field?_withFields distinct among
    have cell := Draft.cell_of_finished (layout ▸ tiled) (layout ▸ filled.whole) filled.sound filled.low (layout ▸ found)
      grows room
    rw [filled.blank field.1 spot found absent, same, layout] at cell
    exact cell.get_blank
  · intro name type absent
    refine Row.get_mismatch fun spot found same => absent ?_
    rw [← same]
    exact Layout.declared_of_field? found

theorem Row.reads_back_relation :
    let fields : List (String × ColumnType) := [("relkind", .char), ("relname", .name), ("reltype", .oid),
      ("relnote", .text), ("reloptions", .oidList), ("relnatts", .i16)]
    let layout : Layout := ({ classOid := ⟨1259⟩ } : Layout).withFields fields
    ∃ address written,
      writeRow layout [("reloptions", .oidList [⟨23⟩, ⟨25⟩]), ("relnatts", .i16 (-2)), ("relname", .name "pg_class")]
        (({} : Memory).allocAll [[1, 2, 3]]) = .ok address written
      ∧ let row : Row := ⟨written.allocAll [[7]], layout, address⟩
        row.get .oidList "reloptions" = .ok (.oidList [⟨23⟩, ⟨25⟩])
        ∧ row.get .i16 "relnatts" = .ok (.i16 (-2))
        ∧ row.get .name "relname" = .ok (.name "pg_class")
        ∧ row.get .text "relnote" = .ok (.text none)
        ∧ ∃ fault, row.get .oid "relname" = .error (.fault fault) ∧ fault.kind = .native := by
  intro fields layout
  obtain ⟨address, written, wrote, back⟩ := Row.reads_back ⟨1259⟩ fields (by decide) [[1, 2, 3]]
    [("reloptions", .oidList [⟨23⟩, ⟨25⟩]), ("relnatts", .i16 (-2)), ("relname", .name "pg_class")]
    (by decide) (by decide) (by decide +kernel)
  have room : (written.allocAll [[7]]).next ≤ UInt64.size := by
    have small : ((writeRow layout
        [("reloptions", .oidList [⟨23⟩, ⟨25⟩]), ("relnatts", .i16 (-2)), ("relname", .name "pg_class")]).exec
        (({} : Memory).allocAll [[1, 2, 3]]) |>.allocAll [[7]]).next ≤ UInt64.size := by decide +kernel
    rwa [Task.exec_ok wrote] at small
  obtain ⟨kept, blank, refused⟩ := back [[7]] room
  have named : ColumnValue.kept? (.name "pg_class") = some (.name "pg_class") := by decide +kernel
  have name := kept ("relname", .name "pg_class") (by simp)
  rw [ColumnValue.ReadBy, named] at name
  exact ⟨address, written, wrote, kept ("reloptions", .oidList [⟨23⟩, ⟨25⟩]) (by simp),
    kept ("relnatts", .i16 (-2)) (by simp), name, blank ("relnote", .text) (by decide) (by decide),
    refused "relname" .oid (by decide)⟩

end CatalogReplica.Storage
