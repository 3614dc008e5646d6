import CatalogReplica.Storage.Draft

/-!
# Reads of growing memory

Regions are added to native memory and never taken away or changed.  An access that was
served stays inside one region, and regions that are added later start behind it, so it
is served the same bytes for good.  An access that was refused may be served later.

* `Memory.Grows`: one memory is another one with further regions behind it.
* `Row.get_lasts`: what was read from a column is read from it later.
* `writeRow_adds`: writing a row only adds regions.
-/

namespace CatalogReplica.Storage

/-- What was fetched the first time is fetched the second time. -/
def Fetched.Lasts {α : Type} (first second : Fetched α) : Prop :=
  ∀ value, first = .ok value → second = .ok value

namespace Fetched.Lasts

variable {α β : Type} {first second : Fetched α}

theorem refl (fetched : Fetched α) : fetched.Lasts fetched := fun _ got => got

theorem map (lasts : first.Lasts second) (f : α → β) :
    Fetched.Lasts (first.map f) (second.map f) := by
  intro value got
  cases first with
  | error interrupt => cases got
  | ok inner =>
    rw [lasts inner rfl]
    exact got

theorem bind {next next' : α → Fetched β} (lasts : first.Lasts second)
    (rest : ∀ value, Fetched.Lasts (next value) (next' value)) :
    Fetched.Lasts (first >>= next) (second >>= next') := by
  intro value got
  cases first with
  | error interrupt => cases got
  | ok inner =>
    rw [lasts inner rfl]
    exact rest inner value got

end Fetched.Lasts

namespace Memory

variable {memory larger last : Memory} {address : Address}

/-- Every region ends before the next one is to start. -/
def Sound (memory : Memory) : Prop :=
  ∀ region ∈ memory.regions, region.start + region.bytes.length ≤ memory.next

/-- The second memory is the first one with further regions behind it. -/
def Grows (memory larger : Memory) : Prop :=
  memory.next ≤ larger.next ∧
    ∃ newer, larger.regions = newer ++ memory.regions ∧ ∀ region ∈ newer, memory.next ≤ region.start

theorem Grows.refl (memory : Memory) : memory.Grows memory :=
  ⟨Nat.le_refl _, [], rfl, fun _ among => nomatch among⟩

theorem Grows.trans (first : memory.Grows larger) (second : larger.Grows last) :
    memory.Grows last := by
  obtain ⟨next, newer, regions, behind⟩ := first
  obtain ⟨next', newer', regions', behind'⟩ := second
  refine ⟨Nat.le_trans next next', newer' ++ newer, ?_, fun region among => ?_⟩
  · rw [regions', regions, List.append_assoc]
  · cases List.mem_append.mp among with
    | inl late => exact Nat.le_trans next (behind' region late)
    | inr early => exact behind region early

theorem sound_blank : ({} : Memory).Sound := fun _ among => nomatch among

theorem le_roundUp (n : Nat) : n ≤ roundUp (max n 1) 16 := by
  unfold roundUp
  omega

theorem grows_alloc (memory : Memory) (bytes : List UInt8) : memory.Grows (memory.alloc bytes).2 :=
  ⟨Nat.le_add_right _ _, [⟨memory.next, bytes⟩], rfl, by simp⟩

theorem Sound.alloc (sound : memory.Sound) (bytes : List UInt8) : (memory.alloc bytes).2.Sound := by
  intro region among
  cases List.mem_cons.mp among with
  | inl new =>
    subst new
    exact Nat.add_le_add_left (le_roundUp bytes.length) _
  | inr old => exact Nat.le_trans (sound region old) (Nat.le_add_right _ _)

/-! ## What was served -/

/-- An address inside a region is served by that region later, too. -/
theorem region_grows (sound : memory.Sound) (grows : memory.Grows larger) {offset : Nat}
    {bytes : List UInt8} (served : memory.region address = .ok (offset, bytes))
    (inside : offset < bytes.length) : larger.region address = .ok (offset, bytes) := by
  obtain ⟨-, newer, regions, behind⟩ := grows
  unfold region region? at served ⊢
  cases found : memory.regions.find? (·.start ≤ address.val.toNat) with
  | none =>
    rw [found] at served
    cases served
  | some region =>
    rw [found] at served
    cases served
    have ends := sound region (List.mem_of_find?_eq_some found)
    have above : newer.find? (·.start ≤ address.val.toNat) = none := by
      rw [List.find?_eq_none]
      intro late among
      have starts := behind late among
      simp only [decide_eq_true_eq]
      omega
    rw [regions, List.find?_append, above, Option.none_or, found]

theorem region_offset_lt {offset : Nat} {bytes : List UInt8}
    (served : memory.region address = .ok (offset, bytes)) : offset < UInt64.size := by
  unfold region at served
  split at served
  · cases served
    exact Nat.lt_of_le_of_lt (Nat.sub_le _ _) address.val.toNat_lt
  · cases served

/-- A stretch of bytes that was served is served later, too. -/
theorem mapFixed_lasts (sound : memory.Sound) (grows : memory.Grows larger) {len : Nat}
    (some : 0 < len) (fits : len < UInt64.size) :
    Fetched.Lasts (memory.mapFixed address len) (larger.mapFixed address len) := by
  intro value got
  unfold mapFixed at got ⊢
  cases served : memory.region address with
  | error fault =>
    rw [served] at got
    cases got
  | ok place =>
    obtain ⟨offset, bytes⟩ := place
    rw [served] at got
    dsimp only at got
    split at got
    · cases got
    · next short =>
      split at got
      · cases got
      · next straight =>
        -- The end of the access did not wrap around, so the access is not empty.
        have inside : offset < bytes.length := by
          have starts := region_offset_lt served
          by_cases fine : offset + len < UInt64.size
          · rw [Nat.mod_eq_of_lt fine] at short
            omega
          · rw [Nat.mod_eq_sub_mod (Nat.le_of_not_lt fine), Nat.mod_eq_of_lt (by omega)] at straight
            omega
        rw [region_grows sound grows served inside]
        dsimp only
        rw [if_neg short, if_neg straight]
        exact got

/-- A text that was served is served later, too. -/
theorem mapText_lasts (sound : memory.Sound) (grows : memory.Grows larger) :
    Fetched.Lasts (memory.mapText address) (larger.mapText address) := by
  intro value got
  unfold mapText at got ⊢
  cases served : memory.region address with
  | error fault =>
    rw [served] at got
    cases got
  | ok place =>
    obtain ⟨offset, bytes⟩ := place
    rw [served] at got
    dsimp only at got
    split at got
    · next terminated =>
      have inside : offset < bytes.length := by
        apply Decidable.byContradiction
        intro outside
        rw [List.drop_eq_nil_of_le (Nat.le_of_not_lt outside)] at terminated
        cases terminated
      rw [region_grows sound grows served inside]
      dsimp only
      rw [if_pos terminated]
      exact got
    · cases got

theorem readNat_lasts (sound : memory.Sound) (grows : memory.Grows larger) {width : Nat}
    (some : 0 < width) (fits : width < UInt64.size) (offset : UInt64) :
    Fetched.Lasts (memory.readNat width address offset) (larger.readNat width address offset) :=
  (mapFixed_lasts sound grows some fits).map _

theorem readU32_lasts (sound : memory.Sound) (grows : memory.Grows larger) (offset : UInt64) :
    Fetched.Lasts (memory.readU32 address offset) (larger.readU32 address offset) :=
  (readNat_lasts sound grows (by decide) (by decide) offset).map _

theorem readOids_lasts (sound : memory.Sound) (grows : memory.Grows larger) (count index : Nat) :
    Fetched.Lasts (memory.readOids address count index) (larger.readOids address count index) := by
  induction count generalizing index with
  | zero => exact .refl _
  | succ count inductionHypothesis =>
    intro value got
    unfold readOids at got ⊢
    cases first : memory.readU32 address (UInt64.ofNat (4 + index * 4)) with
    | error interrupt =>
      rw [first] at got
      cases got
    | ok oid =>
      rw [readU32_lasts sound grows _ oid first]
      rw [first] at got
      dsimp only at got ⊢
      cases rest : memory.readOids address count (index + 1) with
      | error interrupt =>
        rw [rest] at got
        cases got
      | ok oids =>
        rw [inductionHypothesis (index + 1) oids rest]
        rw [rest] at got
        exact got

end Memory

/-! ## Rows -/

namespace Row

variable {memory larger : Memory} {layout : Layout} {address : Address}

theorem name_lasts (sound : memory.Sound) (grows : memory.Grows larger) (column : String) :
    Fetched.Lasts (Row.name ⟨memory, layout, address⟩ column)
      (Row.name ⟨larger, layout, address⟩ column) :=
  .bind (.refl _) fun _ =>
    .bind (Memory.mapFixed_lasts sound grows (by decide) (by decide)) fun _ => .refl _

theorem i16_lasts (sound : memory.Sound) (grows : memory.Grows larger) (column : String) :
    Fetched.Lasts (Row.i16 ⟨memory, layout, address⟩ column)
      (Row.i16 ⟨larger, layout, address⟩ column) :=
  .bind (.refl _) fun _ => (Memory.readNat_lasts sound grows (by decide) (by decide) _).map _

theorem i32_lasts (sound : memory.Sound) (grows : memory.Grows larger) (column : String) :
    Fetched.Lasts (Row.i32 ⟨memory, layout, address⟩ column)
      (Row.i32 ⟨larger, layout, address⟩ column) :=
  .bind (.refl _) fun _ => (Memory.readNat_lasts sound grows (by decide) (by decide) _).map _

theorem oid_lasts (sound : memory.Sound) (grows : memory.Grows larger) (column : String) :
    Fetched.Lasts (Row.oid ⟨memory, layout, address⟩ column)
      (Row.oid ⟨larger, layout, address⟩ column) :=
  .bind (.refl _) fun _ => .bind (Memory.readU32_lasts sound grows _) fun _ => .refl _

theorem text_lasts (sound : memory.Sound) (grows : memory.Grows larger) (column : String) :
    Fetched.Lasts (Row.text ⟨memory, layout, address⟩ column)
      (Row.text ⟨larger, layout, address⟩ column) := by
  refine .bind (.refl _) fun _ =>
    .bind ((Memory.readNat_lasts sound grows (by decide) (by decide) _).map _) fun pointer => ?_
  dsimp only
  split
  · exact .refl _
  · exact .bind (Memory.mapText_lasts sound grows) fun _ => .refl _

theorem oidList_lasts (sound : memory.Sound) (grows : memory.Grows larger) (column : String) :
    Fetched.Lasts (Row.oidList ⟨memory, layout, address⟩ column)
      (Row.oidList ⟨larger, layout, address⟩ column) := by
  refine .bind (.refl _) fun _ =>
    .bind ((Memory.readNat_lasts sound grows (by decide) (by decide) _).map _) fun pointer => ?_
  dsimp only
  split
  · exact .refl _
  · refine .bind ((Memory.readNat_lasts sound grows (by decide) (by decide) _).map _) fun count => ?_
    split
    · exact .refl _
    · exact Memory.readOids_lasts sound grows _ _

/-- What was read from a column is read from it when the memory has grown. -/
theorem get_lasts (sound : memory.Sound) (grows : memory.Grows larger) (type : ColumnType)
    (column : String) :
    Fetched.Lasts (Row.get ⟨memory, layout, address⟩ type column)
      (Row.get ⟨larger, layout, address⟩ type column) := by
  cases type with
  | name => exact (name_lasts sound grows column).map _
  | text => exact (text_lasts sound grows column).map _
  | oidList => exact (oidList_lasts sound grows column).map _
  | i16 => exact (i16_lasts sound grows column).map _
  | i32 => exact (i32_lasts sound grows column).map _
  | oid => exact (oid_lasts sound grows column).map _
  | bool =>
    exact .map (.bind (.refl _) fun _ =>
      ((Memory.readNat_lasts sound grows (by decide) (by decide) _).map _).map _) _
  | char =>
    exact .map (.bind (.refl _) fun _ =>
      (Memory.readNat_lasts sound grows (by decide) (by decide) _).map _) _

end Row

/-! ## Writing -/

/-- A task on memory that adds regions, if it changes anything. -/
def Adds {α : Type} (body : Task Memory α) : Prop :=
  ∀ memory, body.Ends memory fun _ larger => memory.Grows larger ∧ (memory.Sound → larger.Sound)

namespace Adds

variable {α β : Type} {body : Task Memory α}

theorem pure (value : α) : Adds (pure value : Task Memory α) := fun memory => ⟨.refl memory, id⟩

theorem throw (interrupt : Interrupt) : Adds (throw interrupt : Task Memory α) :=
  fun memory => ⟨.refl memory, id⟩

theorem bind {next : α → Task Memory β} (adds : Adds body) (rest : ∀ value, Adds (next value)) :
    Adds (body >>= next) := fun memory =>
  (adds memory).bind
    (fun value larger first => (rest value larger).weaken fun _ _ second =>
      ⟨first.1.trans second.1, fun sound => second.2 (first.2 sound)⟩)
    fun _ _ first => first

theorem alloc (bytes : List UInt8) : Adds (Task.lift fun memory => memory.alloc bytes) :=
  fun memory => ⟨memory.grows_alloc bytes, fun sound => sound.alloc bytes⟩

end Adds

theorem encode_adds (value : ColumnValue) : Adds (Task.lift fun memory => Draft.encode memory value) := by
  intro memory
  cases value with
  | text value =>
    cases value with
    | none => exact ⟨.refl memory, id⟩
    | some value => exact Adds.alloc (bytesOfText value ++ [0]) memory
  | oidList value =>
    exact Adds.alloc
      (bytesOfNat 4 value.length ++ value.flatMap fun oid => bytesOfNat 4 oid.val.toNat) memory
  | _ => exact ⟨.refl memory, id⟩

theorem write_adds (draft : Draft) (column : String) (value : ColumnValue) :
    Adds (draft.write column value) := by
  refine .bind (encode_adds value) fun bytes => ?_
  split
  · exact .pure _
  · exact .throw _

theorem writeAll_adds (columns : List (String × ColumnValue)) (draft : Draft) :
    Adds (draft.writeAll columns) := by
  induction columns generalizing draft with
  | nil => exact .pure draft
  | cons first columns inductionHypothesis =>
    exact .bind (write_adds draft first.1 first.2) inductionHypothesis

/-- Writing a row, successful or not, only adds regions. -/
theorem writeRow_adds (layout : Layout) (columns : List (String × ColumnValue)) :
    Adds (writeRow layout columns) :=
  .bind (writeAll_adds columns (.blank layout)) fun draft => .alloc draft.bytes

end CatalogReplica.Storage
