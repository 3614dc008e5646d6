import CatalogReplica.Proofs.Storage.Regions
import CatalogReplica.Proofs.Storage.Spots

/-!
# What getters make of the bytes of a column

A getter looks at the bytes of its column and, for texts and lists, at the region that the
address in them points to.  Nothing else of the row matters to it.

* `Row.Cell`: the bytes that a column has in a row.
* `Row.get_written`: the bytes that a value was turned into are read as that value.
* `Row.get_blank`: zero bytes are read as the blank value of the type.
* `Row.get_mismatch`: a column that is not stored as the type asked for is refused.
-/

namespace CatalogReplica.Storage

/-- The value of a column of the type that was not written. -/
def ColumnType.blank : ColumnType → ColumnValue
  | bool => .bool false
  | char => .char 0
  | i16 => .i16 0
  | i32 => .i32 0
  | oid => .oid .invalid
  | name => .name ""
  | text => .text none
  | oidList => .oidList []

namespace ColumnValue

/-- Terminated texts have no zero character of their own, and the length of a list fits its count. -/
def Storable : ColumnValue → Prop
  | name value => '\x00' ∉ value.toList
  | text (some value) => '\x00' ∉ value.toList
  | oidList value => value.length < 2 ^ 31
  | _ => True

instance : DecidablePred Storable
  | bool _ | char _ | i16 _ | i32 _ | oid _ | text none => inferInstanceAs (Decidable True)
  | name value | text (some value) => inferInstanceAs (Decidable ('\x00' ∉ value.toList))
  | oidList value => inferInstanceAs (Decidable (value.length < 2 ^ 31))

/-- The value that is read where this one was written.  A name is cut to its room, its terminator
    left out, which may tear a character apart. -/
def kept? : ColumnValue → Option ColumnValue
  | name value => (textOfBytes? ((bytesOfText value).take (ColumnType.nameLength - 1))).map name
  | value => some value

/-- The column gives what is kept of the value, and a native fault where nothing is. -/
def ReadBy (value : ColumnValue) (fetched : Fetched ColumnValue) : Prop :=
  match value.kept? with
  | some kept => fetched = .ok kept
  | none => ∃ fault, fetched = .error (.fault fault) ∧ fault.kind = .native

end ColumnValue

/-- The bytes with zeros behind them, up to the width. -/
def padded (bytes : List UInt8) (width : Nat) : List UInt8 := bytes ++ List.replicate (width - bytes.length) 0

theorem padded_of_length {bytes : List UInt8} {width : Nat} (whole : bytes.length = width) : padded bytes width = bytes := by
  simp [padded, whole]

/-- The bytes of a value fit the room of its column. -/
theorem Draft.length_encode (memory : Memory) (value : ColumnValue) : (encode memory value).1.length ≤ value.type.size := by
  cases value with
  | text value => cases value <;> exact Nat.le_of_eq (length_bytesOfNat 8 _)
  | bool => exact Nat.le_refl 1
  | char => exact Nat.le_refl 1
  | i16 => exact Nat.le_of_eq (length_bytesOfNat 2 _)
  | i32 => exact Nat.le_of_eq (length_bytesOfNat 4 _)
  | oid => exact Nat.le_of_eq (length_bytesOfNat 4 _)
  | oidList => exact Nat.le_of_eq (length_bytesOfNat 8 _)
  | name value => exact Nat.le_trans (List.length_take_le _ _) (show 64 - 1 ≤ 64 by decide)

namespace Row

variable {row : Row} {column : String} {type : ColumnType} {bytes : List UInt8}

/-- The bytes that a column of the type has in the row. -/
def Cell (row : Row) (column : String) (type : ColumnType) (bytes : List UInt8) : Prop :=
  ∃ all spot, row.memory.Holds row.address all ∧ row.layout.field? column = some spot ∧ spot.type = type
    ∧ spot.offset + type.size ≤ all.length ∧ stretch all spot.offset type.size = bytes

namespace Cell

/-- Where the column lies, its bytes are found. -/
theorem found (cell : row.Cell column type bytes) :
    ∃ place, row.spot column type = .ok place
      ∧ row.memory.mapFixed (row.address.offset place) type.size = .ok bytes := by
  obtain ⟨all, spot, holds, found, fitting, inside, here⟩ := cell
  refine ⟨UInt64.ofNat spot.offset, ?_, here ▸ holds.mapFixed type.size_pos inside⟩
  unfold Row.spot Layout.field
  rw [found]
  dsimp only
  rw [if_pos fitting]

/-- A number in the column is made of all its bytes. -/
theorem number (cell : row.Cell column type bytes) :
    ∃ place, row.spot column type = .ok place
      ∧ row.memory.readNat type.size row.address place = .ok (natOfBytes bytes) := by
  obtain ⟨place, found, mapped⟩ := cell.found
  refine ⟨place, found, ?_⟩
  unfold Memory.readNat
  rw [mapped]
  rfl

theorem get_bool (cell : row.Cell column .bool bytes) :
    row.get .bool column = .ok (.bool (UInt8.ofNat (natOfBytes bytes) != 0)) := by
  obtain ⟨place, found, read⟩ := cell.number
  simp only [ColumnType.size] at read
  simp only [get, bool, found, Memory.readBool, Memory.readU8, read, bind, Except.bind, Except.map]

theorem get_char (cell : row.Cell column .char bytes) :
    row.get .char column = .ok (.char (UInt8.ofNat (natOfBytes bytes))) := by
  obtain ⟨place, found, read⟩ := cell.number
  simp only [ColumnType.size] at read
  simp only [get, char, found, Memory.readU8, read, bind, Except.bind, Except.map]

theorem get_i16 (cell : row.Cell column .i16 bytes) :
    row.get .i16 column = .ok (.i16 (Int16.ofNat (natOfBytes bytes))) := by
  obtain ⟨place, found, read⟩ := cell.number
  simp only [ColumnType.size] at read
  simp only [get, i16, found, Memory.readI16, read, bind, Except.bind, Except.map]

theorem get_i32 (cell : row.Cell column .i32 bytes) :
    row.get .i32 column = .ok (.i32 (Int32.ofNat (natOfBytes bytes))) := by
  obtain ⟨place, found, read⟩ := cell.number
  simp only [ColumnType.size] at read
  simp only [get, i32, found, Memory.readI32, read, bind, Except.bind, Except.map]

theorem get_oid (cell : row.Cell column .oid bytes) :
    row.get .oid column = .ok (.oid ⟨UInt32.ofNat (natOfBytes bytes)⟩) := by
  obtain ⟨place, found, read⟩ := cell.number
  simp only [ColumnType.size] at read
  simp only [get, oid, found, Memory.readU32, read, bind, pure, Except.bind, Except.pure, Except.map]

/-- A name ends at the first zero byte. -/
theorem get_name (cell : row.Cell column .name bytes) :
    (∃ value, textOfBytes? (bytes.takeWhile (· != 0)) = some value ∧ row.get .name column = .ok (.name value))
      ∨ textOfBytes? (bytes.takeWhile (· != 0)) = none
        ∧ ∃ fault, row.get .name column = .error (.fault fault) ∧ fault.kind = .native := by
  obtain ⟨place, found, mapped⟩ := cell.found
  simp only [ColumnType.size] at mapped
  cases decoded : textOfBytes? (bytes.takeWhile (· != 0)) with
  | some value =>
    refine .inl ⟨value, rfl, ?_⟩
    simp only [get, name, found, mapped, decoded, bind, pure, Except.bind, Except.pure, Except.map]
  | none =>
    refine .inr ⟨rfl, ?_⟩
    simp only [get, name, found, mapped, decoded, bind, throw, throwThe, MonadExceptOf.throw, Except.bind, Except.map]
    exact ⟨_, rfl, rfl⟩

/-- The address in the column of a text or a list. -/
theorem pointer (cell : row.Cell column type bytes) (eight : type.size = 8) :
    ∃ place, row.spot column type = .ok place
      ∧ row.memory.readAddress row.address place = .ok ⟨UInt64.ofNat (natOfBytes bytes)⟩ := by
  obtain ⟨place, found, read⟩ := cell.number
  rw [eight] at read
  refine ⟨place, found, ?_⟩
  simp only [Memory.readAddress, read, Except.map]

theorem get_text_null (cell : row.Cell column .text bytes) (null : natOfBytes bytes = 0) :
    row.get .text column = .ok (.text none) := by
  obtain ⟨place, found, read⟩ := cell.pointer rfl
  rw [null] at read
  simp only [get, text, found, read, bind, Except.bind, Except.map]
  rfl

theorem get_text {address : Address} {value : String} (cell : row.Cell column .text (bytesOfNat 8 address.val.toNat))
    (clean : '\x00' ∉ value.toList) (holds : row.memory.Holds address (bytesOfText value ++ [0])) :
    row.get .text column = .ok (.text (some value)) := by
  obtain ⟨place, found, read⟩ := cell.pointer rfl
  rw [natOfBytes_bytesOfNat_of_lt address.val.toNat_lt, UInt64.ofNat_toNat] at read
  simp only [get, text, found, read, bind, pure, Except.bind, Except.pure, Except.map, holds.somewhere, holds.mapText clean]
  rfl

theorem get_oidList_null (cell : row.Cell column .oidList bytes) (null : natOfBytes bytes = 0) :
    row.get .oidList column = .ok (.oidList []) := by
  obtain ⟨place, found, read⟩ := cell.pointer rfl
  rw [null] at read
  simp only [get, oidList, found, read, bind, Except.bind, Except.map]
  rfl

theorem get_oidList {address : Address} {value : List Oid}
    (cell : row.Cell column .oidList (bytesOfNat 8 address.val.toNat)) (short : value.length < 2 ^ 31)
    (holds : row.memory.Holds address (bytesOfNat 4 value.length ++ Memory.bytesOfOids value)) :
    row.get .oidList column = .ok (.oidList value) := by
  obtain ⟨place, found, read⟩ := cell.pointer rfl
  rw [natOfBytes_bytesOfNat_of_lt address.val.toNat_lt, UInt64.ofNat_toNat] at read
  have count : row.memory.readI32 address 0 = .ok (Int32.ofNat value.length) := by
    have counted : row.memory.readNat 4 address (UInt64.ofNat 0) = _ := holds.readNat (by decide) (by simp)
    have front : stretch (bytesOfNat 4 value.length ++ Memory.bytesOfOids value) 0 4 = bytesOfNat 4 value.length := by
      unfold stretch
      rw [List.drop_zero, List.take_left' (length_bytesOfNat 4 _)]
    rw [front, natOfBytes_bytesOfNat_of_lt (by omega)] at counted
    unfold Memory.readI32
    rw [show row.memory.readNat 4 address 0 = _ from counted]
    rfl
  have exact : (Int32.ofNat value.length).toInt = value.length := Int32.toInt_ofNat_of_lt short
  have listed : row.memory.readOids address value.length ([] : List Oid).length = .ok value :=
    Memory.readOids_held (length_bytesOfNat 4 _) holds
  have positive : ¬Int32.ofNat value.length < 0 := by
    rw [Int32.lt_iff_toInt_lt, exact]
    simp
  simp only [get, oidList, found, read, count, bind, pure, Except.bind, Except.pure, Except.map, holds.somewhere, exact,
    Int.toNat_natCast, if_neg positive]
  exact congrArg (Except.map ColumnValue.oidList) listed

/-- Zero bytes are read as the blank value of the type. -/
theorem get_blank (cell : row.Cell column type (List.replicate type.size 0)) : row.get type column = .ok type.blank := by
  cases type with
  | bool => exact cell.get_bool
  | char => exact cell.get_char
  | i16 => exact cell.get_i16
  | i32 => exact cell.get_i32
  | oid => exact cell.get_oid
  | text => exact cell.get_text_null (natOfBytes_zeros 8)
  | oidList => exact cell.get_oidList_null (natOfBytes_zeros 8)
  | name =>
    have empty : textOfBytes? [] = some "" := textOfBytes?_bytesOfText ""
    obtain ⟨value, decoded, got⟩ | ⟨decoded, -⟩ := cell.get_name
    · cases empty.symm.trans decoded
      exact got
    · cases empty.symm.trans decoded

/-- A name is read up to the zero bytes that fill its column. -/
theorem readBy_name {value : String} (clean : '\x00' ∉ value.toList)
    (cell : row.Cell column .name (padded ((bytesOfText value).take (ColumnType.nameLength - 1)) ColumnType.nameLength)) :
    (ColumnValue.name value).ReadBy (row.get .name column) := by
  have cut : (padded ((bytesOfText value).take (ColumnType.nameLength - 1)) ColumnType.nameLength).takeWhile (· != 0)
      = (bytesOfText value).take (ColumnType.nameLength - 1) := by
    have room : ((bytesOfText value).take (ColumnType.nameLength - 1)).length < ColumnType.nameLength :=
      Nat.lt_of_le_of_lt (List.length_take_le _ _) (by decide)
    obtain ⟨more, rest⟩ := Nat.exists_eq_add_of_lt room
    have filled : ColumnType.nameLength - ((bytesOfText value).take (ColumnType.nameLength - 1)).length = more + 1 := by omega
    rw [padded, filled, List.replicate_succ]
    exact takeWhile_terminated (fun zero => zero_not_mem_bytesOfText clean (List.mem_of_mem_take zero)) _
  have read := cell.get_name
  rw [cut] at read
  obtain ⟨kept, decoded, got⟩ | ⟨decoded, refused⟩ := read
  · simpa only [ColumnValue.ReadBy, ColumnValue.kept?, decoded, Option.map_some] using got
  · simpa only [ColumnValue.ReadBy, ColumnValue.kept?, decoded, Option.map_none] using refused

end Cell

/-- The bytes that a value was turned into are read as that value, as long as what was allocated
    for it can be addressed. -/
theorem get_written {value : ColumnValue} {before : Memory} (storable : value.Storable) (sound : before.Sound)
    (low : 0 < before.next) (grows : (Draft.encode before value).2.Grows row.memory) (room : row.memory.next ≤ UInt64.size)
    (cell : row.Cell column value.type (padded (Draft.encode before value).1 value.type.size)) :
    value.ReadBy (row.get value.type column) := by
  cases value with
  | name value => exact cell.readBy_name storable
  | bool value => cases value <;> exact cell.get_bool
  | char value =>
    have got := Cell.get_char cell
    simp only [Draft.encode, padded, natOfBytes, ColumnValue.type, ColumnType.size, List.length_singleton, Nat.sub_self,
      List.replicate_zero, List.append_nil, Nat.mul_zero, Nat.add_zero, UInt8.ofNat_toNat] at got
    exact got
  | i16 value =>
    have cell : row.Cell column .i16 (padded (bytesOfNat 2 value.toUInt16.toNat) 2) := cell
    rw [padded_of_length (length_bytesOfNat 2 _)] at cell
    have got := cell.get_i16
    rw [natOfBytes_bytesOfNat_of_lt value.toUInt16.toNat_lt, ← UInt16.toInt16_ofNat', UInt16.ofNat_toNat] at got
    exact got
  | i32 value =>
    have cell : row.Cell column .i32 (padded (bytesOfNat 4 value.toUInt32.toNat) 4) := cell
    rw [padded_of_length (length_bytesOfNat 4 _)] at cell
    have got := cell.get_i32
    rw [natOfBytes_bytesOfNat_of_lt value.toUInt32.toNat_lt, ← UInt32.toInt32_ofNat', UInt32.ofNat_toNat] at got
    exact got
  | oid value =>
    have cell : row.Cell column .oid (padded (bytesOfNat 4 value.val.toNat) 4) := cell
    rw [padded_of_length (length_bytesOfNat 4 _)] at cell
    have got := cell.get_oid
    rw [natOfBytes_bytesOfNat_of_lt value.val.toNat_lt, UInt32.ofNat_toNat] at got
    exact got
  | text value =>
    cases value with
    | none => exact cell.get_text_null (natOfBytes_zeros 8)
    | some value =>
      have cell : row.Cell column .text (padded (bytesOfNat 8 (before.allocText value).1.val.toNat) 8) := cell
      rw [padded_of_length (length_bytesOfNat 8 _)] at cell
      exact cell.get_text storable (Memory.holds_alloc sound low grows room)
  | oidList value =>
    have cell : row.Cell column .oidList (padded (bytesOfNat 8 (before.allocOids value).1.val.toNat) 8) := cell
    rw [padded_of_length (length_bytesOfNat 8 _)] at cell
    exact cell.get_oidList storable (Memory.holds_alloc sound low grows room)

/-- A column that is missing, or stored in another way, is refused. -/
theorem get_mismatch (missing : ∀ spot, row.layout.field? column = some spot → spot.type ≠ type) :
    ∃ fault, row.get type column = .error (.fault fault) ∧ fault.kind = .native := by
  have refused : ∃ fault, row.spot column type = .error (.fault fault) ∧ fault.kind = .native := by
    unfold spot Layout.field
    cases found : row.layout.field? column with
    | none => exact ⟨_, rfl, rfl⟩
    | some spot =>
      dsimp only
      rw [if_neg (missing spot found)]
      exact ⟨_, rfl, rfl⟩
  obtain ⟨fault, refused, native⟩ := refused
  refine ⟨fault, ?_, native⟩
  cases type with
  | bool => simp only [get, bool, refused, bind, Except.bind, Except.map]
  | char => simp only [get, char, refused, bind, Except.bind, Except.map]
  | i16 => simp only [get, i16, refused, bind, Except.bind, Except.map]
  | i32 => simp only [get, i32, refused, bind, Except.bind, Except.map]
  | oid => simp only [get, oid, refused, bind, Except.bind, Except.map]
  | name => simp only [get, name, refused, bind, Except.bind, Except.map]
  | text => simp only [get, text, refused, bind, Except.bind, Except.map]
  | oidList => simp only [get, oidList, refused, bind, Except.bind, Except.map]

end Row

end CatalogReplica.Storage
