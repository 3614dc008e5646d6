import Mathlib.Algebra.Group.Nat.Defs
import CatalogReplica.Storage.Draft

/-!
# Bytes of numbers and of texts

What was laid down as bytes is found again in them: a number that fits its width, a text up to
its terminator, and the stretch of a row that was written over.

* `natOfBytes_bytesOfNat`: the low bytes of a number give the number back, modulo its width.
* `textOfBytes?_bytesOfText`: the bytes of a text give the text back.
* `stretch_overwrite`, `stretch_overwrite_apart`: writing changes its own stretch and no other.
-/

namespace CatalogReplica.Storage

/-! ## Numbers -/

@[simp] theorem length_bytesOfNat (width n : Nat) : (bytesOfNat width n).length = width := by
  induction width generalizing n with
  | zero => rfl
  | succ width inductionHypothesis => simp only [bytesOfNat, List.length_cons, inductionHypothesis]

theorem natOfBytes_bytesOfNat (width n : Nat) : natOfBytes (bytesOfNat width n) = n % 256 ^ width := by
  induction width generalizing n with
  | zero => simp only [bytesOfNat, natOfBytes, Nat.pow_zero, Nat.mod_one]
  | succ width inductionHypothesis =>
    have byte : (UInt8.ofNat n).toNat = n % 256 := UInt8.toNat_ofNat'
    simp only [bytesOfNat, natOfBytes, inductionHypothesis, byte]
    rw [Nat.pow_succ', Nat.mod_mul]

theorem natOfBytes_bytesOfNat_of_lt {width n : Nat} (fits : n < 256 ^ width) : natOfBytes (bytesOfNat width n) = n := by
  rw [natOfBytes_bytesOfNat, Nat.mod_eq_of_lt fits]

theorem bytesOfNat_zero (width : Nat) : bytesOfNat width 0 = List.replicate width 0 := by
  induction width with
  | zero => rfl
  | succ width inductionHypothesis => simp only [bytesOfNat, Nat.zero_div, inductionHypothesis, List.replicate_succ]; rfl

theorem natOfBytes_zeros (width : Nat) : natOfBytes (List.replicate width 0) = 0 := by
  rw [← bytesOfNat_zero, natOfBytes_bytesOfNat, Nat.zero_mod]

/-! ## Texts -/

theorem textOfBytes?_bytesOfText (text : String) : textOfBytes? (bytesOfText text) = some text := by
  unfold textOfBytes? String.fromUTF8?
  have valid : ByteArray.IsValidUTF8 ⟨⟨bytesOfText text⟩⟩ := text.isValidUTF8
  rw [dif_pos valid]
  rfl

/-- Only the zero character is encoded with a zero byte. -/
theorem zero_not_mem_utf8EncodeChar {char : Char} (ordinary : char ≠ '\x00') : 0 ∉ String.utf8EncodeChar char := by
  have positive : char.val.toNat ≠ 0 := fun zero => ordinary (Char.ext (UInt32.toNat_inj.mp zero))
  fun_cases String.utf8EncodeChar char
  all_goals
    simp only [List.mem_cons, List.not_mem_nil, or_false, not_or, ← UInt8.toNat_inj, UInt8.toNat_ofNat',
      UInt8.toNat_zero]
    omega

theorem bytesOfText_eq (text : String) : bytesOfText text = text.toList.flatMap String.utf8EncodeChar := by
  unfold bytesOfText
  change text.toByteArray.data.toList = _
  rw [← String.utf8Encode_toList]
  simp [List.utf8Encode]

theorem zero_not_mem_bytesOfText {text : String} (clean : '\x00' ∉ text.toList) : 0 ∉ bytesOfText text := by
  rw [bytesOfText_eq, List.mem_flatMap]
  rintro ⟨char, among, zero⟩
  exact zero_not_mem_utf8EncodeChar (fun same => clean (same ▸ among)) zero

theorem takeWhile_terminated {bytes : List UInt8} (clean : 0 ∉ bytes) (rest : List UInt8) :
    (bytes ++ 0 :: rest).takeWhile (· != 0) = bytes := by
  have ordinary : ∀ byte ∈ bytes, (byte != 0) = true := fun byte among =>
    bne_iff_ne.mpr fun zero => clean (zero ▸ among)
  rw [List.takeWhile_append_of_pos ordinary, List.takeWhile_cons]
  simp

/-- Bytes with a zero among them are split at the first one. -/
theorem eq_takeWhile_append {bytes : List UInt8} (terminated : 0 ∈ bytes) :
    ∃ rest, bytes = bytes.takeWhile (· != 0) ++ 0 :: rest := by
  induction bytes with
  | nil => nomatch terminated
  | cons byte bytes inductionHypothesis =>
    by_cases zero : byte = 0
    · subst zero
      exact ⟨bytes, by simp⟩
    · obtain ⟨rest, split⟩ := inductionHypothesis ((List.mem_cons.mp terminated).resolve_left (Ne.symm zero))
      refine ⟨rest, ?_⟩
      rw [List.takeWhile_cons, if_pos (bne_iff_ne.mpr zero), List.cons_append, ← split]

/-! ## Stretches of a row -/

/-- The `width` bytes from the offset on. -/
def stretch (bytes : List UInt8) (offset width : Nat) : List UInt8 := (bytes.drop offset).take width

variable {bytes value : List UInt8} {offset offset' width size : Nat}

theorem length_overwrite (fits : offset + value.length ≤ bytes.length) :
    (overwrite bytes offset value).length = bytes.length := by
  simp only [overwrite, List.length_append, List.length_take, List.length_drop]
  omega

theorem getElem?_overwrite (fits : offset + value.length ≤ bytes.length) (place : Nat) :
    (overwrite bytes offset value)[place]?
      = if offset ≤ place ∧ place < offset + value.length then value[place - offset]? else bytes[place]? := by
  have front : (bytes.take offset).length = offset := List.length_take_of_le (by omega)
  unfold overwrite
  rw [List.append_assoc, List.getElem?_append, front]
  split
  next before => rw [if_neg (by omega), List.getElem?_take_of_lt before]
  next behind =>
    rw [List.getElem?_append]
    split
    next within => rw [if_pos (by omega)]
    next outside =>
      rw [if_neg (by omega), List.getElem?_drop]
      congr 1
      omega

theorem getElem?_stretch (place : Nat) :
    (stretch bytes offset width)[place]? = if place < width then bytes[offset + place]? else none := by
  simp only [stretch, List.getElem?_take, List.getElem?_drop]

/-- The stretch that is written over holds the value, and behind it what was there. -/
theorem stretch_overwrite (fits : offset + value.length ≤ bytes.length) (room : value.length ≤ width) :
    stretch (overwrite bytes offset value) offset width = value ++ (stretch bytes offset width).drop value.length := by
  apply List.ext_getElem?
  intro place
  rw [getElem?_stretch, getElem?_overwrite fits, List.getElem?_append, List.getElem?_drop, getElem?_stretch]
  by_cases within : place < value.length
  · rw [if_pos (by omega), if_pos (by omega), if_pos within]
    congr 1
    omega
  · have there : value.length + (place - value.length) = place := by omega
    rw [if_neg within, there]
    by_cases inside : place < width
    · rw [if_pos inside, if_neg (by omega), if_pos inside]
    · rw [if_neg inside, if_neg inside]

/-- A stretch that shares no byte with the one written over stays as it is. -/
theorem stretch_overwrite_apart (fits : offset + value.length ≤ bytes.length)
    (apart : offset + value.length ≤ offset' ∨ offset' + width ≤ offset) :
    stretch (overwrite bytes offset value) offset' width = stretch bytes offset' width := by
  apply List.ext_getElem?
  intro place
  rw [getElem?_stretch, getElem?_stretch, getElem?_overwrite fits]
  by_cases inside : place < width
  · rw [if_pos inside, if_pos inside, if_neg (by omega)]
  · rw [if_neg inside, if_neg inside]

theorem stretch_zeros (fits : offset + width ≤ size) :
    stretch (List.replicate size 0) offset width = List.replicate width 0 := by
  simp only [stretch, List.drop_replicate, List.take_replicate]
  congr 1
  omega

end CatalogReplica.Storage
