import CatalogReplica.Proofs.Storage.Bytes
import CatalogReplica.Proofs.Storage.Growth

/-!
# Reading what was allocated

Bytes that were allocated are a region of their own.  While the addresses last, every access
inside the region is served from it, whatever is allocated later.

* `Memory.Holds`: the bytes are a region that starts at an address.
* `Memory.holds_alloc`: what was allocated is held, later too.
* `Memory.Holds.mapFixed`, `.readNat`, `.mapText`, `.readOids`: what reads of held bytes give.
-/

namespace CatalogReplica.Storage

namespace Memory

variable {memory larger : Memory} {address : Address} {bytes : List UInt8} {place width : Nat}

/-- The bytes are a region of the memory that starts at the address. -/
structure Holds (memory : Memory) (address : Address) (bytes : List UInt8) : Prop where
  somewhere : address.isNull = false
  short : bytes.length < UInt64.size
  served : ∀ place < bytes.length, memory.region (address.offset (UInt64.ofNat place)) = .ok (place, bytes)

theorem offset_zero (address : Address) : address.offset (UInt64.ofNat 0) = address := by
  cases address
  simp [Address.offset]

/-- What was allocated is held as long as the addresses last, whatever is allocated later. -/
theorem holds_alloc (sound : memory.Sound) (low : 0 < memory.next) (grows : (memory.alloc bytes).2.Grows larger)
    (room : larger.next ≤ UInt64.size) : larger.Holds (memory.alloc bytes).1 bytes := by
  have ends : memory.next + roundUp (max bytes.length 1) 16 ≤ UInt64.size := Nat.le_trans grows.1 room
  have within := le_roundUp bytes.length
  have some : 0 < roundUp (max bytes.length 1) 16 := by
    unfold roundUp
    omega
  have start : (UInt64.ofNat memory.next).toNat = memory.next := UInt64.toNat_ofNat_of_lt' (by omega)
  constructor
  · refine beq_false_of_ne fun null => ?_
    have zero : (UInt64.ofNat memory.next).toNat = 0 := congrArg UInt64.toNat null
    omega
  · omega
  · intro place inside
    have here : ((memory.alloc bytes).1.offset (UInt64.ofNat place)).val.toNat = memory.next + place := by
      change (UInt64.ofNat memory.next + UInt64.ofNat place).toNat = _
      rw [← UInt64.ofNat_add]
      exact UInt64.toNat_ofNat_of_lt' (by omega)
    apply region_grows (sound.alloc bytes) grows _ inside
    have found : (memory.alloc bytes).2.regions.find? (·.start ≤ memory.next + place) = .some ⟨memory.next, bytes⟩ := by
      rw [show (memory.alloc bytes).2.regions = ⟨memory.next, bytes⟩ :: memory.regions from rfl, List.find?_cons_of_pos]
      simp
    unfold region region?
    rw [here, found]
    dsimp only
    rw [Nat.add_sub_cancel_left]

namespace Holds

/-- An access inside the region gives the bytes that lie there. -/
theorem mapFixed (holds : memory.Holds address bytes) (some : 0 < width) (fits : place + width ≤ bytes.length) :
    memory.mapFixed (address.offset (UInt64.ofNat place)) width = .ok (stretch bytes place width) := by
  have short := holds.short
  have straight : (place + width) % UInt64.size = place + width := Nat.mod_eq_of_lt (by omega)
  unfold Memory.mapFixed
  rw [holds.served place (by omega)]
  dsimp only
  rw [straight, if_neg (by omega), if_neg (by omega)]
  rfl

theorem readNat (holds : memory.Holds address bytes) (some : 0 < width) (fits : place + width ≤ bytes.length) :
    memory.readNat width address (UInt64.ofNat place) = .ok (natOfBytes (stretch bytes place width)) := by
  unfold Memory.readNat
  rw [holds.mapFixed some fits]
  rfl

/-- A text without a zero byte is read up to its terminator. -/
theorem mapText {text : String} (clean : '\x00' ∉ text.toList) (holds : memory.Holds address (bytesOfText text ++ [0])) :
    memory.mapText address = .ok text := by
  have served := holds.served 0 (by simp)
  rw [offset_zero] at served
  unfold Memory.mapText
  rw [served]
  dsimp only
  rw [List.drop_zero, if_pos (by simp), takeWhile_terminated (zero_not_mem_bytesOfText clean),
    textOfBytes?_bytesOfText]

end Holds

/-! ## Lists of object numbers -/

/-- The bytes of object numbers, four for each. -/
def bytesOfOids (oids : List Oid) : List UInt8 := oids.flatMap fun oid => bytesOfNat 4 oid.val.toNat

@[simp] theorem length_bytesOfOids (oids : List Oid) : (bytesOfOids oids).length = 4 * oids.length := by
  induction oids with
  | nil => rfl
  | cons first rest inductionHypothesis =>
    simp only [bytesOfOids, List.flatMap_cons, List.length_append, length_bytesOfNat, List.length_cons] at inductionHypothesis ⊢
    omega

/-- The bytes of the first number behind a prefix. -/
theorem stretch_append (before value rest : List UInt8) :
    stretch (before ++ (value ++ rest)) before.length value.length = value := by
  simp [stretch]

theorem readU32_held {n : UInt32} {before rest : List UInt8}
    (holds : memory.Holds address (before ++ (bytesOfNat 4 n.toNat ++ rest))) :
    memory.readU32 address (UInt64.ofNat before.length) = .ok n := by
  have fits : before.length + 4 ≤ (before ++ (bytesOfNat 4 n.toNat ++ rest)).length := by
    simp only [List.length_append, length_bytesOfNat]
    omega
  have there : stretch (before ++ (bytesOfNat 4 n.toNat ++ rest)) before.length 4 = bytesOfNat 4 n.toNat := by
    simpa using stretch_append before (bytesOfNat 4 n.toNat) rest
  unfold readU32
  rw [holds.readNat (by decide) fits, there, natOfBytes_bytesOfNat_of_lt n.toNat_lt]
  simp [Except.map]

/-- Object numbers that lie behind a count are read one by one. -/
theorem readOids_held {count : List UInt8} (four : count.length = 4) {read oids : List Oid}
    (holds : memory.Holds address (count ++ bytesOfOids (read ++ oids))) :
    memory.readOids address oids.length read.length = .ok oids := by
  induction oids generalizing read with
  | nil => rfl
  | cons first rest inductionHypothesis =>
    have split : count ++ bytesOfOids (read ++ first :: rest)
        = (count ++ bytesOfOids read) ++ (bytesOfNat 4 first.val.toNat ++ bytesOfOids rest) := by
      simp [bytesOfOids]
    have behind : (count ++ bytesOfOids read).length = 4 + read.length * 4 := by
      rw [List.length_append, four, length_bytesOfOids]
      omega
    have one : memory.readU32 address (UInt64.ofNat (4 + read.length * 4)) = .ok first.val := by
      rw [← behind]
      exact readU32_held (split ▸ holds)
    have others : memory.readOids address rest.length (read ++ [first]).length = .ok rest :=
      inductionHypothesis (by simpa using holds)
    rw [List.length_append, List.length_singleton] at others
    rw [List.length_cons, readOids, one]
    dsimp only
    rw [others]

end Memory

end CatalogReplica.Storage
