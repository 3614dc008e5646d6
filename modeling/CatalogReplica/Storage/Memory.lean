import CatalogReplica.Task
import CatalogReplica.Key
import CatalogReplica.Storage.Layout

/-!
# Native memory

A `Memory` is a list of regions, the one allocated last in front.  An access is
served by the region with the greatest start not above its address, and has to
stay inside the bytes of that region.

* `Memory.alloc` appends a region; regions start at multiples of sixteen.
* `Memory.mapFixed` gives a number of bytes, `Memory.mapText` terminated text.
* `Memory.readU8`, `Memory.readI16`, ... read little-endian numbers.
-/

namespace CatalogReplica.Storage

/-! ## Bytes of numbers -/

/-- The `count` low bytes of a number, the lowest first. -/
def bytesOfNat : Nat → Nat → List UInt8
  | 0, _ => []
  | count + 1, n => UInt8.ofNat n :: bytesOfNat count (n / 256)

/-- The number whose bytes are given, the lowest first. -/
def natOfBytes : List UInt8 → Nat
  | [] => 0
  | byte :: bytes => byte.toNat + 256 * natOfBytes bytes

/-- The text that the bytes encode. -/
def textOfBytes? (bytes : List UInt8) : Option String := String.fromUTF8? ⟨⟨bytes⟩⟩

/-- The bytes that encode the text. -/
def bytesOfText (text : String) : List UInt8 := text.toUTF8.data.toList

/-! ## Regions -/

/-- A stretch of memory that was allocated at once. -/
structure Region where
  start : Nat
  bytes : List UInt8
  deriving DecidableEq, Inhabited, Repr

/-- Native memory that only grows. -/
structure Memory where
  regions : List Region := []
  next : Nat := 0x1000
  deriving DecidableEq, Inhabited, Repr

/-- What an access gives, or why it was not served. -/
abbrev Fetched (α : Type) := Except Interrupt α

namespace Memory

/-- Appends a region and gives its address. -/
def alloc (memory : Memory) (bytes : List UInt8) : Address × Memory :=
  (⟨UInt64.ofNat memory.next⟩,
    { regions := ⟨memory.next, bytes⟩ :: memory.regions
      -- Even an empty region takes room, so that no two have one address.
      next := memory.next + roundUp (max bytes.length 1) 16 })

/-- Allocates the text with its terminator. -/
def allocText (memory : Memory) (text : String) : Address × Memory :=
  memory.alloc (bytesOfText text ++ [0])

/-- Allocates the object numbers behind their count. -/
def allocOids (memory : Memory) (oids : List Oid) : Address × Memory :=
  memory.alloc
    (bytesOfNat 4 oids.length ++ oids.flatMap fun oid => bytesOfNat 4 oid.val.toNat)

/-- The region that serves the address. -/
def region? (memory : Memory) (address : Address) : Option Region :=
  -- The newest region is in front, and each one serves all addresses up to the next.
  memory.regions.find? (·.start ≤ address.val.toNat)

/-- The offset of the address in the region that serves it, and the bytes of the
    region. -/
def region (memory : Memory) (address : Address) : Except Fault (Nat × List UInt8) :=
  match memory.region? address with
  | some region => .ok (address.val.toNat - region.start, region.bytes)
  | none => .error <|
      { kind := .native, message := "unmapped address" : Fault }.withContext
        "address" address.text

/-! ## Reading -/

/-- The `len` bytes from the address on.  The end of the access is computed
    modulo the size of the address space, and an access that wraps around to an
    end inside the region breaks off. -/
def mapFixed (memory : Memory) (address : Address) (len : Nat) : Fetched (List UInt8) :=
  match memory.region address with
  | .error fault => .error (.fault fault)
  | .ok (offset, bytes) =>
      let stop := (offset + len) % UInt64.size
      if bytes.length < stop then .error (.fault (.outOfRange address.val.toNat 0 len))
      else if stop < offset then .error (.crash none)
      else .ok ((bytes.drop offset).take len)

/-- The text from the address to the first zero byte of its region. -/
def mapText (memory : Memory) (address : Address) : Fetched String :=
  match memory.region address with
  | .error fault => .error (.fault fault)
  | .ok (offset, bytes) =>
      let tail := bytes.drop offset
      if 0 ∈ tail then
        match textOfBytes? (tail.takeWhile (· != 0)) with
        | some text => .ok text
        | none => .error (.fault
            { kind := .native
              message := "string is not valid utf-8"
              cause := some .malformedText })
      else .error (.fault <|
        { kind := .native, message := "unterminated string" : Fault }.withContext
          "address" address.text)

/-- The unsigned number in the `width` bytes at the offset from the address. -/
def readNat (memory : Memory) (width : Nat) (address : Address) (offset : UInt64) : Fetched Nat :=
  (memory.mapFixed (address.offset offset) width).map natOfBytes

/-- The byte at the offset from the address. -/
def readU8 (memory : Memory) (address : Address) (offset : UInt64) : Fetched UInt8 :=
  (memory.readNat 1 address offset).map UInt8.ofNat

/-- Whether the byte at the offset from the address is not zero. -/
def readBool (memory : Memory) (address : Address) (offset : UInt64) : Fetched Bool :=
  (memory.readU8 address offset).map (· != 0)

/-- The signed two-byte number at the offset from the address. -/
def readI16 (memory : Memory) (address : Address) (offset : UInt64) : Fetched Int16 :=
  (memory.readNat 2 address offset).map Int16.ofNat

/-- The signed four-byte number at the offset from the address. -/
def readI32 (memory : Memory) (address : Address) (offset : UInt64) : Fetched Int32 :=
  (memory.readNat 4 address offset).map Int32.ofNat

/-- The unsigned four-byte number at the offset from the address. -/
def readU32 (memory : Memory) (address : Address) (offset : UInt64) : Fetched UInt32 :=
  (memory.readNat 4 address offset).map UInt32.ofNat

/-- The signed eight-byte number at the offset from the address. -/
def readI64 (memory : Memory) (address : Address) (offset : UInt64) : Fetched Int64 :=
  (memory.readNat 8 address offset).map Int64.ofNat

/-- The address stored at the offset from the address. -/
def readAddress (memory : Memory) (address : Address) (offset : UInt64) : Fetched Address :=
  (memory.readNat 8 address offset).map fun n => ⟨UInt64.ofNat n⟩

/-- The `count` object numbers from the address on, read one by one, the first
    of them with the number `index` of its list. -/
def readOids (memory : Memory) (address : Address) : (count index : Nat) → Fetched (List Oid)
  | 0, _ => .ok []
  | count + 1, index =>
      match memory.readU32 address (UInt64.ofNat (4 + index * 4)) with
      | .error interrupt => .error interrupt
      | .ok first =>
          match memory.readOids address count (index + 1) with
          | .error interrupt => .error interrupt
          | .ok oids => .ok (⟨first⟩ :: oids)

end Memory

end CatalogReplica.Storage
