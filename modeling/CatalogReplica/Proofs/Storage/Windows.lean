import CatalogReplica.Proofs.Storage.RoundTrip

/-!
# What accesses give

Regions lie one behind the other, each from a multiple of sixteen on, with nothing but padding
between them.  An access gives the bytes that one region holds from its address on, or a native
fault where no region holds all of them.

The end of an access is computed modulo the size of the address space.  An access so long that
its end wraps around into its own region breaks off, and a read at an offset that leaves the
address space reads from the address that it wraps around to.  Nothing else departs from the rule.

* `Fetched.Exactly`: what is fetched is the one value that holds, or a native fault if none does.
* `Memory.stacked_allocAll`: regions lie one behind the other.
* `Memory.mapFixed_exact`, `Memory.mapText_exact`, `Memory.readNat_exact`: one access.
* `Memory.accesses_exact`: all accesses of every memory.
-/

namespace CatalogReplica.Storage

/-! ## Numbers of bytes -/

theorem bytesOfNat_natOfBytes (bytes : List UInt8) : bytesOfNat bytes.length (natOfBytes bytes) = bytes := by
  induction bytes with
  | nil => rfl
  | cons byte bytes inductionHypothesis =>
    have small : byte.toNat < 256 := byte.toNat_lt
    have rest : (byte.toNat + 256 * natOfBytes bytes) / 256 = natOfBytes bytes := by omega
    have first : UInt8.ofNat (byte.toNat + 256 * natOfBytes bytes) = byte := by
      rw [← UInt8.toNat_inj, UInt8.toNat_ofNat']
      omega
    rw [natOfBytes, List.length_cons, bytesOfNat, first, rest, inductionHypothesis]

theorem natOfBytes_lt (bytes : List UInt8) : natOfBytes bytes < 256 ^ bytes.length := by
  induction bytes with
  | nil => decide
  | cons byte bytes inductionHypothesis =>
    have small : byte.toNat < 256 := byte.toNat_lt
    rw [natOfBytes, List.length_cons, Nat.pow_succ]
    omega

/-! ## Texts of bytes -/

theorem bytesOfText_textOfBytes? {bytes : List UInt8} {text : String} (decoded : textOfBytes? bytes = some text) :
    bytesOfText text = bytes := by
  unfold textOfBytes? String.fromUTF8? at decoded
  split at decoded
  · cases decoded
    rfl
  · cases decoded

theorem not_mem_of_bytesOfText {text : String} (clean : 0 ∉ bytesOfText text) : '\x00' ∉ text.toList := by
  rw [bytesOfText_eq, List.mem_flatMap] at clean
  exact fun among => clean ⟨'\x00', among, by decide⟩

/-! ## What is fetched -/

/-- What is fetched is the one value that holds, or a native fault if none does. -/
def Fetched.Exactly {α : Type} (fetched : Fetched α) (holds : α → Prop) : Prop :=
  match fetched with
  | .ok value => ∀ other, holds other ↔ other = value
  | .error (.fault fault) => fault.kind = .native ∧ ∀ value, ¬ holds value
  | .error (.crash _) => False

namespace Fetched.Exactly

variable {α β : Type} {fetched : Fetched α} {holds : α → Prop}

theorem congr {holds' : α → Prop} (exact : fetched.Exactly holds) (same : ∀ value, holds' value ↔ holds value) :
    fetched.Exactly holds' := by
  match fetched with
  | .ok fetched => exact fun other => (same other).trans (exact other)
  | .error (.fault fault) => exact ⟨exact.1, fun value there => exact.2 value ((same value).mp there)⟩

/-- One fetch after another. -/
theorem bind {holds' : α → β → Prop} {next : α → Fetched β} (exact : fetched.Exactly holds)
    (rest : ∀ value, holds value → (next value).Exactly (holds' value)) :
    Fetched.Exactly (fetched >>= next) fun result => ∃ value, holds value ∧ holds' value result := by
  match fetched with
  | .ok fetched =>
    -- Only the value that was fetched holds, so only what follows it matters.
    refine (rest fetched ((exact fetched).mpr rfl)).congr fun result => ⟨?_, fun there => ?_⟩
    · rintro ⟨value, there, result⟩
      cases (exact value).mp there
      exact result
    · exact ⟨fetched, (exact fetched).mpr rfl, there⟩
  | .error (.fault fault) => exact ⟨exact.1, fun result ⟨value, there, _⟩ => exact.2 value there⟩

theorem map (exact : fetched.Exactly holds) (f : α → β) :
    Fetched.Exactly (fetched.map f) fun result => ∃ value, holds value ∧ f value = result := by
  match fetched with
  | .ok fetched =>
    intro result
    constructor
    · rintro ⟨value, there, rfl⟩
      rw [(exact value).mp there]
    · rintro rfl
      exact ⟨fetched, (exact fetched).mpr rfl, rfl⟩
  | .error (.fault fault) => exact ⟨exact.1, fun result ⟨value, there, _⟩ => exact.2 value there⟩

end Fetched.Exactly

/-! ## Regions one behind the other -/

/-- Where the room of the region ends, its padding included. -/
def Region.stop (region : Region) : Nat := region.start + roundUp (max region.bytes.length 1) 16

theorem Region.stop_bounds (region : Region) :
    region.start + region.bytes.length ≤ region.stop ∧ region.start < region.stop
      ∧ region.stop < region.start + region.bytes.length + 17 := by
  unfold stop roundUp
  omega

/-- The region has the bytes from the place on. -/
def Region.Keeps (region : Region) (place : Nat) (bytes : List UInt8) : Prop :=
  region.start ≤ place ∧ place + bytes.length ≤ region.start + region.bytes.length
    ∧ stretch region.bytes (place - region.start) bytes.length = bytes

instance (region : Region) (place : Nat) (bytes : List UInt8) : Decidable (region.Keeps place bytes) :=
  inferInstanceAs (Decidable (_ ∧ _ ∧ _))

/-- The regions lie one behind the other, from the first address up to the next one. -/
inductive Stacked : Nat → List Region → Prop where
  | nil : Stacked 0x1000 []
  | cons {region : Region} {earlier : List Region} (below : Stacked region.start earlier) :
      Stacked region.stop (region :: earlier)

namespace Stacked

variable {next place : Nat} {regions : List Region} {region : Region}

theorem next_bounds (stacked : Stacked next regions) : 0x1000 ≤ next ∧ next % 16 = 0 := by
  induction stacked with
  | nil => decide
  | cons below inductionHypothesis =>
    unfold Region.stop roundUp
    omega

theorem bounds (stacked : Stacked next regions) (among : region ∈ regions) :
    0x1000 ≤ region.start ∧ region.start % 16 = 0 ∧ region.stop ≤ next := by
  induction stacked with
  | nil => nomatch among
  | @cons latest earlier below inductionHypothesis =>
    cases List.mem_cons.mp among with
    | inl same =>
      subst same
      exact ⟨below.next_bounds.1, below.next_bounds.2, Nat.le_refl _⟩
    | inr old =>
      have := inductionHypothesis old
      have := latest.stop_bounds
      omega

/-- The places in the room of a region are served by it. -/
theorem find? (stacked : Stacked next regions) (among : region ∈ regions) (starts : region.start ≤ place)
    (within : place < region.stop) : regions.find? (·.start ≤ place) = some region := by
  induction stacked with
  | nil => nomatch among
  | @cons latest earlier below inductionHypothesis =>
    cases List.mem_cons.mp among with
    | inl same =>
      subst same
      exact List.find?_cons_of_pos (by simpa using starts)
    | inr old =>
      have behind : ¬ latest.start ≤ place := by
        have := (below.bounds old).2.2
        omega
      rw [List.find?_cons_of_neg (by simpa using behind)]
      exact inductionHypothesis old

/-- Right behind the room of a region, the region behind it is served, or the region itself if
    there is none. -/
theorem find?_stop (stacked : Stacked next regions) (among : region ∈ regions) :
    ∃ other, regions.find? (·.start ≤ region.stop) = some other ∧ (other = region ∨ other.start = region.stop) := by
  induction stacked with
  | nil => nomatch among
  | @cons latest earlier below inductionHypothesis =>
    by_cases starts : latest.start ≤ region.stop
    · refine ⟨latest, List.find?_cons_of_pos (by simpa using starts), ?_⟩
      cases List.mem_cons.mp among with
      | inl same => exact .inl same.symm
      | inr old => exact .inr (Nat.le_antisymm starts (below.bounds old).2.2)
    · have old : region ∈ earlier := by
        refine (List.mem_cons.mp among).resolve_left fun same => starts ?_
        rw [same]
        exact Nat.le_of_lt latest.stop_bounds.2.1
      rw [List.find?_cons_of_neg (by simpa using starts)]
      exact inductionHypothesis old

end Stacked

namespace Memory

variable {memory : Memory} {address : Address} {region : Region} {place len : Nat} {bytes : List UInt8}

theorem stacked_allocAll (allocations : List (List UInt8)) :
    Stacked (({} : Memory).allocAll allocations).next (({} : Memory).allocAll allocations).regions := by
  suffices ∀ memory : Memory, Stacked memory.next memory.regions →
      Stacked (memory.allocAll allocations).next (memory.allocAll allocations).regions from this {} .nil
  induction allocations with
  | nil => exact fun memory stacked => stacked
  | cons bytes rest inductionHypothesis =>
    intro memory stacked
    have below : Stacked (Region.mk memory.next bytes).start memory.regions := stacked
    exact inductionHypothesis _ (.cons below)

/-- The bytes lie in the memory from the place on, all of them in one region. -/
def Stores (memory : Memory) (place : Nat) (bytes : List UInt8) : Prop :=
  ∃ region ∈ memory.regions, region.Keeps place bytes

instance (memory : Memory) (place : Nat) (bytes : List UInt8) : Decidable (memory.Stores place bytes) :=
  inferInstanceAs (Decidable (∃ region ∈ memory.regions, region.Keeps place bytes))

/-- The end of the access wraps around into the region that serves its address. -/
def Wraps (memory : Memory) (address : Address) (len : Nat) : Prop :=
  ∃ region, memory.region? address = some region ∧
    UInt64.size ≤ address.val.toNat - region.start + len ∧
    address.val.toNat - region.start + len ≤ UInt64.size + region.bytes.length

/-! ## Accesses -/

/-- Nothing lies at an address in front of all regions. -/
theorem stores_mapped (found : memory.region? address = none) : ¬ memory.Stores address.val.toNat bytes := by
  rintro ⟨region, among, starts, -⟩
  have above := List.find?_eq_none.mp found region among
  simp only [decide_eq_true_eq] at above
  exact above starts

/-- The end of an access is computed in the region that serves its address. -/
theorem mapFixed_run {served : Region} (found : memory.region? address = some served) (len : Nat) :
    memory.mapFixed address len =
      if served.bytes.length < (address.val.toNat - served.start + len) % UInt64.size then
        .error (.fault (.outOfRange address.val.toNat 0 len))
      else if (address.val.toNat - served.start + len) % UInt64.size < address.val.toNat - served.start then
        .error (.crash none)
      else .ok (stretch served.bytes (address.val.toNat - served.start) len) := by
  simp only [mapFixed, Memory.region, found]
  rfl

theorem wraps_iff {served : Region} (found : memory.region? address = some served) : memory.Wraps address len ↔
    UInt64.size ≤ address.val.toNat - served.start + len ∧
      address.val.toNat - served.start + len ≤ UInt64.size + served.bytes.length := by
  constructor
  · rintro ⟨region, other, wraps⟩
    cases found.symm.trans other
    exact wraps
  · exact fun wraps => ⟨served, found, wraps⟩

section Stacked

variable (stacked : Stacked memory.next memory.regions)
include stacked

/-- Whatever region has the access inside, the region that serves its address has it inside,
    and both give the same bytes. -/
theorem served_inside {served : Region} (found : memory.region? address = some served) (among : region ∈ memory.regions)
    (starts : region.start ≤ address.val.toNat) (inside : address.val.toNat + len ≤ region.start + region.bytes.length) :
    address.val.toNat + len ≤ served.start + served.bytes.length
      ∧ stretch served.bytes (address.val.toNat - served.start) len
        = stretch region.bytes (address.val.toNat - region.start) len := by
  by_cases within : address.val.toNat < region.stop
  · cases found.symm.trans (stacked.find? among starts within)
    exact ⟨inside, rfl⟩
  · -- The access is empty, at the end of a region without padding.
    have ends := region.stop_bounds.1
    have stop : address.val.toNat = region.stop := by omega
    have empty : len = 0 := by omega
    obtain ⟨other, first, next⟩ := stacked.find?_stop among
    unfold region? at found
    rw [stop] at found
    cases found.symm.trans first
    subst empty
    refine ⟨?_, by simp [stretch]⟩
    cases next with
    | inl same =>
      rw [same]
      exact inside
    | inr behind => omega

/-- The bytes of an access that ends inside the region that serves its address. -/
theorem served_holds {served : Region} (found : memory.region? address = some served)
    (inside : address.val.toNat + len ≤ served.start + served.bytes.length) (bytes : List UInt8) :
    bytes.length = len ∧ memory.Stores address.val.toNat bytes ↔
      bytes = stretch served.bytes (address.val.toNat - served.start) len := by
  have starts : served.start ≤ address.val.toNat := by simpa using List.find?_some found
  constructor
  · rintro ⟨length, region, among, starts', inside', here⟩
    rw [length] at inside' here
    rw [(served_inside stacked found among starts' inside').2, here]
  · rintro rfl
    have length : (stretch served.bytes (address.val.toNat - served.start) len).length = len := by
      simp only [stretch, List.length_take, List.length_drop]
      omega
    exact ⟨length, served, List.mem_of_find?_eq_some found, starts, by rw [length]; exact inside, by rw [length]⟩

/-- An access whose end does not wrap around gives the bytes that one region holds, or a native
    fault; an access whose end wraps around breaks off. -/
theorem mapFixed_exact (address : Address) (long : len < UInt64.size) :
    (memory.Wraps address len ∧ memory.mapFixed address len = .error (.crash none)) ∨
      ¬ memory.Wraps address len ∧
        (memory.mapFixed address len).Exactly fun bytes =>
          bytes.length = len ∧ memory.Stores address.val.toNat bytes := by
  cases found : memory.region? address with
  | none =>
    -- No region starts at the address or before it.
    refine .inr ⟨fun ⟨region, other, _⟩ => (nomatch found.symm.trans other), ?_⟩
    simp only [mapFixed, Memory.region, found]
    exact ⟨rfl, fun bytes there => stores_mapped found there.2⟩
  | some served =>
    have starts : served.start ≤ address.val.toNat := by simpa using List.find?_some found
    have space := address.val.toNat_lt
    have size : UInt64.size = 2 ^ 64 := rfl
    rw [mapFixed_run found, wraps_iff found]
    by_cases wraps : UInt64.size ≤ address.val.toNat - served.start + len ∧
        address.val.toNat - served.start + len ≤ UInt64.size + served.bytes.length
    · -- The end that is computed lies in front of the address, and so inside the region.
      refine .inl ⟨wraps, ?_⟩
      rw [Nat.mod_eq_sub_mod wraps.1, Nat.mod_eq_of_lt (by omega), if_neg (by omega), if_pos (by omega)]
    · refine .inr ⟨wraps, ?_⟩
      by_cases inside : address.val.toNat + len ≤ served.start + served.bytes.length
      · have straight : address.val.toNat - served.start + len < UInt64.size := by omega
        rw [Nat.mod_eq_of_lt straight, if_neg (by omega), if_neg (by omega)]
        exact served_holds stacked found inside
      · -- Wrapped around or not, the end that is computed lies behind the region.
        have beyond : served.bytes.length < (address.val.toNat - served.start + len) % UInt64.size := by
          by_cases straight : address.val.toNat - served.start + len < UInt64.size
          · rw [Nat.mod_eq_of_lt straight]
            omega
          · rw [Nat.mod_eq_sub_mod (Nat.le_of_not_lt straight), Nat.mod_eq_of_lt (by omega)]
            omega
        rw [if_pos beyond]
        refine ⟨rfl, ?_⟩
        rintro bytes ⟨length, region, among, starts', inside', -⟩
        refine inside ?_
        rw [length] at inside'
        exact (served_inside stacked found among starts' inside').1

/-- A number is read where the address and the offset lead, wrapping around, from the bytes that
    one region holds there. -/
theorem readNat_exact {width : Nat} (narrow : width ≤ 8) (address : Address) (offset : UInt64) :
    (memory.readNat width address offset).Exactly fun n =>
      n < 256 ^ width ∧ memory.Stores ((address.val.toNat + offset.toNat) % UInt64.size) (bytesOfNat width n) := by
  have size : UInt64.size = 2 ^ 64 := rfl
  have lead : (address.offset offset).val.toNat = (address.val.toNat + offset.toNat) % UInt64.size :=
    UInt64.toNat_add _ _
  have short : width < UInt64.size := by omega
  cases mapFixed_exact stacked (address.offset offset) short with
  | inl wraps =>
    -- Regions start too far from the end of the address space for a number to reach around it.
    obtain ⟨⟨region, served, around, -⟩, -⟩ := wraps
    have starts := (stacked.bounds (List.mem_of_find?_eq_some served)).1
    have space := (address.offset offset).val.toNat_lt
    omega
  | inr exact =>
    refine (exact.2.map natOfBytes).congr fun n => ?_
    rw [lead]
    constructor
    · rintro ⟨fits, there⟩
      exact ⟨bytesOfNat width n, ⟨length_bytesOfNat width n, there⟩, natOfBytes_bytesOfNat_of_lt fits⟩
    · rintro ⟨bytes, ⟨length, there⟩, rfl⟩
      rw [← length]
      exact ⟨natOfBytes_lt bytes, by rw [bytesOfNat_natOfBytes]; exact there⟩

/-- What numbers stand for is read as the numbers are. -/
theorem decoded_exact {α : Type} {width : Nat} (narrow : width ≤ 8) (address : Address) (offset : UInt64) (decode : Nat → α) (code : α → Nat)
    (decodes : ∀ n < 256 ^ width, code (decode n) = n) (encodes : ∀ value, code value < 256 ^ width ∧ decode (code value) = value) :
    Fetched.Exactly ((memory.readNat width address offset).map decode) fun value =>
      memory.Stores ((address.val.toNat + offset.toNat) % UInt64.size) (bytesOfNat width (code value)) := by
  refine ((readNat_exact stacked narrow address offset).map decode).congr fun value => ?_
  constructor
  · exact fun there => ⟨code value, ⟨(encodes value).1, there⟩, (encodes value).2⟩
  · rintro ⟨n, ⟨fits, there⟩, rfl⟩
    rw [decodes n fits]
    exact there

theorem readU8_exact (address : Address) (offset : UInt64) :
    (memory.readU8 address offset).Exactly fun n =>
      memory.Stores ((address.val.toNat + offset.toNat) % UInt64.size) [n] := by
  refine (decoded_exact stacked (by decide) address offset UInt8.ofNat UInt8.toNat ?_ ?_).congr fun n => ?_
  · exact fun n fits => by rw [UInt8.toNat_ofNat']; exact Nat.mod_eq_of_lt fits
  · exact fun n => ⟨n.toNat_lt, UInt8.ofNat_toNat⟩
  · rw [bytesOfNat, bytesOfNat, UInt8.ofNat_toNat]

theorem readU32_exact (address : Address) (offset : UInt64) :
    (memory.readU32 address offset).Exactly fun n =>
      memory.Stores ((address.val.toNat + offset.toNat) % UInt64.size) (bytesOfNat 4 n.toNat) :=
  decoded_exact stacked (by decide) address offset UInt32.ofNat UInt32.toNat
    (fun n fits => by rw [UInt32.toNat_ofNat']; exact Nat.mod_eq_of_lt fits) fun n => ⟨n.toNat_lt, UInt32.ofNat_toNat⟩

theorem readI32_exact (address : Address) (offset : UInt64) :
    (memory.readI32 address offset).Exactly fun n =>
      memory.Stores ((address.val.toNat + offset.toNat) % UInt64.size) (bytesOfNat 4 n.toUInt32.toNat) :=
  decoded_exact stacked (by decide) address offset Int32.ofNat (fun n => n.toUInt32.toNat)
    (fun n fits => by rw [Int32.toUInt32_ofNat', UInt32.toNat_ofNat']; exact Nat.mod_eq_of_lt fits)
    fun n => ⟨n.toUInt32.toNat_lt, by rw [← UInt32.toInt32_ofNat', UInt32.ofNat_toNat, Int32.toInt32_toUInt32]⟩

theorem readAddress_exact (address : Address) (offset : UInt64) :
    (memory.readAddress address offset).Exactly fun a =>
      memory.Stores ((address.val.toNat + offset.toNat) % UInt64.size) (bytesOfNat 8 a.val.toNat) :=
  decoded_exact stacked (by decide) address offset (fun n => Address.mk (UInt64.ofNat n)) (fun a => a.val.toNat)
    (fun n fits => by rw [UInt64.toNat_ofNat']; exact Nat.mod_eq_of_lt fits)
    fun a => ⟨a.val.toNat_lt, by rw [UInt64.ofNat_toNat]⟩

/-- A text that lies at the address with its terminator is what the bytes up to the first zero
    byte encode. -/
theorem text_of_stored {served : Region} (found : memory.region? address = some served) {text : String}
    (clean : '\x00' ∉ text.toList) (there : memory.Stores address.val.toNat (bytesOfText text ++ [0])) :
    0 ∈ served.bytes.drop (address.val.toNat - served.start)
      ∧ (served.bytes.drop (address.val.toNat - served.start)).takeWhile (· != 0) = bytesOfText text := by
  obtain ⟨region, among, starts, inside, here⟩ := there
  rw [← (served_inside stacked found among starts inside).2] at here
  have split : served.bytes.drop (address.val.toNat - served.start) = bytesOfText text ++ 0 ::
      (served.bytes.drop (address.val.toNat - served.start)).drop (bytesOfText text ++ [0]).length := by
    rw [List.append_cons]
    conv => rhs; arg 1; rw [← here]
    exact (List.take_append_drop _ _).symm
  rw [split]
  exact ⟨by simp, takeWhile_terminated (zero_not_mem_bytesOfText clean) _⟩

/-- A text is read up to the first zero byte of its region. -/
theorem mapText_exact :
    (memory.mapText address).Exactly fun text =>
      '\x00' ∉ text.toList ∧ memory.Stores address.val.toNat (bytesOfText text ++ [0]) := by
  cases found : memory.region? address with
  | none =>
    simp only [mapText, Memory.region, found]
    exact ⟨rfl, fun text there => stores_mapped found there.2⟩
  | some served =>
    have among : served ∈ memory.regions := List.mem_of_find?_eq_some found
    have starts : served.start ≤ address.val.toNat := by simpa using List.find?_some found
    simp only [mapText, Memory.region, found]
    split
    next terminated =>
      split
      next text decoded =>
        have bytes := bytesOfText_textOfBytes? decoded
        intro other
        constructor
        · rintro ⟨clean, there⟩
          rw [(text_of_stored stacked found clean there).2, textOfBytes?_bytesOfText] at decoded
          exact Option.some.inj decoded
        · rintro rfl
          -- The text and the zero byte behind it are the front of what the region holds here.
          obtain ⟨rest, split⟩ := eq_takeWhile_append terminated
          rw [← bytes, List.append_cons] at split
          have clean : 0 ∉ bytesOfText other := by
            rw [bytes]
            exact fun zero => absurd (List.all_eq_true.mp List.all_takeWhile 0 zero) (by decide)
          have fits := congrArg List.length split
          simp only [List.length_drop, List.length_append, List.length_singleton] at fits
          refine ⟨not_mem_of_bytesOfText clean, served, among, starts, ?_, ?_⟩
          · rw [List.length_append, List.length_singleton]
            omega
          · unfold stretch
            rw [split, List.take_left]
      next malformed =>
        refine ⟨rfl, fun text ⟨clean, there⟩ => ?_⟩
        rw [(text_of_stored stacked found clean there).2, textOfBytes?_bytesOfText] at malformed
        cases malformed
    next unterminated =>
      exact ⟨rfl, fun text ⟨clean, there⟩ => unterminated (text_of_stored stacked found clean there).1⟩

end Stacked

/-- In every memory that allocations lead to, an access gives exactly what one region holds where
    it reaches, or a native fault.  Only an access of bytes whose end wraps around into its own
    region breaks off, and numbers are read where their address and offset wrap around to. -/
theorem accesses_exact (allocations : List (List UInt8)) (address : Address) :
    let memory := ({} : Memory).allocAll allocations
    (∀ len : UInt64,
      (memory.Wraps address len.toNat ∧ memory.mapFixed address len.toNat = .error (.crash none)) ∨
        ¬ memory.Wraps address len.toNat ∧ (memory.mapFixed address len.toNat).Exactly fun bytes =>
          bytes.length = len.toNat ∧ memory.Stores address.val.toNat bytes)
    ∧ ((memory.mapText address).Exactly fun text =>
        '\x00' ∉ text.toList ∧ memory.Stores address.val.toNat (bytesOfText text ++ [0]))
    ∧ ∀ offset : UInt64,
      let place := (address.val.toNat + offset.toNat) % UInt64.size
      ((memory.readU8 address offset).Exactly fun n => memory.Stores place [n])
      ∧ ((memory.readBool address offset).Exactly fun b => ∃ n, memory.Stores place [n] ∧ (n != 0) = b)
      ∧ ((memory.readI16 address offset).Exactly fun n => memory.Stores place (bytesOfNat 2 n.toUInt16.toNat))
      ∧ ((memory.readI32 address offset).Exactly fun n => memory.Stores place (bytesOfNat 4 n.toUInt32.toNat))
      ∧ ((memory.readU32 address offset).Exactly fun n => memory.Stores place (bytesOfNat 4 n.toNat))
      ∧ ((memory.readI64 address offset).Exactly fun n => memory.Stores place (bytesOfNat 8 n.toUInt64.toNat))
      ∧ ((memory.readAddress address offset).Exactly fun a => memory.Stores place (bytesOfNat 8 a.val.toNat)) := by
  have stacked := stacked_allocAll allocations
  refine ⟨fun len => mapFixed_exact stacked address len.toNat_lt, mapText_exact stacked, fun offset => ?_⟩
  have byte := readU8_exact stacked address offset
  refine ⟨byte, byte.map _, ?_, ?_, ?_, ?_, ?_⟩
  · exact decoded_exact stacked (by decide) address offset Int16.ofNat (fun n => n.toUInt16.toNat)
      (fun n fits => by rw [Int16.toUInt16_ofNat', UInt16.toNat_ofNat']; exact Nat.mod_eq_of_lt fits)
      fun n => ⟨n.toUInt16.toNat_lt, by rw [← UInt16.toInt16_ofNat', UInt16.ofNat_toNat, Int16.toInt16_toUInt16]⟩
  · exact readI32_exact stacked address offset
  · exact readU32_exact stacked address offset
  · exact decoded_exact stacked (by decide) address offset Int64.ofNat (fun n => n.toUInt64.toNat)
      (fun n fits => by rw [Int64.toUInt64_ofNat', UInt64.toNat_ofNat']; exact Nat.mod_eq_of_lt fits)
      fun n => ⟨n.toUInt64.toNat_lt, by rw [← UInt64.toInt64_ofNat', UInt64.ofNat_toNat, Int64.toInt64_toUInt64]⟩
  · exact readAddress_exact stacked address offset

/-- An access of nearly all the address space, from inside a region on, breaks off; and a byte at an
    offset that leaves the address space is read, though none lies there. -/
theorem access_around :
    let memory := ({} : Memory).allocAll [[1, 2, 3, 4]]
    memory.mapFixed ⟨0x1002⟩ (UInt64.toNat (-1)) = .error (.crash none)
    ∧ memory.readU8 ⟨-1⟩ 0x1001 = .ok 1
    ∧ (∀ n : UInt8, ¬ memory.Stores ((-1 : UInt64).toNat + (0x1001 : UInt64).toNat) [n]) := by
  refine ⟨?_, rfl, ?_⟩
  · have served : (({} : Memory).allocAll [[1, 2, 3, 4]]).region ⟨0x1002⟩ = .ok (2, [1, 2, 3, 4]) := rfl
    simp only [mapFixed, served]
    rw [if_neg (by decide), if_pos (by decide)]
  · rintro n ⟨region, among, -, inside, -⟩
    cases List.mem_singleton.mp among
    exact absurd inside (show ¬ (-1 : UInt64).toNat + (0x1001 : UInt64).toNat + 1 ≤ 0x1000 + 4 by decide)

end Memory

end CatalogReplica.Storage
