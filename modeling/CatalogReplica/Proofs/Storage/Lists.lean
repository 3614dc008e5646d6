import CatalogReplica.Proofs.Storage.Windows

/-!
# Lists of object numbers, read one by one

A list lies in memory behind its count, and a list column is read number by number.  Each access
stays inside one region, but the list need not: where a region ends without padding, the next one
begins right there, and the numbers behind the end are read from it.

* `Memory.Lists`: the count and each number of a list lie in some region.
* `Memory.Crosses`: the end of a region without padding falls between two numbers of a list.
* `Row.oidList_exact`: what a list column gives, and when that is a list of one region.
-/

namespace CatalogReplica.Storage

/-- The bytes of a list: its count, and its numbers behind it. -/
def bytesOfList (oids : List Oid) : List UInt8 := bytesOfNat 4 oids.length ++ Memory.bytesOfOids oids

/-! ## What one region keeps -/

theorem stretch_add (bytes : List UInt8) (offset width more : Nat) :
    stretch bytes offset (width + more) = stretch bytes offset width ++ stretch bytes (offset + width) more := by
  simp only [stretch, List.take_add, List.drop_drop]

namespace Region

variable {region : Region} {place : Nat}

theorem keeps_append {first second : List UInt8} :
    region.Keeps place (first ++ second) ↔ region.Keeps place first ∧ region.Keeps (place + first.length) second := by
  constructor
  · rintro ⟨starts, inside, here⟩
    rw [List.length_append] at inside here
    rw [stretch_add] at here
    have length : (stretch region.bytes (place - region.start) first.length).length = first.length := by
      simp only [stretch, List.length_take, List.length_drop]
      omega
    obtain ⟨front, back⟩ := List.append_inj here length
    refine ⟨⟨starts, by omega, front⟩, by omega, by omega, ?_⟩
    rw [show place + first.length - region.start = place - region.start + first.length by omega]
    exact back
  · rintro ⟨⟨starts, -, front⟩, -, inside, back⟩
    refine ⟨starts, by rw [List.length_append]; omega, ?_⟩
    rw [show place + first.length - region.start = place - region.start + first.length by omega] at back
    rw [List.length_append, stretch_add, front, back]

/-- A region keeps numbers one behind the other if it keeps each of them. -/
theorem keeps_oids {oids : List Oid} :
    region.Keeps place (Memory.bytesOfOids oids) ↔ region.Keeps place [] ∧
      ∀ index oid, oids[index]? = some oid → region.Keeps (place + 4 * index) (bytesOfNat 4 oid.val.toNat) := by
  induction oids generalizing place with
  | nil => exact ⟨fun keeps => ⟨keeps, fun index oid among => nomatch among⟩, And.left⟩
  | cons first rest inductionHypothesis =>
    rw [show Memory.bytesOfOids (first :: rest) = bytesOfNat 4 first.val.toNat ++ Memory.bytesOfOids rest from rfl,
      keeps_append, inductionHypothesis, length_bytesOfNat]
    constructor
    · rintro ⟨here, there, each⟩
      refine ⟨⟨here.1, by have := here.2.1; simp at this ⊢; omega, by simp [stretch]⟩, fun index oid among => ?_⟩
      cases index with
      | zero =>
        cases among
        exact here
      | succ index =>
        rw [show place + 4 * (index + 1) = place + 4 + 4 * index by omega]
        exact each index oid among
    · rintro ⟨empty, each⟩
      have here : region.Keeps place (bytesOfNat 4 first.val.toNat) := each 0 first rfl
      refine ⟨here, ?_, fun index oid among => ?_⟩
      · have := here.2.1
        rw [length_bytesOfNat] at this
        exact ⟨Nat.le_add_right_of_le here.1, by simpa using this, by simp [stretch]⟩
      · rw [show place + 4 + 4 * index = place + 4 * (index + 1) by omega]
        exact each (index + 1) oid among

end Region

/-! ## Lists in memory -/

namespace Memory

variable {memory : Memory} {place : Nat} {oids : List Oid}

/-- The count of the list lies at the place and its numbers behind it, each in some region. -/
structure Lists (memory : Memory) (place : Nat) (oids : List Oid) : Prop where
  counted : oids.length < 2 ^ 31
  /-- The last number has an address, so nothing wraps around on the way to it. -/
  straight : place + 4 * oids.length < UInt64.size
  count : memory.Stores place (bytesOfNat 4 oids.length)
  each : ∀ index oid, oids[index]? = some oid → memory.Stores (place + 4 + 4 * index) (bytesOfNat 4 oid.val.toNat)

/-- A region ends without padding inside the stretch, a multiple of four bytes behind its start. -/
def Crosses (memory : Memory) (place len : Nat) : Prop :=
  ∃ region ∈ memory.regions, ∃ behind ∈ memory.regions,
    region.start ≤ place ∧ place < behind.start ∧ behind.start < place + len
      ∧ behind.start = region.start + region.bytes.length ∧ (behind.start - place) % 4 = 0

section Stacked

variable (stacked : Stacked memory.next memory.regions)
include stacked

/-- A place is in the room of one region only. -/
theorem room_unique {region other : Region} (among : region ∈ memory.regions) (starts : region.start ≤ place)
    (within : place < region.stop) (among' : other ∈ memory.regions) (starts' : other.start ≤ place)
    (within' : place < other.stop) : other = region :=
  Option.some.inj ((stacked.find? among' starts' within').symm.trans (stacked.find? among starts within))

/-- The numbers of a list are in the region of its count, up to where the region ends without
    padding and the next one begins. -/
theorem Lists.inside (lists : memory.Lists place oids) {region : Region} (among : region ∈ memory.regions)
    (count : region.Keeps place (bytesOfNat 4 oids.length)) {upTo : Nat} (fewer : upTo ≤ oids.length) :
    place + 4 + 4 * upTo ≤ region.start + region.bytes.length ∨ memory.Crosses place (4 + 4 * upTo) := by
  induction upTo with
  | zero =>
    have inside := count.2.1
    rw [length_bytesOfNat] at inside
    exact .inl (by omega)
  | succ upTo inductionHypothesis =>
    cases inductionHypothesis (by omega) with
    | inr crosses =>
      obtain ⟨full, here, behind, there, starts, before, within, ends, whole⟩ := crosses
      exact .inr ⟨full, here, behind, there, starts, before, by omega, ends, whole⟩
    | inl inside =>
      obtain ⟨oid, number⟩ : ∃ oid, oids[upTo]? = some oid := ⟨oids[upTo], List.getElem?_eq_getElem (by omega)⟩
      obtain ⟨holder, among', starts', inside', -⟩ := lists.each upTo oid number
      rw [length_bytesOfNat] at inside'
      have stop := region.stop_bounds.1
      have stop' := holder.stop_bounds.1
      have starts := count.1
      by_cases within : place + 4 + 4 * upTo < region.stop
      · have same := room_unique stacked among (by omega) within among' starts' (by omega)
        rw [same] at inside'
        exact .inl (by omega)
      · -- The region is full and ends where this number lies, in the region behind it.
        obtain ⟨other, found, next⟩ := stacked.find?_stop among
        have here : memory.regions.find? (·.start ≤ region.stop) = some holder :=
          stacked.find? among' (by omega) (by omega)
        cases found.symm.trans here
        have behind : holder.start = region.stop := by
          cases next with
          | inl same =>
            rw [same] at inside' stop'
            omega
          | inr behind => exact behind
        exact .inr ⟨region, among, holder, among', starts, by omega, by omega, by omega, by omega⟩

/-- A list lies in memory if one region keeps it whole, or if it crosses the end of a region. -/
theorem lists_iff : memory.Lists place oids ↔
    (oids.length < 2 ^ 31 ∧ place + 4 * oids.length < UInt64.size ∧ memory.Stores place (bytesOfList oids)) ∨
      memory.Lists place oids ∧ memory.Crosses place (4 + 4 * oids.length) := by
  constructor
  · intro lists
    obtain ⟨region, among, count⟩ := lists.count
    cases lists.inside stacked among count (Nat.le_refl _) with
    | inr crosses => exact .inr ⟨lists, crosses⟩
    | inl inside =>
      refine .inl ⟨lists.counted, lists.straight, region, among, Region.keeps_append.mpr ⟨count, ?_⟩⟩
      rw [length_bytesOfNat]
      have starts := count.1
      -- Each number ends inside the region of the count, which so is the region that keeps the number.
      refine Region.keeps_oids.mpr ⟨⟨by omega, by simp; omega, by simp [stretch]⟩, fun index oid number => ?_⟩
      obtain ⟨holder, among', keeps⟩ := lists.each index oid number
      have bound := (List.getElem?_eq_some_iff.mp number).1
      have stop := region.stop_bounds.1
      have stop' := holder.stop_bounds.1
      have inside' := keeps.2.1
      rw [length_bytesOfNat] at inside'
      exact room_unique stacked among (by omega) (by omega) among' keeps.1 (by omega) ▸ keeps
  · rintro (⟨counted, straight, region, among, whole⟩ | ⟨lists, -⟩)
    · obtain ⟨count, rest⟩ := Region.keeps_append.mp whole
      rw [length_bytesOfNat] at rest
      exact ⟨counted, straight, ⟨region, among, count⟩, fun index oid number =>
        ⟨region, among, (Region.keeps_oids.mp rest).2 index oid number⟩⟩
    · exact lists

/-! ## Reading numbers one by one -/

theorem stores_bounds {bytes : List UInt8} (there : memory.Stores place bytes) :
    0x1000 ≤ place ∧ place + bytes.length ≤ memory.next := by
  obtain ⟨region, among, starts, inside, -⟩ := there
  have bounds := stacked.bounds among
  have stop := region.stop_bounds.1
  omega

/-- The numbers are read where they follow one another, wrapping around. -/
theorem readOids_exact (address : Address) (count index : Nat) :
    (memory.readOids address count index).Exactly fun oids =>
      oids.length = count ∧ ∀ step oid, oids[step]? = some oid →
        memory.Stores ((address.val.toNat + (4 + (index + step) * 4)) % UInt64.size) (bytesOfNat 4 oid.val.toNat) := by
  induction count generalizing index with
  | zero =>
    intro oids
    constructor
    · exact fun none => List.length_eq_zero_iff.mp none.1
    · rintro rfl
      exact ⟨rfl, by rintro step oid ⟨⟩⟩
  | succ count inductionHypothesis =>
    have one := readU32_exact stacked address (UInt64.ofNat (4 + index * 4))
    have split : memory.readOids address (count + 1) index =
        memory.readU32 address (UInt64.ofNat (4 + index * 4)) >>= fun first =>
          (memory.readOids address count (index + 1)).map (⟨first⟩ :: ·) := by
      rw [readOids]
      cases memory.readU32 address (UInt64.ofNat (4 + index * 4)) with
      | error interrupt => rfl
      | ok first => cases memory.readOids address count (index + 1) <;> rfl
    rw [split]
    refine (one.bind fun first _ => (inductionHypothesis (index + 1)).map (⟨first⟩ :: ·)).congr fun oids => ?_
    rw [UInt64.toNat_ofNat', show 2 ^ 64 = UInt64.size from rfl]
    simp only [Nat.add_mod_mod]
    constructor
    · rintro ⟨length, each⟩
      cases oids with
      | nil => cases length
      | cons first rest =>
        refine ⟨first.val, each 0 first rfl, rest, ⟨Nat.succ.inj length, fun step oid number => ?_⟩, rfl⟩
        rw [show index + 1 + step = index + (step + 1) by omega]
        exact each (step + 1) oid number
    · rintro ⟨first, here, rest, ⟨length, each⟩, rfl⟩
      refine ⟨congrArg Nat.succ length, fun step oid number => ?_⟩
      cases step with
      | zero =>
        cases number
        exact here
      | succ step =>
        rw [show index + (step + 1) = index + 1 + step by omega]
        exact each step oid number

/-- A number that wrapped around on the way through a list would lie in front of all regions. -/
theorem straight_iff {address : Address} :
    (∀ step oid, oids[step]? = some oid →
      memory.Stores ((address.val.toNat + (4 + (0 + step) * 4)) % UInt64.size) (bytesOfNat 4 oid.val.toNat)) ↔
    address.val.toNat + 4 * oids.length < UInt64.size ∧
      ∀ step oid, oids[step]? = some oid → memory.Stores (address.val.toNat + 4 + 4 * step) (bytesOfNat 4 oid.val.toNat) := by
  have regroup : ∀ step, address.val.toNat + (4 + (0 + step) * 4) = address.val.toNat + 4 + 4 * step := fun step => by omega
  have size : UInt64.size = 18446744073709551616 := rfl
  simp only [regroup]
  constructor
  · intro each
    have short : ∀ upTo ≤ oids.length, address.val.toNat + 4 * upTo < UInt64.size := by
      intro upTo
      induction upTo with
      | zero => exact fun _ => address.val.toNat_lt
      | succ upTo inductionHypothesis =>
        -- No number before this one wrapped around, so this one could wrap to the first few bytes only.
        intro bound
        have before := inductionHypothesis (by omega)
        have here := (stores_bounds stacked (each upTo oids[upTo] (List.getElem?_eq_getElem bound))).1
        rw [size] at before here ⊢
        omega
    refine ⟨short oids.length (Nat.le_refl _), fun step oid number => ?_⟩
    have bound := short (step + 1) (List.getElem?_eq_some_iff.mp number).1
    have here := each step oid number
    rwa [Nat.mod_eq_of_lt (by omega)] at here
  · rintro ⟨short, each⟩ step oid number
    have bound := (List.getElem?_eq_some_iff.mp number).1
    rw [Nat.mod_eq_of_lt (by omega)]
    exact each step oid number

end Stacked

end Memory

/-! ## List columns -/

namespace Row

variable {row : Row} {column : String}

theorem spot_exact (row : Row) (column : String) (type : ColumnType) :
    (row.spot column type).Exactly fun offset =>
      ∃ spot, row.layout.field? column = some spot ∧ spot.type = type ∧ UInt64.ofNat spot.offset = offset := by
  unfold Row.spot Layout.field
  cases found : row.layout.field? column with
  | none => exact ⟨rfl, fun offset ⟨spot, other, _⟩ => nomatch other⟩
  | some spot =>
    dsimp only
    split
    next same =>
      intro offset
      constructor
      · rintro ⟨other, here, -, rfl⟩
        cases here
        rfl
      · rintro rfl
        exact ⟨spot, rfl, same, rfl⟩
    next differs =>
      refine ⟨rfl, fun offset ⟨other, here, same, _⟩ => ?_⟩
      cases here
      exact differs same

/-- The column is one of lists and holds the address. -/
def Points (row : Row) (column : String) (pointer : Address) : Prop :=
  ∃ spot, row.layout.field? column = some spot ∧ spot.type = .oidList ∧
    row.memory.Stores ((row.address.val.toNat + spot.offset) % UInt64.size) (bytesOfNat 8 pointer.val.toNat)

theorem points_exact (stacked : Stacked row.memory.next row.memory.regions) (column : String) :
    Fetched.Exactly (row.spot column .oidList >>= row.memory.readAddress row.address) (row.Points column) := by
  refine ((spot_exact row column .oidList).bind fun offset _ => Memory.readAddress_exact stacked row.address offset).congr fun pointer => ?_
  constructor
  · rintro ⟨spot, found, same, there⟩
    refine ⟨_, ⟨spot, found, same, rfl⟩, ?_⟩
    rwa [UInt64.toNat_ofNat', show 2 ^ 64 = UInt64.size from rfl, Nat.add_mod_mod]
  · rintro ⟨offset, ⟨spot, found, same, rfl⟩, there⟩
    rw [UInt64.toNat_ofNat', show 2 ^ 64 = UInt64.size from rfl, Nat.add_mod_mod] at there
    exact ⟨spot, found, same, there⟩

end Row

theorem Memory.lists_exact {memory : Memory} (stacked : Stacked memory.next memory.regions) (pointer : Address) {negative : Int32 → Fault}
    (native : ∀ count, (negative count).kind = .native) :
    Fetched.Exactly (memory.readI32 pointer 0 >>= fun count =>
        if count < 0 then .error (.fault (negative count)) else memory.readOids pointer count.toInt.toNat 0)
      (memory.Lists pointer.val.toNat) := by
  have numbers : ∀ count : Int32, Fetched.Exactly
      (if count < 0 then .error (.fault (negative count)) else memory.readOids pointer count.toInt.toNat 0)
      fun oids => 0 ≤ count.toInt ∧ oids.length = count.toInt.toNat ∧
        pointer.val.toNat + 4 * oids.length < UInt64.size ∧ ∀ step oid, oids[step]? = some oid →
          memory.Stores (pointer.val.toNat + 4 + 4 * step) (bytesOfNat 4 oid.val.toNat) := by
    intro count
    split
    next below =>
      rw [Int32.lt_iff_toInt_lt] at below
      exact ⟨native count, fun oids ⟨above, _⟩ => absurd below (Int.not_lt.mpr above)⟩
    next above =>
      rw [Int32.lt_iff_toInt_lt] at above
      refine (readOids_exact stacked pointer _ 0).congr fun oids => ?_
      rw [straight_iff stacked]
      exact ⟨fun there => there.2, fun there => ⟨Int.not_lt.mp above, there⟩⟩
  refine ((readI32_exact stacked pointer 0).bind fun count _ => numbers count).congr fun oids => ?_
  have there : (pointer.val.toNat + (0 : UInt64).toNat) % UInt64.size = pointer.val.toNat :=
    Nat.mod_eq_of_lt pointer.val.toNat_lt
  rw [there]
  constructor
  · rintro ⟨counted, straight, count, each⟩
    have signed : (Int32.ofNat oids.length).toInt = oids.length := Int32.toInt_ofNat_of_lt counted
    refine ⟨Int32.ofNat oids.length, ?_, by omega, by omega, straight, each⟩
    rwa [Int32.toUInt32_ofNat', UInt32.toNat_ofNat', Nat.mod_eq_of_lt (by omega)]
  · rintro ⟨count, here, above, length, straight, each⟩
    have signed := BitVec.toInt_eq_toNat_cond count.toBitVec
    -- Signed or not, a count that is not negative is the same number.
    have unsigned : count.toUInt32.toNat = count.toBitVec.toNat := rfl
    have same : count.toInt = count.toBitVec.toInt := rfl
    have code : count.toUInt32.toNat = oids.length := by split at signed <;> omega
    have small := count.toInt_lt
    exact ⟨by omega, straight, code ▸ here, each⟩

theorem Row.list_run (row : Row) (column : String) :
    row.oidList column = (row.spot column .oidList >>= row.memory.readAddress row.address) >>= fun pointer =>
      if pointer.isNull then .ok [] else row.memory.readI32 pointer 0 >>= fun count =>
        if count < 0 then .error (.fault {
            kind := .native
            message := "negative oid list length"
            context := [("column", column), ("count", toString count.toInt)] })
        else row.memory.readOids pointer count.toInt.toNat 0 := by
  unfold oidList
  rw [bind_assoc]
  rfl

/-- A list column gives no numbers where it holds no address, the numbers of the list that lies
    where it points to, and a native fault where there is no list.  A list lies there if one
    region keeps it whole, or if it crosses the end of a region without padding. -/
theorem Row.oidList_exact (allocations : List (List UInt8)) (layout : Layout) (address : Address) (column : String) :
    let memory := ({} : Memory).allocAll allocations
    let row : Row := ⟨memory, layout, address⟩
    ((row.oidList column).Exactly fun oids => ∃ pointer, row.Points column pointer ∧
      if pointer.isNull then oids = [] else memory.Lists pointer.val.toNat oids)
    ∧ ∀ place oids, memory.Lists place oids ↔
        (oids.length < 2 ^ 31 ∧ place + 4 * oids.length < UInt64.size ∧ memory.Stores place (bytesOfList oids)) ∨
          memory.Lists place oids ∧ memory.Crosses place (4 + 4 * oids.length) := by
  have stacked := Memory.stacked_allocAll allocations
  refine ⟨?_, fun place oids => Memory.lists_iff stacked⟩
  rw [list_run]
  refine (Row.points_exact stacked column).bind fun pointer _ => ?_
  split
  next null => exact fun oids => Iff.rfl
  next there => exact Memory.lists_exact stacked pointer fun _ => rfl

/-- The count says four and the region ends behind three numbers: the fourth one is read from the
    region behind it. -/
theorem Row.oidList_overruns :
    let memory := ({} : Memory).allocAll
      [bytesOfNat 4 4 ++ Memory.bytesOfOids [⟨1⟩, ⟨2⟩, ⟨3⟩], bytesOfNat 4 42, bytesOfNat 8 0x1000]
    Row.oidList ⟨memory, ({ classOid := ⟨9⟩ } : Layout).withField "l" .oidList, ⟨0x1020⟩⟩ "l"
        = .ok [⟨1⟩, ⟨2⟩, ⟨3⟩, ⟨42⟩]
      ∧ ¬ memory.Stores 0x1000 (bytesOfList [⟨1⟩, ⟨2⟩, ⟨3⟩, ⟨42⟩]) := by
  exact ⟨rfl, by decide +kernel⟩

end CatalogReplica.Storage
