import CatalogReplica.Proofs.Identity.Tables

/-!
# What an identity cache reports

The reports of a cache account for its entries: an entry is there just if its key was
entered and has not left since, and reports of one key alternate.

* `Note.follow`: the entry of a key, as the reports tell it.
* `Cache.Accounts`: reports that tell what an operation did to the table.
* `Cache.ask_accounts`, `Cache.settle_accounts`, ...: the operations.
-/

namespace CatalogReplica.Identity

namespace Note

variable {κ : Type} {notes more : List (Note κ)}

/-- How often the reports move a counter. -/
def counted (counter : Counter) (notes : List (Note κ)) : Nat :=
  (notes.filterMap counter?).count counter

/-- The entries that left, with the reason, in order. -/
def departures (notes : List (Note κ)) : List (κ × Departure) := notes.filterMap departure?

@[simp] theorem counted_append (counter : Counter) :
    counted counter (notes ++ more) = counted counter notes + counted counter more := by
  simp [counted]

@[simp] theorem departures_cons (note : Note κ) :
    departures (note :: notes) = note.departure?.toList ++ departures notes := by
  cases note <;> rfl

@[simp] theorem departures_append : departures (notes ++ more) = departures notes ++ departures more := by
  simp [departures]

@[simp] theorem departures_left (why : Departure) (keys : List κ) :
    departures (keys.map (.left why)) = keys.map (·, why) := by
  simp [departures, List.filterMap_map, Function.comp_def, departure?]

@[simp] theorem counted_cons (counter : Counter) (note : Note κ) :
    counted counter (note :: notes)
      = counted counter notes + if note.counter? = some counter then 1 else 0 := by
  unfold counted
  rw [List.filterMap_cons]
  cases moves : note.counter? with
  | none => simp
  | some other => by_cases same : other = counter <;> simp [same]

/-- Entries that leave are counted by the reason. -/
theorem counted_departures (why : Departure) (counter : Counter)
    (counts : ∀ note : Note κ, note.counter? = some counter ↔ ∃ key, note = .left why key) :
    counted counter notes = (departures notes).countP (·.2 = why) := by
  induction notes with
  | nil => rfl
  | cons note notes ih =>
    rw [counted_cons, ih]
    cases note with
    | left reason key =>
      by_cases same : reason = why <;> simp [counts, departure?, same]
    | _ => simp [counts, departure?]

/-- Reports of entries that leave count as nothing else. -/
theorem counted_left {counter : Counter} (other : ∀ why (key : κ), (left why key).counter? ≠ some counter)
    (why : Departure) (keys : List κ) : counted counter (keys.map (.left why)) = 0 := by
  induction keys with
  | nil => rfl
  | cons key keys ih => simp [ih, other why key]

theorem left_constructs (why : Departure) (key : κ) : (left why key).counter? ≠ some .identityConstruct := by
  cases why <;> simp [counter?]

theorem left_hits (why : Departure) (key : κ) : (left why key).counter? ≠ some .identityHit := by
  cases why <;> simp [counter?]

theorem left_misses (why : Departure) (key : κ) : (left why key).counter? ≠ some .identityMiss := by
  cases why <;> simp [counter?]

/-- The counters move as often as the reports say. -/
theorem get_count (notes : List (Note κ)) (tally : Tally) (counter : Counter) :
    (count notes tally).get counter = tally.get counter + counted counter notes := by
  unfold count counted
  generalize notes.filterMap counter? = counters
  induction counters generalizing tally with
  | nil => simp
  | cons first counters ih =>
    rw [List.foldl_cons, ih, Tally.get_add]
    by_cases same : first = counter
    · simp [same]
      omega
    · simp [same, Ne.symm same]

theorem count_append (notes more : List (Note κ)) (tally : Tally) :
    count (notes ++ more) tally = count more (count notes tally) := by
  simp [count, List.filterMap_append, List.foldl_append]

variable [DecidableEq κ]

/-- Follows the entry of a key through the reports, from whether it is there to whether it
    is there in the end.  A key that is entered twice, or leaves without an entry, leads
    nowhere. -/
def follow (key : κ) : List (Note κ) → Bool → Option Bool
  | [], inside => some inside
  | .constructed other :: notes, inside =>
      if other ≠ key then follow key notes inside
      else if inside then none else follow key notes true
  | .left _ other :: notes, inside =>
      if other ≠ key then follow key notes inside
      else if inside then follow key notes false else none
  | .hit :: notes, inside => follow key notes inside
  | .miss :: notes, inside => follow key notes inside

theorem follow_append (key : κ) (inside : Bool) :
    follow key (notes ++ more) inside = (follow key notes inside).bind (follow key more) := by
  induction notes generalizing inside with
  | nil => rfl
  | cons note notes ih => cases note <;> simp only [List.cons_append, follow, ih] <;> split <;> (try split) <;> simp

/-- Keys that leave once each. -/
theorem follow_left (key : κ) (why : Departure) {keys : List κ} (once : keys.Nodup) (inside : Bool) :
    follow key (keys.map (.left why)) inside
      = if key ∈ keys then (if inside then some false else none) else some inside := by
  induction keys generalizing inside with
  | nil => rfl
  | cons first keys ih =>
    rw [List.nodup_cons] at once
    rw [List.map_cons, follow, ih once.2, ih once.2]
    by_cases same : first = key
    · simp [← same, once.1]
    · simp [same, Ne.symm same]

end Note

namespace Cache

variable {κ ν : Type} [DecidableEq κ] [DecidableEq ν]
  {cache before mid after : Cache κ ν} {alive : ν → Bool} {key : κ} {value : ν} {thread : Nat}
  {notes more : List (Note κ)}

/-! ## Presence -/

/-- Whether a key has an entry, dead or alive. -/
def has (cache : Cache κ ν) (key : κ) : Bool := (cache.find? key).isSome

omit [DecidableEq ν] in
theorem has_iff : cache.has key = true ↔ key ∈ cache.table.map (·.1) := by
  simp [has, find?, List.lookup_isSome_iff]

omit [DecidableEq ν] in
theorem has_of_find? (found : cache.find? key = some value) : cache.has key = true := by
  simp [has, found]

omit [DecidableEq ν] in
theorem has_congr (same : after.table = before.table) : after.has key = before.has key := by
  simp [has, find?, same]

omit [DecidableEq ν] in
theorem filter_key (unique : cache.Unique) (found : cache.find? key = some value) :
    cache.table.filter (fun entry => entry.1 == key) = [(key, value)] := by
  unfold Unique at unique
  unfold find? at found
  generalize cache.table = table at unique found
  induction table with
  | nil => cases found
  | cons first rest ih =>
    obtain ⟨firstKey, firstValue⟩ := first
    simp only [List.map_cons, List.nodup_cons] at unique
    rw [List.lookup_cons] at found
    by_cases same : key = firstKey
    · subst same
      rw [beq_self_eq_true] at found
      cases found
      have others : rest.filter (fun entry => entry.1 == key) = [] := by
        refine List.filter_eq_nil_iff.mpr fun entry among isKey => unique.1 ?_
        exact List.mem_map.mpr ⟨entry, among, by simpa using isKey⟩
      simp [others]
    · rw [show (key == firstKey) = false by simpa using same] at found
      simp [Ne.symm same, ih unique.2 found]

/-! ## Keys under construction -/

section apart

omit [DecidableEq ν]

/-- No key under construction has an entry. -/
def Apart (cache : Cache κ ν) : Prop := ∀ key, cache.has key = true → cache.claim? key = none

/-- Where entries only go and claims stay, no key under construction gets an entry. -/
theorem Apart.of_fewer (apart : before.Apart) (fewer : ∀ entry ∈ after.table, entry ∈ before.table)
    (claims : after.claims = before.claims) : after.Apart := by
  intro key present
  rw [has_iff] at present
  obtain ⟨entry, among, rfl⟩ := List.mem_map.mp present
  rw [claim?, claims]
  exact apart entry.1 (has_iff.mpr (List.mem_map_of_mem (fewer entry among)))

/-- A key that gets under construction loses its entry. -/
theorem Apart.of_claimed (apart : before.Apart) (table : after.table = (before.erase key).table)
    (claims : after.claims = ⟨key, thread⟩ :: before.claims) : after.Apart := by
  intro other present
  have only : other ≠ key := by
    rw [has_iff, table] at present
    obtain ⟨entry, among, rfl⟩ := List.mem_map.mp present
    exact (mem_erase.mp among).2
  have fewer (entry : κ × ν) (among : entry ∈ after.table) : entry ∈ before.table :=
    (mem_erase.mp (table ▸ among)).1
  let unclaimed : Cache κ ν := { after with claims := before.claims }
  have unclaimedApart : unclaimed.Apart := apart.of_fewer fewer rfl
  have free := unclaimedApart other present
  rw [claim?, claims, List.find?_cons, show (key == other) = false by simpa using Ne.symm only]
  exact free

/-- A key under construction has no entry. -/
theorem Apart.absent (apart : cache.Apart) (claimed : ⟨key, thread⟩ ∈ cache.claims) : cache.has key = false := by
  rw [← Bool.not_eq_true]
  intro present
  have free := List.find?_eq_none.mp (apart key present) _ claimed
  simp at free

/-- The key that gets its entry is no longer under construction. -/
theorem Apart.of_settled (apart : before.Apart) (settled : Settled alive key value before after) :
    after.Apart := by
  intro other present
  rw [claim?, settled.claims, List.find?_filter]
  rw [has_iff] at present
  obtain ⟨entry, among, rfl⟩ := List.mem_map.mp present
  refine List.find?_eq_none.mpr fun claim isClaim same => ?_
  obtain ⟨another, same⟩ : claim.key ≠ key ∧ claim.key = entry.1 := by simpa using same
  obtain rfl | ⟨earlier, -⟩ := settled.entries entry among
  · exact another same
  · have free := apart entry.1 (has_iff.mpr (List.mem_map_of_mem earlier))
    exact absurd (beq_iff_eq.mpr same) (List.find?_eq_none.mp free claim isClaim)

end apart

/-! ## Accounts -/

/-- The reports tell what happened to the table: as many entries came as objects were
    constructed, as many went as were reported to leave, and every key came and went in
    turn. -/
structure Accounts (notes : List (Note κ)) (before after : Cache κ ν) : Prop where
  balance : Note.counted .identityConstruct notes + before.length
    = (Note.departures notes).length + after.length
  follow : ∀ key, Note.follow key notes (before.has key) = some (after.has key)

namespace Accounts

omit [DecidableEq ν]

theorem idle (same : after.table = before.table) (quiet : Note.counted .identityConstruct notes = 0)
    (stays : Note.departures notes = []) (silent : ∀ key inside, Note.follow key notes inside = some inside) :
    Accounts notes before after :=
  ⟨by simp [quiet, stays, length, same], fun key => by rw [silent, has_congr same]⟩

theorem trans (first : Accounts notes before mid) (second : Accounts more mid after) :
    Accounts (notes ++ more) before after := by
  refine ⟨?_, fun key => by rw [Note.follow_append, first.follow, Option.bind_some, second.follow]⟩
  have balance := first.balance
  have balance' := second.balance
  simp
  omega

/-- Hits and misses change nothing. -/
theorem miss (cache : Cache κ ν) : Accounts [.miss] cache cache := .idle rfl rfl rfl fun _ _ => rfl

theorem hit (cache : Cache κ ν) : Accounts [.hit] cache cache := .idle rfl rfl rfl fun _ _ => rfl

/-- Entries that are reported when they go. -/
theorem filter (unique : before.Unique) (keep : κ × ν → Bool) (after : Cache κ ν)
    (same : after.table = before.table.filter keep) (why : Departure) :
    Accounts ((before.table.filter fun entry => !keep entry).map fun entry => .left why entry.1)
      before after := by
  have gone : ((before.table.filter fun entry => !keep entry).map fun entry => (.left why entry.1 : Note κ))
      = ((before.table.filter fun entry => !keep entry).map (·.1)).map (.left why) := by
    rw [List.map_map]
    rfl
  have once : ((before.table.filter fun entry => !keep entry).map (·.1)).Nodup :=
    List.Sublist.nodup (List.filter_sublist.map _) unique
  rw [gone]
  constructor
  · have split := before.table.length_eq_countP_add_countP keep
    simp only [List.countP_eq_length_filter, decide_not, Bool.decide_eq_true] at split
    rw [Note.counted_left Note.left_constructs, Note.departures_left, length, length, same]
    simp
    omega
  · intro key
    rw [Note.follow_left key why once]
    cases found : before.find? key with
    | none =>
      -- no entry of the key to begin with
      have absent (value : ν) : (key, value) ∉ before.table := not_mem_of_find? found
      have absent' : after.has key = false := by
        rw [Bool.eq_false_iff, ne_eq, has_iff, same]
        simp [absent]
      rw [absent', has, found]
      simp [absent]
    | some value =>
      have own (other : ν) : (key, other) ∈ before.table ↔ other = value :=
        ⟨fun among => unique.eq among (mem_of_find? found), fun eq => eq ▸ mem_of_find? found⟩
      have kept : after.has key = keep (key, value) := by
        rw [Bool.eq_iff_iff, has_iff, same]
        simp [own]
      cases keeps : keep (key, value) <;> simp [own, has_of_find? found, kept, keeps]

/-- An entry is reported when it goes. -/
theorem erase (unique : cache.Unique) (found : cache.find? key = some value) (why : Departure) :
    Accounts [.left why key] cache (cache.erase key) := by
  have accounts := filter unique (fun entry => entry.1 != key) (cache.erase key) rfl why
  have only : (cache.table.filter fun entry => !(entry.1 != key)) = [(key, value)] := by
    rw [← filter_key unique found]
    exact List.filter_congr fun entry _ => Bool.not_not _
  rw [only] at accounts
  exact accounts

end Accounts

/-! ## Operations -/

section operations

variable (unique : cache.Unique)

include unique

omit [DecidableEq ν]

/-- A lookup accounts for what it does if no key under construction has an entry. -/
theorem ask_accounts (apart : cache.has key = true → cache.claim? key = none) (alive : ν → Bool)
    (thread : Nat) :
    Accounts (cache.ask alive thread key).2.1 cache (cache.ask alive thread key).2.2 := by
  have claimed (before : Cache κ ν) : (before.claim thread key).2.table = before.table := by
    obtain ⟨asked, -, -, run⟩ | ⟨-, run⟩ := before.claim_cases thread key <;> rw [run]
  unfold ask
  cases found : cache.find? key with
  | none => exact .idle (claimed cache) rfl rfl fun _ _ => rfl
  | some value =>
    dsimp only
    cases alive value with
    | true => exact .hit cache
    | false =>
      -- the key has an entry, so it is not under construction, and the reclaim is reported
      have free := apart (has_of_find? found)
      have build : (cache.erase key).claim thread key
          = (.build, { cache.erase key with claims := ⟨key, thread⟩ :: cache.claims }) := by
        obtain ⟨asked, -, held, -⟩ | ⟨-, run⟩ := (cache.erase key).claim_cases thread key
        · exact absurd free held
        · exact run
      have reported (after : Cache κ ν) : after.removal .build key = [.left .reclaimed key] := by
        unfold removal
        cases after.discipline <;> rfl
      simp only [build, reported, Bool.false_eq_true, if_false]
      exact (Accounts.miss cache).trans
        ((Accounts.erase unique found .reclaimed).trans (.idle rfl rfl rfl fun _ _ => rfl))

theorem enter_accounts (absent : cache.has key = false) (after : Cache κ ν)
    (table : after.table = (key, value) :: cache.table) :
    Accounts [.constructed key] cache after ∧ after.Unique := by
  refine ⟨⟨?_, fun other => ?_⟩, ?_⟩
  · have balance : after.length = cache.length + 1 := by simp [length, table]
    rw [balance]
    change 1 + cache.length = 0 + (cache.length + 1)
    omega
  · by_cases same : key = other
    · subst same
      have entered : after.has key = true := by simp [has, find?, table]
      simp [Note.follow, absent, entered]
    · have skip : (other == key) = false := by simpa using Ne.symm same
      have present : after.has other = cache.has other := by
        simp only [has, find?, table, List.lookup_cons, skip]
      simp [Note.follow, same, present]
  · unfold Unique
    rw [table, List.map_cons, List.nodup_cons]
    refine ⟨fun among => ?_, unique⟩
    rw [← has_iff, absent] at among
    cases among

theorem sweep_accounts (alive : ν → Bool) (shard : Nat) :
    Accounts ((cache.sweep alive shard).1.map (.left .reclaimed)) cache (cache.sweep alive shard).2 := by
  unfold sweep
  split
  · exact .idle rfl rfl rfl fun _ _ => rfl
  · have accounts := Accounts.filter unique (fun entry => cache.shard entry.1 != shard || alive entry.2)
      { cache with table := cache.table.filter fun entry => cache.shard entry.1 != shard || alive entry.2 }
      rfl .reclaimed
    have swept : (cache.inShard shard).filter (fun entry => !alive entry.2)
        = cache.table.filter fun entry => !(cache.shard entry.1 != shard || alive entry.2) := by
      rw [inShard, List.filter_filter]
      refine List.filter_congr fun entry _ => ?_
      cases alive entry.2 <;> simp [bne]
    rw [List.map_map, swept]
    exact ⟨accounts.balance, accounts.follow⟩

/-- Ending a claim accounts for the new entry and for those swept, if the key has none. -/
theorem settle_accounts (absent : cache.has key = false) (alive : ν → Bool) (value : ν) :
    Accounts (cache.settle alive key value).2.1 cache (cache.settle alive key value).2.2 := by
  have alone : (cache.erase key).table = cache.table := by
    refine List.filter_eq_self.mpr fun entry among => ?_
    rw [bne_iff_ne]
    rintro rfl
    rw [← Bool.not_eq_true, has_iff] at absent
    exact absent (List.mem_map_of_mem among)
  obtain ⟨enters, uniqueEntered⟩ := enter_accounts unique absent ((cache.abandon key).insert key value)
    (congrArg ((key, value) :: ·) alone)
  have sweeps := sweep_accounts uniqueEntered alive (((cache.abandon key).insert key value).shard key)
  have queued : Accounts [] _ (cache.settle alive key value).2.2 :=
    .idle (table_queue _ value) rfl rfl fun _ _ => rfl
  have all := enters.trans (sweeps.trans queued)
  rw [List.append_nil] at all
  exact all

/-- Asking for the live object of a key accounts for a dead entry that is removed. -/
theorem get?_accounts (alive : ν → Bool) (key : κ) :
    Accounts (cache.get? alive key).2.1 cache (cache.get? alive key).2.2 := by
  unfold get?
  cases found : cache.find? key with
  | none => exact .miss cache
  | some value =>
    dsimp only
    cases alive value with
    | true => exact .hit cache
    | false =>
      cases cache.discipline with
      | shared shards => exact .miss cache
      | confined => exact (Accounts.erase unique found .reclaimed).trans (.miss _)

theorem evict_accounts [DecidableEq ν] (alive : ν → Bool) (key : κ) :
    Accounts (cache.evict alive key).2.1 cache (cache.evict alive key).2.2 := by
  unfold evict
  cases found : cache.find? key with
  | none => exact .idle rfl rfl rfl fun _ _ => rfl
  | some value =>
    dsimp only
    cases alive value with
    | true =>
      exact (Accounts.erase unique found .evicted).trans (.idle rfl rfl rfl fun _ _ => rfl)
    | false => exact Accounts.erase unique found .evicted

theorem clear_accounts : Accounts cache.clear.1 cache cache.clear.2 := by
  have accounts := Accounts.filter unique (fun _ => false) cache.clear.2 (by simp [clear]) .cleared
  rwa [show (cache.table.filter fun _ => !false) = cache.table from List.filter_eq_self.mpr fun _ _ => rfl]
    at accounts

theorem purge_accounts (alive : ν → Bool) :
    Accounts (cache.purge alive).2.1 cache (cache.purge alive).2.2 := by
  have accounts := Accounts.filter unique (fun entry => alive entry.2) (cache.purge alive).2.2 rfl .reclaimed
  simpa [purge, dead, Function.comp_def] using accounts

end operations

/-! ## Looks and constructions -/

section looks

omit [DecidableEq ν]

/-- How many constructions there are among the reports, and how many hits and misses. -/
structure Counted (constructions looks : Nat) (notes : List (Note κ)) : Prop where
  constructions : Note.counted .identityConstruct notes = constructions
  looks : Note.counted .identityHit notes + Note.counted .identityMiss notes = looks

omit [DecidableEq κ] in
theorem left_counted (why : Departure) (keys : List κ) : Counted 0 0 (keys.map (.left why)) := by
  constructor <;> simp [Note.counted_left Note.left_constructs, Note.counted_left Note.left_hits,
    Note.counted_left Note.left_misses]

theorem ask_counted (cache : Cache κ ν) (alive : ν → Bool) (thread : Nat) (key : κ) :
    Counted 0 1 (cache.ask alive thread key).2.1 := by
  unfold ask
  cases cache.find? key with
  | none => exact ⟨rfl, rfl⟩
  | some value =>
    dsimp only
    cases alive value with
    | true => exact ⟨rfl, rfl⟩
    | false =>
      simp only [Bool.false_eq_true, if_false]
      unfold removal
      split <;> exact ⟨rfl, rfl⟩

theorem get?_counted (cache : Cache κ ν) (alive : ν → Bool) (key : κ) :
    Counted 0 1 (cache.get? alive key).2.1 := by
  unfold get?
  cases cache.find? key with
  | none => exact ⟨rfl, rfl⟩
  | some value =>
    dsimp only
    cases alive value with
    | true => exact ⟨rfl, rfl⟩
    | false => cases cache.discipline <;> exact ⟨rfl, rfl⟩

theorem settle_counted (cache : Cache κ ν) (alive : ν → Bool) (key : κ) (value : ν) :
    Counted 1 0 (cache.settle alive key value).2.1 := by
  have reported : ∃ swept : List κ, (cache.settle alive key value).2.1 = .constructed key :: swept.map (.left .reclaimed) :=
    ⟨_, rfl⟩
  obtain ⟨swept, reported⟩ := reported
  obtain ⟨constructions, looks⟩ := left_counted .reclaimed swept
  rw [reported]
  constructor
  · simp [Note.counter?, constructions]
  · simp only [Note.counted_cons, Note.counter?, Option.some.injEq, reduceCtorEq, if_false]
    omega

theorem evict_counted [DecidableEq ν] (cache : Cache κ ν) (alive : ν → Bool) (key : κ) :
    Counted 0 0 (cache.evict alive key).2.1 := by
  unfold evict
  cases cache.find? key with
  | none => exact ⟨rfl, rfl⟩
  | some value =>
    dsimp only
    split <;> exact left_counted .evicted [key]

omit [DecidableEq κ] in
theorem clear_counted (cache : Cache κ ν) : Counted 0 0 cache.clear.1 := by
  have counted := left_counted .cleared (cache.table.map (·.1))
  rwa [List.map_map] at counted

end looks

end Cache

end CatalogReplica.Identity
