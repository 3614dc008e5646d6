import CatalogReplica.Identity.Script
import CatalogReplica.Proofs.Identity.Alike

/-!
# Two runs side by side

Two runs over identity caches that differ in dead entries alone stay so whatever operation
both carry out: the same objects live and die, and what happened shows the same apart from
the entries.

* `Desk.Sound`, `Desk.Served`: what an operation of a cache leaves in one run.
* `Desk.Twins`: two runs that differ in dead entries.
* `Desk.Moved`: both went on, and owe as many departures as before.
* `Desk.Twins.get?`, `Desk.Twins.lookup`, ...: the operations.
* `Desk.Twins.activity`: what happened.
-/

namespace CatalogReplica.Identity.Script

/-- The counters of hits, misses and constructions. -/
def looking : List Counter := [.identityHit, .identityMiss, .identityConstruct]

/-- What happened, without the number of entries and without their departures. -/
def Activity.shown (activity : Activity) : Activity :=
  { activity with
    length := 0
    departures := []
    counted := activity.counted.filter fun entry => looking.contains entry.1 }

namespace Desk

open Note (looked gone entered)

/-! ## One run -/

/-- The object lives just while someone or the cache holds it. -/
theorem alive_iff {desk : Desk} {item : Item} :
    desk.alive item = true ↔
      item ∈ desk.held ∨ desk.cache.keeps item = true ∨ ∃ name, (name, item) ∈ desk.named := by
  simp [alive, or_assoc]

/-- No key is entered twice, no key under construction has an entry, and every object in
    the table was constructed before. -/
structure Sound (desk : Desk) : Prop where
  unique : desk.cache.Unique
  apart : desk.cache.Apart
  made : ∀ entry ∈ desk.cache.table, entry.2.serial ≤ desk.constructed

/-- How often the key left unreported, and whether it is to leave once more. -/
def due (desk : Desk) (key : Nat) : Nat := gone key desk.departures + (desk.cache.has key).toNat

/-- An operation of the cache took place, and these objects are held now. -/
def operate (desk : Desk) (notes : List (Note Nat)) (cache : Cache Nat Item) (held : List Item) : Desk :=
  { view.store notes cache desk with held }

/-- What an operation of the cache leaves is sound, keeps no dead object alive and is told by
    its reports. -/
structure Served (desk : Desk) (notes : List (Note Nat)) (cache : Cache Nat Item) : Prop where
  unique : cache.Unique
  apart : cache.Apart
  made : ∀ entry ∈ cache.table, entry.2.serial ≤ desk.constructed
  kept : ∀ item, cache.keeps item = true → desk.alive item = true
  accounts : Cache.Accounts notes desk.cache cache

section served

variable {desk : Desk} {notes : List (Note Nat)} {cache : Cache Nat Item} {key : Nat} {item : Item}

/-- What is due after an operation. -/
theorem Served.due (served : desk.Served notes cache) (held : List Item) (key : Nat) :
    (desk.operate notes cache held).due key = desk.due key + entered key notes := by
  have followed := Note.gone_of_follow (served.accounts.follow key)
  have told : (desk.operate notes cache held).departures = desk.departures ++ Note.departures notes := rfl
  change gone key (desk.operate notes cache held).departures + (cache.has key).toNat = _
  rw [told, gone, List.countP_append]
  unfold Desk.due gone at *
  omega

theorem keeps_iff {cache : Cache Nat Item} {item : Item} :
    cache.keeps item = true ↔
      item ∈ cache.soft ∨ cache.retention = .strong ∧ ∃ key, (key, item) ∈ cache.table := by
  simp [Cache.keeps]

variable (sound : desk.Sound)

include sound

/-- An operation that only removes entries, ends no claim and queues no object. -/
theorem Sound.served (fewer : ∀ entry ∈ cache.table, entry ∈ desk.cache.table)
    (soft : ∀ item ∈ cache.soft, item ∈ desk.cache.soft) (retention : cache.retention = desk.cache.retention)
    (apart : cache.Apart) (unique : cache.Unique) (accounts : Cache.Accounts notes desk.cache cache) :
    desk.Served notes cache where
  unique := unique
  apart := apart
  made entry among := sound.made entry (fewer entry among)
  kept item keeps := by
    refine alive_iff.mpr (.inr (.inl ?_))
    rw [keeps_iff, retention] at keeps
    rw [keeps_iff]
    exact keeps.imp (soft item) fun ⟨strong, key, among⟩ => ⟨strong, key, fewer (key, item) among⟩
  accounts := accounts

theorem Sound.ask (key : Nat) :
    desk.Served (desk.cache.ask desk.alive 0 key).2.1 (desk.cache.ask desk.alive 0 key).2.2 := by
  have accounts := Cache.ask_accounts sound.unique (sound.apart key) desk.alive 0
  obtain ⟨value, -, -, run⟩ | ⟨asked, notes, cache, run, table, trimmed, state⟩ :=
    desk.cache.ask_cases desk.alive 0 key
  · rw [run] at accounts ⊢
    exact sound.served (fun _ => id) (fun _ => id) rfl sound.apart sound.unique accounts
  · obtain ⟨soft, retention⟩ := desk.cache.ask_frame desk.alive 0 key
    rw [run] at accounts soft retention ⊢
    have trimmed := trimmed sound.unique
    have apart : cache.Apart := by
      obtain ⟨-, -, claims⟩ | ⟨-, -, claims⟩ := state
      · exact sound.apart.of_fewer (fun _ => trimmed.mem) claims
      · exact sound.apart.of_claimed table claims
    exact sound.served (fun _ => trimmed.mem) (fun _ among => soft ▸ among) retention apart
      (trimmed.unique sound.unique) accounts

theorem Sound.get? (key : Nat) :
    desk.Served (desk.cache.get? desk.alive key).2.1 (desk.cache.get? desk.alive key).2.2 := by
  have accounts := Cache.get?_accounts sound.unique desk.alive key
  obtain ⟨value, -, -, run⟩ | ⟨dead, notes, cache, run, trimmed, claims⟩ :=
    desk.cache.get?_cases desk.alive key
  · rw [run] at accounts ⊢
    exact sound.served (fun _ => id) (fun _ => id) rfl sound.apart sound.unique accounts
  · have matching := desk.cache.get?_matches desk.alive key
    rw [run] at accounts matching ⊢
    have trimmed := trimmed sound.unique
    exact sound.served (fun _ => trimmed.mem) (fun _ among => matching.soft ▸ among) matching.retention
      (sound.apart.of_fewer (fun _ => trimmed.mem) claims) (trimmed.unique sound.unique) accounts

theorem Sound.evict (key : Nat) :
    desk.Served (desk.cache.evict desk.alive key).2.1 (desk.cache.evict desk.alive key).2.2 := by
  obtain ⟨_, _, _, run, table, claims, -⟩ := desk.cache.evict_cases desk.alive key
  obtain ⟨-, -, matching, -⟩ := desk.cache.evict_erases desk.alive key
  have accounts := Cache.evict_accounts sound.unique desk.alive key
  have fewer (entry : Nat × Item) (among : entry ∈ (desk.cache.evict desk.alive key).2.2.table) :=
    (Cache.mem_of_evict among).1
  have unique : (desk.cache.evict desk.alive key).2.2.Unique := by
    rw [run]
    unfold Cache.Unique
    rw [table]
    exact List.Sublist.nodup (List.filter_sublist.map _) sound.unique
  refine sound.served fewer (fun item among => ?_) matching.retention
    (sound.apart.of_fewer fewer matching.claims) unique accounts
  rw [matching.soft] at among
  cases found : (desk.cache.find? key).filter desk.alive with
  | none =>
    rw [found] at among
    exact among
  | some value =>
    rw [found] at among
    exact List.mem_of_mem_erase among

theorem Sound.clear : desk.Served desk.cache.clear.1 desk.cache.clear.2 :=
  sound.served nofun nofun rfl (fun _ => nofun) List.nodup_nil (Cache.clear_accounts sound.unique)

theorem Sound.purge : desk.Served (desk.cache.purge desk.alive).2.1 (desk.cache.purge desk.alive).2.2 := by
  have trimmed := desk.cache.trimmed_purge desk.alive
  exact sound.served (fun _ => trimmed.mem) (fun _ => id) rfl (sound.apart.of_fewer (fun _ => trimmed.mem) rfl)
    (trimmed.unique sound.unique) (Cache.purge_accounts sound.unique desk.alive)

theorem Sound.relieve : desk.Served [] desk.cache.relieve.2 :=
  sound.served (fun _ => id) nofun rfl sound.apart sound.unique (.idle rfl rfl rfl fun _ _ => rfl)

/-- The end of a construction with an object that is held. -/
theorem Sound.settle (claimed : ⟨key, 0⟩ ∈ desk.cache.claims) (held : item ∈ desk.held)
    (made : item.serial ≤ desk.constructed) :
    desk.Served (desk.cache.settle desk.alive key item).2.1 (desk.cache.settle desk.alive key item).2.2 := by
  have settled := desk.cache.settle_spec desk.alive key item
  obtain ⟨-, matching, -⟩ := Cache.settle_enters sound.unique desk.alive key item
  have own : desk.alive item = true := alive_iff.mpr (.inl held)
  refine ⟨settled.unique sound.unique, sound.apart.of_settled settled, fun entry among => ?_,
    fun other keeps => ?_, Cache.settle_accounts sound.unique (sound.apart.absent claimed) desk.alive item⟩
  · obtain rfl | ⟨before, -⟩ := settled.entries entry among
    · exact made
    · exact sound.made entry before
  · obtain soft | ⟨strong, known, among⟩ := keeps_iff.mp keeps
    · rw [matching.soft] at soft
      obtain before | rfl := Cache.mem_queue soft
      · exact alive_iff.mpr (.inr (.inl (keeps_iff.mpr (.inl before))))
      · exact own
    · obtain same | ⟨before, -⟩ := settled.entries (known, other) among
      · cases same
        exact own
      · rw [matching.retention, Cache.retention_queue] at strong
        exact alive_iff.mpr (.inr (.inl (keeps_iff.mpr (.inr ⟨strong, known, before⟩))))

theorem Sound.abandon (key : Nat) : desk.Served [] (desk.cache.abandon key) := by
  refine sound.served (fun _ => id) (fun _ => id) rfl (fun other present => ?_) sound.unique
    (.idle rfl rfl rfl fun _ _ => rfl)
  have free := List.find?_eq_none.mp (sound.apart other present)
  exact List.find?_eq_none.mpr fun claim among => free claim (List.mem_filter.mp among).1

end served

/-! ## Two runs -/

/-- The runs agree outside their caches. -/
structure Outside (one two : Desk) : Prop where
  named : one.named = two.named
  held : one.held = two.held
  constructed : one.constructed = two.constructed
  unreported : one.unreported = two.unreported
  tally : ∀ counter ∈ looking, one.tally.get counter = two.tally.get counter
  reported : ∀ counter ∈ looking, one.reported.get counter = two.reported.get counter

/-- The runs differ in dead entries alone. -/
structure Alike (one two : Desk) : Prop extends one.Outside two where
  alive : one.alive = two.alive
  cache : one.cache.Alike one.alive two.cache

/-- Two sound runs differ in dead entries alone. -/
structure Twins (one two : Desk) : Prop extends one.Alike two where
  sound : one.Sound
  sound' : two.Sound

/-- No dead object of the table comes to life. -/
theorem alike_of_fading (alive : Item → Bool) {one two : Desk} (outside : one.Outside two)
    (cache : one.cache.Alike alive two.cache)
    (fades : ∀ entry ∈ one.cache.table, one.alive entry.2 = true → alive entry.2 = true)
    (fades' : ∀ entry ∈ two.cache.table, two.alive entry.2 = true → alive entry.2 = true) :
    one.Alike two := by
  have whole (desk : Desk) (strong : desk.cache.retention = .strong)
      (fades : ∀ entry ∈ desk.cache.table, desk.alive entry.2 = true → alive entry.2 = true) :
      desk.cache.live alive = desk.cache.table := by
    refine List.filter_eq_self.mpr fun entry among => fades entry among (alive_iff.mpr (.inr (.inl ?_)))
    exact keeps_iff.mpr (.inr ⟨strong, entry.1, among⟩)
  -- strong retention keeps all entries alive, so there the tables are equal
  have keeps (item : Item) : one.cache.keeps item = two.cache.keeps item := by
    unfold Cache.keeps
    rw [cache.soft, cache.retention]
    by_cases strong : two.cache.retention = .strong
    · rw [← whole one (cache.retention.trans strong) fades, ← whole two strong fades', cache.live]
    · rw [beq_eq_false_iff_ne.mpr strong, Bool.false_and, Bool.false_and]
  have same : one.alive = two.alive := by
    funext item
    simp only [Desk.alive, keeps, outside.held, outside.named]
  have narrow (desk : Desk)
      (fades : ∀ entry ∈ desk.cache.table, desk.alive entry.2 = true → alive entry.2 = true) :
      desk.cache.live desk.alive = (desk.cache.live alive).filter fun entry => desk.alive entry.2 := by
    rw [Cache.live, Cache.live, List.filter_filter]
    refine List.filter_congr fun entry among => ?_
    cases lives : desk.alive entry.2 with
    | true => rw [fades entry among lives, Bool.and_true]
    | false => rw [Bool.false_and]
  refine ⟨outside, same, cache.toMatches, ?_⟩
  have narrow' := narrow two fades'
  rw [← same] at narrow'
  rw [narrow one fades, narrow', cache.live]

/-- Both runs owe as many departures as before, apart from those that were told. -/
def Level (told told' : List (Nat × Departure)) (one two one' two' : Desk) : Prop :=
  ∀ key, gone key told + one'.due key + two.due key = gone key told' + two'.due key + one.due key

section twins

variable {one two : Desk} {notes notes' : List (Note Nat)} {cache cache' : Cache Nat Item}
  (twins : one.Twins two)

include twins

/-- An operation of both caches that leaves them alike and reports the same constructions. -/
theorem Twins.operate (held : List Item) (alike : cache.Alike one.alive cache') (same : looked notes = looked notes')
    (served : one.Served notes cache) (served' : two.Served notes' cache')
    (known : ∀ item ∈ held, one.alive item = true) :
    (one.operate notes cache held).Twins (two.operate notes' cache' held) ∧
      Level [] [] one two (one.operate notes cache held) (two.operate notes' cache' held) := by
  have fades (desk : Desk) (same : desk.alive = one.alive) {notes : List (Note Nat)} {cache : Cache Nat Item}
      (served : desk.Served notes cache) (item : Item) (lives : (desk.operate notes cache held).alive item = true) :
      one.alive item = true := by
    obtain among | keeps | named := alive_iff.mp lives
    · exact known item among
    · exact same ▸ served.kept item keeps
    · exact same ▸ alive_iff.mpr (.inr (.inr named))
  have counts (counter : Counter) (among : counter ∈ looking) :
      Note.counted counter notes = Note.counted counter notes' := by
    have other (why : Departure) (key : Nat) : (Note.left why key).counter? ≠ some counter := by
      simp only [looking, List.mem_cons, List.not_mem_nil, or_false] at among
      obtain rfl | rfl | rfl := among <;> cases why <;> simp [Note.counter?]
    rw [← Note.counted_looked other notes, same, Note.counted_looked other notes']
  have outside : (one.operate notes cache held).Outside (two.operate notes' cache' held) := by
    refine { twins.toOutside with held := rfl, tally := fun counter among => ?_ }
    change (Note.count notes one.tally).get counter = (Note.count notes' two.tally).get counter
    rw [Note.get_count, Note.get_count, twins.tally counter among, counts counter among]
  refine ⟨⟨alike_of_fading one.alive outside alike (fun _ _ => fades one rfl served _)
    (fun _ _ => fades two twins.alive.symm served' _), ?_, ?_⟩, fun key => ?_⟩
  · exact ⟨served.unique, served.apart, served.made⟩
  · exact ⟨served'.unique, served'.apart, served'.made⟩
  · rw [served.due, served'.due, ← Note.entered_looked key notes, same, Note.entered_looked]
    omega

end twins

/-- Both runs went on: they are still alike, and no more keys are under construction. -/
structure Moved (told told' : List (Nat × Departure)) (one two one' two' : Desk) : Prop where
  twins : one'.Twins two'
  claims : one'.cache.claims = one.cache.claims
  level : Level told told' one two one' two'

theorem Twins.still {one two : Desk} (twins : one.Twins two) : Moved [] [] one two one two :=
  ⟨twins, rfl, fun key => by rw [Nat.add_assoc, Nat.add_assoc, Nat.add_comm (one.due key)]⟩

section moves

variable {one two mid mid' one' two' : Desk} {first first' second second' : List (Nat × Departure)}

theorem Level.trans (before : Level first first' one two mid mid') (after : Level second second' mid mid' one' two') :
    Level (first ++ second) (first' ++ second') one two one' two' := by
  intro key
  have before := before key
  have after := after key
  unfold gone at *
  rw [List.countP_append, List.countP_append]
  omega

theorem Moved.trans (before : Moved first first' one two mid mid')
    (after : Moved second second' mid mid' one' two') :
    Moved (first ++ second) (first' ++ second') one two one' two' :=
  ⟨after.twins, after.claims.trans before.claims, before.level.trans after.level⟩

variable (twins : one.Twins two)

include twins

/-- A step outside the caches after which no dead object lives. -/
theorem Twins.outside (outside : one'.Outside two') (cache : one'.cache = one.cache) (cache' : two'.cache = two.cache)
    (departures : one'.departures = one.departures) (departures' : two'.departures = two.departures)
    (later : one.constructed ≤ one'.constructed)
    (fades : ∀ item, item.serial ≤ one.constructed → one'.alive item = true → one.alive item = true)
    (fades' : ∀ item, item.serial ≤ two.constructed → two'.alive item = true → two.alive item = true) :
    Moved [] [] one two one' two' := by
  obtain ⟨alike, sound, sound'⟩ := twins
  refine ⟨⟨alike_of_fading one.alive outside ?_ ?_ ?_, ?_, ?_⟩, congrArg _ cache, fun key => ?_⟩
  · rw [cache, cache']
    exact alike.cache
  · intro entry among
    exact fades entry.2 (sound.made entry (cache ▸ among))
  · intro entry among
    rw [alike.alive]
    exact fades' entry.2 (sound'.made entry (cache' ▸ among))
  · exact ⟨cache ▸ sound.unique, cache ▸ sound.apart,
      fun entry among => Nat.le_trans (sound.made entry (cache ▸ among)) later⟩
  · refine ⟨cache' ▸ sound'.unique, cache' ▸ sound'.apart, fun entry among => ?_⟩
    have made := sound'.made entry (cache' ▸ among)
    have same := alike.constructed
    have same' := outside.constructed
    omega
  · simp only [due, cache, cache', departures, departures']
    omega

/-- What the constructor that ran last told is not part of either run. -/
theorem Twins.ran (ran ran' : Option (List Report)) :
    Moved [] [] one two { one with inner := ran } { two with inner := ran' } :=
  twins.outside { twins.toOutside with } rfl rfl rfl rfl (Nat.le_refl _) (fun _ _ => id) fun _ _ => id

/-- Both runs construct the same object. -/
theorem Twins.construct (text : String) :
    ∃ item one' two', Desk.construct text one = .ok item one' ∧ Desk.construct text two = .ok item two' ∧
      Moved [] [] one two one' two' ∧ item ∈ one'.held ∧ item.serial ≤ one'.constructed ∧
      one'.inner = one.inner ∧ two'.inner = two.inner := by
  let item : Item := ⟨one.constructed + 1, text⟩
  have fades (desk : Desk) (same : desk.constructed = one.constructed) (other : Item)
      (before : other.serial ≤ desk.constructed)
      (lives : Desk.alive { desk with
        constructed := one.constructed + 1, held := item :: desk.held, unreported := item :: desk.unreported } other
          = true) : desk.alive other = true := by
    rw [alive_iff] at lives ⊢
    refine lives.imp_left fun among => ?_
    obtain rfl | held := List.mem_cons.mp among
    · exact absurd before (by simp [item, same])
    · exact held
  have same : Desk.construct text two = .ok item { two with
      constructed := one.constructed + 1, held := item :: two.held, unreported := item :: two.unreported } := by
    rw [Desk.construct, ← twins.constructed]
  refine ⟨item, _, _, rfl, same, ?_, List.mem_cons_self, Nat.le_refl _, rfl, rfl⟩
  refine twins.outside ?_ rfl rfl rfl rfl (Nat.le_succ _) (fades one rfl) (fades two twins.constructed.symm)
  exact { twins.toOutside with
    held := congrArg (item :: ·) twins.held
    constructed := rfl
    unreported := congrArg (item :: ·) twins.unreported }

/-- An object that is held is kept under a name or let go. -/
theorem Twins.release {item : Item} (held : item ∈ one.held) (keep : Option String) :
    Moved [] [] one two (one.release keep item) (two.release keep item) := by
  have fades (desk : Desk) (held : item ∈ desk.held) (other : Item)
      (lives : (desk.release keep item).alive other = true) : desk.alive other = true := by
    rw [alive_iff] at lives ⊢
    obtain among | keeps | ⟨name, among⟩ := lives
    · exact .inl (List.mem_of_mem_erase among)
    · exact .inr (.inl keeps)
    · cases keep with
      | none => exact .inr (.inr ⟨name, among⟩)
      | some kept =>
        obtain new | old := List.mem_cons.mp among
        · cases new
          exact .inl held
        · exact .inr (.inr ⟨name, (List.mem_filter.mp old).1⟩)
  refine twins.outside ?_ rfl rfl rfl rfl (Nat.le_refl _) (fun other _ => fades one held other)
    fun other _ => fades two (twins.held ▸ held) other
  exact { twins.toOutside with
    named := by cases keep <;> simp only [Desk.release, twins.named]
    held := congrArg (·.erase item) twins.held }

theorem Twins.releaseAll {found found' : Option Item} (same : found = found')
    (held : ∀ item ∈ found, item ∈ one.held) (keep : Option String) :
    Moved [] [] one two (one.releaseAll keep found) (two.releaseAll keep found') := by
  subst same
  cases found with
  | none => exact twins.still
  | some item => exact twins.release (held item rfl) keep

/-- A name is forgotten. -/
theorem Twins.forget (name : String) :
    Moved [] [] one two { one with named := one.named.erase name } { two with named := two.named.erase name } := by
  have fades (desk : Desk) (other : Item)
      (lives : Desk.alive { desk with named := desk.named.erase name } other = true) : desk.alive other = true := by
    rw [alive_iff] at lives ⊢
    exact lives.imp_right (.imp_right fun ⟨kept, among⟩ => ⟨kept, (List.mem_filter.mp among).1⟩)
  exact twins.outside { twins.toOutside with named := congrArg (Assoc.erase · name) twins.named } rfl rfl rfl rfl
    (Nat.le_refl _) (fun other _ => fades one other) fun other _ => fades two other

/-! ## Operations of the caches -/

/-- An operation that finds the same live object in both caches, or none, which its caller
    holds from now on. -/
theorem Twins.operated (found : Option Item) {notes notes' : List (Note Nat)} {cache cache' : Cache Nat Item}
    (alike : cache.Alike one.alive cache') (same : looked notes = looked notes')
    (served : one.Served notes cache) (served' : two.Served notes' cache')
    (live : ∀ item ∈ found, one.alive item = true) (claims : cache.claims = one.cache.claims) :
    Moved [] [] one two (one.operate notes cache (found.toList ++ one.held))
      (two.operate notes' cache' (found.toList ++ two.held)) := by
  have known (item : Item) (among : item ∈ found.toList ++ one.held) : one.alive item = true := by
    obtain new | held := List.mem_append.mp among
    · exact live item (Option.mem_toList.mp new)
    · exact alive_iff.mpr (.inl held)
  have moved := twins.operate _ alike same served served' known
  rw [← twins.held]
  exact ⟨moved.1, claims, moved.2⟩

/-- The live object of a key, held by both. -/
theorem Twins.get? (key : Nat) :
    (view.get? key one).1 = (view.get? key two).1 ∧
      (∀ item ∈ (view.get? key one).1, item ∈ (view.get? key one).2.held) ∧
      Moved [] [] one two (view.get? key one).2 (view.get? key two).2 := by
  have leaves (desk : Desk) : (view.get? key desk).2 = desk.operate (desk.cache.get? desk.alive key).2.1
      (desk.cache.get? desk.alive key).2.2 ((desk.cache.get? desk.alive key).1.toList ++ desk.held) := by
    change (desk.cache.get? desk.alive key).1.toList.foldl _ _ = _
    cases (desk.cache.get? desk.alive key).1 <;> rfl
  obtain ⟨same, looked, alike⟩ := twins.cache.get? twins.sound.unique twins.sound'.unique key
  have live (item : Item) (found : item ∈ (one.cache.get? one.alive key).1) : one.alive item = true := by
    obtain ⟨value, -, live, run⟩ | ⟨-, _, _, run, -⟩ := one.cache.get?_cases one.alive key
    · rw [run] at found
      cases found
      exact live
    · rw [run] at found
      cases found
  have served' := twins.sound'.get? key
  rw [← twins.alive] at served'
  have moved := twins.operated _ alike looked (twins.sound.get? key) served' live
    (one.cache.get?_matches one.alive key).claims
  have answer : (view.get? key two).1 = (two.cache.get? one.alive key).1 := by
    rw [twins.alive]
    rfl
  rw [leaves, leaves, ← twins.alive, ← same]
  exact ⟨same.trans answer.symm, fun item found => List.mem_append_left _ (Option.mem_toList.mpr found), moved⟩

/-- The live object of a key leaves both caches. -/
theorem Twins.evict (key : Nat) :
    (view.evict key one).1 = (view.evict key two).1 ∧
      (∀ item ∈ (view.evict key one).1, item ∈ (view.evict key one).2.held) ∧
      Moved [] [] one two (view.evict key one).2 (view.evict key two).2 := by
  have leaves (desk : Desk) : (view.evict key desk).2 = desk.operate (desk.cache.evict desk.alive key).2.1
      (desk.cache.evict desk.alive key).2.2 ((desk.cache.evict desk.alive key).1.toList ++ desk.held) := by
    change view.store _ _ ((desk.cache.evict desk.alive key).1.toList.foldl _ _) = _
    cases (desk.cache.evict desk.alive key).1 <;> rfl
  obtain ⟨same, looked, alike⟩ := twins.cache.evict twins.sound.unique twins.sound'.unique key
  have live (item : Item) (found : item ∈ (one.cache.evict one.alive key).1) : one.alive item = true := by
    obtain ⟨_, _, _, run, -, -, before⟩ := one.cache.evict_cases one.alive key
    rw [run] at found
    exact (before item found).2
  have served' := twins.sound'.evict key
  rw [← twins.alive] at served'
  have moved := twins.operated _ alike looked (twins.sound.evict key) served' live
    (one.cache.evict_erases one.alive key).2.2.1.claims
  have answer : (view.evict key two).1 = (two.cache.evict one.alive key).1 := by
    rw [twins.alive]
    rfl
  rw [leaves, leaves, ← twins.alive, ← same]
  exact ⟨same.trans answer.symm, fun item found => List.mem_append_left _ (Option.mem_toList.mpr found), moved⟩

theorem Twins.clear : Moved [] [] one two (view.clear one) (view.clear two) := by
  have reports (cache : Cache Nat Item) : looked cache.clear.1 = [] := by
    have keys := Note.looked_left .cleared (cache.table.map (·.1))
    rwa [List.map_map] at keys
  exact twins.operated none twins.cache.clear ((reports one.cache).trans (reports two.cache).symm)
    twins.sound.clear twins.sound'.clear nofun rfl

theorem Twins.purge : Moved [] [] one two (view.purge one).2 (view.purge two).2 := by
  have reports (cache : Cache Nat Item) (alive : Item → Bool) : looked (cache.purge alive).2.1 = [] :=
    Note.looked_left .reclaimed _
  have served' := twins.sound'.purge
  rw [← twins.alive] at served'
  have moved := twins.operated none twins.cache.purge ((reports _ _).trans (reports _ _).symm)
    twins.sound.purge served' nofun rfl
  have leaves : (view.purge two).2
      = two.operate (two.cache.purge one.alive).2.1 (two.cache.purge one.alive).2.2 two.held := by
    rw [twins.alive]
    rfl
  rw [leaves]
  exact moved

omit twins in
theorem store_nil (cache : Cache Nat Item) (desk : Desk) : view.store [] cache desk = { desk with cache } := by
  simp [CacheView.store, view, Note.count]

theorem Twins.relieve :
    (view.relieve one).1 = (view.relieve two).1 ∧
      Moved [] [] one two (view.relieve one).2 (view.relieve two).2 := by
  have leaves (desk : Desk) : (view.relieve desk).2 = view.store [] desk.cache.relieve.2 desk :=
    (store_nil _ desk).symm
  rw [leaves, leaves]
  exact ⟨congrArg List.length twins.cache.soft,
    twins.operated none twins.cache.relieve rfl twins.sound.relieve twins.sound'.relieve nofun rfl⟩

/-! ## Lookups -/

/-- How the reports of two constructors are related, and the departures that they tell. -/
abbrev Relation :=
  Option (List Report) → Option (List Report) → List (Nat × Departure) → List (Nat × Departure) → Prop

/-- Both constructors, or both lookups, end the same way. -/
inductive Ended (related : Relation) (one two : Desk) :
    EStateM.Result Interrupt Desk Item → EStateM.Result Interrupt Desk Item → Prop where
  | ok {item : Item} {one' two' : Desk} {told told' : List (Nat × Departure)}
      (moved : Moved told told' one two one' two') (held : item ∈ one'.held) (made : item.serial ≤ one'.constructed)
      (shows : related one'.inner two'.inner told told') : Ended related one two (.ok item one') (.ok item two')
  | error {interrupt : Interrupt} {one' two' : Desk} {told told' : List (Nat × Departure)}
      (moved : Moved told told' one two one' two') (shows : related one'.inner two'.inner told told') :
      Ended related one two (.error interrupt one') (.error interrupt two')

section lookup

variable {related : Relation} {construct construct' : Task Desk Item}

omit twins in
/-- A lookup of one run, in terms of its cache. -/
theorem lookup_eq (desk : Desk) (key : Nat) (construct : Task Desk Item) :
    view.lookup 0 key construct desk =
      let ran := desk.cache.ask desk.alive 0 key
      match ran.1 with
      | .hit item => .ok item (desk.operate ran.2.1 ran.2.2 (item :: desk.held))
      | .reentrant =>
          .error (.fault (ran.2.2.reentry (.ofNat key))) (desk.operate ran.2.1 ran.2.2 desk.held)
      | .wait => .error (.crash none) (desk.operate ran.2.1 ran.2.2 desk.held)
      | .build =>
          match construct (desk.operate ran.2.1 ran.2.2 desk.held) with
          | .ok item last => .ok item (view.settle key item last)
          | .error interrupt last => .error interrupt (view.abandon key last) := by
  unfold CacheView.lookup CacheView.ask
  rcases ran : desk.cache.ask desk.alive 0 key with ⟨asked, notes, cache⟩
  rw [show (view.get desk).ask (view.alive desk) 0 key = (asked, notes, cache) from ran]
  cases asked with
  | build =>
    dsimp only
    change _ = match construct (view.store notes cache desk) with | .ok _ _ => _ | .error _ _ => _
    cases construct (view.store notes cache desk) <;> rfl
  | _ => rfl

/-- The construction ended with an object. -/
theorem Twins.settle {key : Nat} {item : Item} {claims : List (Claim Nat)} (held : item ∈ one.held)
    (made : item.serial ≤ one.constructed) (claimed : one.cache.claims = ⟨key, 0⟩ :: claims)
    (free : (claims.find? fun claim => claim.key == key) = none) :
    (view.settle key item one).Twins (view.settle key item two) ∧
      (view.settle key item one).cache.claims = claims ∧
      Level [] [] one two (view.settle key item one) (view.settle key item two) := by
  have mine : ⟨key, 0⟩ ∈ one.cache.claims := claimed ▸ List.mem_cons_self
  obtain ⟨-, looked, alike⟩ := twins.cache.settle twins.sound.unique twins.sound'.unique key item
  have served := twins.sound.settle mine held made
  have served' := twins.sound'.settle (twins.cache.claims ▸ mine) (twins.held ▸ held) (twins.constructed ▸ made)
  rw [← twins.alive] at served'
  have moved := twins.operate one.held alike looked served served'
    fun other held => alive_iff.mpr (.inl held)
  have leaves : view.settle key item two
      = two.operate (two.cache.settle one.alive key item).2.1 (two.cache.settle one.alive key item).2.2 one.held := by
    rw [twins.alive, twins.held]
    rfl
  rw [leaves]
  refine ⟨moved.1, ?_, moved.2⟩
  have kept : claims.filter (fun claim => claim.key != key) = claims :=
    List.filter_eq_self.mpr fun claim among => by simpa using List.find?_eq_none.mp free claim among
  have settled := (one.cache.settle_spec one.alive key item).claims
  rw [claimed, List.filter_cons_of_neg (by simp), kept] at settled
  exact settled

/-- The construction was given up. -/
theorem Twins.abandon {key : Nat} {claims : List (Claim Nat)} (claimed : one.cache.claims = ⟨key, 0⟩ :: claims)
    (free : (claims.find? fun claim => claim.key == key) = none) :
    (view.abandon key one).Twins (view.abandon key two) ∧ (view.abandon key one).cache.claims = claims ∧
      Level [] [] one two (view.abandon key one) (view.abandon key two) := by
  have leaves (desk : Desk) : view.abandon key desk = desk.operate [] (desk.cache.abandon key) desk.held :=
    (store_nil _ desk).symm
  have moved := twins.operate one.held (twins.cache.abandon key) rfl (twins.sound.abandon key)
    (twins.sound'.abandon key) fun other held => alive_iff.mpr (.inl held)
  rw [leaves, leaves, ← twins.held]
  refine ⟨moved.1, ?_, moved.2⟩
  have kept : claims.filter (fun claim => claim.key != key) = claims :=
    List.filter_eq_self.mpr fun claim among => by simpa using List.find?_eq_none.mp free claim among
  change one.cache.claims.filter _ = claims
  rw [claimed, List.filter_cons_of_neg (by simp), kept]

/-- A lookup that both constructors end the same way ends the same way. -/
theorem Twins.lookup (key : Nat) (unread : related one.inner two.inner [] [])
    (bodies : ∀ mid mid', mid.Twins mid' → mid.inner = one.inner → mid'.inner = two.inner →
      Ended related mid mid' (construct mid) (construct' mid')) :
    Ended related one two (view.lookup 0 key construct one) (view.lookup 0 key construct' two) := by
  obtain ⟨same, looked, alike⟩ := twins.cache.ask twins.sound.unique twins.sound'.unique 0 key
  have served := twins.sound.ask key
  have served' := twins.sound'.ask key
  have asked := one.cache.ask_claims one.alive 0 key
  rw [lookup_eq, lookup_eq]
  dsimp only
  rw [← twins.alive] at served' ⊢
  rw [← same]
  cases found : (one.cache.ask one.alive 0 key).1 with
  | hit item =>
    rw [found] at asked
    obtain ⟨claims, among, live⟩ := asked
    have own : ∀ other ∈ some item, one.alive other = true := by
      rintro _ ⟨⟩
      exact live
    have moved := twins.operated (some item) alike looked served served' own claims
    exact .ok moved List.mem_cons_self (twins.sound.made (key, item) among) unread
  | reentrant =>
    rw [found] at asked
    have moved := twins.operated none alike looked served served' nofun asked
    dsimp only
    rw [Cache.reentry, Cache.reentry, alike.name]
    exact .error moved unread
  | wait =>
    rw [found] at asked
    exact .error (twins.operated none alike looked served served' nofun asked) unread
  | build =>
    rw [found] at asked
    obtain ⟨free, claimed⟩ := asked
    -- the key is under construction until the constructor has ended
    obtain ⟨mids, before⟩ := twins.operate one.held alike looked served served'
      fun item held => alive_iff.mpr (.inl held)
    have body := bodies _ _ mids rfl rfl
    dsimp only
    rw [← twins.held]
    generalize construct (one.operate _ _ one.held) = ended at body ⊢
    generalize construct' (two.operate _ _ one.held) = ended' at body ⊢
    cases body with
    | ok moved held made shows =>
      obtain ⟨last, claims, after⟩ := moved.twins.settle held made (moved.claims.trans claimed) free
      have level := (before.trans moved.level).trans after
      rw [List.nil_append, List.nil_append, List.append_nil, List.append_nil] at level
      exact .ok ⟨last, claims, level⟩ held made shows
    | error moved shows =>
      obtain ⟨last, claims, after⟩ := moved.twins.abandon (moved.claims.trans claimed) free
      have level := (before.trans moved.level).trans after
      rw [List.nil_append, List.nil_append, List.append_nil, List.append_nil] at level
      exact .error ⟨last, claims, level⟩ shows

end lookup

end moves

/-! ## Reports -/

/-- The counters of lookups move as the two tallies tell. -/
theorem shown_changes {before before' after after' : Tally}
    (same : ∀ counter ∈ looking, before.get counter = before'.get counter)
    (same' : ∀ counter ∈ looking, after.get counter = after'.get counter) :
    (Tally.changes before after).filter (fun entry => looking.contains entry.1)
      = (Tally.changes before' after').filter fun entry => looking.contains entry.1 := by
  unfold Tally.changes
  rw [List.filter_filter, List.filter_filter, List.filter_map, List.filter_map]
  -- each counter either is not shown or has moved by the same number
  have moves (counter : Counter) :
      (looking.contains counter && after.get counter - before.get counter != 0)
        = (looking.contains counter && after'.get counter - before'.get counter != 0) := by
    cases among : looking.contains counter with
    | false => rw [Bool.false_and, Bool.false_and]
    | true =>
      rw [List.contains_iff_mem] at among
      rw [same counter among, same' counter among]
  refine (congrArg (List.map _) (List.filter_congr fun counter _ => moves counter)).trans ?_
  refine List.map_congr_left fun counter among => ?_
  have among := (List.mem_filter.mp among).2
  simp only [Bool.and_eq_true, List.contains_iff_mem] at among
  rw [same counter among.1, same' counter among.1]

/-- What happened shows the same in both runs, and both runs go on from there. -/
theorem Twins.activity {one two : Desk} (twins : one.Twins two) :
    one.activity.1.shown = two.activity.1.shown ∧
      Moved one.activity.1.departures two.activity.1.departures one two one.activity.2 two.activity.2 := by
  have told (desk : Desk) (key : Nat) :
      gone key desk.activity.1.departures + desk.activity.2.due key = desk.due key := by
    have sorted : (inOrder desk.departures).Perm desk.departures := List.mergeSort_perm _ _
    have same : gone key (inOrder desk.departures) = gone key desk.departures := sorted.countP_eq _
    change gone key (inOrder desk.departures) + (gone key [] + (desk.cache.has key).toNat) = _
    rw [same]
    exact congrArg (gone key desk.departures + ·) (Nat.zero_add _)
  have fades (desk : Desk) (item : Item) (lives : desk.activity.2.alive item = true) : desk.alive item = true := lives
  constructor
  · have freed : one.freed = two.freed := by
      rw [freed, freed, twins.alive, twins.unreported]
    simp only [Desk.activity, Activity.shown, freed, shown_changes twins.reported twins.tally]
  · refine ⟨⟨alike_of_fading one.alive ?_ twins.cache (fun _ _ => fades one _) fun _ _ lives => ?_, ?_, ?_⟩, rfl,
      fun key => ?_⟩
    · refine { twins.toOutside with unreported := ?_, reported := twins.tally }
      change one.unreported.filter one.alive = two.unreported.filter two.alive
      rw [twins.alive, twins.unreported]
    · rw [twins.alive]
      exact fades two _ lives
    · exact ⟨twins.sound.unique, twins.sound.apart, twins.sound.made⟩
    · exact ⟨twins.sound'.unique, twins.sound'.apart, twins.sound'.made⟩
    · have one := told one key
      have two := told two key
      omega

end Desk

end CatalogReplica.Identity.Script
