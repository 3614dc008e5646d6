import CatalogReplica.Proofs.Identity.Accounts

/-!
# Runs over an identity cache

A run is a list of moves of whoever uses a cache.  A lookup is one move if it finds an
object or is refused; otherwise it claims the key, and another move ends the construction.
Whatever happens in between is what the constructor does, and what other threads do.

* `Stage`: a cache with the references of its callers and with everything it reported.
* `Move.Allowed`: what a caller must have in hand.
* `Move.after`: what a run leaves.
* `Move.apply_leads`, `Move.after_sound`: what one move does, and what a run preserves.
-/

namespace CatalogReplica.Identity

/-- A cache among its callers. -/
structure Stage (κ ν : Type) where
  /-- The cache. -/
  cache : Cache κ ν
  /-- The objects that callers hold, once for each reference. -/
  held : List ν := []
  /-- What was counted. -/
  tally : Tally := {}
  /-- What the cache reported, in order. -/
  notes : List (Note κ) := []

/-- What a caller does. -/
inductive Move (κ ν : Type) where
  /-- Looks a key up. -/
  | ask (thread : Nat) (key : κ)
  /-- Ends the construction for a key with an object. -/
  | finish (thread : Nat) (key : κ) (value : ν)
  /-- Ends the construction for a key with a fault, or breaks it off. -/
  | abandon (thread : Nat) (key : κ)
  /-- Gets the live object of a key. -/
  | get (key : κ)
  /-- Evicts a key. -/
  | evict (key : κ)
  /-- Clears the cache. -/
  | clear
  /-- Takes a reference on every live object. -/
  | live
  /-- Removes the dead entries. -/
  | purge
  /-- Empties the soft queue. -/
  | relieve
  /-- Copies a reference. -/
  | copy (value : ν)
  /-- Lets a reference go. -/
  | drop (value : ν)
  deriving DecidableEq

variable {κ ν : Type} [DecidableEq κ] [DecidableEq ν]

namespace Stage

/-- A new cache of either discipline, with any retention and any way to spread its keys. -/
def start (name : String) (retention : Retention) (discipline : Discipline) (spread : κ → Nat) :
    Stage κ ν where
  cache := { name, retention, discipline, spread }

/-- Whether a caller or the cache itself keeps an object alive. -/
def alive (stage : Stage κ ν) (value : ν) : Bool :=
  stage.held.contains value || stage.cache.keeps value

/-- The cache inside the state.  Objects go as soon as nothing keeps them alive. -/
def view : CacheView (Stage κ ν) κ ν where
  get := (·.cache)
  set cache stage := { stage with cache }
  alive := alive
  note notes stage :=
    { stage with tally := Note.count notes stage.tally, notes := stage.notes ++ notes }
  hold value stage := { stage with held := value :: stage.held }
  letGo _ stage := stage
  key _ := .atom "key"

/-- No key is entered twice, and no key under construction has an entry. -/
structure Sound (stage : Stage κ ν) : Prop where
  unique : stage.cache.Unique
  apart : ∀ key, stage.cache.has key = true → stage.cache.claim? key = none

end Stage

namespace Move

open Stage (view)

/-- What the caller must have in hand: a claim to end it, a reference to copy it or to let
    it go. -/
def Allowed (stage : Stage κ ν) : Move κ ν → Prop
  | .finish thread key _ | .abandon thread key => ⟨key, thread⟩ ∈ stage.cache.claims
  | .copy value | .drop value => value ∈ stage.held
  | _ => True

instance (stage : Stage κ ν) : (move : Move κ ν) → Decidable (move.Allowed stage)
  | .finish thread key _ | .abandon thread key =>
      inferInstanceAs (Decidable (⟨key, thread⟩ ∈ stage.cache.claims))
  | .copy value | .drop value => inferInstanceAs (Decidable (value ∈ stage.held))
  | .ask _ _ | .get _ | .evict _ | .clear | .live | .purge | .relieve => .isTrue trivial

/-- What the move leaves. -/
def apply (stage : Stage κ ν) : Move κ ν → Stage κ ν
  | .ask thread key =>
      match view.ask thread key stage with
      | (.hit value, stage) => view.hold value stage
      | (_, stage) => stage
  | .finish _ key value => view.settle key value (view.hold value stage)
  | .abandon _ key => view.abandon key stage
  | .get key => (view.get? key stage).2
  | .evict key => (view.evict key stage).2
  | .clear => view.clear stage
  | .live => { stage with held := (stage.cache.live stage.alive).map (·.2) ++ stage.held }
  | .purge => (view.purge stage).2
  | .relieve => (view.relieve stage).2
  | .copy value => view.hold value stage
  | .drop value => { stage with held := stage.held.erase value }

/-- What a run leaves. -/
def after : List (Move κ ν) → Stage κ ν → Stage κ ν
  | [], stage => stage
  | move :: moves, stage => after moves (move.apply stage)

/-- Each move of the run is allowed when its turn comes. -/
def AllowedAll : List (Move κ ν) → Stage κ ν → Prop
  | [], _ => True
  | move :: moves, stage => move.Allowed stage ∧ AllowedAll moves (move.apply stage)

instance decideAllowedAll : (moves : List (Move κ ν)) → (stage : Stage κ ν) →
    Decidable (AllowedAll moves stage)
  | [], _ => .isTrue trivial
  | move :: moves, stage =>
      have := decideAllowedAll moves (move.apply stage)
      inferInstanceAs (Decidable (_ ∧ _))

/-- Whether the move looks for the object of a key. -/
def looks : Move κ ν → Bool
  | .ask _ _ | .get _ => true
  | _ => false

/-- Whether the move is the end of a successful construction. -/
def constructs : Move κ ν → Bool
  | .finish _ _ _ => true
  | _ => false

theorem after_append (first second : List (Move κ ν)) (stage : Stage κ ν) :
    after (first ++ second) stage = after second (after first stage) := by
  induction first generalizing stage with
  | nil => rfl
  | cons move first ih => exact ih _

theorem allowedAll_append {first second : List (Move κ ν)} {stage : Stage κ ν} :
    AllowedAll (first ++ second) stage ↔
      AllowedAll first stage ∧ AllowedAll second (after first stage) := by
  induction first generalizing stage with
  | nil => simp [AllowedAll, after]
  | cons move first ih => simp only [List.cons_append, AllowedAll, after, ih, and_assoc]

/-! ## One move -/

/-- What a move does.  The reports account for it, one hit or miss for a lookup, and an
    entry of a live object stays unless its key is evicted or the cache is cleared. -/
structure Leads (move : Move κ ν) (before after : Stage κ ν) : Prop where
  sound : after.Sound
  reports : ∃ notes, after.notes = before.notes ++ notes ∧ after.tally = Note.count notes before.tally ∧
    Cache.Accounts notes before.cache after.cache ∧
    Cache.Counted move.constructs.toNat move.looks.toNat notes
  stays : ∀ key value, (key, value) ∈ before.cache.table → before.alive value = true →
    move ≠ .evict key → move ≠ .clear → (key, value) ∈ after.cache.table

omit [DecidableEq κ] in
theorem store_nil (cache : Cache κ ν) (stage : Stage κ ν) : view.store [] cache stage = { stage with cache } := by
  simp [CacheView.store, view, Note.count]

section apply

variable {stage : Stage κ ν} (sound : stage.Sound)

include sound

/-- A move that takes dead entries away and reports it. -/
theorem trims_leads {move : Move κ ν} {notes : List (Note κ)} {cache : Cache κ ν} (held : List ν)
    (trimmed : Cache.Trimmed stage.alive stage.cache cache)
    (claims : cache.claims = stage.cache.claims)
    (accounts : Cache.Accounts notes stage.cache cache)
    (counted : Cache.Counted move.constructs.toNat move.looks.toNat notes) :
    move.Leads stage { view.store notes cache stage with held } where
  sound := ⟨trimmed.unique sound.unique, Cache.Apart.of_fewer sound.apart (fun _ => trimmed.mem) claims⟩
  reports := ⟨notes, rfl, rfl, accounts, counted⟩
  stays key value among live _ _ := trimmed.live (key, value) among live

theorem ask_leads (thread : Nat) (key : κ) : (ask thread key).Leads stage ((ask thread key).apply stage) := by
  have accounts := Cache.ask_accounts sound.unique (sound.apart key) stage.alive thread
  have counted := stage.cache.ask_counted stage.alive thread key
  obtain ⟨value, among, live, run⟩ | ⟨asked, notes, cache, run, table, trimmed, state⟩ :=
    stage.cache.ask_cases stage.alive thread key
  · have left : (ask thread key).apply stage
        = { view.store [.hit] stage.cache stage with held := value :: stage.held } := by
      simp only [apply, CacheView.ask, view, run]
      rfl
    rw [left]
    exact trims_leads sound _ (.refl _) rfl (.hit _) ⟨rfl, rfl⟩
  · rw [run] at accounts counted
    have left : (ask thread key).apply stage = view.store notes cache stage := by
      simp only [apply, CacheView.ask, view, run]
      obtain ⟨rfl | rfl, -⟩ | ⟨rfl, -⟩ := state <;> rfl
    rw [left]
    obtain ⟨-, -, claims⟩ | ⟨-, free, claims⟩ := state
    · exact trims_leads sound stage.held (trimmed sound.unique) claims accounts counted
    · -- the key is under construction from now on, and its dead entry is gone
      exact ⟨⟨(trimmed sound.unique).unique sound.unique, Cache.Apart.of_claimed sound.apart table claims⟩,
        ⟨notes, rfl, rfl, accounts, counted⟩,
        fun _ _ among live _ _ => (trimmed sound.unique).live _ among live⟩

theorem finish_leads (thread : Nat) (key : κ) (value : ν) (claimed : ⟨key, thread⟩ ∈ stage.cache.claims) :
    (finish thread key value).Leads stage ((finish thread key value).apply stage) := by
  have absent := Cache.Apart.absent sound.apart claimed
  let holds : Stage κ ν := view.hold value stage
  have settled := stage.cache.settle_spec holds.alive key value
  have accounts := Cache.settle_accounts sound.unique absent holds.alive value
  refine ⟨⟨settled.unique sound.unique, Cache.Apart.of_settled sound.apart settled⟩,
    ⟨_, rfl, rfl, accounts, stage.cache.settle_counted holds.alive key value⟩,
    fun other kept among live _ _ => settled.live (other, kept) among (fun same => ?_) ?_⟩
  · rw [← Bool.not_eq_true, Cache.has_iff] at absent
    exact absent (same ▸ List.mem_map_of_mem among)
  · simp only [Stage.alive, Bool.or_eq_true] at live ⊢
    exact live.imp_left fun held => by simpa [holds, view] using .inr (by simpa using held)

theorem abandon_leads (thread : Nat) (key : κ) :
    (abandon thread key : Move κ ν).Leads stage ((abandon thread key).apply stage) where
  sound := by
    refine ⟨sound.unique, fun other present => ?_⟩
    change ((stage.cache.claims.filter fun claim => claim.key != key).find? fun claim => claim.key == other) = none
    have free := List.find?_eq_none.mp (sound.apart other present)
    exact List.find?_eq_none.mpr fun claim among => free claim (List.mem_filter.mp among).1
  reports := ⟨[], (List.append_nil _).symm, rfl, .idle rfl rfl rfl fun _ _ => rfl, rfl, rfl⟩
  stays _ _ among _ _ _ := among

theorem get_leads (key : κ) : (get key : Move κ ν).Leads stage ((get key).apply stage) := by
  have accounts := Cache.get?_accounts sound.unique stage.alive key
  have counted := stage.cache.get?_counted stage.alive key
  obtain ⟨value, among, live, run⟩ | ⟨-, notes, cache, run, trimmed, claims⟩ :=
    stage.cache.get?_cases stage.alive key
  · have left : (get key).apply stage
        = { view.store [.hit] stage.cache stage with held := value :: stage.held } := by
      simp only [apply, CacheView.get?, view, run]
      rfl
    rw [left]
    exact trims_leads sound _ (.refl _) rfl (.hit _) ⟨rfl, rfl⟩
  · rw [run] at accounts counted
    have left : (get key).apply stage = view.store notes cache stage := by
      simp only [apply, CacheView.get?, view, run]
      rfl
    rw [left]
    exact trims_leads sound stage.held (trimmed sound.unique) claims accounts counted

theorem evict_leads (key : κ) : (evict key : Move κ ν).Leads stage ((evict key).apply stage) := by
  have accounts := Cache.evict_accounts sound.unique stage.alive key
  have counted := stage.cache.evict_counted stage.alive key
  obtain ⟨found, notes, cache, run, table, claims, -⟩ := stage.cache.evict_cases stage.alive key
  rw [run] at accounts counted
  have left : (evict key).apply stage
      = view.store notes cache (found.toList.foldl (fun stage value => view.hold value stage) stage) := by
    simp only [apply, CacheView.evict, view, run]
  have fewer (entry : κ × ν) (among : entry ∈ cache.table) : entry ∈ stage.cache.table :=
    (Cache.mem_erase.mp (table ▸ among)).1
  have unique : cache.Unique := by
    unfold Cache.Unique
    rw [table]
    exact List.Sublist.nodup (List.filter_sublist.map _) sound.unique
  rw [left]
  refine ⟨⟨unique, Cache.Apart.of_fewer sound.apart fewer claims⟩, ⟨notes, ?_, ?_, accounts, counted⟩,
    fun other value among _ another _ => ?_⟩
  · cases found <;> rfl
  · cases found <;> rfl
  · change (other, value) ∈ cache.table
    rw [table, Cache.mem_erase]
    exact ⟨among, fun same => another (same ▸ rfl)⟩

/-- A move that leaves the entries and the claims alone, and that the cache does not report. -/
theorem still_leads {move : Move κ ν} (held : List ν) {cache : Cache κ ν}
    (table : cache.table = stage.cache.table) (claims : cache.claims = stage.cache.claims)
    (counted : Cache.Counted move.constructs.toNat move.looks.toNat ([] : List (Note κ))) :
    move.Leads stage { stage with cache, held } := by
  have leads := trims_leads sound held (.of_eq table) claims (.idle table rfl rfl fun _ _ => rfl) counted
  rwa [store_nil] at leads

/-- Every move that is allowed leads from a sound stage to a sound one. -/
theorem apply_leads {move : Move κ ν} (allowed : move.Allowed stage) : move.Leads stage (move.apply stage) := by
  cases move with
  | ask thread key => exact ask_leads sound thread key
  | finish thread key value => exact finish_leads sound thread key value allowed
  | abandon thread key => exact abandon_leads sound thread key
  | get key => exact get_leads sound key
  | evict key => exact evict_leads sound key
  | clear =>
    refine ⟨⟨List.nodup_nil, fun key present => ?_⟩,
      ⟨_, rfl, rfl, Cache.clear_accounts sound.unique, stage.cache.clear_counted⟩,
      fun _ _ _ _ _ kept => absurd rfl kept⟩
    cases present
  | purge =>
    exact trims_leads sound stage.held (Cache.trimmed_purge _ _) rfl
      (Cache.purge_accounts sound.unique stage.alive) (Cache.left_counted .reclaimed _)
  | relieve => exact still_leads sound stage.held rfl rfl ⟨rfl, rfl⟩
  | live => exact still_leads sound _ rfl rfl ⟨rfl, rfl⟩
  | copy value => exact still_leads sound _ rfl rfl ⟨rfl, rfl⟩
  | drop value => exact still_leads sound _ rfl rfl ⟨rfl, rfl⟩

end apply

end Move

end CatalogReplica.Identity
