import CatalogReplica.Proofs.Catalog.Acyclicity
import CatalogReplica.Proofs.Catalog.Custody
import CatalogReplica.Proofs.Catalog.Living
import CatalogReplica.Proofs.Catalog.Reentry
import CatalogReplica.Proofs.Lifetime.ExactlyOnce

/-!
# What lives is what is retained

Nothing refers to itself, not even through others, so that nothing is kept alive by what it keeps alive.  Once no
caller holds anything, exactly those things live that strong or soft retention leads to.

* `World.Retained`: strong or soft retention leads to the thing.
* `World.alive_iff_reached`: things live as long as someone holds or a cache keeps what leads to them.
* `World.purge_entries`: a purge leaves the entries of living things.
* `Operation.lives_as_retained`: the result, with what becomes of native descriptors.
-/

namespace CatalogReplica.Catalog

open Identity (CacheView)
open Lifetime (GuardId Ledger)
open Relation (ReflTransGen TransGen)

theorem Species.stratum_le (species : Species) : species.stratum ≤ 3 := by
  cases species with
  | entity kind => cases kind <;> decide
  | encoding | descriptor => decide

namespace World

variable {κ : Type} {view : CacheView World κ ThingId} {world : World} {id : ThingId}

/-- A thing that strong or soft retention keeps alive is the thing, or leads to it. -/
def Retained (world : World) (id : ThingId) : Prop :=
  ∃ root, world.caches.keeps root = true ∧ ReflTransGen world.Refers root id

/-- The release of the guard waits in the queue of the catalog. -/
def Queued (world : World) (guard : GuardId) : Prop :=
  ∃ record, world.ledger.queue? world.queue = some record ∧ guard ∈ record.guards

/-! ## What lives -/

/-- What leads to a living thing lives, and what lives is led to by what is held or kept alive. -/
theorem alive_iff_reached (tidy : Tidy [] world) (backed : Backed [] world) (stratified : world.Stratified) :
    world.alive id = true ↔
      ∃ root, (root ∈ world.held ∨ world.caches.keeps root = true) ∧ ReflTransGen world.Refers root id := by
  constructor
  · intro live
    obtain ⟨thing, found⟩ := alive_iff.mp live
    -- whatever refers to a thing is higher up, and there is an end to that
    induction height : 3 - thing.species.stratum using Nat.strongRecOn generalizing id thing with
    | ind height ih =>
      obtain held | kept | ⟨source, other, there, refers⟩ := (tidy.wanted id live).resolve_right List.not_mem_nil
      · exact ⟨id, .inl held, .refl⟩
      · exact ⟨id, .inr kept, .refl⟩
      · obtain ⟨sort, is, lower⟩ := stratified.descends there refers
        have bound := other.species.stratum_le
        rw [← is.2 thing found] at lower
        obtain ⟨root, kept, path⟩ := ih (3 - other.species.stratum) (by omega)
          (alive_iff.mpr ⟨other, there⟩) other there rfl
        exact ⟨root, kept, path.tail ⟨other, there, refers⟩⟩
  · rintro ⟨root, kept, path⟩
    induction path with
    | refl => exact backed.lives _ (kept.imp_right .inl)
    | tail _ refers _ => exact backed.lives _ (.inr (.inr ⟨_, refers⟩))

theorem alive_iff_retained (tidy : Tidy [] world) (backed : Backed [] world) (stratified : world.Stratified)
    (unheld : world.held = []) : world.alive id = true ↔ world.Retained id := by
  simp only [alive_iff_reached tidy backed stratified, unheld, List.not_mem_nil, false_or, Retained]

/-! ## Purges -/

/-- The caches of some classes are purged, one after the other. -/
theorem purge_entities (kinds : List EntityClass) (total : Nat) (world : World) :
    let after := (kinds.foldl (fun (total, world) kind =>
      let (n, world) := (entityView kind).purge world
      (total + n, world)) (total, world)).2
    after.heap = world.heap ∧ after.caches.descriptors = world.caches.descriptors ∧
      after.caches.encodings = world.caches.encodings ∧ ∀ kind entry, entry ∈ (after.caches.of kind).table ↔
        entry ∈ (world.caches.of kind).table ∧ (kind ∈ kinds → world.alive entry.2 = true) := by
  induction kinds generalizing total world with
  | nil => simp
  | cons first kinds ih =>
    obtain ⟨heap, descriptors, encodings, entries⟩ := ih (total + ((entityView first).purge world).1) ((entityView first).purge world).2
    have caches : ((entityView first).purge world).2.caches = world.caches.put first
        { world.caches.of first with table := (world.caches.of first).live world.alive } := rfl
    refine ⟨heap, descriptors.trans ?_, encodings.trans ?_, fun kind entry => (entries kind entry).trans ?_⟩
    · rw [caches]
      cases first <;> rfl
    · rw [caches]
      cases first <;> rfl
    · rw [caches, Caches.of_put, List.mem_cons]
      change _ ∧ (_ → world.alive entry.2 = true) ↔ _
      split
      · next same =>
        rw [Identity.Cache.live, List.mem_filter, same]
        simp only [true_or, forall_true_left]
        exact ⟨fun purged => purged.1, fun there => ⟨there, fun _ => there.2⟩⟩
      · next other => simp only [other, false_or]

/-- A purge leaves the entries of living things, and no others. -/
theorem purge_entries (shelf : Shelf view) (entry : κ × ThingId) :
    entry ∈ (view.get (World.purge world).2).table ↔ entry ∈ (view.get world).table ∧ world.alive entry.2 = true := by
  obtain ⟨heap, descriptors, encodings, entries⟩ := purge_entities EntityClass.all 0 world
  unfold World.purge
  generalize EntityClass.all.foldl _ (0, world) = purged at *
  obtain ⟨total, mid⟩ := purged
  have alive : mid.alive = world.alive := by
    funext id
    rw [World.alive, heap, World.alive]
  cases shelf with
  | entities kind =>
    refine (entries kind entry).trans (and_congr_right fun _ => ?_)
    cases kind <;> simp [EntityClass.all]
  | descriptors =>
    change entry ∈ mid.caches.descriptors.live mid.alive ↔ entry ∈ world.caches.descriptors.table ∧ _
    rw [Identity.Cache.live, List.mem_filter, descriptors, alive]
  | encodings =>
    change entry ∈ mid.caches.encodings.live mid.alive ↔ entry ∈ world.caches.encodings.table ∧ _
    rw [Identity.Cache.live, List.mem_filter, encodings, alive]

end World

namespace Operation

open World (Queued Retained Shelf)

variable {config : Config} {operations earlier later : List Operation} {guard : GuardId} {id : ThingId}

/-! ## Native descriptors -/

/-- A guard without an owner was released, or its release is queued. -/
theorem claimed_or_queued (allowed : AllowedAll operations (World.start config))
    (opened : (after operations (World.start config)).isOpen = true)
    (forsaken : (after operations (World.start config)).Forsaken guard) :
    (after operations (World.start config)).ledger.Claimed guard ∨ (after operations (World.start config)).Queued guard := by
  obtain ⟨held, found, unowned⟩ := forsaken
  cases claimed : held.flags.claimed with
  | true => exact .inl ⟨held, found, claimed⟩
  | false =>
    have sound := (after_settled allowed).followed.sound
    exact .inr ((after_lossless allowed opened).queued sound found unowned claimed)

/-- Every native descriptor that was taken over belongs to a living thing, or its release is queued or done. -/
theorem owned_or_released (allowed : AllowedAll operations (World.start config))
    (opened : (after operations (World.start config)).isOpen = true)
    (there : ((after operations (World.start config)).ledger.guard? guard).isSome = true) :
    (∃ id, (after operations (World.start config)).guardOf id = some guard) ∨
      (after operations (World.start config)).Queued guard ∨ (after operations (World.start config)).ledger.Claimed guard := by
  obtain ⟨held, found⟩ := Option.isSome_iff_exists.mp there
  cases owned : held.owned with
  | false => exact .inr (claimed_or_queued allowed opened ⟨held, found, owned⟩).symm
  | true =>
    cases claimed : held.flags.claimed with
    | true => exact .inr (.inr ⟨held, found, claimed⟩)
    | false => exact .inl ((after_custody allowed opened).1 guard held found owned claimed)

/-- What a thing had for its guard is released exactly once when the thing is gone, or its release is queued. -/
theorem kept_or_released (allowed : AllowedAll (earlier ++ later) (World.start config))
    (opened : (after (earlier ++ later) (World.start config)).isOpen = true)
    (own : (after earlier (World.start config)).guardOf id = some guard) :
    (after (earlier ++ later) (World.start config)).guardOf id = some guard ∨
      (after (earlier ++ later) (World.start config)).Queued guard ∨
        ((after (earlier ++ later) (World.start config)).ledger.causes guard).length = 1 := by
  obtain ⟨kept, acts⟩ := after_bequeaths allowed opened own
  refine kept.imp_right fun forsaken => ?_
  obtain claimed | queued := claimed_or_queued allowed opened forsaken
  · exact .inr (Lifetime.Operation.once_of_claimed acts claimed)
  · exact .inl queued

/-! ## Runs -/

/-- Whatever was read and evicted, as long as memory can be addressed: nothing refers to itself, not even through
    others.  So once no caller holds anything, those things live that strong or soft retention leads to, a purge
    leaves the entries of these, and a native descriptor that is none of these has its release queued or done, once
    at most. -/
theorem lives_as_retained (config : Config) (operations : List Operation)
    (allowed : AllowedAll operations (World.start config)) (usual : ∀ operation ∈ operations, operation.Usual)
    (room : (after operations (World.start config)).provider.memory.next ≤ UInt64.size) :
    let world := after operations (World.start config)
    (∀ id, ¬ TransGen world.Refers id id) ∧
    (world.held = [] →
      (∀ id, world.alive id = true ↔ world.Retained id) ∧
      (∀ (κ : Type) (view : CacheView World κ ThingId), Shelf view → ∀ entry,
        entry ∈ (view.get (purge.apply world)).table ↔ entry ∈ (view.get world).table ∧ world.Retained entry.2) ∧
      (world.isOpen = true →
        (∀ guard, (world.ledger.guard? guard).isSome = true →
          (∃ id, world.Retained id ∧ world.guardOf id = some guard) ∨ world.Queued guard ∨ world.ledger.Claimed guard) ∧
        ∀ earlier later id guard, operations = earlier ++ later →
          (after earlier (World.start config)).guardOf id = some guard →
            (world.Retained id ∧ world.guardOf id = some guard) ∨ world.Queued guard ∨
              (world.ledger.causes guard).length = 1)) := by
  intro world
  have stratified : world.Stratified := after_stratified config usual room
  have reached : Reached config world := Reached.start.run allowed
  refine ⟨stratified.acyclic, fun unheld => ?_⟩
  have live (id : ThingId) : world.alive id = true ↔ world.Retained id :=
    World.alive_iff_retained reached.tidy reached.backed stratified unheld
  have retained {id : ThingId} {guard : GuardId} (own : world.guardOf id = some guard) : world.Retained id := by
    obtain ⟨thing, found, -⟩ := Option.bind_eq_some_iff.mp own
    exact (live id).mp (World.alive_iff.mpr ⟨thing, found⟩)
  refine ⟨live, fun κ view shelf entry => ?_, fun opened => ⟨fun guard there => ?_, fun earlier later id guard split own => ?_⟩⟩
  · rw [← live]
    exact World.purge_entries shelf entry
  · exact (owned_or_released allowed opened there).imp_left fun owner => owner.imp fun id own => ⟨retained own, own⟩
  · subst split
    exact (kept_or_released allowed opened own).imp_left fun own => ⟨retained own, own⟩

/-- A relation and its row type, a column of that type and the native columns of a record type are read. -/
def readAround : List Operation := selfReferring ++ [
  .read 0 "relation" .mutator, .read 1 "row_type" .mutator, .lookup (.attr ⟨1⟩ 1), .read 2 "type" .mutator,
  .read 0 "descriptor" .mutator, .intern 7 [⟨23⟩], .lookup (.type recordType 7), .read 4 "descriptor" .mutator]

/-- All callers let go what they were given. -/
def letGo : List Operation := [.drop 0, .drop 0, .drop 0, .drop 1, .drop 2, .drop 3, .drop 4, .drop 5]

/-- Where relations are retained, the relation stays with its columns, the row type goes, and the native descriptor
    waits in the queue. -/
theorem lives_as_retained_readAround :
    let world := after (readAround ++ letGo) (World.start { relations := .strong })
    AllowedAll (readAround ++ letGo) (World.start { relations := .strong }) ∧ world.held = [] ∧
      world.Retained 1 ∧ world.Retained 3 ∧ ¬ world.Retained 0 ∧ world.Queued 2 := by
  intro world
  have allowed : AllowedAll (readAround ++ letGo) (World.start { relations := .strong }) := by decide +kernel
  have own : (after readAround (World.start { relations := .strong })).guardOf 5 = some 2 := by decide +kernel
  have ended : world.held = [] ∧ world.isOpen = true ∧ world.alive 1 = true ∧ world.alive 3 = true ∧
      world.alive 0 = false ∧ world.guardOf 5 = none ∧ (world.ledger.causes 2).length = 0 := by decide +kernel
  obtain ⟨unheld, opened, relation, columns, rowType, gone, unreleased⟩ := ended
  have usual : ∀ operation ∈ readAround ++ letGo, operation.Usual := by
    simp only [readAround, selfReferring, letGo, List.forall_mem_append, List.forall_mem_cons, Usual]
    refine ⟨⟨⟨RowPlan.Usual.relation .., RowPlan.Usual.composite .., RowPlan.Usual.attr .., ?_⟩, ?_⟩, ?_⟩ <;> simp
  obtain ⟨-, kept⟩ := lives_as_retained { relations := .strong } (readAround ++ letGo) allowed usual (by decide +kernel)
  obtain ⟨live, -, native⟩ := kept unheld
  obtain ⟨-, released⟩ := native opened
  refine ⟨allowed, unheld, (live 1).mp relation, (live 3).mp columns, fun retained => ?_, ?_⟩
  · cases ((live 0).mpr retained).symm.trans rowType
  · obtain ⟨-, still⟩ | queued | once := released readAround letGo 5 2 rfl own
    · cases still.symm.trans gone
    · exact queued
    · cases once.symm.trans unreleased

end Operation

end CatalogReplica.Catalog
