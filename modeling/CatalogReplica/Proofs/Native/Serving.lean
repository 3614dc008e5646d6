import CatalogReplica.Proofs.Catalog.Altering
import CatalogReplica.Proofs.Lifetime.Calm
import CatalogReplica.Proofs.Native.Adoption

/-!
# Where native descriptors are

Native descriptors are found in two places: in their cache, by address, and where types keep
their columns.  Everything else leads to things without native memory.  What types keep is
governed by the gates of the types, so that tripping the gates makes them look again.

* `World.Formed`: native descriptors are in these places only.
* `World.Clean`: neither of them has a descriptor that was released.
* `World.Batched.kept`, `World.Batched.clean`: lookups, reads and signals keep both.
-/

namespace CatalogReplica.Catalog

open Coherence (Batch Gates Memo SlotSpec)
open Identity (Cache CacheView)
open Lifetime (GuardId Ledger)

namespace World

variable {base before world after : World} {got got' : List ThingId} {trips : Batch} {id : ThingId}
  {dismissed : List Address}

/-! ## Places -/

/-- A thing of earlier without native memory. -/
def Plain (world : World) (id : ThingId) : Prop := id < world.nextThing ∧ world.guardOf id = none

/-- Native descriptors are in their cache and where types keep their columns, and nowhere else;
    what types keep there is governed by their gates. -/
structure Formed (trips : Batch) (world : World) : Prop where
  below : ∀ id, world.alive id = true → id < world.nextThing
  linked : ∀ one thing id, world.thing? one = some thing → thing.Links id → world.Plain id
  cached : ∀ {κ : Type} {view : CacheView World κ ThingId}, Shelf view → Ordinary view →
    ∀ entry ∈ (view.get world).table, world.Plain entry.2
  native : ∀ entry ∈ world.caches.descriptors.table, entry.2 < world.nextThing
  described : ∀ one thing memo, world.thing? one = some thing → thing.Describes memo →
    (∀ id ∈ memo.value.refs, id < world.nextThing) ∧
      ∃ gate, thing.gate? = some gate ∧ memo.Governed trips world.gates gate
  known : ∀ one thing gate, world.thing? one = some thing → thing.gate? = some gate → gate < world.gates.current.size
  gates : world.gates.Sound trips

/-- Neither a cached type nor the cache of native descriptors leads to one that was released, but
    for addresses that are about to be dismissed. -/
structure Clean (dismissed : List Address) (world : World) : Prop where
  entries : ∀ entry ∈ world.caches.descriptors.table, entry.1 ∈ dismissed ∨ world.isReleased entry.2 = false
  types : ∀ entry ∈ world.caches.types.table, world.keepsReleased entry.2 = false

theorem isReleased_iff : world.isReleased id = true ↔ ∃ guard held, world.guardOf id = some guard ∧
    world.ledger.guard? guard = some held ∧ held.isReleased = true := by
  have same : (world.descriptor? id).bind (·.guard) = world.guardOf id := by
    unfold descriptor? guardOf
    cases world.thing? id with
    | none => rfl
    | some thing => cases thing <;> rfl
  unfold isReleased
  rw [same]
  cases world.guardOf id with
  | none => simp
  | some guard => cases found : world.ledger.guard? guard <;> simp [found]

/-- What a thing keeps in a slot, while it is valid. -/
theorem peek_iff {spec : SlotSpec} {datum : Datum} : ((view id).place spec).peek world = some datum ↔
    ∃ thing table memo, world.thing? id = some thing ∧ thing.table? = some table ∧ table.memo? spec.index = some memo ∧
      memo.isValid world.gates = true ∧ memo.value = datum := by
  rw [Coherence.TableView.peek_place]
  constructor
  · intro its
    obtain ⟨memo, found, valid⟩ := Option.bind_eq_some_iff.mp its
    obtain ⟨table, has, found⟩ := Option.bind_eq_some_iff.mp found
    obtain ⟨thing, there, has⟩ := Option.bind_eq_some_iff.mp has
    unfold Memo.get? at valid
    split at valid
    · next isValid =>
      cases valid
      exact ⟨thing, table, memo, there, has, found, isValid, rfl⟩
    · cases valid
  · rintro ⟨thing, table, memo, there, has, found, valid, rfl⟩
    have kept : (view id).memo? spec world = some memo := by
      simp only [Coherence.TableView.memo?, view, there, Option.bind_some, has, found]
    rw [kept, Option.bind_some, Memo.get?]
    exact if_pos valid

theorem keepsReleased_iff : world.keepsReleased id = true ↔ ∃ thing memo other, world.thing? id = some thing ∧
    thing.Describes memo ∧ memo.isValid world.gates = true ∧ other ∈ memo.value.refs ∧ world.isReleased other = true := by
  unfold keepsReleased
  constructor
  · intro keeps
    split at keeps
    · next datum peeked =>
      obtain ⟨other, among, released⟩ := List.any_eq_true.mp keeps
      obtain ⟨thing, table, memo, there, has, found, valid, rfl⟩ := peek_iff.mp peeked
      exact ⟨thing, memo, other, there, ⟨table, has, found⟩, valid, among, released⟩
    · cases keeps
  · rintro ⟨thing, memo, other, there, ⟨table, has, found⟩, valid, among, released⟩
    rw [peek_iff.mpr ⟨thing, table, memo, there, has, found, valid, rfl⟩]
    exact List.any_eq_true.mpr ⟨other, among, released⟩

/-! ## Changes -/

theorem Plain.alters (plain : world.Plain id) (alters : Alters got world after) : after.Plain id := by
  refine ⟨Nat.lt_of_lt_of_le plain.1 alters.next, ?_⟩
  cases its : after.guardOf id with
  | none => rfl
  | some guard => cases plain.2.symm.trans (alters.guardOf its)

namespace Formed

theorem thing?_next (formed : Formed trips world) : world.thing? world.nextThing = none := by
  cases found : world.thing? world.nextThing with
  | none => rfl
  | some thing => exact absurd (formed.below _ (alive_iff.mpr ⟨thing, found⟩)) (Nat.lt_irrefl _)

/-- A thing that is new is plain. -/
theorem plain_next (formed : Formed trips world) (alters : Alters got world after) (more : world.nextThing < after.nextThing) :
    after.Plain world.nextThing := by
  refine ⟨more, ?_⟩
  cases its : after.guardOf world.nextThing with
  | none => rfl
  | some guard =>
    have was := alters.guardOf its
    rw [guardOf, formed.thing?_next] at was
    cases was

theorem alters (formed : Formed trips world) (alters : Alters got world after) (plain : ∀ id ∈ got, world.Plain id) :
    Formed trips after where
  -- A thing afterwards is an earlier one altered or a fresh one, and a fresh one describes nothing.
  below id live := by
    obtain ⟨thing', found⟩ := alive_iff.mp live
    obtain ⟨thing, was, -⟩ | ⟨-, rfl, more⟩ := alters.things id thing' found
    · exact Nat.lt_of_lt_of_le (formed.below id (alive_iff.mpr ⟨thing, was⟩)) alters.next
    · exact more
  linked one thing' id found links := by
    obtain ⟨thing, was, same⟩ | ⟨fresh, -⟩ := alters.things one thing' found
    · obtain before | held := same.links id links
      · exact (formed.linked one thing id was before).alters alters
      · exact (plain id held).alters alters
    · exact (plain id (fresh.links links)).alters alters
  cached shelf ordinary entry among := by
    obtain before | ⟨-, new, more⟩ := alters.entries shelf entry among
    · exact (formed.cached shelf ordinary entry before).alters alters
    · exact new ▸ formed.plain_next alters more
  native entry among := Nat.lt_of_lt_of_le (formed.native entry (alters.descriptors among)) alters.next
  described one thing' memo found describes := by
    obtain ⟨thing, was, same⟩ | ⟨fresh, -⟩ := alters.things one thing' found
    · obtain ⟨older, gate, its, governed⟩ := formed.described one thing memo was ((same.describes memo).mp describes)
      exact ⟨fun id among => Nat.lt_of_lt_of_le (older id among) alters.next, gate, same.gate.trans its,
        governed.grows alters.grows⟩
    · exact absurd describes (fresh.describes memo)
  known one thing' gate found its := by
    refine Nat.lt_of_lt_of_le ?_ alters.grows.gates
    obtain ⟨thing, was, same⟩ | ⟨fresh, -⟩ := alters.things one thing' found
    · exact formed.known one thing gate was (same.gate.symm.trans its)
    · obtain below | ⟨other, thing, was, has⟩ := fresh.gated gate its
      · exact below
      · exact formed.known other thing gate was has
  gates := by
    obtain same | made := alters.gates
    · rw [same]
      exact formed.gates
    · rw [made]
      exact formed.gates.newGate

/-- A gate is detached. -/
theorem detached (formed : Formed trips world) (gate : Coherence.GateId) :
    Formed (trips.add gate world.gates).1 { world with gates := (trips.add gate world.gates).2 } :=
  have caches : ({ world with gates := (trips.add gate world.gates).2 } : World).caches = world.caches := rfl
  { formed with
    cached := fun shelf ordinary entry among => formed.cached shelf ordinary entry (shelf.mem_congr caches among)
    described := fun one thing memo found describes =>
      have ⟨older, its, has, governed⟩ := formed.described one thing memo found describes
      ⟨older, its, has, governed.add gate⟩
    known := fun one thing its found has => (Batch.current_size_add trips gate world.gates).symm ▸ formed.known one thing its found has
    gates := formed.gates.add gate }

/-- The cells of a batch are tripped. -/
theorem tripped (formed : Formed trips world) : Formed {} { world with gates := (trips.commit world.gates).2 } :=
  have caches : ({ world with gates := (trips.commit world.gates).2 } : World).caches = world.caches := rfl
  { formed with
    cached := fun shelf ordinary entry among => formed.cached shelf ordinary entry (shelf.mem_congr caches among)
    described := fun one thing memo found describes =>
      have ⟨older, its, has, governed⟩ := formed.described one thing memo found describes
      ⟨older, its, has, governed.commit⟩
    known := fun one thing its found has => by
      rw [Batch.current_commit]
      exact formed.known one thing its found has
    gates := formed.gates.commit }

end Formed

/-- Native descriptors stay where they are, and none that is there is released. -/
theorem Clean.alters (clean : Clean dismissed world) (formed : Formed trips world) (alters : Alters got world after)
    (calm : ∀ id, after.isReleased id = true → world.isReleased id = true) : Clean dismissed after where
  entries entry among := (clean.entries entry (alters.descriptors among)).imp_right fun live =>
    Bool.eq_false_iff.mpr fun released => Bool.eq_false_iff.mp live (calm _ released)
  types entry among := by
    refine Bool.eq_false_iff.mpr fun keeps => ?_
    obtain ⟨thing', memo, other, found, describes, valid, ref, released⟩ := keepsReleased_iff.mp keeps
    obtain ⟨thing, was, same⟩ | ⟨fresh, -⟩ := alters.things entry.2 thing' found
    · obtain before | ⟨-, new, -⟩ := alters.entries (.entities .type) entry among
      · have kept : world.keepsReleased entry.2 = true := keepsReleased_iff.mpr ⟨thing, memo, other, was,
          (same.describes memo).mp describes, alters.grows.onward.valid_before valid, ref, calm other released⟩
        rw [clean.types entry before] at kept
        cases kept
      · rw [new, formed.thing?_next] at was
        cases was
    · exact fresh.describes memo describes

/-- Gates are tripped at most. -/
theorem Clean.gates {gates : Gates} (clean : Clean dismissed world) (onward : world.gates.Onward gates) :
    Clean dismissed { world with gates } where
  entries := clean.entries
  types entry among := by
    refine Bool.eq_false_iff.mpr fun keeps => Bool.eq_false_iff.mp (clean.types entry among) ?_
    obtain ⟨thing, memo, other, there, describes, valid, ref, released⟩ := keepsReleased_iff.mp keeps
    exact keepsReleased_iff.mpr ⟨thing, memo, other, there, describes, onward.valid_before valid, ref, released⟩

/-! ## Edits -/

/-- Guards with owners stay unreleased meanwhile. -/
theorem calm_carried (base : World) :
    Carried fun got world => Followed base got world ∧ base.ledger.Calm world.ledger := by
  have carried := tracked_carried (fun _ => True) base
  refine {
    perm := fun same kept => ⟨carried.perm same kept.1, kept.2⟩
    less := fun kept => ⟨carried.less kept.1, kept.2⟩
    aside := fun aside kept => ⟨carried.aside aside kept.1, kept.2.trans (.of_guards ?_)⟩
    hold := fun id kept => ⟨carried.hold id kept.1, kept.2⟩
    unhold := fun kept => ⟨carried.unhold kept.1, kept.2⟩
    add := fun unguarded kept => ⟨carried.add unguarded kept.1, kept.2⟩
    gone := fun {got world id thing} found unreferenced kept => ⟨carried.gone found unreferenced kept.1, kept.2.trans ?_⟩ }
  · have same := congrArg (fun world : World => world.ledger.guards) aside.native
    exact same
  · obtain ⟨followed, -⟩ := kept
    unfold dropGuard
    split
    · next guard its =>
      have own : world.guardOf id = some guard := by
        rw [guardOf, found]
        exact its
      obtain ⟨-, held, there, owned, queued⟩ := followed.owners id guard own
      have calm := Ledger.dropOwner_calm followed.sound there owned (followed.unpinned own there unreferenced) queued
      have dropped : (onLedger (Ledger.dropOwner guard)).Ends { world with heap := world.heap.erase id }
          fun _ after => world.ledger.Calm after.ledger := onLedger_ends_as (calm.weaken fun _ _ calm => calm)
      exact dropped.exec
    · exact .refl _

/-- Whatever is released and has its owner was released before. -/
theorem isReleased_of_calm (followed : Followed base got after) (calm : world.ledger.Calm after.ledger)
    (guards : ∀ guard, after.guardOf id = some guard → world.guardOf id = some guard)
    (released : after.isReleased id = true) : world.isReleased id = true := by
  obtain ⟨guard, held', its, found, released⟩ := isReleased_iff.mp released
  obtain ⟨-, held'', found', owned, -⟩ := followed.owners id guard its
  cases found.symm.trans found'
  obtain ⟨held, was, -, released⟩ := calm guard held' found owned released
  exact isReleased_iff.mpr ⟨guard, held, guards guard its, was, released⟩

/-- What operations keep while they are under way: native descriptors are where they should be,
    and what is held is without native memory. -/
structure Kept (trips : Batch) (got : List ThingId) (world : World) : Prop where
  followed : Followed world got world
  formed : Formed trips world
  plain : ∀ id ∈ got, world.Plain id

theorem Edit.plain (edit : Edit got world got' after) (formed : Formed trips world) (plain : ∀ id ∈ got, world.Plain id) :
    ∀ id ∈ got', after.Plain id := by
  have alters := edit.alters
  have old (id : ThingId) (before : world.Plain id) : after.Plain id := before.alters alters
  -- What an edit gets it was given by a slot, a tie, a shelf or the heap, and each of them is plain.
  cases edit with
  | perm same => exact fun id among => old id (plain id (same.mem_iff.mpr among))
  | less => exact fun id among => old id (plain id (List.mem_cons_of_mem _ among))
  | released id => exact fun id among => old id (plain id (List.mem_cons_of_mem _ among))
  | served id spec peeked other =>
    intro one among
    obtain ref | held := List.mem_append.mp among
    · obtain ⟨thing, table, memo, there, has, found, -, rfl⟩ := peek_iff.mp peeked
      exact old one (formed.linked id thing one there (.kept has found other ref))
    · exact old one (plain one held)
  | @owned _ _ id relation entity found tied =>
    obtain ⟨thing, there, is⟩ := Option.bind_eq_some_iff.mp found
    have owner : world.Plain relation := formed.linked id thing relation there (.tied is tied)
    rintro one (_ | ⟨_, held⟩)
    · exact old relation owner
    · exact old one (plain one held)
  | added fresh =>
    rintro one (_ | ⟨_, held⟩)
    · exact formed.plain_next alters (Nat.lt_succ_self _)
    · exact old one (plain one held)
  | @found _ _ view shelf ordinary _ _ _ thread key id hit =>
    rintro one (_ | ⟨_, held⟩)
    · have asked : ((view.get world).ask (view.alive world) thread key).1 = .hit id := congrArg Prod.fst hit
      exact old id (formed.cached shelf ordinary _ (Cache.mem_of_hit asked))
    · exact old one (plain one held)
  | @made _ _ view shelf ordinary _ _ key thing fresh absent =>
    rintro one (_ | ⟨_, held⟩)
    · refine formed.plain_next alters ?_
      rw [nextThing_settle shelf]
      exact Nat.lt_succ_self _
    · exact old one (plain one held)
  | @got? _ _ view shelf ordinary _ _ key =>
    intro one among
    obtain found | held := List.mem_append.mp among
    · have its : ((view.get world).get? (view.alive world) key).1 = some one := Option.mem_toList.mp found
      exact old one (formed.cached shelf ordinary _ (Cache.mem_of_found its))
    · exact old one (plain one held)
  | @evicted _ _ view shelf ordinary _ _ key =>
    intro one among
    obtain found | held := List.mem_append.mp among
    · have its : ((view.get world).evict (view.alive world) key).1 = some one := Option.mem_toList.mp found
      exact old one (formed.cached shelf ordinary _ (Cache.mem_of_evicted its))
    · exact old one (plain one held)
  | _ => exact fun id among => old id (plain id among)

namespace Kept

/-- One change, after which things own their guards. -/
theorem alters (kept : Kept trips got world) (alters : Alters got world after) (followed : Followed base got after) :
    Kept trips got after :=
  ⟨followed.self, kept.formed.alters alters kept.plain, fun id among => (kept.plain id among).alters alters⟩

theorem edit (kept : Kept trips got world) (edit : Edit got world got' after) : Kept trips got' after where
  followed := ((tracked_carried (fun _ => True) world).edit kept.followed edit).self
  formed := kept.formed.alters edit.alters kept.plain
  plain := edit.plain kept.formed kept.plain

/-- Native descriptors are still served after a change that released no guard with an owner. -/
theorem clean (kept : Kept trips got world) (clean : Clean dismissed world) (alters : Alters got world after)
    (followed : Followed base got' after) (calm : world.ledger.Calm after.ledger) : Clean dismissed after :=
  clean.alters kept.formed alters fun _ => isReleased_of_calm followed calm fun _ its => alters.guardOf its

theorem clean_edit (kept : Kept trips got world) (clean : Clean dismissed world) (edit : Edit got world got' after) :
    Clean dismissed after :=
  have ⟨followed, calm⟩ := (calm_carried world).edit ⟨kept.followed, .refl _⟩ edit
  kept.clean clean edit.alters followed calm

theorem gates {gates : Gates} (kept : Kept trips got world) {trips' : Batch}
    (formed : Formed trips' { world with gates }) : Kept trips' got { world with gates } where
  followed := ((tracked_carried (fun _ => True) world).gates gates kept.followed).self
  formed := formed
  plain := kept.plain

end Kept

section batched

variable {start : List ThingId}

/-- Lookups, reads and signals leave native descriptors where they should be. -/
theorem Batched.kept (batched : Batched start base trips got world) (before : Kept {} start base) : Kept trips got world :=
  Batched.keeps (fun kept edit => kept.edit edit) (fun gate kept => kept.gates (kept.formed.detached gate))
    (fun kept => kept.gates kept.formed.tripped) before batched

/-- Lookups, reads and signals release no native descriptor. -/
theorem Batched.clean (batched : Batched start base trips got world) (before : Kept {} start base)
    (clean : Clean dismissed base) : Clean dismissed world := by
  induction batched with
  | refl => exact clean
  | step earlier edit ih => exact (earlier.kept before).clean_edit ih edit
  | detached _ gate ih => exact ih.gates (Batch.onward_add _ gate _)
  | tripped _ ih => exact ih.gates (Batch.onward_commit _ _)

theorem Edits.batched (edits : Edits start base got world) : Batched start base {} got world := Batched.refl.edits edits

end batched

end World

end CatalogReplica.Catalog
