import Mathlib.Data.List.Perm.Basic
import CatalogReplica.Proofs.Lifetime.Balance
import CatalogReplica.Proofs.Lifetime.Firing

/-!
# What drains leave of tables

A guard that a drain releases leaves the table of the lifespan that it knows of.  One guard after
the other leaves, and the lifespans that are left do not tell in which order.

* `Lifespan.without`: a lifespan that guards left.
* `Ledger.release_lifespan?`, `Ledger.drain_lifespan?`: what one release leaves, and a drain.
* `Ledger.Lossless.drain_alike`: drains of ledgers with the same guards and lifespans.
-/

namespace CatalogReplica.Lifetime

/-- A lifespan that guards left, one after the other. -/
def Lifespan.without (guards : List GuardId) (scope : Lifespan) : Lifespan :=
  { scope with guards := scope.guards.diff guards }

namespace Ledger

variable {thread : ThreadId} {queue : QueueId} {guards : List GuardId} {ledger mid after : Ledger} {id : GuardId}
  {held : Guard} {record : ReleaseQueue}

/-- Those of the guards that know of the lifespan. -/
def knowing (ledger : Ledger) (guards : List GuardId) (lifespan : LifespanId) : List GuardId :=
  guards.filter fun guard => ledger.knows guard == some lifespan

/-- From each lifespan those of the guards went that know of it. -/
def Sheds (guards : List GuardId) (before after : Ledger) : Prop :=
  ∀ lifespan, after.lifespan? lifespan
    = (before.lifespan? lifespan).map (Lifespan.without (before.knowing guards lifespan))

theorem Sheds.of_nothing (same : after.lifespans = ledger.lifespans) (nothing : ∀ lifespan, ledger.knowing guards lifespan = []) :
    Sheds guards ledger after := by
  intro lifespan
  rw [lifespan?, same, ← lifespan?, nothing]
  cases ledger.lifespan? lifespan <;> rfl

/-! ## Releases -/

theorem forget_lifespan? (ledger : Ledger) (id : GuardId) (lifespan other : LifespanId) :
    (ledger.forget id lifespan).2.lifespan? other
      = (ledger.lifespan? other).map (Lifespan.without (if lifespan = other then [id] else [])) := by
  unfold forget
  by_cases its : lifespan = other
  · subst its
    rw [if_pos rfl]
    cases found : ledger.lifespan? lifespan with
    | none => exact found
    | some scope =>
      dsimp only
      split
      · rw [lifespan?, (same_count _ id _ _).lifespans, ← lifespan?, lifespan?_onLifespan, if_pos rfl, found]
        simp [Lifespan.without]
      · next absent =>
        rw [found, Option.map_some, Lifespan.without, List.diff_cons, List.erase_of_not_mem absent]
        rfl
  · rw [if_neg its]
    have kept : (ledger.lifespan? other).map (Lifespan.without []) = ledger.lifespan? other := by
      cases ledger.lifespan? other <;> rfl
    rw [kept]
    cases ledger.lifespan? lifespan with
    | none => rfl
    | some scope =>
      dsimp only
      split
      · rw [lifespan?, (same_count _ id _ _).lifespans, ← lifespan?, lifespan?_onLifespan, if_neg (Ne.symm its)]
      · rfl

theorem conclude_lifespan? (found : ledger.guard? id = some held) (other : LifespanId) :
    (ledger.conclude id .unreachable).lifespan? other
      = (ledger.lifespan? other).map (Lifespan.without (if held.link = some other then [id] else [])) := by
  unfold conclude
  simp only [found, Option.bind_some]
  cases its : held.link with
  | none =>
    change ledger.lifespan? other = _
    cases ledger.lifespan? other <;> rfl
  | some lifespan =>
    simp only [Option.some_inj]
    exact forget_lifespan? (ledger.onGuard id fun held => { held with link := none }) id lifespan other

/-- A release whose guard became unreachable takes it out of the table of the lifespan that it
    knows of, and leaves lifespans as they were otherwise. -/
theorem release_lifespan? (found : ledger.guard? id = some held) (quiet : held.Quiet) :
    (release id .unreachable).Ends ledger fun _ after => Sheds [id] ledger after := by
  cases claimed : held.flags.claimed with
  | true =>
    refine (Task.Ends.of_ok (release_claimed found claimed .unreachable)).mpr (.of_nothing rfl fun lifespan => ?_)
    rw [knowing, List.filter_cons, knows_of_claimed found claimed]
    rfl
  | false =>
    obtain ⟨mid, taken, ran, books, there, link⟩ := release_concludes found quiet claimed .unreachable
    refine (Task.Ends.of_ok ran).mpr fun lifespan => ?_
    rw [conclude_lifespan? there, lifespan?, books.lifespans, ← lifespan?, link, knowing, List.filter_cons,
      knows_of_unclaimed found claimed]
    simp

/-- One guard after the other leaves the table of the lifespan that it knows of. -/
theorem releases_lifespan? (once : guards.Nodup)
    (found : ∀ id ∈ guards, ∃ held, ledger.guard? id = some held ∧ held.Quiet) :
    ∃ count after, Task.sum (fun id => Bool.toNat <$> release id .unreachable) guards ledger = .ok count after ∧
      Sheds guards ledger after := by
  induction guards generalizing ledger with
  | nil => exact ⟨0, ledger, rfl, .of_nothing rfl fun _ => rfl⟩
  | cons id guards ih =>
    obtain ⟨fresh, once⟩ := List.nodup_cons.mp once
    obtain ⟨held, there, quiet⟩ := found id List.mem_cons_self
    obtain ⟨won, mid, ran, touched⟩ := release_runs there quiet .unreachable
    have first := release_lifespan? there quiet
    rw [Task.Ends.of_ok ran] at first
    have others : ∀ other ∈ guards, mid.guard? other = ledger.guard? other :=
      fun other among => touched.others other fun same => fresh (same ▸ among)
    obtain ⟨count, after, ran', rest⟩ := ih once fun other among => by
      rw [others other among]
      exact found other (List.mem_cons_of_mem id among)
    refine ⟨won.toNat + count, after, Task.sum_cons (by rw [Task.map_run, ran]) ran', fun lifespan => ?_⟩
    have known : mid.knowing guards lifespan = ledger.knowing guards lifespan :=
      List.filter_congr fun other among => by rw [knows, others other among, knows]
    have whole : ledger.knowing (id :: guards) lifespan = ledger.knowing [id] lifespan ++ ledger.knowing guards lifespan :=
      List.filter_append [id] guards
    rw [rest lifespan, first lifespan, known, whole, Option.map_map]
    congr 1
    funext scope
    simp only [Function.comp_apply, Lifespan.without, List.diff_append]

/-! ## Drains -/

theorem drain_lifespan? (sound : Sound thread [] ledger) (found : ledger.queue? queue = some record) :
    (drain queue).Ends ledger fun _ after => Sheds record.guards ledger after := by
  obtain ⟨once, known⟩ := sound.members queue record found
  let emptied := ledger.onQueue queue fun record => { record with guards := [] }
  obtain ⟨count, after, ran, sheds⟩ := @releases_lifespan? record.guards
    { emptied with busy := record.guards ++ emptied.busy } once fun id among => by
      obtain ⟨held, there⟩ := Option.isSome_iff_exists.mp (known id among)
      exact ⟨held, there, (sound.good id held there).quiet⟩
  refine .next (Task.get_run ledger) ?_
  rw [found]
  exact .next (Task.modify_run _ ledger) ((Task.Ends.of_ok (holding_run ran)).mpr sheds)

/-- Drains of ledgers with the same guards and lifespans leave the same lifespans, in whatever order
    guards wait. -/
theorem Lossless.drain_alike {ledger' after' : Ledger} {queue' : QueueId} {count count' : Nat}
    (lossless : ledger.Lossless queue) (lossless' : ledger'.Lossless queue') (sound : Sound thread [] ledger)
    (sound' : Sound thread [] ledger') (guards : ∀ guard, ledger'.guard? guard = ledger.guard? guard)
    (lifespans : ∀ lifespan, ledger'.lifespan? lifespan = ledger.lifespan? lifespan)
    (run : Ledger.drain queue ledger = .ok count after) (run' : Ledger.drain queue' ledger' = .ok count' after')
    (lifespan : LifespanId) : after'.lifespan? lifespan = after.lifespan? lifespan := by
  obtain ⟨record, found, -⟩ := lossless.engaged
  obtain ⟨record', found', -⟩ := lossless'.engaged
  have sheds := (Task.Ends.of_ok run).mp (drain_lifespan? sound found)
  have sheds' := (Task.Ends.of_ok run').mp (drain_lifespan? sound' found')
  have knows (guard : GuardId) : ledger'.knows guard = ledger.knows guard := by rw [Ledger.knows, guards, Ledger.knows]
  have perm : (ledger'.knowing record'.guards lifespan).Perm (ledger.knowing record.guards lifespan) := by
    refine (List.perm_ext_iff_of_nodup ((sound'.members _ _ found').1.filter _)
      ((sound.members _ _ found).1.filter _)).mpr fun guard => ?_
    rw [List.mem_filter, List.mem_filter, knows]
    refine and_congr_left fun known => ?_
    -- whoever knows of a lifespan was not released, and is in the queue just if it waits
    have isOpen : ledger.isOpen guard = true := by
      obtain ⟨held, there, its⟩ := Option.bind_eq_some_iff.mp (beq_iff_eq.mp known)
      refine isOpen_iff.mpr ⟨held, there, Bool.eq_false_iff.mpr fun claimed => ?_⟩
      rw [if_pos claimed] at its
      cases its
    have isOpen' : ledger'.isOpen guard = true := by rwa [Ledger.isOpen, guards]
    have waiting : ledger'.Waiting guard ↔ ledger.Waiting guard := by rw [Waiting, guards, Waiting]
    rwa [lossless.waiting_iff sound found, lossless'.waiting_iff sound' found', and_iff_left isOpen,
      and_iff_left isOpen'] at waiting
  rw [sheds' lifespan, sheds lifespan, lifespans]
  congr 1
  funext scope
  rw [Lifespan.without, perm.diff_left, Lifespan.without]

end Ledger

end CatalogReplica.Lifetime
