import CatalogReplica.Proofs.Catalog.Shedding
import CatalogReplica.Proofs.Catalog.Waiting
import CatalogReplica.Proofs.Lifetime.Firing
import CatalogReplica.Proofs.Native.Accounted

/-!
# Scopes that are torn down together

A session that is told of several scopes tears down the lifespans that it has for them.  Being
told of a scope again changes nothing, whether it was reset or deleted before: which lifespans
are emptied, which are ended and which guards are released is a matter of all that was told.

* `World.Minded`: what holds while a burst is carried out.
* `World.Tears`: what scopes that were told of leave.
* `World.teardown_tears`, `World.tearAll_tears`: one scope, and all of them.
-/

namespace CatalogReplica.Catalog

open Identity (Cache)
open Lifetime (Guard GuardId Ledger LifespanId)
open Lifetime.Ledger (Fires Sweeps)

/-! ## Sessions -/

theorem Session.told_told (session : Session) (address : Address) (deleted : Bool) :
    (session.told address deleted).told address deleted = session.told address deleted := by
  cases deleted with
  | false => rfl
  | true => exact congrArg (fun lifespans => { session with lifespans }) (Cache.dismiss_dismiss _ _)

theorem Session.told_comm (session : Session) (address other : Address) (deleted deleted' : Bool) :
    (session.told address deleted).told other deleted' = (session.told other deleted').told address deleted := by
  cases deleted <;> cases deleted' <;> try rfl
  exact congrArg (fun lifespans => { session with lifespans }) (Cache.dismiss_comm _ _ _)

/-- What a session has for scopes once it was told of several. -/
def Session.toldAll (session : Session) (entries : List (Address × Bool)) : Session :=
  entries.foldl (fun session entry => session.told entry.1 entry.2) session

theorem Session.toldAll_of_set {session : Session} {entries entries' : List (Address × Bool)}
    (same : ∀ entry, entry ∈ entries ↔ entry ∈ entries') : session.toldAll entries = session.toldAll entries' :=
  Identity.foldl_of_set (fun session one other => session.told_comm one.1 other.1 one.2 other.2)
    (fun session one => session.told_told one.1 one.2) same session

theorem Session.find?_told (session : Session) (address other : Address) (deleted : Bool) :
    (session.told address deleted).lifespans.find? other
      = if other = address ∧ deleted = true then none else session.lifespans.find? other := by
  unfold Session.told
  cases deleted with
  | false => simp
  | true => simp [Cache.find?_dismiss]

theorem Session.told_toldAll (session : Session) (entries : List (Address × Bool)) (address : Address) (deleted : Bool) :
    (session.toldAll entries).told address deleted = session.toldAll (entries ++ [(address, deleted)]) := by
  rw [toldAll, toldAll, List.foldl_append, List.foldl_cons, List.foldl_nil]

/-- Scopes that were deleted are not found any more. -/
theorem Session.find?_toldAll (session : Session) (entries : List (Address × Bool)) (address : Address) :
    (session.toldAll entries).lifespans.find? address
      = if (address, true) ∈ entries then none else session.lifespans.find? address := by
  unfold toldAll
  induction entries generalizing session with
  | nil => rfl
  | cons entry entries ih =>
    obtain ⟨first, deleted⟩ := entry
    rw [List.foldl_cons, ih, find?_told]
    by_cases among : (address, true) ∈ entries
    · rw [if_pos among, if_pos (List.mem_cons_of_mem _ among)]
    · rw [if_neg among]
      simp [among, eq_comm]

/-- Whether a scope was told of that the session has the lifespan for. -/
def Session.strikes (session : Session) (entries : List (Address × Bool)) (lifespan : LifespanId) : Bool :=
  entries.any fun entry => session.lifespans.find? entry.1 == some lifespan

/-- Whether such a scope was deleted. -/
def Session.shuts (session : Session) (entries : List (Address × Bool)) (lifespan : LifespanId) : Bool :=
  entries.any fun entry => entry.2 && session.lifespans.find? entry.1 == some lifespan

theorem Session.strikes_of_set {session : Session} {entries entries' : List (Address × Bool)}
    (same : ∀ entry, entry ∈ entries ↔ entry ∈ entries') : session.strikes entries = session.strikes entries' := by
  funext lifespan
  rw [Bool.eq_iff_iff, strikes, strikes, List.any_eq_true, List.any_eq_true]
  simp only [same]

theorem Session.shuts_of_set {session : Session} {entries entries' : List (Address × Bool)}
    (same : ∀ entry, entry ∈ entries ↔ entry ∈ entries') : session.shuts entries = session.shuts entries' := by
  funext lifespan
  rw [Bool.eq_iff_iff, shuts, shuts, List.any_eq_true, List.any_eq_true]
  simp only [same]

namespace World

variable {base world after : World} {session : Session} {entries entries' : List (Address × Bool)} {address : Address}
  {deleted : Bool} {lifespan : LifespanId}

/-- In a session nothing was lost since an earlier state, and the books are in order. -/
structure Minded (base world : World) : Prop where
  watched : Watched base [] world
  keeping : Keeping base [] [] [] (some []) world

/-! ## One scope -/

/-- What scopes that a session was told of leave.  The lifespans that it has for them are emptied,
    and ended if their scopes were deleted; the guards in their tables are released. -/
structure Tears (session : Session) (entries : List (Address × Bool)) (base world : World) : Prop where
  same : ∃ ledger provider, world = { base with ledger, provider, session := some (session.toldAll entries) }
  lifespans : ∀ id, world.ledger.lifespan? id
    = if session.strikes entries id then (base.ledger.lifespan? id).map (Ledger.emptied (session.shuts entries id))
      else base.ledger.lifespan? id
  sweeps : ∃ visited count, Sweeps mutatorThread visited count base.ledger world.ledger ∧
    ∀ guard, guard ∈ visited ↔ ∃ id, session.strikes entries id = true ∧ guard ∈ base.ledger.table id

namespace Tears

theorem start (its : base.session = some session) : Tears session [] base base where
  same := ⟨base.ledger, base.provider, by rw [Session.toldAll, List.foldl_nil, ← its]⟩
  lifespans _ := rfl
  sweeps := ⟨[], 0, .refl _ _, by simp [Session.strikes]⟩

theorem told (tears : Tears session entries base world) : world.session = some (session.toldAll entries) := by
  obtain ⟨_, _, same⟩ := tears.same
  rw [same]

/-- A table is emptied, or is as it was. -/
theorem table (tears : Tears session entries base world) (id : LifespanId) :
    world.ledger.table id = if session.strikes entries id then [] else base.ledger.table id := by
  rw [Ledger.table, tears.lifespans, Ledger.table]
  split
  · cases base.ledger.lifespan? id <;> rfl
  · rfl

/-- The session has no lifespan for a scope, or has none any more. -/
theorem nothing (tears : Tears session entries base world)
    (absent : (session.toldAll entries).lifespans.find? address = none) (deleted : Bool) (tally : Tally) :
    Tears session (entries ++ [(address, deleted)]) base { world with
      ledger := { world.ledger with tally }, session := some ((session.toldAll entries).told address deleted) } := by
  -- what the lifespan was struck by was no later than the deletion of its scope
  have known (id : LifespanId) (its : session.lifespans.find? address = some id) :
      session.strikes entries id = true ∧ session.shuts entries id = true := by
    rw [Session.find?_toldAll] at absent
    split at absent
    · next among =>
      exact ⟨List.any_eq_true.mpr ⟨_, among, by simp [its]⟩, List.any_eq_true.mpr ⟨_, among, by simp [its]⟩⟩
    · cases absent.symm.trans its
  have strikes (id : LifespanId) : session.strikes (entries ++ [(address, deleted)]) id = session.strikes entries id := by
    rw [Session.strikes, List.any_append, ← Session.strikes]
    cases its : session.lifespans.find? address == some id with
    | false => simp [its]
    | true => simp [(known id (by simpa using its)).1]
  have shuts (id : LifespanId) : session.shuts (entries ++ [(address, deleted)]) id = session.shuts entries id := by
    rw [Session.shuts, List.any_append, ← Session.shuts]
    cases its : session.lifespans.find? address == some id with
    | false => simp [its]
    | true => simp [(known id (by simpa using its)).2]
  obtain ⟨_, _, same⟩ := tears.same
  obtain ⟨visited, count, sweeps, among⟩ := tears.sweeps
  refine ⟨⟨_, _, by rw [same, Session.told_toldAll]⟩, fun id => ?_, visited, count, ?_, fun guard => ?_⟩
  · rw [strikes, shuts]
    exact tears.lifespans id
  · have whole := sweeps.trans (.of_same rfl rfl : Sweeps mutatorThread [] 0 world.ledger { world.ledger with tally })
    rwa [List.append_nil] at whole
  · rw [among]
    simp only [strikes]

/-- The session tears the lifespan down that it has for a scope. -/
theorem strike {ledger : Ledger} {guards : Nat} (tears : Tears session entries base world) (distinct : session.Distinct)
    (found : (session.toldAll entries).lifespans.find? address = some lifespan) (deleted : Bool)
    (lifespans : ∀ id, ledger.lifespan? id
      = if id = lifespan then (world.ledger.lifespan? id).map (Ledger.emptied deleted) else world.ledger.lifespan? id)
    (sweeps : Sweeps mutatorThread (world.ledger.table lifespan) guards world.ledger ledger) (provider : Provider) :
    Tears session (entries ++ [(address, deleted)]) base { world with
      ledger, provider, session := some ((session.toldAll entries).told address deleted) } := by
  have known : session.lifespans.find? address = some lifespan ∧ (address, true) ∉ entries := by
    rw [Session.find?_toldAll] at found
    split at found
    · cases found
    · next apart => exact ⟨found, apart⟩
  have strikes (id : LifespanId) : session.strikes (entries ++ [(address, deleted)]) id
      = (session.strikes entries id || decide (id = lifespan)) := by
    rw [Session.strikes, List.any_append, ← Session.strikes]
    simp [known.1, eq_comm, beq_eq_decide]
  have shuts (id : LifespanId) : session.shuts (entries ++ [(address, deleted)]) id
      = (session.shuts entries id || deleted && decide (id = lifespan)) := by
    rw [Session.shuts, List.any_append, ← Session.shuts]
    simp [known.1, eq_comm, beq_eq_decide]
  -- no other scope has the lifespan
  have open' : session.shuts entries lifespan = false := by
    rw [Bool.eq_false_iff]
    intro shut
    obtain ⟨⟨other, gone⟩, among, its⟩ := List.any_eq_true.mp shut
    obtain ⟨isGone, has⟩ : gone = true ∧ session.lifespans.find? other = some lifespan := by simpa using its
    subst isGone
    obtain rfl : other = address :=
      distinct.2 _ (Cache.mem_of_find? has) _ (Cache.mem_of_find? known.1) rfl
    exact known.2 among
  obtain ⟨_, _, same⟩ := tears.same
  obtain ⟨visited, count, before, among⟩ := tears.sweeps
  refine ⟨⟨_, _, by rw [same, Session.told_toldAll]⟩, fun id => ?_, _, _, before.trans sweeps, fun guard => ?_⟩
  · dsimp only
    rw [lifespans, tears.lifespans, strikes, shuts]
    by_cases its : id = lifespan
    · subst its
      rw [if_pos rfl, open']
      cases session.strikes entries id <;> cases base.ledger.lifespan? id <;> simp [Ledger.emptied]
    · rw [if_neg its]
      simp [its]
  · rw [List.mem_append, among, tears.table]
    simp only [strikes, Bool.or_eq_true, decide_eq_true_eq]
    constructor
    · rintro (⟨id, struck, listed⟩ | listed)
      · exact ⟨id, .inl struck, listed⟩
      · split at listed
        · cases listed
        · exact ⟨lifespan, .inr rfl, listed⟩
    · rintro ⟨id, struck | rfl, listed⟩
      · exact .inl ⟨id, struck, listed⟩
      · by_cases before : session.strikes entries id = true
        · exact .inl ⟨id, before, listed⟩
        · exact .inr (by rwa [if_neg before])

end Tears

/-- The teardown of a scope runs the actions of the guards that it releases. -/
theorem teardown_tears {early : World} (tears : Tears session entries base world) (distinct : session.Distinct)
    (minded : Minded early world) (lossless : early.Lossless) (address : Address) (deleted : Bool) :
    ∃ guards after, teardown address deleted world = .ok guards.length after ∧
      Fires .lifespanEnded guards world.ledger after.ledger ∧ Tears session (entries ++ [(address, deleted)]) base after := by
  obtain ⟨tally, run⟩ := teardown_run tears.told address deleted
  have counted : Fires .lifespanEnded [] world.ledger { world.ledger with tally } := .of_same rfl rfl
  cases found : (session.toldAll entries).lifespans.find? address with
  | none =>
    rw [found] at run
    exact ⟨[], _, run, counted, tears.nothing found deleted tally⟩
  | some lifespan =>
    rw [found] at run
    have standing : world.ledger.Standing lifespan := by
      refine minded.keeping.ordered.takes lifespan ?_
      rw [scopes_eq tears.told]
      exact List.mem_map.mpr ⟨_, Cache.mem_of_find? found, rfl⟩
    have waits : Ledger.Lossless world.queue { world.ledger with tally } := (minded.watched.lossless lossless).congr rfl rfl
    obtain ⟨guards, ledger, torn, fires, sweeps, lifespans⟩ := waits.teardown_fires
      (minded.watched.followed.sound.tally tally) minded.keeping.ordered.flat standing deleted
    refine ⟨guards, _, run.trans (onLedger_run torn), counted.trans fires, ?_⟩
    · have whole := (Sweeps.of_same rfl rfl : Sweeps mutatorThread [] 0 world.ledger { world.ledger with tally }).trans sweeps
      rw [List.nil_append, Nat.zero_add] at whole
      exact tears.strike distinct found deleted lifespans whole _

/-- Several scopes are torn down. -/
theorem tearAll_tears {early : World} (tears : Tears session entries base world) (distinct : session.Distinct)
    (minded : Minded early world) (lossless : early.Lossless) (inSession : early.session.isSome = true)
    (more : List (Address × Bool)) :
    ∃ guards after, Task.sum (fun entry => teardown entry.1 entry.2) more world = .ok guards.length after ∧
      Fires .lifespanEnded guards world.ledger after.ledger ∧ Tears session (entries ++ more) base after ∧
      Minded early after := by
  induction more generalizing entries world with
  | nil => exact ⟨[], world, rfl, .of_same rfl rfl, by rwa [List.append_nil], minded⟩
  | cons entry more ih =>
    obtain ⟨guards, mid, run, fires, torn⟩ := teardown_tears tears distinct minded lossless entry.1 entry.2
    have watched := (Task.Ends.of_ok run).mp (teardown_watched inSession entry.1 entry.2 [] world minded.watched)
    have keeping := (Task.Ends.of_ok run).mp (keeping_teardown entry.1 entry.2 [] world minded.keeping)
    obtain ⟨guards', after, rest, fires', torn', minded'⟩ := ih torn ⟨watched, keeping⟩
    refine ⟨guards ++ guards', after, ?_, fires.trans fires', ?_, minded'⟩
    · rw [List.length_append]
      exact Task.sum_cons run rest
    · rwa [List.append_assoc] at torn'

/-! ## Two catalogs -/

/-- Those who were told of the same scopes have the same left. -/
theorem Tears.agree {base' world' : World} (tears : Tears session entries base world)
    (tears' : Tears session entries' base' world') (same : ∀ entry, entry ∈ entries' ↔ entry ∈ entries)
    (guards : ∀ guard, base'.ledger.guard? guard = base.ledger.guard? guard)
    (lifespans : ∀ id, base'.ledger.lifespan? id = base.ledger.lifespan? id) :
    world'.session = world.session ∧ (∀ guard, world'.ledger.guard? guard = world.ledger.guard? guard) ∧
      ∀ id, world'.ledger.lifespan? id = world.ledger.lifespan? id := by
  refine ⟨?_, fun guard => ?_, fun id => ?_⟩
  · rw [tears'.told, tears.told, Session.toldAll_of_set same]
  · obtain ⟨visited, count, sweeps, among⟩ := tears.sweeps
    obtain ⟨visited', count', sweeps', among'⟩ := tears'.sweeps
    have tables (id : LifespanId) : base'.ledger.table id = base.ledger.table id := by
      rw [Ledger.table, lifespans, Ledger.table]
    have isSame : guard ∈ visited' ↔ guard ∈ visited := by
      rw [among', among, Session.strikes_of_set same]
      simp only [tables]
    rw [sweeps'.guards, sweeps.guards, guards]
    simp only [isSame]
  · rw [tears'.lifespans, tears.lifespans, Session.strikes_of_set same, Session.shuts_of_set same, lifespans]

end World

end CatalogReplica.Catalog
