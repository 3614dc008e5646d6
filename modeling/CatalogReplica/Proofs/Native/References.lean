import CatalogReplica.Proofs.Lifetime.Accounts
import CatalogReplica.Proofs.Native.Reads
import CatalogReplica.Proofs.Native.Signals

/-!
# References on native descriptors

Every reference on a native descriptor that was taken and not given back is the reference of
one guard.

* `World.Accounts`: references and guards are in step, and what was taken and given back
  since an earlier state accounts for every difference.
* `World.accounts_carried`: lookups, reads, signals and clean-up keep the accounts.
* `World.recordDescriptor_ends`: a reference is taken with the columns of an interned record
  type; a new descriptor takes it over, or it is given back at once.
-/

namespace CatalogReplica.Catalog

open Lifetime (Happening Ledger LifespanId)
open Identity (Cache CacheView)

namespace Provider

/-! ## Giving references back -/

theorem referencesOn_releaseDescriptor (provider : Provider) (address other : Address) :
    (provider.releaseDescriptor address).referencesOn other
      = provider.referencesOn other - (if address = other then 1 else 0) := by
  unfold releaseDescriptor referencesOn
  cases found : provider.references.get? address with
  | none =>
    by_cases same : address = other
    · subst same
      simp [found]
    · simp [same]
  | some count =>
    dsimp only
    rw [Assoc.get?_set]
    by_cases same : other = address
    · subst same
      simp [found]
    · rw [if_neg same, if_neg (Ne.symm same)]
      rfl

/-- What the provider takes notice of, one happening after the other. -/
theorem notice_all (provider : Provider) (happenings : List Happening)
    (enough : ∀ address, (happenings.filterMap Happening.givenBack?).count address ≤ provider.referencesOn address) :
    (∀ address, (happenings.foldl notice provider).referencesOn address
      + (happenings.filterMap Happening.givenBack?).count address = provider.referencesOn address) ∧
    (happenings.foldl notice provider).released = provider.released ++ happenings.filterMap Happening.givenBack? := by
  -- On the happenings: only the firing of an unreachable guard gives a descriptor back.
  induction happenings generalizing provider with
  | nil => exact ⟨fun _ => rfl, (List.append_nil _).symm⟩
  | cons happening happenings ih =>
    cases back : happening.givenBack? with
    | none =>
      have same : provider.notice happening = provider := by
        unfold Happening.givenBack? at back
        split at back
        · cases back
        · next other => unfold notice; split <;> simp_all
      rw [List.filterMap_cons_none back] at enough ⊢
      rw [List.foldl_cons, same]
      exact ih provider enough
    | some address =>
      have same : provider.notice happening = provider.releaseDescriptor address := by
        unfold Happening.givenBack? at back
        split at back
        · cases back
          rfl
        · cases back
      rw [List.filterMap_cons_some back] at enough ⊢
      rw [List.foldl_cons, same]
      have step := referencesOn_releaseDescriptor provider address
      have later := ih (provider.releaseDescriptor address) fun other => by
        have enough := enough other
        rw [List.count_cons] at enough
        rw [step]
        by_cases its : address = other <;> simp [its] at enough ⊢ <;> omega
      refine ⟨fun other => ?_, ?_⟩
      · have later := later.1 other
        have enough := enough other
        rw [step] at later
        rw [List.count_cons] at enough ⊢
        by_cases its : address = other <;> simp [its] at later enough ⊢ <;> omega
      · rw [later.2]
        exact List.append_assoc _ _ _

theorem notice_all_services (provider : Provider) (happenings : List Happening) :
    (happenings.foldl notice provider).extraRecords = provider.extraRecords ∧
      (happenings.foldl notice provider).failures = provider.failures := by
  induction happenings generalizing provider with
  | nil => exact ⟨rfl, rfl⟩
  | cons happening happenings ih =>
    obtain ⟨extra, failures⟩ := ih (provider.notice happening)
    have same : (provider.notice happening).extraRecords = provider.extraRecords ∧
        (provider.notice happening).failures = provider.failures := by
      unfold notice
      split <;> exact ⟨rfl, rfl⟩
    exact ⟨extra.trans same.1, failures.trans same.2⟩

end Provider

/-- What the accounts have to do with of the provider. -/
def Provider.books (provider : Provider) :
    Assoc Int32 Address × Assoc Service Fault × Assoc Address Nat × List Address :=
  (provider.extraRecords, provider.failures, provider.references, provider.released)

/-- Each scope has one lifespan, and different scopes have different ones. -/
def Session.Distinct (session : Session) : Prop :=
  session.lifespans.Unique ∧
    ∀ one ∈ session.lifespans.table, ∀ two ∈ session.lifespans.table, one.2 = two.2 → one.1 = two.1

theorem Session.Distinct.fewer {session : Session} (distinct : session.Distinct) {cache : Cache Address LifespanId}
    (unique : cache.Unique) (among : cache.table ⊆ session.lifespans.table) :
    Session.Distinct { session with lifespans := cache } :=
  ⟨unique, fun one first two second same => distinct.2 one (among first) two (among second) same⟩

namespace Provider

/-! ## Taking references -/

theorem referencesOn_addReference (provider : Provider) (address other : Address) :
    (provider.addReference address).referencesOn other
      = provider.referencesOn other + (if address = other then 1 else 0) := by
  unfold addReference referencesOn
  dsimp only
  rw [Assoc.get?_set]
  by_cases same : other = address
  · subst same
    simp
  · rw [if_neg same, if_neg (Ne.symm same)]
    rfl

/-- The columns of a record type are found with a reference on them. -/
theorem lookupRecord_run {provider : Provider} (counted : provider.extraRecords = []) (serves : provider.failures = [])
    (typmod : Int32) : lookupRecord typmod provider = match provider.records.get? typmod with
      | some address => .ok (some address) (provider.addReference address)
      | none => .ok none provider := by
  unfold lookupRecord
  rw [Task.bind_ok (Task.get_run provider)]
  have serving : provider.serve .record () = .ok () := by
    unfold serve
    rw [serves]
    rfl
  rw [serving, counted]
  cases provider.records.get? typmod <;> rfl

end Provider

namespace World

variable {α : Type} {base world : World} {taken owed : List Address} {got : List ThingId}

/-- The lifespans of the session. -/
def scopes (world : World) : List LifespanId :=
  (world.session.map fun session => session.lifespans.table.map (·.2)).getD []

/-- References and guards are in step.  References are owed that were taken and have no guard
    yet. -/
structure Balanced (owed : List Address) (world : World) : Prop where
  counted : world.provider.extraRecords = []
  serves : world.provider.failures = []
  ordered : world.ledger.Ordered world.scopes
  lifespans : ∀ session, world.session = some session → session.Distinct
  balance : ∀ address, world.provider.referencesOn address = world.ledger.outstanding address + owed.count address

/-- References and guards are in step, and what was taken and given back since an earlier
    state accounts for every difference. -/
structure Accounts (base : World) (taken owed : List Address) (world : World) : Prop extends Balanced owed world where
  given : ∃ given, world.provider.released = base.provider.released ++ given ∧ ∀ address,
    world.provider.referencesOn address + given.count address = base.provider.referencesOn address + taken.count address

theorem Balanced.accounts (balanced : Balanced owed world) : Accounts world [] owed world :=
  ⟨balanced, [], (List.append_nil _).symm, fun _ => rfl⟩

/-- Neither references nor guards changed. -/
theorem Accounts.congr {after : World} (accounts : Accounts base taken owed world)
    (provider : after.provider.books = world.provider.books) (ledger : after.native.ledger = world.native.ledger)
    (session : after.session = world.session) : Accounts base taken owed after := by
  obtain ⟨extra, failures, references, released⟩ : _ ∧ _ ∧ _ ∧ _ := by
    simpa only [Provider.books, Prod.mk.injEq] using provider
  have references : after.provider.referencesOn = world.provider.referencesOn := by
    funext address
    rw [Provider.referencesOn, references, Provider.referencesOn]
  have scopes : after.scopes = world.scopes := by rw [World.scopes, session, World.scopes]
  have outstanding : after.ledger.outstanding = world.ledger.outstanding := (congrArg Ledger.outstanding ledger :)
  have ordered : after.native.ledger.Ordered world.scopes := ledger ▸ accounts.ordered.tally {}
  refine ⟨⟨extra.trans accounts.counted, failures.trans accounts.serves, ?_, ?_, ?_⟩, ?_⟩
  · rw [scopes]
    exact ordered.tally after.ledger.tally
  · rw [session]
    exact accounts.lifespans
  · rw [references, outstanding]
    exact accounts.balance
  · rw [released, references]
    exact accounts.given

/-! ## Operations on guards -/

/-- What operations on guards give back is given back to the provider. -/
theorem Accounts.setLedger (accounts : Accounts base taken owed world) {ledger : Ledger} {kept : List LifespanId}
    (booked : Ledger.Booked world.ledger kept ledger) (among : world.scopes ⊆ kept) :
    Accounts base taken owed (World.setLedger ledger world) := by
  obtain ⟨new, log, balance⟩ := booked.balance
  have happened : ledger.log.drop world.ledger.log.length = new := by rw [log, List.drop_left]
  have enough (address : Address) :
      (new.filterMap Happening.givenBack?).count address ≤ world.provider.referencesOn address := by
    rw [accounts.balance address, balance address]
    omega
  obtain ⟨references, released⟩ := world.provider.notice_all new enough
  obtain ⟨extra, failures⟩ := world.provider.notice_all_services new
  have provider : (World.setLedger ledger world).provider = new.foldl Provider.notice world.provider := by
    rw [World.setLedger, happened]
  obtain ⟨given, before, moved⟩ := accounts.given
  refine ⟨⟨?_, ?_, booked.toOrdered.fewer among, accounts.lifespans, fun address => ?_⟩,
    given ++ new.filterMap Happening.givenBack?, ?_, fun address => ?_⟩
  · rw [provider, extra, accounts.counted]
  · rw [provider, failures, accounts.serves]
  · have now := references address
    have was := accounts.balance address
    rw [balance address] at was
    rw [provider]
    change _ = ledger.outstanding address + _
    omega
  · rw [provider, released, before, List.append_assoc]
  · have now := references address
    have was := moved address
    rw [provider, List.count_append]
    omega

theorem onLedger_keeps {body : Task Ledger α} {holds : Ledger → Prop} (keeps : body.Keeps holds)
    (before : holds world.ledger) :
    (onLedger body).Ends world fun _ after => ∃ ledger, holds ledger ∧ after = World.setLedger ledger world :=
  onLedger_ends_as ((keeps _ before).weaken fun _ ledger after => ⟨ledger, after, rfl⟩)

/-- The accounts, with the addresses whose descriptors and, in a session, those whose
    lifespans are under construction. -/
structure Keeping (base : World) (taken owed claimed : List Address) (scoping : Option (List Address)) (world : World) :
    Prop extends Accounts base taken owed world where
  claimed : world.caches.descriptors.claims.map (·.key) = claimed
  scoping : world.session.map (fun session => session.lifespans.claims.map (·.key)) = scoping

variable {claimed : List Address} {scoping : Option (List Address)}

theorem Keeping.onLedger {body : Task Ledger α} (keeping : Keeping base taken owed claimed scoping world)
    (keeps : body.Keeps (Ledger.Booked world.ledger world.scopes)) :
    (onLedger body).Ends world fun _ after => Keeping base taken owed claimed scoping after ∧ after.scopes = world.scopes := by
  refine (onLedger_keeps keeps keeping.ordered.booked).weaken fun _ after ended => ?_
  obtain ⟨ledger, booked, rfl⟩ := ended
  exact ⟨⟨keeping.toAccounts.setLedger booked (List.Subset.refl _), keeping.claimed, keeping.scoping⟩, rfl⟩

theorem keeps_onLedger {body : Task Ledger α} (keeps : ∀ base kept, body.Keeps (Ledger.Booked base kept)) :
    (World.onLedger body).Keeps (Keeping base taken owed claimed scoping) :=
  fun _ keeping => (keeping.onLedger (keeps _ _)).weaken fun _ _ ended => ended.1

/-- What only has to do with other things keeps the accounts. -/
theorem Keeping.congr {after : World} (keeping : Keeping base taken owed claimed scoping world)
    (provider : after.provider.books = world.provider.books) (ledger : after.native.ledger = world.native.ledger)
    (session : after.session = world.session)
    (claims : after.caches.descriptors.claims = world.caches.descriptors.claims) :
    Keeping base taken owed claimed scoping after := by
  refine ⟨keeping.toAccounts.congr provider ledger session, ?_, ?_⟩
  · rw [claims, keeping.claimed]
  · rw [session, keeping.scoping]

theorem keeping_carried (base : World) (taken owed claimed : List Address) (scoping : Option (List Address)) :
    Carried fun _ world => Keeping base taken owed claimed scoping world where
  perm _ keeping := keeping
  less keeping := keeping
  aside aside keeping := by
    refine keeping.congr (congrArg (fun world => world.provider.books) aside.native :) (congrArg World.ledger aside.native :)
      (congrArg World.session aside.native :) ?_
    exact (congrArg (fun world => world.caches.descriptors.claims) aside.native :)
  hold _ keeping := keeping.congr rfl rfl rfl rfl
  unhold keeping := keeping.congr rfl rfl rfl rfl
  add _ keeping := keeping.congr rfl rfl rfl rfl
  gone {got world id thing} _ _ keeping := by
    have erased : Keeping base taken owed claimed scoping { world with heap := world.heap.erase id } :=
      keeping.congr rfl rfl rfl rfl
    unfold dropGuard
    split
    · next guard _ =>
      have keeps : (Ledger.dropOwner guard).Keeps (Ledger.Booked world.ledger world.scopes) :=
        (Ledger.booked_carried world.ledger world.scopes).toCarried.dropOwner trivial
      exact ((erased.onLedger keeps).weaken fun _ _ after => after.1).exec
    · exact erased

/-! ## Lifespans of the session -/

theorem get_lifespanView {session : Session} (its : world.session = some session) :
    lifespanView.get world = session.lifespans := by
  simp [lifespanView, its]

theorem scopes_eq {session : Session} (its : world.session = some session) :
    world.scopes = session.lifespans.table.map (·.2) := by
  simp [scopes, its]

theorem Keeping.session (keeping : Keeping base taken owed claimed (some []) world) :
    ∃ session, world.session = some session ∧ session.lifespans.claims = [] := by
  obtain ⟨session, its, idle⟩ := Option.map_eq_some_iff.mp keeping.scoping
  exact ⟨session, its, List.map_eq_nil_iff.mp idle⟩

/-- The lifespans of the session are replaced by others that take guards. -/
theorem Keeping.replace (keeping : Keeping base taken owed claimed scoping world) {session : Session}
    (its : world.session = some session) (notes : List (Identity.Note Address)) {cache : Cache Address LifespanId}
    (distinct : Session.Distinct { session with lifespans := cache })
    (ordered : world.ledger.Ordered (cache.table.map (·.2))) :
    Keeping base taken owed claimed (some (cache.claims.map (·.key))) (lifespanView.store notes cache world) ∧
      (lifespanView.store notes cache world).scopes = cache.table.map (·.2) := by
  have now : (lifespanView.store notes cache world).session = some { session with lifespans := cache } := by
    simp [CacheView.store, lifespanView, note, its]
  have scopes := scopes_eq now
  refine ⟨⟨⟨⟨keeping.counted, keeping.serves, ?_, ?_, keeping.balance⟩, keeping.given⟩, keeping.claimed, ?_⟩,
    scopes⟩
  · rw [scopes]
    exact ordered.tally _
  · intro other same
    rw [now] at same
    cases same
    exact distinct
  · rw [now]
    rfl

/-- Some lifespans are forgotten. -/
theorem Keeping.trim (keeping : Keeping base taken owed claimed scoping world) {session : Session}
    (its : world.session = some session) (notes : List (Identity.Note Address)) (cache : Cache Address LifespanId)
    (unique : cache.Unique) (among : cache.table ⊆ session.lifespans.table) :
    Keeping base taken owed claimed (some (cache.claims.map (·.key))) (lifespanView.store notes cache world) ∧
      (lifespanView.store notes cache world).scopes = cache.table.map (·.2) := by
  refine keeping.replace its notes ((keeping.lifespans session its).fewer unique among) (keeping.ordered.fewer ?_)
  rw [scopes_eq its]
  exact List.map_subset _ among

/-- A lifespan that was constructed is the session's once it is settled. -/
theorem Keeping.settle {lifespan : LifespanId} {address : Address}
    (keeping : Keeping base taken owed claimed (some [address]) world)
    (ordered : world.ledger.Ordered (lifespan :: world.scopes)) (new : lifespan ∉ world.scopes) :
    Keeping base taken owed claimed (some []) (lifespanView.settle address lifespan world) ∧
      lifespan ∈ (lifespanView.settle address lifespan world).scopes := by
  obtain ⟨session, its, claims⟩ := Option.map_eq_some_iff.mp keeping.scoping
  have before := keeping.lifespans session its
  have settled := session.lifespans.settle_spec (fun _ => true) address lifespan
  generalize run : session.lifespans.settle (fun _ => true) address lifespan = result at settled
  obtain ⟨out, notes, cache⟩ := result
  dsimp only at settled
  have mem (entry : Address × LifespanId) (old : entry ∈ session.lifespans.table) : entry.2 ∈ world.scopes :=
    scopes_eq its ▸ List.mem_map_of_mem old
  have distinct : Session.Distinct { session with lifespans := cache } := by
    refine ⟨settled.unique before.1, fun one first two second same => ?_⟩
    obtain rfl | ⟨old, -⟩ := settled.entries one first <;> obtain rfl | ⟨old', -⟩ := settled.entries two second
    · rfl
    · -- The scope settled is new, so no other entry has it.
      exact absurd (show lifespan ∈ world.scopes from (show lifespan = two.2 from same) ▸ mem two old') new
    · exact absurd (show lifespan ∈ world.scopes from (show one.2 = lifespan from same) ▸ mem one old) new
    · exact before.2 one old two old' same
  have fewer : cache.table.map (·.2) ⊆ lifespan :: world.scopes := by
    intro other among
    obtain ⟨entry, its', rfl⟩ := List.mem_map.mp among
    obtain rfl | ⟨old, -⟩ := settled.entries entry its'
    · exact List.mem_cons_self
    · exact List.mem_cons_of_mem _ (mem entry old)
  have idle : cache.claims.map (·.key) = [] := by
    rw [settled.claims]
    refine List.map_eq_nil_iff.mpr (List.filter_eq_nil_iff.mpr fun claim among => ?_)
    have same : claim.key ∈ session.lifespans.claims.map (·.key) := List.mem_map_of_mem among
    rw [claims, List.mem_singleton] at same
    simp [same]
  obtain ⟨entered, scopes⟩ := keeping.replace its notes distinct (ordered.fewer fewer)
  have left : lifespanView.settle address lifespan world = lifespanView.store notes cache world := by
    rw [CacheView.settle, get_lifespanView its, show lifespanView.alive world = fun _ => true from rfl, run]
    rfl
  rw [left]
  rw [idle] at entered
  refine ⟨entered, ?_⟩
  rw [scopes]
  exact List.mem_map_of_mem (settled.own rfl)

/-- There is a lifespan of the innermost scope, and it takes guards. -/
theorem currentLifespan_ends (keeping : Keeping base taken owed claimed (some []) world) :
    currentLifespan.Ends world fun outcome after => Keeping base taken owed claimed (some []) after ∧
      ∃ lifespan, outcome = .ok lifespan ∧ lifespan ∈ after.scopes := by
  obtain ⟨session, its, idle⟩ := keeping.session
  have distinct := keeping.lifespans session its
  have get := get_lifespanView its
  refine .next (Task.get_run world) ?_
  let mid (outcome : Except Interrupt LifespanId) (last : World) : Prop :=
    Keeping base taken owed claimed (some [world.provider.scope.1]) last ∧ ∃ lifespan, outcome = .ok lifespan ∧
      last.ledger.Ordered (lifespan :: last.scopes) ∧ lifespan ∉ last.scopes
  -- Without an entry a new lifespan is added, and none of those kept before is that one.
  have builds (notes : List (Identity.Note Address)) (cache : Cache Address LifespanId)
      (trimmed : (lifespanView.get world).Unique → Cache.Trimmed (lifespanView.alive world) (lifespanView.get world) cache)
      (claims : cache.claims = ⟨world.provider.scope.1, mutatorThread⟩ :: (lifespanView.get world).claims) :
      (World.onLedger <| Task.lift fun ledger => ledger.addLifespan world.provider.scope.1 world.provider.scope.2).Ends
        (lifespanView.store notes cache world) mid := by
    rw [get] at trimmed claims
    have trims := trimmed distinct.1
    obtain ⟨kept, -⟩ := keeping.trim its notes cache (trims.unique distinct.1) fun _ => trims.mem
    rw [claims, idle] at kept
    generalize lifespanView.store notes cache world = claiming at kept
    have added := kept.ordered.addLifespan world.provider.scope.1 world.provider.scope.2
    have booked : Ledger.Booked claiming.ledger (claiming.ledger.next :: claiming.scopes) (claiming.ledger.addLifespan _ _).2 :=
      ⟨added, [], (List.append_nil _).symm, fun _ => rfl⟩
    refine onLedger_ends_as ?_
    exact ⟨⟨kept.toAccounts.setLedger booked (List.subset_cons_self _ _), kept.claimed, kept.scoping⟩, _, rfl, added,
      kept.ordered.not_kept⟩
  refine CacheView.lookup_ends (fun lifespan among _ => ?_) (fun _ _ _ claimed _ => ?_)
    (fun notes cache _ _ trimmed claims => builds notes cache trimmed claims) ?_ ?_
  · rw [get] at among ⊢
    obtain ⟨kept, scopes⟩ := keeping.trim its [.hit] session.lifespans distinct.1 (List.Subset.refl _)
    rw [idle] at kept
    exact ⟨kept, lifespan, rfl, scopes ▸ List.mem_map_of_mem among⟩
  · rw [get, Cache.claim?, idle] at claimed
    exact absurd rfl claimed
  · rintro lifespan last ⟨kept, _, ⟨⟩, ordered, new⟩
    obtain ⟨settled, among⟩ := kept.settle ordered new
    exact ⟨settled, lifespan, rfl, among⟩
  · rintro _ _ ⟨-, _, made, -⟩
    cases made

/-- The lifespan of a scope is looked for. -/
theorem Keeping.find (keeping : Keeping base taken owed claimed (some []) world) (address : Address) :
    Keeping base taken owed claimed (some []) (lifespanView.get? address world).2 := by
  obtain ⟨session, its, idle⟩ := keeping.session
  have unique := (keeping.lifespans session its).1
  have get := get_lifespanView its
  unfold CacheView.get?
  obtain ⟨lifespan, -, -, run⟩ | ⟨-, notes, cache, run, trimmed, claims⟩ :=
    (lifespanView.get world).get?_cases (lifespanView.alive world) address
  · rw [run, get]
    have kept := (keeping.trim its [.hit] session.lifespans unique (List.Subset.refl _)).1
    rwa [idle] at kept
  · rw [get] at trimmed claims
    rw [run]
    have kept := (keeping.trim its notes cache ((trimmed unique).unique unique) fun _ => (trimmed unique).mem).1
    rwa [claims, idle] at kept

/-- The lifespan of a scope is forgotten. -/
theorem Keeping.forget (keeping : Keeping base taken owed claimed (some []) world) (address : Address) :
    Keeping base taken owed claimed (some []) (lifespanView.evict address world).2 ∧
      ∀ lifespan ∈ (lifespanView.evict address world).1, lifespan ∉ (lifespanView.evict address world).2.scopes := by
  obtain ⟨session, its, idle⟩ := keeping.session
  have distinct := keeping.lifespans session its
  obtain ⟨found, notes, cache, run, table, claims, among⟩ :=
    session.lifespans.evict_cases (lifespanView.alive world) address
  have left : lifespanView.evict address world = (found, lifespanView.store notes cache world) := by
    rw [CacheView.evict, get_lifespanView its, run]
    cases found <;> rfl
  have fewer : cache.table ⊆ session.lifespans.table := fun entry isThere =>
    (Cache.mem_erase.mp (table ▸ isThere)).1
  have unique : cache.Unique := by
    unfold Cache.Unique
    rw [table]
    exact List.Sublist.nodup (List.filter_sublist.map _) distinct.1
  obtain ⟨trimmed, scopes⟩ := keeping.trim its notes cache unique fewer
  rw [claims, idle] at trimmed
  rw [left]
  refine ⟨trimmed, fun lifespan isFound isThere => ?_⟩
  rw [scopes] at isThere
  obtain ⟨entry, isThere, same⟩ := List.mem_map.mp isThere
  -- no other scope has the lifespan
  have other := (Cache.mem_erase.mp (table ▸ isThere)).2
  exact other (distinct.2 entry (fewer isThere) (address, lifespan) (among lifespan isFound).1 same)

/-! ## Bursts -/

theorem keeping_teardown (address : Address) (deleted : Bool) :
    Minds (fun _ world => Keeping base taken owed claimed (some []) world) (teardown address deleted) := by
  intro got world keeping
  unfold teardown
  have torn (after : World) (kept : Keeping base taken owed claimed (some []) after) (lifespan : LifespanId)
      (apart : deleted = true → lifespan ∉ after.scopes) :
      (World.onLedger (Ledger.teardown mutatorThread lifespan deleted)).Ends after
        (After (fun _ world => Keeping base taken owed claimed (some []) world) (fun _ => []) got) := by
    refine (kept.onLedger ?_).weaken fun outcome last ended => ?_
    · exact (Ledger.booked_carried after.ledger after.scopes).teardown mutatorThread apart
    · cases outcome <;> exact ended.1
  refine .next (Task.lift_run _ world) ?_
  cases deleted with
  | true =>
    obtain ⟨kept, apart⟩ := keeping.forget address
    simp only [if_true]
    generalize lifespanView.evict address world = found at kept apart
    obtain ⟨_ | lifespan, after⟩ := found
    · exact kept
    · exact torn after kept lifespan fun _ => apart lifespan rfl
  | false =>
    have kept := keeping.find address
    simp only [Bool.false_eq_true, if_false]
    generalize lifespanView.get? address world = found at kept
    obtain ⟨_ | lifespan, after⟩ := found
    · exact kept
    · exact torn after kept lifespan (by rintro ⟨⟩)

theorem keeping_drain (scoping : Option (List Address)) :
    Minds (fun _ world => Keeping base taken owed claimed scoping world) drain := by
  intro got world keeping
  refine .next (Task.get_run world) ((keeping.onLedger ?_).weaken fun outcome last ended => ?_)
  · exact (Ledger.booked_carried world.ledger world.scopes).toCarried.drain _
  · cases outcome <;> exact ended.1

theorem keeping_dispatch (signals : List Signal) :
    Minds (fun _ world => Keeping base taken owed claimed (some []) world) (dispatch signals) :=
  (keeping_carried base taken owed claimed (some [])).dispatch keeping_teardown (keeping_drain (some [])) signals

/-! ## Columns of interned record types -/

theorem pin_booked {base : Ledger} {kept : List LifespanId} (thread : Lifetime.ThreadId) (guard : Lifetime.GuardId) :
    (Ledger.pin thread guard).Keeps (Ledger.Booked base kept) := by
  intro ledger booked
  refine .next (Task.get_run ledger) ?_
  cases ledger.handle guard with
  | error interrupt => exact booked
  | ok handle => exact booked.onGuard guard (fun _ => rfl) fun _ => .inl rfl

/-- The guard of a native descriptor as it is built. -/
def nativePlan (address : Address) (queue : Lifetime.QueueId) : Lifetime.Guard :=
  { what := "descriptor", handle := address, queue := some queue, action := some {} }

/-- A new guard takes over the reference that is owed. -/
theorem build_keeping {address : Address} {lifespan : LifespanId}
    (keeping : Keeping base taken [address] claimed scoping world) (among : lifespan ∈ world.scopes) :
    ∃ guard after, onLedger (Ledger.build (nativePlan address world.queue) (some lifespan)) world = .ok guard after ∧
      Keeping base taken [] claimed scoping after := by
  obtain ⟨ledger, ran, ordered, log, outstanding⟩ := Ledger.build_booked keeping.ordered among
    (show ∀ action, (nativePlan address world.queue).action = some action → action.owns = [] by rintro _ ⟨⟩; rfl) rfl
  refine ⟨world.ledger.next, setLedger ledger world, ?_, ?_⟩
  · unfold World.onLedger Task.within
    rw [ran]
  · have provider : (setLedger ledger world).provider = world.provider := by
      rw [setLedger, log, List.drop_length]
      rfl
    refine ⟨⟨⟨?_, ?_, ordered, keeping.lifespans, fun other => ?_⟩, ?_⟩, keeping.claimed, keeping.scoping⟩
    · rw [provider, keeping.counted]
    · rw [provider, keeping.serves]
    · rw [provider, keeping.balance]
      change _ = ledger.outstanding other + _
      rw [outstanding other, List.count_singleton]
      change _ = world.ledger.outstanding other + (address == other).toNat + 0
      cases address == other <;> rfl
    · rw [provider]
      exact keeping.given

theorem keeps_readNative (address : Address) {holds : World → Prop} : (readNative address).Keeps holds :=
  .bind .get fun _ => .bind (.ofOutcome _) fun _ => .bind (.ofOutcome _) fun _ => .bind (.ofOutcome _) fun _ =>
    .bind (.ofOutcome _) fun _ => .pure _

/-- A reference that is owed becomes the reference of a new guard. -/
theorem adopt_keeping {address : Address} (keeping : Keeping base taken [address] claimed (some []) world) :
    (adopt address).Ends world fun _ after => Keeping base taken [] claimed (some []) after := by
  refine (currentLifespan_ends keeping).bind ?_ ?_
  · rintro lifespan mid ⟨keeping, _, ⟨⟩, among⟩
    refine .next (Task.get_run mid) ?_
    obtain ⟨guard, after, ran, kept⟩ := build_keeping keeping among
    refine .next ran ?_
    have carried := fun base kept => (Ledger.booked_carried base kept).toCarried
    have pins : (World.onLedger (Ledger.pin mutatorThread guard)).Keeps (Keeping base taken [] claimed (some [])) :=
      keeps_onLedger fun _ _ => pin_booked mutatorThread guard
    have unpins : (World.onLedger (Ledger.unpin mutatorThread guard)).Keeps (Keeping base taken [] claimed (some [])) :=
      keeps_onLedger fun base kept => (carried base kept).unpin mutatorThread guard
    have drops : (World.onLedger (Ledger.dropOwner guard)).Keeps (Keeping base taken [] claimed (some [])) :=
      keeps_onLedger fun base kept => (carried base kept).dropOwner trivial
    have reads := pins.discard.bind fun _ =>
      (keeps_readNative address).ensuring fun state before => (unpins state before).exec
    refine Task.Keeps.bind reads.attempt (fun contents => ?_) after kept
    cases contents with
    | ok contents => exact .pure _
    | error interrupt => exact drops.bind fun _ => .throw interrupt
  · rintro _ _ ⟨-, _, made, -⟩
    cases made

/-- The cache of native descriptors is replaced. -/
theorem Keeping.recache (keeping : Keeping base taken owed claimed scoping world)
    (notes : List (Identity.Note Address)) (cache : Cache Address ThingId) :
    Keeping base taken owed (cache.claims.map (·.key)) scoping (descriptorView.store notes cache world) :=
  ⟨keeping.toAccounts.congr rfl rfl rfl, rfl, keeping.scoping⟩

/-- A reference that is owed is given back. -/
theorem Keeping.giveBack {address : Address} (keeping : Keeping base taken [address] claimed scoping world) :
    Keeping base taken [] claimed scoping { world with provider := world.provider.releaseDescriptor address } := by
  have step := world.provider.referencesOn_releaseDescriptor address
  obtain ⟨given, released, moved⟩ := keeping.given
  have enough (other : Address) : (if address = other then 1 else 0) ≤ world.provider.referencesOn other := by
    rw [keeping.balance, List.count_singleton]
    by_cases same : address = other <;> simp [same]
  refine ⟨⟨⟨keeping.counted, keeping.serves, keeping.ordered, keeping.lifespans, fun other => ?_⟩,
    given ++ [address], ?_, fun other => ?_⟩, keeping.claimed, keeping.scoping⟩
  · have before := keeping.balance other
    rw [List.count_singleton] at before
    simp only [step, List.count_nil, Nat.add_zero]
    by_cases same : address = other <;> simp [same] at before ⊢ <;> omega
  · change world.provider.released ++ [address] = _
    rw [released, List.append_assoc]
  · have before := moved other
    have enough := enough other
    simp only [step]
    rw [List.count_append, List.count_singleton]
    by_cases same : address = other <;> simp [same] at enough ⊢ <;> omega

/-- A reference on the native descriptor at an address becomes the reference of a new guard,
    or is given back beside the descriptor that is there. -/
theorem nativeDescriptor_keeping {address : Address} (keeping : Keeping base taken [address] [] (some []) world) :
    (nativeDescriptor address).Ends world fun _ after => Keeping base taken [] [] (some []) after := by
  refine .next (Task.get_run world) ?_
  have idle : world.caches.descriptors.claims = [] := List.map_eq_nil_iff.mp keeping.claimed
  cases known : (world.caches.descriptors.find? address).any world.alive with
  | true =>
    -- the descriptor that is there has a reference of its own
    obtain ⟨value, found⟩ : ∃ value, descriptorView.lookup mutatorThread address (construct (adopt address)) world
        = .ok value (hold value (descriptorView.store [.hit] (descriptorView.get world) world)) :=
      CacheView.lookup_of_known mutatorThread (construct (adopt address)) known
    refine .next found (.next (Task.modify_run _ _) ?_)
    have hit : Keeping base taken [address] [] (some [])
        (hold value (descriptorView.store [.hit] (descriptorView.get world) world)) :=
      keeping.congr rfl rfl rfl rfl
    exact hit.giveBack
  | false =>
    suffices ends : (descriptorView.lookup mutatorThread address (construct (adopt address))).Ends world
        fun _ after => Keeping base taken [] [] (some []) after from ends.bind (fun _ _ after => after) fun _ _ after => after
    have claims (last : World) (cache : Cache Address ThingId)
        (kept : Keeping base taken [] [address] (some []) last)
        (fewer : cache.claims = last.caches.descriptors.claims.filter fun claim => claim.key != address) :
        cache.claims.map (·.key) = [] := by
      refine List.map_eq_nil_iff.mpr (fewer ▸ List.filter_eq_nil_iff.mpr fun claim among => ?_)
      have same : claim.key ∈ last.caches.descriptors.claims.map (·.key) := List.mem_map_of_mem among
      rw [kept.claimed, List.mem_singleton] at same
      simp [same]
    have constructs (notes : List (Identity.Note Address)) (cache : Cache Address ThingId)
        (claims : cache.claims = ⟨address, mutatorThread⟩ :: (descriptorView.get world).claims) :
        (construct (adopt address)).Ends (descriptorView.store notes cache world)
          fun _ after => Keeping base taken [] [address] (some []) after := by
      have claiming := keeping.recache notes cache
      rw [claims, show (descriptorView.get world).claims = [] from idle] at claiming
      refine (adopt_keeping claiming).bind (fun thing after kept => ?_) fun _ _ kept => kept
      have added : Keeping base taken [] [address] (some []) (after.add thing).2 := kept.congr rfl rfl rfl rfl
      exact added
    refine CacheView.lookup_of_unknown_ends known ?_ constructs (fun value last kept => ?_) fun _ last kept => ?_
    · rw [show descriptorView.get world = world.caches.descriptors from rfl, Cache.claim?, idle]
      rfl
    · have settled := last.caches.descriptors.settle_spec last.alive address value
      have left := kept.recache (last.caches.descriptors.settle last.alive address value).2.1
        (last.caches.descriptors.settle last.alive address value).2.2
      rw [claims last _ kept settled.claims] at left
      exact @Carried.reap _ [] _ (keeping_carried base taken [] [] (some [])) _ left
    · have left := kept.recache [] (last.caches.descriptors.abandon address)
      rw [claims last _ kept rfl] at left
      exact left

/-- A reference is taken, and owed until a guard has it or it is given back. -/
theorem Keeping.take (keeping : Keeping base taken [] claimed scoping world) (address : Address) :
    Keeping base (address :: taken) [address] claimed scoping
      { world with provider := world.provider.addReference address } := by
  have step := world.provider.referencesOn_addReference address
  obtain ⟨given, released, moved⟩ := keeping.given
  refine ⟨⟨⟨keeping.counted, keeping.serves, keeping.ordered, keeping.lifespans, fun other => ?_⟩, given, released,
    fun other => ?_⟩, keeping.claimed, keeping.scoping⟩
  · have before := keeping.balance other
    rw [List.count_nil] at before
    simp only [step, List.count_singleton, before]
    by_cases same : address = other <;> simp [same]
  · have before := moved other
    simp only [step]
    rw [List.count_cons]
    by_cases same : address = other <;> simp [same] <;> omega

/-- The columns of an interned record type are looked for: a reference is taken just if the
    provider has them. -/
theorem recordDescriptor_keeping (keeping : Keeping base taken [] [] (some []) world) (typmod : Int32) :
    (recordDescriptor typmod).Ends world fun _ after =>
      Keeping base ((world.provider.records.get? typmod).toList ++ taken) [] [] (some []) after := by
  obtain ⟨session, its, -⟩ := keeping.session
  have isOpen : requireOpen world = .ok () world := by
    unfold requireOpen
    rw [Task.bind_ok (Task.get_run world)]
    simp [World.isOpen, its]
  have looked := Provider.lookupRecord_run keeping.counted keeping.serves typmod
  refine .next isOpen ?_
  cases found : world.provider.records.get? typmod with
  | none =>
    have ran : onProvider (Provider.lookupRecord typmod) world = .ok none world := by
      rw [found] at looked
      unfold onProvider Task.within
      rw [looked]
    exact .next ran keeping
  | some address =>
    have ran : onProvider (Provider.lookupRecord typmod) world
        = .ok (some address) { world with provider := world.provider.addReference address } := by
      rw [found] at looked
      unfold onProvider Task.within
      rw [looked]
    refine .next ran ?_
    exact (nativeDescriptor_keeping (keeping.take address)).bind (fun _ _ kept => kept) fun _ _ kept => kept

/-! ## Reads -/

/-- The address on which reading the columns of a type takes a reference: the type is an
    interned record type, and nothing valid is kept of its columns. -/
def takes (id : ThingId) (access : Coherence.Access) (world : World) : List Address :=
  match world.entity? id with
  | some entity =>
      if entity.isInternedRecord && computes id Catalog.typeDescriptor access world then
        (world.provider.records.get? entity.key.sub).toList
      else []
  | none => []

theorem typeDescriptor_keeping (id : ThingId) (access : Coherence.Access)
    (session : access = .mutator → scoping = some []) (keeping : Keeping base taken [] [] scoping world) :
    (typeDescriptor id access).Ends world fun _ after =>
      Keeping base (takes id access world ++ taken) [] [] scoping after := by
  have carried := keeping_carried base (takes id access world ++ taken) [] [] scoping
  have same (nothing : takes id access world = []) : Keeping base (takes id access world ++ taken) [] [] scoping world := by
    rw [nothing]
    exact keeping
  have ends := @Carried.typeDescriptor_ends _ [] world id carried access
    (fun idle => same ?_) (fun entity found plain => same ?_) (fun none => same ?_) fun entity found record ran => ?_
  · exact ends.weaken fun outcome after kept => by cases outcome <;> exact kept
  · unfold takes
    split <;> simp [idle]
  · simp [takes, found, plain]
  · simp [takes, none]
  · have isMutator : access = .mutator := by
      cases access with
      | mutator => rfl
      | reader => simp [computes, Coherence.SlotSpec.refusal, Catalog.typeDescriptor] at ran
    obtain rfl := session isMutator
    refine (recordDescriptor_keeping keeping entity.key.sub).weaken fun outcome after kept => ?_
    have took : takes id access world = (world.provider.records.get? entity.key.sub).toList := by
      simp [takes, found, record, ran]
    rw [took]
    cases outcome <;> exact kept

end World

end CatalogReplica.Catalog
