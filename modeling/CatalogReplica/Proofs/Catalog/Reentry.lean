import CatalogReplica.Proofs.Catalog.Fading
import CatalogReplica.Proofs.Catalog.Faulting
import CatalogReplica.Proofs.Catalog.Recipes

/-!
# Constructors do not ask for their own keys

Between the operations on a catalog no key is under construction.  While one is, nothing is
looked up in the same cache, so a lookup never meets a claim: it neither waits nor is refused.

* `World.Unclaimed`: what is under construction, and which services fail.
* `World.lookup_patient`: a lookup that starts while nothing is under construction is not refused.
* `World.recipe_explained`: nor is any lookup of a computation.
* `Operation.Reached.quiescent`: no operation leaves anything under construction.
* `Operation.navigation_unrepeated`: fields of cyclic catalogs are read to the end.
-/

namespace CatalogReplica.Catalog

open Coherence (Access CellId Computed SlotSpec)
open Identity (Cache CacheView Note)
open Interrupt (Regular)
open Lifetime (Ledger LifespanId)

/-! ## Claims -/

/-- No key is under construction in a cache of things. -/
structure Caches.Idle (caches : Caches) : Prop where
  entities : ∀ kind, (caches.of kind).claims = []
  descriptors : caches.descriptors.claims = []
  encodings : caches.encodings.claims = []

/-- A service that fails gave the fault, or it is no fault of a constructor that asks for its own key. -/
def Provider.Explains (failures : Assoc Service Fault) (interrupt : Interrupt) : Prop :=
  ∀ fault, interrupt = .fault fault → fault.kind = .reentrant → ∃ service, failures.get? service = some fault

namespace World

variable {κ : Type} {view : CacheView World κ ThingId} {shelves : Caches → Prop} {failures : Assoc Service Fault}
  {world after : World} {id : ThingId}

namespace Shelf

theorem idle (shelf : Shelf view) (idle : world.caches.Idle) : (view.get world).claims = [] := by
  cases shelf with
  | entities kind => exact idle.entities kind
  | descriptors => exact idle.descriptors
  | encodings => exact idle.encodings

/-- Where a cache was replaced by another one, it may be replaced again by one without claims. -/
theorem idle_set (shelf : Shelf view) (idle : world.caches.Idle) {first second : Cache κ ThingId}
    (replaced : after.caches = (view.set first world).caches) (claims : second.claims = []) :
    (view.set second after).caches.Idle := by
  -- The shelf turned first is overwritten again, so only the other shelves are asked about.
  cases shelf with
  | entities kind =>
    have turned : ((entityView kind).set second after).caches = after.caches.put kind second := rfl
    have before : ((entityView kind).set first world).caches = world.caches.put kind first := rfl
    rw [turned, replaced, before]
    refine ⟨fun other => ?_, ?_, ?_⟩
    · simp only [Caches.of_put]
      split
      · exact claims
      · exact idle.entities other
    · cases kind <;> exact idle.descriptors
    · cases kind <;> exact idle.encodings
  | descriptors =>
    refine ⟨fun kind => ?_, claims, ?_⟩
    · have same : (descriptorView.set second after).caches.of kind = after.caches.of kind := by cases kind <;> rfl
      have before : (descriptorView.set first world).caches.of kind = world.caches.of kind := by cases kind <;> rfl
      rw [same, replaced, before]
      exact idle.entities kind
    · have same : (descriptorView.set second after).caches.encodings = after.caches.encodings := rfl
      rw [same, replaced]
      exact idle.encodings
  | encodings =>
    refine ⟨fun kind => ?_, ?_, claims⟩
    · have same : (encodingView.set second after).caches.of kind = after.caches.of kind := by cases kind <;> rfl
      have before : (encodingView.set first world).caches.of kind = world.caches.of kind := by cases kind <;> rfl
      rw [same, replaced, before]
      exact idle.entities kind
    · have same : (encodingView.set second after).caches.descriptors = after.caches.descriptors := rfl
      rw [same, replaced]
      exact idle.descriptors

/-- Nothing but the cache and the counters change. -/
theorem beside_set (shelf : Shelf view) (cache : Cache κ ThingId) (world : World) :
    (view.set cache world).session = world.session ∧ (view.set cache world).provider = world.provider := by
  cases shelf <;> exact ⟨rfl, rfl⟩

theorem caches_store (shelf : Shelf view) (notes : List (Note κ)) (cache : Cache κ ThingId) (world : World) :
    (view.store notes cache world).caches = (view.set cache world).caches := by cases shelf <;> rfl

end Shelf

/-- What is under construction among things, while no lifespan is, and which services fail. -/
structure Unclaimed (shelves : Caches → Prop) (failures : Assoc Service Fault) (world : World) : Prop where
  shelves : shelves world.caches
  scopes : (lifespanView.get world).claims = []
  failures : world.provider.failures = failures

namespace Unclaimed

/-- The session is as it was, and so is what fails. -/
theorem turn {shelves' : Caches → Prop} (unclaimed : Unclaimed shelves failures world) (caches : shelves' after.caches)
    (session : after.session = world.session) (fails : after.provider.failures = world.provider.failures) :
    Unclaimed shelves' failures after := by
  refine ⟨caches, ?_, fails.trans unclaimed.failures⟩
  have same : lifespanView.get after = lifespanView.get world := congrArg (fun session : Option Session =>
    (session.getD (.blank 0)).lifespans) session
  rw [same]
  exact unclaimed.scopes

theorem congr (unclaimed : Unclaimed shelves failures world) (caches : after.caches = world.caches)
    (session : after.session = world.session) (fails : after.provider.failures = world.provider.failures) :
    Unclaimed shelves failures after := unclaimed.turn (caches ▸ unclaimed.shelves) session fails

/-- Nothing was added, and the caches of things are as they were. -/
theorem fades (unclaimed : Unclaimed shelves failures world) (fades : Fades world after) (caches : after.caches = world.caches) :
    Unclaimed shelves failures after :=
  ⟨caches ▸ unclaimed.shelves, List.subset_nil.mp (unclaimed.scopes ▸ fades.scopes),
    (congrArg Provider.failures fades.store).trans unclaimed.failures⟩

theorem setLedger (unclaimed : Unclaimed shelves failures world) (ledger : Ledger) :
    Unclaimed shelves failures (World.setLedger ledger world) := unclaimed.fades ((Fades.refl world).setLedger ledger) rfl

theorem reap (unclaimed : Unclaimed shelves failures world) (ids : List ThingId) :
    Unclaimed shelves failures (World.reap ids world) := unclaimed.fades ((Fades.refl world).reap ids) (caches_reap ids world)

theorem release (unclaimed : Unclaimed shelves failures world) (id : ThingId) :
    Unclaimed shelves failures (World.release id world) :=
  unclaimed.fades ((Fades.refl world).release id) (caches_reap [id] _)

theorem onTable (unclaimed : Unclaimed shelves failures world) (id : ThingId)
    (f : Coherence.SlotTable Datum → Coherence.SlotTable Datum) : Unclaimed shelves failures (World.onTable id f world) := by
  have changed : Unclaimed shelves failures (world.onThing id (Thing.onTable f)) := unclaimed.congr rfl rfl rfl
  exact changed.reap _

theorem holdAll (unclaimed : Unclaimed shelves failures world) (ids : List ThingId) :
    Unclaimed shelves failures (ids.foldl (fun world id => World.hold id world) world) := by
  rw [foldl_hold]
  exact unclaimed.congr rfl rfl rfl

/-- The lifespans of the session are replaced by some none of which is under construction. -/
theorem relist (caches : shelves world.caches) (fails : world.provider.failures = failures)
    {lifespans : Cache Address LifespanId} (claims : lifespans.claims = []) (notes : List (Note Address)) :
    Unclaimed shelves failures (lifespanView.store notes lifespans world) := by
  refine ⟨caches, ?_, fails⟩
  have got : lifespanView.get (lifespanView.store notes lifespans world)
      = ((world.session.map fun session : Session => { session with lifespans }).getD (Session.blank 0)).lifespans := rfl
  rw [got]
  cases world.session with
  | none => rfl
  | some session => exact claims

end Unclaimed

/-- The task looks nothing up while something is under construction. -/
abbrev Patient {α : Type} (shelves : Caches → Prop) (failures : Assoc Service Fault) (body : Task World α) : Prop :=
  body.Behaves (Unclaimed shelves failures) Regular

/-! ## Lookups -/

section lookups

variable [DecidableEq κ]

/-- A lookup that starts while nothing is under construction is not refused. -/
theorem lookup_patient (shelf : Shelf view) (key : κ) {construct : Task World ThingId}
    (constructs : ∀ caches, Patient (· = caches) failures construct) :
    Patient Caches.Idle failures (view.lookup mutatorThread key construct) := by
  intro world before
  have idle := shelf.idle before.shelves
  have free : (view.get world).claim? key = none := by rw [Cache.claim?, idle, List.find?_nil]
  -- what is stored in the end has no claims, whatever was stored before
  have stored {last : World} {shelves : Caches → Prop} (unclaimed : Unclaimed shelves failures last) (first : Cache κ ThingId)
      (replaced : last.caches = (view.set first world).caches) (notes : List (Note κ)) {second : Cache κ ThingId}
      (claims : second.claims = []) : Unclaimed Caches.Idle failures (view.store notes second last) := by
    obtain ⟨session, provider⟩ := shelf.beside_set second last
    rw [CacheView.store, shelf.note]
    exact (unclaimed.turn (shelf.idle_set before.shelves replaced claims) session (congrArg Provider.failures provider)).congr
      rfl rfl rfl
  -- while the key is claimed, no other one is
  let building (outcome : Except Interrupt ThingId) (last : World) : Prop :=
    (∃ first : Cache κ ThingId, last.caches = (view.set first world).caches ∧
      view.get last = first ∧ first.claims = [⟨key, mutatorThread⟩] ∧ Unclaimed (fun _ => True) failures last) ∧
      FailsOnly Regular outcome
  have emptied : ([⟨key, mutatorThread⟩] : List (Identity.Claim κ)).filter (fun claim => claim.key != key) = [] := by simp
  have settled (value : ThingId) (last : World) (built : building (.ok value) last) :
      Unclaimed Caches.Idle failures (view.settle key value last) ∧ FailsOnly Regular (.ok value : Except Interrupt ThingId) := by
    obtain ⟨⟨first, replaced, got, claims, unclaimed⟩, fails⟩ := built
    have none : ((view.get last).settle (view.alive last) key value).2.2.claims = [] := by
      rw [(Cache.settle_spec (view.get last) (view.alive last) key value).claims, got, claims, emptied]
    unfold CacheView.settle
    rw [shelf.letGo]
    exact ⟨(stored unclaimed first replaced _ none).reap _, fails⟩
  have abandoned (interrupt : Interrupt) (last : World) (built : building (.error interrupt) last) :
      Unclaimed Caches.Idle failures (view.abandon key last) ∧ FailsOnly Regular (.error interrupt : Except Interrupt ThingId) := by
    obtain ⟨⟨first, replaced, got, claims, unclaimed⟩, fails⟩ := built
    have none : ((view.get last).abandon key).claims = [] := by
      rw [Cache.abandon, got]
      exact (congrArg _ claims).trans emptied
    obtain ⟨session, provider⟩ := shelf.beside_set ((view.get last).abandon key) last
    exact ⟨unclaimed.turn (shelf.idle_set before.shelves replaced none) session (congrArg Provider.failures provider), fails⟩
  refine CacheView.lookup_ends (fun value _ _ => ?_) (fun interrupt _ _ claimed _ => absurd free claimed)
    (fun notes cache _ _ _ claims => ?_) settled abandoned
  · rw [shelf.hold]
    refine ⟨(stored before (view.get world) ?_ [.hit] idle).congr rfl rfl rfl, .ok value⟩
    cases shelf with
    | entities kind => cases kind <;> rfl
    | descriptors => rfl
    | encodings => rfl
  · rw [idle] at claims
    have caches := shelf.caches_store notes cache world
    obtain ⟨session, provider⟩ := shelf.beside_set cache world
    have start : Unclaimed (· = (view.set cache world).caches) failures (view.store notes cache world) := by
      rw [CacheView.store, shelf.note]
      exact before.turn rfl session (congrArg Provider.failures provider)
    refine (constructs _ _ start).weaken fun outcome last ended => ⟨⟨cache, ended.1.shelves, ?_, claims, ?_⟩, ended.2⟩
    · rw [shelf.get_congr (ended.1.shelves.trans caches.symm), shelf.get_store]
    · exact ended.1.turn trivial rfl rfl

end lookups

theorem requireValid_patient (kind : EntityClass) (oid : Oid) : Patient shelves failures (requireValid kind oid) := by
  unfold requireValid
  split
  · exact .pure _
  · exact .throw (.fault (by simp [Fault.notFound]))

theorem freshGate_patient : Patient shelves failures freshGate := .lift fun _ before => before.congr rfl rfl rfl

theorem construct_patient {make : Task World Thing} (makes : Patient shelves failures make) :
    Patient shelves failures (construct make) := Task.Behaves.bind makes fun _ => .lift fun _ before => before.congr rfl rfl rfl

theorem entity_patient (kind : EntityClass) (oid : Oid) : Patient Caches.Idle failures (entity kind oid) :=
  (requireValid_patient kind oid).bind fun _ => lookup_patient (.entities kind) _ fun _ =>
    construct_patient (Task.Behaves.bind (freshGate_patient.bind fun _ => .pure _) fun _ => .pure _)

theorem indexTypmod_patient (oid : Oid) (typmod : Int32) : Patient shelves failures (modify (indexTypmod oid typmod)) := by
  refine .modify fun world before => ?_
  unfold indexTypmod
  dsimp only
  split
  · exact before
  · exact before.congr rfl rfl rfl

theorem typeWith_patient (oid : Oid) (typmod : Int32) : Patient Caches.Idle failures (typeWith oid typmod) := by
  refine (requireValid_patient .type oid).bind fun _ => lookup_patient (.entities .type) _ fun _ => construct_patient ?_
  exact Task.Behaves.bind ((indexTypmod_patient oid typmod).bind fun _ => freshGate_patient.bind fun _ => .pure _) fun _ => .pure _

/-- The relation of an attribute was looked up before the attribute is. -/
theorem attributeOf_patient (oid : Oid) (attnum : Int16) : Patient Caches.Idle failures (attributeOf oid attnum) := by
  refine (entity_patient .relation oid).bind fun relation => .ensuring ?_ fun _ before => before.release relation
  refine lookup_patient (.entities .attr) _ fun _ => construct_patient ?_
  refine Task.Behaves.bind (Task.Behaves.bind (.modify fun _ before => before.congr rfl rfl rfl) fun _ =>
    Task.Behaves.get.bind fun world => ?_) fun _ => .pure _
  split
  · exact .pure _
  · exact .throw (.crash none)

theorem encoding_patient (id : Int32) : Patient Caches.Idle failures (encoding id) :=
  lookup_patient .encodings id fun _ => construct_patient (.pure _)

theorem lookup_target_patient (target : Script.Target) : Patient Caches.Idle failures target.lookup := by
  cases target with
  | entity kind oid => exact entity_patient kind oid
  | attr relation attnum => exact attributeOf_patient relation attnum
  | type oid typmod => exact typeWith_patient oid typmod
  | encoding id => exact encoding_patient id

/-! ## Native descriptors -/

theorem onLedger_patient {α : Type} {body : Task Ledger α} (plain : Ledger.Plain body) : Patient shelves failures (onLedger body) := by
  intro world before
  have ends := plain world.ledger trivial
  unfold Task.Ends World.onLedger Task.within at *
  cases ran : body world.ledger with
  | ok value ledger => exact ⟨before.setLedger ledger, .ok _⟩
  | error interrupt ledger =>
    rw [ran] at ends
    exact ⟨before.setLedger ledger, .error (ends.2 interrupt rfl)⟩

/-- The lifespan of the current scope is constructed without looking another one up. -/
theorem currentLifespan_patient : Patient shelves failures currentLifespan := by
  intro world before
  refine .next (Task.get_run world) ?_
  have free : (lifespanView.get world).claim? world.provider.scope.1 = none := by
    rw [Cache.claim?, before.scopes, List.find?_nil]
  let building (outcome : Except Interrupt LifespanId) (last : World) : Prop := ∃ lifespan ledger notes claimed,
    outcome = .ok lifespan ∧ claimed.claims = [⟨world.provider.scope.1, mutatorThread⟩] ∧
      last = World.setLedger ledger (lifespanView.store notes claimed world)
  have emptied : ([⟨world.provider.scope.1, mutatorThread⟩] : List (Identity.Claim Address)).filter
      (fun claim => claim.key != world.provider.scope.1) = [] := by simp
  have settled (value : LifespanId) (last : World) (built : building (.ok value) last) :
      Unclaimed shelves failures (lifespanView.settle world.provider.scope.1 value last) ∧
        FailsOnly Regular (.ok value : Except Interrupt LifespanId) := by
    obtain ⟨_, ledger, notes, claimed, ⟨⟩, claims, rfl⟩ := built
    have fails : (World.setLedger ledger (lifespanView.store notes claimed world)).provider.failures = failures :=
      (congrArg Provider.failures ((Fades.refl _).setLedger ledger).store).trans before.failures
    generalize kept : lifespanView.get (World.setLedger ledger (lifespanView.store notes claimed world)) = cache
    -- a session that is there has the claim; without a session nothing is kept
    have none : (cache.settle (fun _ => true) world.provider.scope.1 value).2.2.claims = [] := by
      have got : lifespanView.get (World.setLedger ledger (lifespanView.store notes claimed world))
          = ((world.session.map fun session : Session => { session with lifespans := claimed }).getD (Session.blank 0)).lifespans := rfl
      rw [(Cache.settle_spec cache (fun _ => true) world.provider.scope.1 value).claims, ← kept, got]
      cases world.session with
      | none => rfl
      | some session => exact (congrArg _ claims).trans emptied
    have caches : shelves (World.setLedger ledger (lifespanView.store notes claimed world)).caches := before.shelves
    have stored (notes' : List (Note Address)) := Unclaimed.relist caches fails none notes'
    unfold CacheView.settle
    rw [kept]
    exact ⟨stored _, .ok value⟩
  refine CacheView.lookup_ends (fun value _ _ => ?_) (fun interrupt _ _ claimed _ => absurd free claimed)
    (fun notes cache _ _ _ claims => ?_) settled fun _ _ built => ?_
  · exact ⟨.relist before.shelves before.failures before.scopes _, .ok value⟩
  · rw [before.scopes] at claims
    exact ⟨_, _, notes, cache, rfl, claims, rfl⟩
  · obtain ⟨_, _, _, _, broken, _⟩ := built
    cases broken

theorem adopt_patient (address : Address) : Patient shelves failures (adopt address) := by
  refine currentLifespan_patient.bind fun lifespan => Task.Behaves.get.bind fun world =>
    (onLedger_patient (Ledger.build_plain _ _)).bind fun guard => Task.Behaves.attempt ?_ fun contents fails => ?_
  · have reads : Patient shelves failures (readNative address) := by
      refine Task.Behaves.get.bind fun world => ?_
      refine Task.Behaves.bind (.ofOutcome (Storage.Row.i32_regular _ _)) fun _ => ?_
      refine Task.Behaves.bind (.ofOutcome (Storage.Row.oidList_regular _ _)) fun _ => ?_
      refine Task.Behaves.bind (.ofOutcome (Storage.Row.oid_regular _ _)) fun _ => ?_
      exact Task.Behaves.bind (.ofOutcome (Storage.Row.i32_regular _ _)) fun _ => .pure _
    refine Task.Behaves.bind (Task.Behaves.discard (onLedger_patient (Ledger.pin_plain _ _))) fun _ => reads.ensuring ?_
    intro world before
    exact before.fades ((Fades.onLedger _ world (.refl world)).exec) (Stays.onLedger _ world).exec.caches
  · cases contents with
    | ok contents => exact .pure _
    | error interrupt =>
      exact (onLedger_patient (Ledger.dropOwner_plain _)).bind fun _ => .throw (fails interrupt rfl)

theorem nativeDescriptor_patient (address : Address) : Patient Caches.Idle failures (nativeDescriptor address) := by
  refine Task.Behaves.get.bind fun world => ?_
  refine Task.Behaves.bind (lookup_patient .descriptors address fun _ => construct_patient (adopt_patient address)) fun _ => ?_
  split
  · exact Task.Behaves.bind (.modify fun _ before => before.congr rfl rfl rfl) fun _ => .pure _
  · exact .pure _

/-! ## Computations -/

/-- The task looks nothing up while something is under construction; what else it fails with comes from the provider. -/
abbrev Explained {α : Type} (failures : Assoc Service Fault) (body : Task World α) : Prop :=
  body.Behaves (Unclaimed Caches.Idle failures) (Provider.Explains failures)

theorem Patient.explained {α : Type} {body : Task World α} (patient : Patient Caches.Idle failures body) :
    Explained failures body :=
  Task.Behaves.weaken patient fun _ regular fault same reentrant => absurd reentrant (regular fault same)

/-- A service gives its answer, or the fault that it fails with. -/
theorem serve_explained {σ α : Type} {provider : Provider} (fails : provider.failures = failures) (service : Service) (answer : α)
    {holds : σ → Prop} : (Task.ofExcept (provider.serve service answer) : Task σ α).Behaves holds (Provider.Explains failures) := by
  unfold Provider.serve
  split
  · next fault failed =>
    refine .throw fun given same _ => ?_
    cases same
    exact ⟨service, fails ▸ failed⟩
  · exact .pure answer

theorem step_explained {α : Type} (step : Recipe.Step α) : Explained failures step.run := by
  -- A step that asks a service fails with that service's fault; the others are no re-entry at all.
  cases step with
  | entityOf id =>
    refine Task.Behaves.get.bind fun world => ?_
    split
    · exact .pure _
    · exact .throw fun _ same => by cases same
  | requireOpen =>
    refine Task.Behaves.get.bind fun world => ?_
    split
    · exact .pure _
    · exact .throw fun _ same reentrant => by cases same; cases reentrant
  | search key =>
    intro world before
    let asked (provider : Provider) : Prop := Unclaimed Caches.Idle failures { world with provider }
    let counted : Provider := { world.provider with searches := world.provider.searches + 1 }
    have served : (Task.ofExcept (counted.serve .search (counted.row? key)) : Task Provider (Option Address)).Behaves asked
      (Provider.Explains failures) := serve_explained before.failures .search _
    exact onProvider_ends (.next (Task.modify_run _ _) (.next (Task.get_run _) (served _ (before.congr rfl rfl rfl))))
  | decode kind address source type =>
    intro world before
    refine .next (Task.get_run world) ?_
    refine (serve_explained before.failures .layout _).bind (fun layout => ?_) world before
    exact Task.Behaves.get.bind fun world => .weaken (.ofOutcome (Storage.Row.get_regular _ _ _)) fun _ regular fault same reentrant =>
      absurd reentrant (regular fault same)
  | lookup target => exact Patient.explained (lookup_target_patient target)
  | track link oid target =>
    refine .modify fun world before => ?_
    cases link <;> exact before.congr rfl rfl rfl
  | describe descriptor => exact Patient.explained (construct_patient (.pure _))
  | lookupRecord typmod =>
    intro world before
    let asked (provider : Provider) : Prop := Unclaimed Caches.Idle failures { world with provider }
    have served : (Task.ofExcept (world.provider.serve .record ()) : Task Provider Unit).Behaves asked
      (Provider.Explains failures) := serve_explained before.failures .record ()
    refine onProvider_ends (.next (Task.get_run _) ((served.bind fun _ => ?_) world.provider before))
    split
    · exact .pure _
    · split
      · exact .pure _
      · exact fun _ _ => ⟨before.congr rfl rfl rfl, .ok _⟩
  | nativeDescriptor address => exact Patient.explained (nativeDescriptor_patient address)
  | encodingNumber id =>
    refine Task.Behaves.get.bind fun world => ?_
    split
    · exact .pure _
    · exact .throw fun _ same => by cases same
  | describeEncoding number =>
    intro world before
    exact .next (Task.get_run world) (serve_explained before.failures .encoding _ world before)
  | hold id => exact .modify fun world before => before.congr rfl rfl rfl

theorem readSlot_explained (id : ThingId) (spec : SlotSpec) (access : Access) {compute : Task World (Computed Datum)}
    (computes : Explained failures compute) : Explained failures (readSlot id spec access compute) := by
  have counted {world : World} (before : Unclaimed Caches.Idle failures world) (counter : Counter) :
      Unclaimed Caches.Idle failures (count counter world) := before.congr rfl rfl rfl
  have reads : Explained failures ((view id).read spec access compute) := by
    intro world before
    have ran (_ : spec.refusal access = none) := computes world before
    refine Coherence.TableView.read_ends (fun _ => ⟨before, .error fun _ same => by cases same⟩)
      (fun memo _ _ => ⟨counted before .slotHit, .ok _⟩) (fun fault refused => ⟨before, .error fun _ same reentrant => ?_⟩) ran
      (fun value cell after _ ended => ⟨(counted ended.1 .slotCompute).onTable id _, .ok value⟩)
      (fun value after ended => ⟨counted ended.1 .slotTransient, .ok value⟩) fun interrupt after ended => ?_
    · unfold SlotSpec.refusal at refused
      split at refused <;> cases refused
      cases same
      cases reentrant
    · exact ⟨ended.1, .error (ended.2 interrupt rfl)⟩
  refine Task.Behaves.get.bind fun world => Task.Behaves.bind reads fun datum => ?_
  dsimp only
  split
  · exact Task.Behaves.bind (.modify fun _ before => before.holdAll datum.refs) fun _ => .pure datum
  · exact .pure datum

/-- Whatever a computation reads and looks up, no constructor asks for its own key. -/
theorem recipe_explained {α : Type} (recipe : Recipe α) : Explained failures recipe.run := by
  induction recipe with
  | done value => exact .pure value
  | missing key => exact .throw fun _ same reentrant => by cases same; cases reentrant
  | crash => exact .throw fun _ same => by cases same
  | mismatch spec => exact .throw fun _ same => by cases same
  | step first next ih => exact Task.Behaves.bind (step_explained first) ih
  | slot id spec access compute next computes ih => exact Task.Behaves.bind (readSlot_explained id spec access computes) ih
  | releasing id body next ihBody ih =>
    exact Task.Behaves.bind (ihBody.ensuring fun _ before => before.release id) ih

/-! ## Operations -/

/-- Nothing is under construction. -/
def Quiescent (world : World) : Prop := ∃ failures, Unclaimed Caches.Idle failures world

theorem Quiescent.fades (quiescent : Quiescent world) (fades : Fades world after) : Quiescent after := by
  obtain ⟨failures, unclaimed⟩ := quiescent
  have left {κ : Type} {view : CacheView World κ ThingId} (shelf : Shelf view) : (view.get after).claims = [] :=
    List.subset_nil.mp (shelf.idle unclaimed.shelves ▸ fades.claims shelf)
  exact ⟨after.provider.failures, ⟨fun kind => left (.entities kind), left .descriptors, left .encodings⟩,
    List.subset_nil.mp (unclaimed.scopes ▸ fades.scopes), rfl⟩

theorem quiescent_onProvider {α : Type} (body : Task Provider α) : (onProvider body).Keeps Quiescent := by
  intro world ⟨_, unclaimed⟩
  unfold Task.Ends onProvider Task.within
  cases body world.provider <;> exact ⟨_, unclaimed.shelves, unclaimed.scopes, rfl⟩

end World

namespace Operation

open World (Fades Quiescent Unclaimed)

variable {world : World} {config : Config}

/-- No operation leaves anything under construction. -/
theorem apply_quiescent (operation : Operation) (quiescent : Quiescent world) : Quiescent (operation.apply world) := by
  -- A step keeps the world quiescent, only fades it, or runs with every claim explained by a failure.
  have keeps (task : operation.task.Keeps Quiescent) : Quiescent (operation.apply world) := (task world quiescent).exec
  have fades (task : operation.task.Keeps (Fades world)) : Quiescent (operation.apply world) :=
    quiescent.fades ((task world (.refl world)).exec)
  have settles {allowed : Assoc Service Fault → Interrupt → Prop}
      (task : ∀ failures, operation.task.Behaves (Unclaimed Caches.Idle failures) (allowed failures)) :
      Quiescent (operation.apply world) := by
    obtain ⟨failures, unclaimed⟩ := quiescent
    exact ⟨failures, ((task failures world unclaimed).weaken fun _ _ ended => ended.1).exec⟩
  cases operation with
  | put plan => exact keeps (World.quiescent_onProvider _).discard
  | remove key => exact keeps (World.quiescent_onProvider _).discard
  | putEncoding info => exact keeps (World.quiescent_onProvider _)
  | intern typmod types => exact keeps (World.quiescent_onProvider _).discard
  | setScope address kind => exact keeps (World.quiescent_onProvider _)
  | openSession =>
    obtain ⟨failures, unclaimed⟩ := quiescent
    have opens : World.openSession.Ends world fun _ after => Unclaimed Caches.Idle failures after :=
      openSession_ends (unclaimed.congr rfl rfl rfl) fun _ _ _ _ => ⟨unclaimed.shelves, rfl, unclaimed.failures⟩
    exact ⟨failures, opens.exec⟩
  | closeSession =>
    obtain ⟨failures, unclaimed⟩ := quiescent
    refine (closeSession_ends (fun _ => ⟨failures, unclaimed⟩) fun session _ => ?_).exec
    refine Quiescent.fades ⟨failures, ?_⟩ (Fades.refl _).closeIfUnheld
    exact ⟨unclaimed.shelves, rfl, unclaimed.failures⟩
  | dropCatalog =>
    have dropped : Fades world { world with catalogHeld := false } := (Fades.refl world).congr rfl rfl rfl rfl rfl
    exact quiescent.fades dropped.closeIfUnheld
  | lookup target => exact settles fun failures => Task.Behaves.discard (World.lookup_target_patient target)
  | read id field access =>
    refine @settles Provider.Explains fun failures => Task.Behaves.get.bind fun state => ?_
    split
    · next accessor _ =>
      rw [← Accessor.run_recipe]
      exact Task.Behaves.discard (World.recipe_explained (accessor.recipe id access))
    · exact .pure _
  | drop id => exact quiescent.fades ((Fades.refl world).release id)
  | trip id =>
    refine fades (Task.Keeps.get.bind fun state => ?_)
    split
    · exact .modify fun _ fades => fades.gates _
    · exact .pure _
  | pin id =>
    refine fades (Task.Keeps.get.bind fun state => ?_)
    split
    · exact (Fades.onLedger _).discard.bind fun _ => .modify fun _ fades => fades.hold id
    · exact .pure _
  | unpin id =>
    refine fades (Task.Keeps.get.bind fun state => ?_)
    split
    · exact (Fades.onLedger _).bind fun _ => .modify fun _ fades => fades.release id
    · exact .pure _
  | dispatch signals => exact fades (Fades.dispatch signals).discard
  | drain => exact fades Fades.drain.discard
  | purge => exact fades (Task.Keeps.discard (.lift fun _ fades => fades.purge))
  | relieve => exact fades (Task.Keeps.discard (.lift fun _ fades => fades.relieve))
  | lifespan address => exact quiescent.fades ((Fades.refl world).lifespan address)
  | currentLifespan => exact settles fun failures => Task.Behaves.discard World.currentLifespan_patient

/-- Whatever ran and whatever the provider did meanwhile, nothing is under construction. -/
theorem Reached.quiescent (reached : Reached config world) : Quiescent world := by
  induction reached with
  | start => exact ⟨_, ⟨fun kind => by cases kind <;> rfl, rfl, rfl⟩, rfl, rfl⟩
  | step operation _ _ quiescent => exact apply_quiescent operation quiescent
  | served provider _ quiescent =>
    obtain ⟨_, unclaimed⟩ := quiescent
    exact ⟨_, unclaimed.shelves, unclaimed.scopes, rfl⟩

/-- Whatever rows there are and however they refer to each other: a field is read by a finite computation that reads no
    slot which it is computing, and no lookup is refused because its key is under construction. -/
theorem navigation_unrepeated {config : Config} {world : World} (reached : Reached config world) :
    (∀ (id : ThingId) (access : Access) (accessor : Accessor),
      (accessor.recipe id access).run = accessor.read id access ∧
      (∀ stack ∈ (accessor.recipe id access).nestings [] world, stack.Nodup ∧ stack.length ≤ 4) ∧
      ∀ fault after, accessor.read id access world = .error (.fault fault) after → fault.kind = .reentrant →
        ∃ service, world.provider.failures.get? service = some fault) ∧
    (∀ (target : Script.Target) fault after, target.lookup world = .error (.fault fault) after → fault.kind ≠ .reentrant) ∧
    ∀ fault after, World.currentLifespan world = .error (.fault fault) after → fault.kind ≠ .reentrant := by
  obtain ⟨failures, unclaimed⟩ := reached.quiescent
  -- what a task that fails as described fails with
  have fails {α : Type} {allowed : Interrupt → Prop} {body : Task World α}
      (behaves : body.Behaves (Unclaimed Caches.Idle failures) allowed) {fault : Fault} {after : World}
      (failed : body world = .error (.fault fault) after) : allowed (.fault fault) := by
    have ends := behaves world unclaimed
    unfold Task.Ends at ends
    rw [failed] at ends
    exact ends.2 _ rfl
  refine ⟨fun id access accessor => ⟨accessor.run_recipe id access, accessor.nestings_recipe id access world, ?_⟩, ?_, ?_⟩
  · intro fault after failed reentrant
    rw [← Accessor.run_recipe] at failed
    rw [unclaimed.failures]
    exact fails (World.recipe_explained (accessor.recipe id access)) failed fault rfl reentrant
  · exact fun target fault after failed => fails (World.lookup_target_patient target) failed fault rfl
  · exact fun fault after failed => fails World.currentLifespan_patient failed fault rfl

/-- A relation and its row type refer to each other, and its one column has that type. -/
def selfReferring : List Operation := [
  .put (.relation ⟨1⟩ "items" ⟨11⟩ ⟨2⟩ 1), .put (.composite ⟨2⟩ "items" ⟨1⟩), .put (.attr ⟨1⟩ 1 "self" ⟨2⟩ (-1)),
  .openSession, .lookup (.entity .type ⟨2⟩)]

/-- The columns of the row type are read through its relation and its column. -/
theorem navigation_unrepeated_selfReferring : AllowedAll selfReferring (World.start {}) ∧
    ((Accessor.typeDescriptor.recipe 0 .mutator).nestings [] (after selfReferring (World.start {}))).map List.length
      = [1, 2, 3, 2, 3, 4, 3, 4, 3, 4, 3, 4, 3, 4] ∧
    ∀ stack ∈ (Accessor.typeDescriptor.recipe 0 .mutator).nestings [] (after selfReferring (World.start {})),
      stack.Nodup ∧ stack.length ≤ 4 := by
  have allowed : AllowedAll selfReferring (World.start {}) := by decide
  exact ⟨allowed, by decide +kernel, ((navigation_unrepeated (Reached.start.run allowed)).1 0 .mutator .typeDescriptor).2.1⟩

end Operation

end CatalogReplica.Catalog
