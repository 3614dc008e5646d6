import CatalogReplica.Proofs.Native.Serving

/-!
# What is taken over is served where it belongs

While the columns of a type are looked for, a native descriptor may be taken over.  It enters
its cache, and the type keeps it under the cell that governed when the search began, whatever
happened meanwhile.

* `World.Gained`: what holds while an operation has native descriptors in hand.
* `World.nativeDescriptor_gains`: a native descriptor that is given was not released.
* `World.typeDescriptor_serves`: what a read of the columns of a cached type gives was not
  released.
-/

namespace CatalogReplica.Catalog

open Coherence (Access Batch CellId Computed GateId Gates Memo)
open Identity (Cache CacheView Note)
open Lifetime (GuardId Ledger)

/-- What a thing is like that keeps other columns. -/
theorem Thing.describing (thing : Thing) (memo : Memo Datum) (after : Thing)
    (its : after = thing.onTable (·.keep Catalog.typeDescriptor.index memo)) :
    after.guard? = thing.guard? ∧ after.gate? = thing.gate? ∧ (∀ id, after.Links id → thing.Links id) ∧
      ∀ kept, after.Describes kept → kept = memo ∨ thing.Describes kept := by
  subst its
  have same {table : Coherence.SlotTable Datum} {index : Nat} {kept : Memo Datum} (other : index ≠ Catalog.typeDescriptor.index)
      (found : (table.keep Catalog.typeDescriptor.index memo).memo? index = some kept) : table.memo? index = some kept :=
    (memo?_keep_cases found).resolve_left fun here => other here.1
  cases thing with
  | entity entity =>
    refine ⟨rfl, rfl, fun id links => ?_, ?_⟩
    · cases links with
      | tied is among =>
        cases is
        exact .tied rfl among
      | kept has found other among =>
        cases has
        exact .kept rfl (same other found) other among
    · rintro kept ⟨_, ⟨⟩, found⟩
      exact (memo?_keep_cases found).imp And.right fun before => ⟨_, rfl, before⟩
  | encoding number table =>
    refine ⟨rfl, rfl, fun id links => ?_, ?_⟩
    · cases links with
      | tied is among => cases is
      | kept has found other among =>
        cases has
        exact .kept rfl (same other found) other among
    · rintro kept ⟨_, ⟨⟩, found⟩
      exact (memo?_keep_cases found).imp And.right fun before => ⟨_, rfl, before⟩
  | descriptor descriptor => exact ⟨rfl, rfl, fun _ links => links, fun _ describes => .inr describes⟩

namespace World

variable {α : Type} {base world after last : World} {got ids : List ThingId} {trips : Batch} {id : ThingId}
  {address : Address} {dismissed : List Address}

/-! ## Things, caches and gates -/

/-- Things, caches and gates are the same. -/
structure Beside (before after : World) : Prop where
  heap : after.heap = before.heap
  caches : after.caches = before.caches
  nextThing : after.nextThing = before.nextThing
  gates : after.gates = before.gates

theorem Beside.alters (beside : Beside world after) : Alters got world after :=
  (Alters.refl got world).fewer (fun id thing found => by rwa [thing?, beside.heap] at found) beside.caches beside.nextThing
    beside.gates

/-- Things that are there were there with the same gates, and no gate was tripped. -/
structure Lasts (before after : World) : Prop where
  gates : before.gates.Grows after.gates
  next : before.nextThing ≤ after.nextThing
  things : ∀ id thing', after.thing? id = some thing' → id < before.nextThing →
    ∃ thing, before.thing? id = some thing ∧ thing'.gate? = thing.gate?

theorem Lasts.trans (first : Lasts world after) (second : Lasts after last) : Lasts world last where
  gates := first.gates.trans second.gates
  next := Nat.le_trans first.next second.next
  things id thing'' found older := by
    obtain ⟨thing', mid, same'⟩ := second.things id thing'' found (Nat.lt_of_lt_of_le older first.next)
    obtain ⟨thing, was, same⟩ := first.things id thing' mid older
    exact ⟨thing, was, same'.trans same⟩

theorem Alters.lasts (alters : Alters got world after) : Lasts world after where
  gates := alters.grows
  next := alters.next
  things id thing' found older := by
    obtain ⟨thing, was, same⟩ | ⟨-, rfl, -⟩ := alters.things id thing' found
    · exact ⟨thing, was, same.gate⟩
    · exact absurd older (Nat.lt_irrefl _)

theorem Edits.lasts {start : List ThingId} (edits : Edits start base got world) : Lasts base world := by
  induction edits with
  | refl => exact (Alters.refl [] base).lasts
  | step _ edit ih => exact ih.trans edit.alters.lasts

theorem lasts_add (world : World) (thing : Thing) : Lasts world (world.add thing).2 where
  gates := .refl _
  next := Nat.le_succ _
  things one thing' found older := by
    rw [thing?_add_older world thing older] at found
    exact ⟨thing', found, rfl⟩

/-- Something enters the cache of native descriptors, and what leaves it for that may be gone. -/
theorem lasts_enter (address : Address) (id : ThingId) (world : World) : Lasts world (descriptorView.settle address id world) := by
  have stored (notes : List (Note Address)) (cache : Cache Address ThingId) : Lasts world (descriptorView.store notes cache world) :=
    ⟨.refl _, Nat.le_refl _, fun _ thing found _ => ⟨thing, found, rfl⟩⟩
  exact (stored _ _).trans ((Alters.refl [] _).reap _).lasts

/-! ## What is in hand -/

theorem Plain.usable (plain : world.Plain id) : world.isReleased id = false := by
  refine Bool.eq_false_iff.mpr fun released => ?_
  obtain ⟨guard, -, its, -⟩ := isReleased_iff.mp released
  cases plain.2.symm.trans its

/-- Native descriptors are where they should be and are served there, and those that the
    operation has in hand were not released. -/
structure Gained (trips : Batch) (got ids : List ThingId) (world : World) : Prop where
  followed : Followed world (ids ++ got) world
  formed : Formed trips world
  plain : ∀ id ∈ got, world.Plain id
  clean : Clean [] world
  usable : ∀ id ∈ ids, id < world.nextThing ∧ world.isReleased id = false

theorem Kept.gained (kept : Kept trips got world) (clean : Clean [] world) : Gained trips got [] world :=
  ⟨kept.followed, kept.formed, kept.plain, clean, nofun⟩

/-- What edits lead to is held like anything else. -/
theorem Kept.gains (kept : Kept trips (ids ++ got) world) (clean : Clean [] world) : Gained trips got ids world where
  followed := kept.followed
  formed := kept.formed
  plain id among := kept.plain id (List.mem_append_right ids among)
  clean := clean
  usable id among := ⟨(kept.plain id (List.mem_append_left got among)).1, (kept.plain id (List.mem_append_left got among)).usable⟩

namespace Gained

theorem kept (gained : Gained trips got ids world) : Kept trips got world where
  followed := (tracked_carried (fun _ => True) world).lessAll ids gained.followed
  formed := gained.formed
  plain := gained.plain

/-- One change that released no guard with an owner. -/
theorem alters (gained : Gained trips got ids world) (alters : Alters got world after)
    (followed : Followed base (ids ++ got) after) (calm : world.ledger.Calm after.ledger) : Gained trips got ids after where
  followed := followed.self
  formed := gained.formed.alters alters gained.plain
  plain id among := (gained.plain id among).alters alters
  clean := gained.kept.clean gained.clean alters followed calm
  usable id among := by
    obtain ⟨older, usable⟩ := gained.usable id among
    refine ⟨Nat.lt_of_lt_of_le older alters.next, Bool.eq_false_iff.mpr fun released => Bool.eq_false_iff.mp usable ?_⟩
    exact isReleased_of_calm followed calm (fun _ its => alters.guardOf its) released

/-- What edits carry, with things in hand that they do not know of. -/
theorem carried (gained : Gained trips got ids world) (alters : Alters got world after)
    (carries : ∀ {holds : List ThingId → World → Prop}, Carried holds → holds (ids ++ got) world → holds (ids ++ got) after) :
    Gained trips got ids after :=
  have ⟨followed, calm⟩ := carries (calm_carried world) ⟨gained.followed, .refl _⟩
  gained.alters alters followed calm

/-- Columns are kept under a cell that governs them. -/
theorem describes {datum : Datum} {cell : Option CellId} (gained : Gained trips got datum.refs world)
    (governed : ∀ thing, world.thing? id = some thing → ∃ gate, thing.gate? = some gate ∧
      (⟨datum, cell⟩ : Memo Datum).Governed trips world.gates gate) :
    Gained trips got datum.refs (onTable id (·.keep Catalog.typeDescriptor.index ⟨datum, cell⟩) world) := by
  let memo : Memo Datum := ⟨datum, cell⟩
  let keep : Thing → Thing := Thing.onTable (·.keep Catalog.typeDescriptor.index memo)
  have aside : Aside world (onThing id keep world) := .onThing id (guard?_onTable _) world
  -- The new table describes what was kept last, or what the old one described.
  have things (one : ThingId) (thing' : Thing) (found : (onThing id keep world).thing? one = some thing') :
      ∃ thing, world.thing? one = some thing ∧ thing'.gate? = thing.gate? ∧ (∀ id, thing'.Links id → thing.Links id) ∧
        ∀ kept, thing'.Describes kept → (one = id ∧ kept = memo) ∨ thing.Describes kept := by
    rw [thing?_onThing] at found
    split at found
    · next here =>
      obtain ⟨thing, was, same⟩ := Option.map_eq_some_iff.mp found
      obtain ⟨-, gate, links, describes⟩ := thing.describing memo thing' same.symm
      exact ⟨thing, was, gate, links, fun kept its => (describes kept its).imp_left fun new => ⟨here, new⟩⟩
    · exact ⟨thing', found, rfl, fun _ links => links, fun _ describes => .inr describes⟩
  have plain (one : ThingId) (before : world.Plain one) : (onThing id keep world).Plain one :=
    ⟨before.1, (aside.guards one).trans before.2⟩
  have released (one : ThingId) : (onThing id keep world).isReleased one = world.isReleased one := by
    refine Bool.eq_iff_iff.mpr ?_
    rw [isReleased_iff, isReleased_iff, aside.guards one]
    rfl
  have caches : (onThing id keep world).caches = world.caches := rfl
  have kept : Gained trips got datum.refs (onThing id keep world) := by
    refine ⟨(tracked_carried (fun _ => True) world).aside aside gained.followed |>.self, ?_, fun one among =>
      plain one (gained.plain one among), ⟨fun entry among => ?_, fun entry among => ?_⟩, fun one among => ?_⟩
    · refine ⟨fun one live => ?_, fun one thing' other found links => ?_, fun shelf ordinary entry among => ?_,
        gained.formed.native, fun one thing' kept found describes => ?_, fun one thing' gate found its => ?_, gained.formed.gates⟩
      · obtain ⟨thing', found⟩ := alive_iff.mp live
        obtain ⟨thing, was, -⟩ := things one thing' found
        exact gained.formed.below one (alive_iff.mpr ⟨thing, was⟩)
      · obtain ⟨thing, was, -, before, -⟩ := things one thing' found
        exact plain other (gained.formed.linked one thing other was (before other links))
      · exact plain entry.2 (gained.formed.cached shelf ordinary entry (shelf.mem_congr caches among))
      · obtain ⟨thing, was, gate, -, before⟩ := things one thing' found
        obtain ⟨rfl, rfl⟩ | before := before kept describes
        · obtain ⟨its, has, governs⟩ := governed thing was
          exact ⟨fun other among => (gained.usable other among).1, its, gate.trans has, governs⟩
        · obtain ⟨older, its, has, governs⟩ := gained.formed.described one thing kept was before
          exact ⟨older, its, gate.trans has, governs⟩
      · obtain ⟨thing, was, same, -⟩ := things one thing' found
        exact gained.formed.known one thing gate was (same.symm.trans its)
    · rw [released]
      exact gained.clean.entries entry among
    · refine Bool.eq_false_iff.mpr fun keeps => ?_
      obtain ⟨thing', kept, other, found, describes, valid, ref, gone⟩ := keepsReleased_iff.mp keeps
      rw [released] at gone
      obtain ⟨thing, was, -, -, before⟩ := things entry.2 thing' found
      obtain ⟨-, rfl⟩ | before := before kept describes
      · cases (gained.usable other ref).2.symm.trans gone
      · refine Bool.eq_false_iff.mp (gained.clean.types entry among) (keepsReleased_iff.mpr ?_)
        exact ⟨thing, kept, other, was, before, valid, ref, gone⟩
    · rw [released]
      exact gained.usable one among
  exact kept.carried ((Alters.refl got _).reap _) fun carried before => carried.reap _ before

/-- A thing is held that was not released. -/
theorem hold (gained : Gained trips got [] world) (older : id < world.nextThing) (usable : world.isReleased id = false) :
    Gained trips got [id] (World.hold id world) where
  followed := ((tracked_carried (fun _ => True) world).hold id gained.followed).self
  formed := (gained.kept.alters ((Alters.refl got world).holdAll [id]) ((tracked_carried _ world).less
    ((tracked_carried (fun _ => True) world).hold id gained.followed))).formed
  plain := gained.plain
  clean := gained.kept.clean gained.clean ((Alters.refl got world).holdAll [id])
    ((tracked_carried (fun _ => True) world).hold id gained.followed) (.refl _)
  usable one among := by
    cases List.mem_singleton.mp among
    exact ⟨older, usable⟩

/-- A native descriptor is added, whose guard was not released. -/
theorem own {thing : Thing} {guard : GuardId} (gained : Gained trips got [] world) (its : thing.guard? = some guard)
    (loose : Loose guard [] world) (usable : ¬ world.ledger.Released guard) :
    Gained trips got [world.nextThing] (world.add thing).2 := by
  have followed : Followed world (world.nextThing :: got) (world.add thing).2 := gained.followed.own its loose
  obtain ⟨descriptor, rfl⟩ : ∃ descriptor, thing = .descriptor descriptor := by
    cases thing with
    | descriptor descriptor => exact ⟨descriptor, rfl⟩
    | _ => cases its
  have caches : (world.add (.descriptor descriptor)).2.caches = world.caches := rfl
  -- The descriptor added takes the next number, so every older thing has the guard it had.
  have guards {one : ThingId} (older : one < world.nextThing) :
      (world.add (.descriptor descriptor)).2.guardOf one = world.guardOf one := by
    rw [guardOf, guardOf, thing?_add_older world _ older]
  have plain {one : ThingId} (before : world.Plain one) : (world.add (.descriptor descriptor)).2.Plain one :=
    ⟨Nat.lt_succ_of_lt before.1, (guards before.1).trans before.2⟩
  have released {one : ThingId} (older : one < world.nextThing) :
      (world.add (.descriptor descriptor)).2.isReleased one = world.isReleased one := by
    refine Bool.eq_iff_iff.mpr ?_
    rw [isReleased_iff, isReleased_iff, guards older]
    rfl
  refine ⟨followed.self, ⟨fun one live => ?_, fun one thing' other found links => ?_, fun shelf ordinary entry among => ?_,
    fun entry among => Nat.lt_succ_of_lt (gained.formed.native entry among), fun one thing' memo found describes => ?_,
    fun one thing' gate found has => ?_, gained.formed.gates⟩, fun one among => plain (gained.plain one among),
    ⟨fun entry among => ?_, fun entry among => ?_⟩, fun one among => ?_⟩
  · obtain ⟨thing', found⟩ := alive_iff.mp live
    obtain was | ⟨rfl, -⟩ := thing?_add_cases found
    · exact Nat.lt_succ_of_lt (gained.formed.below one (alive_iff.mpr ⟨_, was⟩))
    · exact Nat.lt_succ_self _
  · obtain was | ⟨-, rfl⟩ := thing?_add_cases found
    · exact plain (gained.formed.linked one thing' other was links)
    · cases links with
      | tied is => cases is
      | kept has => cases has
  · exact plain (gained.formed.cached shelf ordinary entry (shelf.mem_congr caches among))
  · obtain was | ⟨-, rfl⟩ := thing?_add_cases found
    · obtain ⟨older, governed⟩ := gained.formed.described one thing' memo was describes
      exact ⟨fun other among => Nat.lt_succ_of_lt (older other among), governed⟩
    · obtain ⟨_, ⟨⟩, -⟩ := describes
  · obtain was | ⟨-, rfl⟩ := thing?_add_cases found
    · exact gained.formed.known one thing' gate was has
    · cases has
  · rw [released (gained.formed.native entry among)]
    exact gained.clean.entries entry among
  · refine Bool.eq_false_iff.mpr fun keeps => Bool.eq_false_iff.mp (gained.clean.types entry among) ?_
    obtain ⟨thing', memo, other, found, describes, valid, ref, gone⟩ := keepsReleased_iff.mp keeps
    obtain was | ⟨-, rfl⟩ := thing?_add_cases found
    · obtain ⟨older, -⟩ := gained.formed.described entry.2 thing' memo was describes
      rw [released (older other ref)] at gone
      exact keepsReleased_iff.mpr ⟨thing', memo, other, was, describes, valid, ref, gone⟩
    · obtain ⟨_, ⟨⟩, -⟩ := describes
  · cases List.mem_singleton.mp among
    refine ⟨Nat.lt_succ_self _, Bool.eq_false_iff.mpr fun gone => usable ?_⟩
    obtain ⟨guard', held, its', found, gone⟩ := isReleased_iff.mp gone
    obtain before | ⟨-, other⟩ := guardOf_add world (.descriptor descriptor) _ its'
    · rw [guardOf, gained.formed.thing?_next] at before
      cases before
    · cases other.symm.trans its
      exact Ledger.released_iff.mpr ⟨held, found, gone⟩

/-- A native descriptor enters its cache. -/
theorem enter (gained : Gained trips got [id] world) (address : Address) :
    Gained trips got [id] (descriptorView.settle address id world) := by
  have settled := (world.caches.descriptors.settle_spec world.alive address id).entries
  unfold CacheView.settle
  change Gained trips got [id] (match world.caches.descriptors.settle world.alive address id with
    | (out, notes, cache) => reap out.toList (descriptorView.store notes cache world))
  generalize world.caches.descriptors.settle world.alive address id = result at settled
  obtain ⟨out, notes, cache⟩ := result
  have aside : Followed world (id :: got) (descriptorView.store notes cache world) :=
    gained.followed.congr (fun _ => rfl) rfl rfl ⟨rfl, rfl, rfl, rfl, rfl⟩ rfl rfl rfl rfl
  have stored : Gained trips got [id] (descriptorView.store notes cache world) := by
    refine ⟨aside.self, { gained.formed with
      cached := fun shelf ordinary entry among => ?_, native := fun entry among => ?_ }, gained.plain,
      ⟨fun entry among => ?_, gained.clean.types⟩, gained.usable⟩
    · cases shelf with
      | entities kind => exact gained.formed.cached (.entities kind) ordinary entry among
      | descriptors => exact absurd ordinary not_ordinary_descriptorView
      | encodings => exact gained.formed.cached .encodings ordinary entry among
    · obtain rfl | ⟨before, -⟩ := settled entry among
      · exact (gained.usable id List.mem_cons_self).1
      · exact gained.formed.native entry before
    · obtain rfl | ⟨before, -⟩ := settled entry among
      · exact .inr (gained.usable id List.mem_cons_self).2
      · exact gained.clean.entries entry before
  exact stored.carried ((Alters.refl got _).reap _) fun carried before => carried.reap _ before

end Gained

/-- How an operation ends that gives things, as far as it does. -/
def Gains (base : World) (got : List ThingId) (refs : α → List ThingId) (outcome : Except Interrupt α) (after : World) : Prop :=
  Lasts base after ∧ Gained {} got ((outcome.toOption.map refs).getD []) after

/-! ## Native descriptors -/

theorem beside_onLedger (body : Task Ledger α) : (onLedger body).Keeps (Beside base) := by
  intro world beside
  unfold Task.Ends onLedger Task.within
  cases body world.ledger <;> exact ⟨beside.heap, beside.caches, beside.nextThing, beside.gates⟩

/-- What neither native resources nor lifespans have to do with, taking a descriptor over keeps. -/
theorem adopt_keeps {holds : World → Prop}
    (store : ∀ {world} notes cache, holds world → holds (lifespanView.store notes cache world))
    (ledgers : ∀ {world} ledger, holds world → holds (setLedger ledger world)) (address : Address) :
    (adopt address).Keeps holds := by
  have onLedger {β : Type} (body : Task Ledger β) : (onLedger body).Keeps holds := by
    intro world before
    unfold Task.Ends World.onLedger Task.within
    cases body world.ledger <;> exact ledgers _ before
  have current : currentLifespan.Keeps holds := currentLifespan_keeps store fun _ _ before => ledgers _ before
  refine current.bind fun lifespan => Task.Keeps.get.bind fun state => (onLedger _).bind fun guard => ?_
  refine Task.Keeps.bind (Task.Keeps.attempt ((onLedger _).discard.bind fun _ =>
    (keeps_readNative address).ensuring fun world before => (onLedger _ world before).exec)) fun contents => ?_
  cases contents with
  | ok contents => exact .pure _
  | error interrupt => exact (onLedger _).bind fun _ => .throw interrupt

theorem beside_adopt (address : Address) : (adopt address).Keeps (Beside base) :=
  adopt_keeps (fun _ _ beside => ⟨beside.heap, beside.caches, beside.nextThing, beside.gates⟩)
    (fun _ beside => ⟨beside.heap, beside.caches, beside.nextThing, beside.gates⟩) address

/-- A native descriptor is taken over, and its guard was not released meanwhile. -/
theorem adopt_gains (gained : Gained {} got [] world) (inSession : world.session.isSome = true) (address : Address) :
    (adopt address).Ends world fun outcome after => Lasts world after ∧ Gained {} got [] after ∧
      ∀ thing, outcome = .ok thing → ∃ guard, thing.guard? = some guard ∧ Loose guard [] after ∧
        ¬ after.ledger.Released guard := by
  refine ((adopt_tracked gained.followed inSession address).both
    (beside_adopt address world ⟨rfl, rfl, rfl, rfl⟩)).weaken fun outcome after ended => ?_
  obtain ⟨⟨followed, mild, given⟩, beside⟩ := ended
  have alters : Alters got world after := beside.alters
  exact ⟨alters.lasts, gained.alters alters followed mild.calm, given⟩

/-- The native descriptor that is given for an address was not released. -/
theorem nativeDescriptor_gains (gained : Gained {} got [] world) (inSession : world.session.isSome = true)
    (address : Address) : (nativeDescriptor address).Ends world (Gains world got fun id => [id]) := by
  have looks : (descriptorView.lookup mutatorThread address (construct (adopt address))).Ends world
      (Gains world got fun id => [id]) := by
    unfold Task.Ends CacheView.lookup
    cases run : descriptorView.ask mutatorThread address world with | mk asked after =>
    have alters : Alters got world (descriptorView.ask mutatorThread address world).2 :=
      (Alters.refl got world).store .descriptors _ fun _ among => .inl (Cache.mem_of_ask among)
    have followed : Followed world got (descriptorView.ask mutatorThread address world).2 :=
      gained.followed.congr (fun _ => rfl) rfl rfl ⟨rfl, rfl, rfl, rfl, rfl⟩ rfl rfl rfl rfl
    have calm : world.ledger.Calm (descriptorView.ask mutatorThread address world).2.ledger := .of_guards rfl
    have sought := gained.alters alters followed calm
    rw [run] at alters sought
    -- A hit was unreleased on the shelf and is so after; a build adopts a guard that is usable.
    cases asked with
    | hit id =>
      have hit : (world.caches.descriptors.ask world.alive mutatorThread address).1 = .hit id := congrArg Prod.fst run
      have entry := Cache.mem_of_hit hit
      have usable := (gained.clean.entries (address, id) entry).resolve_left List.not_mem_nil
      rw [run] at followed calm
      refine ⟨(alters.holdAll [id]).lasts, sought.hold (Nat.lt_of_lt_of_le (gained.formed.native _ entry) alters.next)
        (Bool.eq_false_iff.mpr fun released => Bool.eq_false_iff.mp usable ?_)⟩
      exact isReleased_of_calm followed calm (fun _ its => alters.guardOf its) released
    | reentrant => exact ⟨alters.lasts, sought⟩
    | wait => exact ⟨alters.lasts, sought⟩
    | build =>
      dsimp only
      have session : after.session.isSome = true := by
        obtain rfl : _ = after := congrArg Prod.snd run
        exact inSession
      have ends := adopt_gains sought session address
      unfold Task.Ends at ends
      unfold construct
      rw [Task.bind_run]
      cases made : adopt address after with
      | ok thing last =>
        rw [made] at ends
        obtain ⟨lasts, gained, given⟩ := ends
        obtain ⟨guard, its, loose, usable⟩ := given thing rfl
        have made := (lasts_add last thing).trans (lasts_enter address last.nextThing (last.add thing).2)
        exact ⟨(alters.lasts.trans lasts).trans made, (gained.own its loose usable).enter address⟩
      | error interrupt last =>
        rw [made] at ends
        obtain ⟨lasts, gained, -⟩ := ends
        have abandons : Alters got last (descriptorView.abandon address last) :=
          (Alters.refl got last).set .descriptors fun _ among => .inl among
        have followed : Followed last got (descriptorView.abandon address last) :=
          gained.followed.congr (fun _ => rfl) rfl rfl ⟨rfl, rfl, rfl, rfl, rfl⟩ rfl rfl rfl rfl
        exact ⟨(alters.lasts.trans lasts).trans abandons.lasts, gained.alters abandons followed (.refl _)⟩
  refine .next (Task.get_run world) (looks.bind (fun id after ended => ?_) fun _ _ ended => ended)
  split
  · refine .next (Task.modify_run _ after) ?_
    let given : World := { after with provider := after.provider.releaseDescriptor address }
    have alters : Alters got after given := Beside.alters ⟨rfl, rfl, rfl, rfl⟩
    have followed : Followed after (id :: got) given :=
      ended.2.followed.congr (fun _ => rfl) rfl rfl ⟨rfl, rfl, rfl, rfl, rfl⟩ rfl rfl rfl rfl
    exact ⟨ended.1.trans alters.lasts, ended.2.alters alters followed (.refl _)⟩
  · exact ended

theorem requireOpen_ends (world : World) : requireOpen.Ends world fun _ after => after = world := by
  refine .next (Task.get_run world) ?_
  split <;> exact rfl

/-- Native columns that are given for a record type were not released. -/
theorem recordDescriptor_gains (gained : Gained {} got [] world) (inSession : world.session.isSome = true) (typmod : Int32) :
    (recordDescriptor typmod).Ends world (Gains world got fun computed => computed.value.refs) := by
  have nothing : Gained {} got [] world := gained
  have same : Lasts world world := (Alters.refl got world).lasts
  refine (requireOpen_ends world).bind ?_ ?_
  · rintro _ world rfl
    have looks : (onProvider (Provider.lookupRecord typmod)).Ends world fun _ after =>
        Lasts world after ∧ Gained {} got [] after ∧ after.session.isSome = true := by
      refine onProvider_ends ((scope_lookupRecord typmod world.provider).weaken fun _ provider scope => ?_)
      let found : World := { world with provider }
      have alters : Alters got world found := Beside.alters ⟨rfl, rfl, rfl, rfl⟩
      have followed : Followed world got found :=
        gained.followed.congr (fun _ => rfl) rfl rfl ⟨rfl, rfl, rfl, rfl, rfl⟩ rfl scope rfl rfl
      exact ⟨alters.lasts, gained.alters alters followed (.refl _), inSession⟩
    refine looks.bind (fun found after ended => ?_) fun _ _ ended => ⟨ended.1, ended.2.1⟩
    obtain ⟨lasts, gained, inSession⟩ := ended
    cases found with
    | none => exact ⟨lasts, gained⟩
    | some address =>
      exact (nativeDescriptor_gains gained inSession address).bind (fun id last ended => ⟨lasts.trans ended.1, ended.2⟩)
        fun _ _ ended => ⟨lasts.trans ended.1, ended.2⟩
  · rintro _ _ rfl
    exact ⟨same, nothing⟩

/-! ## Columns of types -/

/-- What edits give has no native memory. -/
theorem gains_of_edits {refs : α → List ThingId} {outcome : Except Interrupt α} (kept : Kept {} got world) (clean : Clean [] world)
    (edits : After (Edits got world) refs got outcome after) : Gains world got refs outcome after := by
  cases outcome with
  | ok value =>
    have edits : Edits got world (refs value ++ got) after := edits
    exact ⟨edits.lasts, (edits.batched.kept kept).gains (edits.batched.clean kept clean)⟩
  | error interrupt =>
    have edits : Edits got world got after := edits
    exact ⟨edits.lasts, (edits.batched.kept kept).gained (edits.batched.clean kept clean)⟩

/-- The cell under which a type is about to keep its columns governs them, also later. -/
theorem governed_later (formed : Formed {} world) (lasts : Lasts world after) {datum : Datum} {cell : Option CellId}
    (taken : (view id).cell Catalog.typeDescriptor world = .ok cell world) (thing' : Thing)
    (found : after.thing? id = some thing') :
    ∃ gate, thing'.gate? = some gate ∧ (⟨datum, cell⟩ : Memo Datum).Governed {} after.gates gate := by
  have bound : Catalog.typeDescriptor.binding = .gate 0 := rfl
  unfold Coherence.TableView.cell at taken
  rw [bound] at taken
  dsimp only at taken
  rw [Task.bind_ok (Task.get_run world)] at taken
  cases governs : ((view id).get? world).bind (·.gates[0]?) with
  | none =>
    rw [governs] at taken
    cases taken
  | some gate =>
    rw [governs] at taken
    obtain ⟨table, there, first⟩ := Option.bind_eq_some_iff.mp governs
    obtain ⟨thing, was, has⟩ := Option.bind_eq_some_iff.mp there
    obtain ⟨thing₀, was₀, same⟩ := lasts.things id thing' found (formed.below id (alive_iff.mpr ⟨thing, was⟩))
    cases was.symm.trans was₀
    have its : thing.gate? = some gate := by
      rw [Thing.gate?, has, Option.bind_some, List.head?_eq_getElem?]
      exact first
    obtain ⟨current, isCurrent⟩ := Gates.currentCell?_isSome (formed.known id thing gate was its)
    refine ⟨gate, same.trans its, Memo.Governed.grows ⟨current, (formed.gates.current gate current isCurrent).1, ?_,
      fun _ => ⟨by rintro ⟨⟩, fun _ => isCurrent⟩⟩ lasts.gates⟩
    cases taken
    exact isCurrent

/-- The columns of a type are looked for. -/
theorem computes_gains (gained : Gained {} got [] world) (access : Access)
    (inSession : access = .mutator → world.session.isSome = true)
    (allowed : Catalog.typeDescriptor.refusal access = none) :
    (typeColumns id access).Ends world (Gains world got fun computed => computed.value.refs) := by
  refine (Edits.requireEntity_ends id world).bind ?_ fun interrupt after ended => ?_
  · rintro type world ⟨rfl, -⟩
    split
    · have mutator : access = .mutator := by
        cases access with
        | mutator => rfl
        | reader => cases allowed
      exact recordDescriptor_gains gained (inSession mutator) type.key.sub
    · -- columns of a composite type are found without taking over anything
      exact (Edits.compositeColumns id access got world .refl).weaken fun _ _ =>
        gains_of_edits gained.kept gained.clean
  · obtain ⟨rfl, -⟩ := ended
    exact ⟨(Alters.refl got after).lasts, gained⟩

/-- The columns of a type are read.  Those of a cached type were not released. -/
theorem typeDescriptor_serves (gained : Gained {} got [] world) (access : Access)
    (inSession : access = .mutator → world.session.isSome = true) :
    (typeDescriptor id access).Ends world fun outcome after => Kept {} got after ∧ Clean [] after ∧
      ((∃ key, (key, id) ∈ world.caches.types.table) → ∀ one, outcome = .ok (some one) → after.isReleased one = false) := by
  have counted {ids : List ThingId} {last : World} (counter : Counter) (gained : Gained {} got ids last) :
      Gained {} got ids (count counter last) :=
    gained.carried (Edit.counted _ : Edit got last got _).alters fun carried => carried.count counter
  have reads : (readSlot id Catalog.typeDescriptor access (typeColumns id access)).Ends world fun outcome after =>
      Kept {} got after ∧ Clean [] after ∧
      ((∃ key, (key, id) ∈ world.caches.types.table) →
        ∀ datum, outcome = .ok datum → ∀ one ∈ datum.refs, after.isReleased one = false) := by
    refine Edits.readSlot_ends (fun datum peeked => ?_) (fun _ => ⟨gained.kept, gained.clean, fun _ => nofun⟩)
      (computes_gains gained access inSession) (fun datum cell after taken ended => ?_) (fun datum after ended => ?_)
      fun interrupt after ended => ⟨ended.2.kept, ended.2.clean, fun _ => nofun⟩
    · -- what a cached type keeps was not released
      have gained := counted .slotHit gained
      have alters := (Alters.refl got (count .slotHit world)).holdAll datum.refs
      have held := (tracked_carried (fun _ => True) (count .slotHit world)).holdAll datum.refs gained.followed
      have calm : (count .slotHit world).ledger.Calm
          (datum.refs.foldl (fun world id => World.hold id world) (count .slotHit world)).ledger := by
        rw [foldl_hold]
        exact .refl _
      refine ⟨gained.kept.alters alters ((tracked_carried _ _).lessAll _ held),
        gained.kept.clean gained.clean alters held calm, fun ⟨key, cached⟩ datum' same one among => ?_⟩
      cases same
      refine Bool.eq_false_iff.mpr fun released => Bool.eq_false_iff.mp (gained.clean.types (key, id) cached) ?_
      obtain ⟨thing, table, memo, there, has, found, valid, rfl⟩ := peek_iff.mp peeked
      exact keepsReleased_iff.mpr ⟨thing, memo, one, there, ⟨table, has, found⟩, valid, among,
        isReleased_of_calm held calm (fun _ its => alters.guardOf its) released⟩
    · have kept := (counted .slotCompute ended.2).describes (governed_later gained.formed
        (ended.1.trans (Edit.counted _ : Edit got after got _).alters.lasts) taken)
      exact ⟨kept.kept, kept.clean, fun _ datum' same one among => by cases same; exact (kept.usable one among).2⟩
    · have passed := counted .slotTransient ended.2
      exact ⟨passed.kept, passed.clean, fun _ datum' same one among => by cases same; exact (passed.usable one among).2⟩
  refine reads.bind (fun datum after ended => ?_) fun _ _ ended => ⟨ended.1, ended.2.1, fun _ => nofun⟩
  cases datum with
  | link target =>
    refine ⟨ended.1, ended.2.1, fun cached one same => ended.2.2 cached _ rfl one ?_⟩
    cases same
    exact List.mem_singleton_self one
  | _ => exact ⟨ended.1, ended.2.1, fun _ => nofun⟩

end World

end CatalogReplica.Catalog
