import CatalogReplica.Proofs.Catalog.Linking

/-!
# What reads of descriptors give

The columns of a relation are those that its current row and the rows of its attributes
describe, and the columns of a composite type are those of its relation.

* `relationColumns_ends`: reading the attributes of a relation.
* `relationDescriptor_ends`, `typeDescriptor_ends`: the fields that lead to columns.
-/

namespace CatalogReplica.Catalog

open Coherence (Access Computed)
open Storage (ColumnValue Fetched Row)

namespace Provider

variable {provider : Provider}

/-- The columns of an attribute, each decoded on its own. -/
theorem describeColumn_eq (relation : Oid) (attnum : Int16) : provider.describeColumn relation attnum = (do
    let name ← provider.rowAt .attr (attributeKey relation attnum) >>= (·.name "attname")
    let typeOid ← provider.rowAt .attr (attributeKey relation attnum) >>= (·.oid "atttypid")
    let typmod ← provider.rowAt .attr (attributeKey relation attnum) >>= (·.i32 "atttypmod")
    return { attnum, name := some name, typeOid, typmod }) := by
  unfold describeColumn
  cases provider.rowAt .attr (attributeKey relation attnum) with
  | error interrupt => rfl
  | ok row => rfl

/-- The columns of a relation, with the columns of its row decoded on their own. -/
theorem describe_eq (relation : Oid) : provider.describe relation = (do
    let natts ← provider.rowAt .relation (EntityClass.relation.key relation) >>= (·.i16 "relnatts")
    let typeOid ← provider.rowAt .relation (EntityClass.relation.key relation) >>= (·.oid "reltype")
    let columns ← provider.describeColumns relation
      ((List.range' 1 natts.toInt.toNat).map Int16.ofNat)
    return { typeOid, typmod := noTypmod, relation := some relation, columns, guard := none }) := by
  unfold describe
  cases provider.rowAt .relation (EntityClass.relation.key relation) with
  | error interrupt => rfl
  | ok row => rfl

end Provider

namespace World

variable {world after : World} {unsignalled : List EntityKey} {id : ThingId} {entity : Entity}
  {access : Access}

/-! ## Attributes -/

/-- What is promised stays promised. -/
theorem Promised.later {mid : World} {got : List ThingId} (leads : Leads unsignalled got world mid)
    (stands : world.Stands unsignalled) (held : id ∈ world.held) {later : Entity}
    (found : mid.entity? id = some later) (promised : Promised unsignalled world id entity) :
    Promised unsignalled mid id later := by
  obtain ⟨later', cached, becomes⟩ := leads.cached stands promised.1 held
  obtain rfl := Option.some.inj (found.symm.trans cached.1)
  exact ⟨cached, becomes.key ▸ promised.2⟩

/-- The columns of an attribute. -/
theorem attributeColumn_ends (stands : world.Stands unsignalled) (found : world.entity? id = some entity)
    (held : id ∈ world.held) (kind : entity.kind = .attr) {relation : Oid} {attnum : Int16}
    (key : entity.key = attributeKey relation attnum) :
    (do
      let name ← nameColumn id .attributeName access
      let typeOid ← oidColumn id .attributeTypeOid access
      let typmod ← typmodColumn id .attributeTypmod access
      return { attnum, name := some name, typeOid, typmod : DescriptorColumn } :
      Task World DescriptorColumn).Ends world
      (Tells unsignalled access (Promised unsignalled world id entity)
        (world.provider.describeColumn relation attnum) world) := by
  have row {mid : World} (leads : Leads unsignalled [] world mid) {later : Entity}
      (becomes : entity.Becomes mid.gates later) : world.provider.rowAt .attr (attributeKey relation attnum)
        = mid.provider.rowAt later.kind (later.kind.rowKey later.key) := by
    rw [becomes.kind, becomes.key, kind, key]
    exact (congrArg (·.rowAt .attr (attributeKey relation attnum)) leads.onward.store).symm
  rw [Provider.describeColumn_eq]
  refine Tells.bind ((nameColumn_ends stands found held .attributeName kind.symm rfl).weaken fun _ _ tells =>
    tells.earlier (.refl stands) (fun given => given) fun _ => by rw [row (.refl stands) (.refl _ entity)]; rfl) ?_
  intro name one first _
  obtain ⟨later, found', becomes⟩ := first.becomes stands found held
  refine Tells.bind ((oidColumn_ends first.stands found' (first.holds held) .attributeTypeOid
    (becomes.kind.trans kind).symm rfl).weaken fun _ _ tells =>
    tells.earlier first (.later first stands held found') fun _ => by rw [row first becomes]; rfl) ?_
  intro typeOid two second _
  obtain ⟨later, found', becomes⟩ := second.becomes stands found held
  refine Tells.bind ((typmodColumn_ends second.stands found' (second.holds held) .attributeTypmod
    (becomes.kind.trans kind).symm rfl).weaken fun _ _ tells =>
    tells.earlier second (.later second stands held found') fun _ => by rw [row second becomes]; rfl) ?_
  intro typmod three third _
  exact .pure ⟨third, fun _ => rfl⟩

/-- The attributes of a relation, each looked up, read and released. -/
theorem relationColumns_ends (stands : world.Stands unsignalled) (quiet : world.Quiet) {oid : Oid}
    (valid : oid.isValid = true) (attnums : List Int16) :
    (relationColumns oid access attnums).Ends world
      (Tells unsignalled access (Clean unsignalled EntityClass.attr.oid oid)
        (world.provider.describeColumns oid attnums) world) := by
  induction attnums generalizing world with
  | nil => exact .pure ⟨.refl stands, fun _ => rfl⟩
  | cons attnum attnums inductionHypothesis =>
    refine (attributeOf_ends stands quiet valid attnum).bind ?_ (by rintro _ _ ⟨_, _, ⟨⟩, -⟩)
    rintro id mid ⟨_, found, ⟨⟩, toAttribute, cached, isAttr, isKey⟩
    have held : id ∈ mid.held := toAttribute.gives List.mem_cons_self
    have promise (clean : Clean unsignalled EntityClass.attr.oid oid) :
        Promised unsignalled mid id found := ⟨cached, by rw [isKey]; exact clean⟩
    rw [Provider.describeColumns]
    refine Tells.bind (.ensuring ((attributeColumn_ends toAttribute.stands cached.1 held isAttr isKey).weaken ?_)) ?_
    · rintro outcome after ⟨leads, agrees⟩
      exact ⟨(toAttribute.further leads).release, agrees.demand promise fun _ =>
        (congrArg (·.describeColumn oid attnum) toAttribute.onward.store).symm⟩
    · intro first last leads _
      refine Tells.bind ((inductionHypothesis leads.stands (leads.quiet quiet)).weaken fun _ _ tells =>
        tells.earlier leads (fun clean => clean) fun _ => ?_) fun rest after leads' _ => .pure ⟨leads', fun _ => rfl⟩
      exact Provider.describeColumns_of_store leads.onward.store

/-! ## Descriptors -/

theorem rowKey_relation {key : EntityKey} (named : EntityClass.relation.Names key) :
    EntityClass.relation.rowKey key = EntityClass.relation.key key.object := by
  obtain ⟨isClass, -, isAttr | isType | sub⟩ := named
  · cases isAttr
  · cases isType
  · cases key
    simp_all [EntityClass.rowKey, EntityClass.key]

/-- The columns of a relation as they are read, before they become a descriptor. -/
def relationContents (id : ThingId) (access : Access) : Task World Descriptor := do
  let natts ← countColumn id .relationNatts access
  let rowType ← oidColumn id .relationRowType access
  requireOpen
  let oid := (← requireEntity id).key.object
  let columns ← relationColumns oid access ((List.range' 1 natts.toInt.toNat).map Int16.ofNat)
  return { typeOid := rowType, typmod := noTypmod, relation := some oid, columns, guard := none }

theorem relationDescriptor_eq (id : ThingId) (access : Access) : relationDescriptor id access
    = linkSlot id Catalog.relationDescriptor access (do
        let contents ← relationContents id access
        let descriptor ← construct (return .descriptor contents)
        return .cached (.link (some descriptor))) := by
  simp only [relationDescriptor, relationContents, bind_assoc, pure_bind]

theorem relationContents_ends (stands : world.Stands unsignalled) (quiet : world.Quiet)
    (found : world.entity? id = some entity) (held : id ∈ world.held) (kind : entity.kind = .relation) :
    (relationContents id access).Ends world
      (Tells unsignalled access (Promised unsignalled world id entity ∧
        Clean unsignalled EntityClass.attr.oid entity.key.object)
        (world.provider.describe entity.key.object) world) := by
  have named := (stands.sound.shaped id entity found).named
  rw [kind] at named
  have row {mid : World} (leads : Leads unsignalled [] world mid) {later : Entity}
      (becomes : entity.Becomes mid.gates later) :
      world.provider.rowAt .relation (EntityClass.relation.key entity.key.object)
        = mid.provider.rowAt later.kind (later.kind.rowKey later.key) := by
    rw [becomes.kind, becomes.key, kind, rowKey_relation named]
    exact (congrArg (·.rowAt .relation (EntityClass.relation.key entity.key.object)) leads.onward.store).symm
  rw [Provider.describe_eq]
  refine Tells.bind ((countColumn_ends stands found held .relationNatts kind.symm rfl).weaken fun _ _ tells =>
    tells.earlier (.refl stands) And.left fun _ => by rw [row (.refl stands) (.refl _ entity)]; rfl) ?_
  intro natts one first _
  obtain ⟨later, its, becomes⟩ := first.becomes stands found held
  refine Tells.bind ((oidColumn_ends first.stands its (first.holds held) .relationRowType
    (becomes.kind.trans kind).symm rfl).weaken fun _ _ tells =>
    tells.earlier first (fun given => given.1.later first stands held its) fun _ => by rw [row first becomes]; rfl) ?_
  intro typeOid two second _
  obtain ⟨later, its, becomes⟩ := second.becomes stands found held
  refine .next second.stands.requireOpen_run (.next (requireEntity_run its) ?_)
  rw [becomes.key]
  refine Tells.bind ((relationColumns_ends second.stands (second.quiet quiet) named.2.1 _).weaken fun _ _ tells =>
    tells.earlier second And.right fun _ => Provider.describeColumns_of_store second.onward.store) ?_
  exact fun columns three third _ => .pure ⟨third, fun _ => rfl⟩

/-- A descriptor is made of what a relation describes, and kept. -/
theorem relationDescriptor_ends (stands : world.Stands unsignalled) (quiet : world.Quiet)
    (found : world.entity? id = some entity) (held : id ∈ world.held) (kind : entity.kind = .relation) :
    (relationDescriptor id access).Ends world fun outcome after =>
      Reads unsignalled id entity .relationDescriptor access world (outcome.map .link) after := by
  have named := (stands.sound.shaped id entity found).named
  rw [kind] at named
  rw [relationDescriptor_eq]
  refine linkSlot_ends .relationDescriptor stands found held kind.symm trivial ?_
  refine (relationContents_ends stands quiet found held kind).bind ?_ ?_
  · rintro contents mid ⟨leads, agrees⟩
    have added := Leads.add leads.stands (fits_descriptor mid {} contents)
    have made : construct (return .descriptor contents) mid = .ok mid.nextThing
        (World.hold mid.nextThing (mid.withThing (.descriptor contents))) := rfl
    have shown : (World.hold mid.nextThing (mid.withThing (.descriptor contents))).Shows (some mid.nextThing)
        contents :=
      ⟨mid.nextThing, rfl, descriptor?_eq_some.mpr ((thing?_withThing leads.stands.sound _).trans (if_pos rfl))⟩
    refine .next made (.pure ⟨leads.trans added, ⟨fun _ _ => (nomatch ·), fun _ _ => (nomatch ·), (nomatch ·)⟩, ?_⟩)
    intro cached own attributes
    refine ⟨_, contents, rfl, shown, ?_⟩
    rw [← agrees ⟨⟨cached, named.1 ▸ own⟩, attributes⟩]
    exact (Provider.describe_of_store leads.onward.store).symm
  · rintro interrupt mid ⟨leads, agrees⟩
    exact ⟨leads, fun isMutator cached own attributes => agrees isMutator ⟨⟨cached, named.1 ▸ own⟩, attributes⟩⟩

/-- The columns of an interned record type, as far as the provider knows them. -/
theorem recordDescriptor_ends (stands : world.Stands unsignalled) (typmod : Int32) :
    (recordDescriptor typmod).Ends world fun outcome after => match outcome with
      | .ok computed => Leads unsignalled computed.value.refs world after
      | .error _ => Leads unsignalled [] world after := by
  refine .next stands.requireOpen_run ?_
  have looked : Apart (onProvider (Provider.lookupRecord typmod)) := by
    refine .onProvider fun provider => .next (Task.get_run provider) ?_
    cases provider.serve .record () with
    | error fault => exact rfl
    | ok served =>
      refine .next (Task.pure_run _ provider) ?_
      split
      · exact rfl
      · split
        · exact rfl
        · exact rfl
  refine (looked.leads stands).bind ?_ fun _ _ leads => leads
  rintro (_ | address) mid leads
  · exact .pure leads
  · refine (nativeDescriptor_ends leads.stands address).bind ?_ fun _ _ found => leads.trans found
    exact fun id last found => .pure (leads.trans found)

/-- A link that is trusted leads to an entity of its class, which is cached if the one that
    trusts the link is. -/
theorem Reads.target (link : Link) {target : ThingId} (stands : world.Stands unsignalled)
    (found : world.entity? id = some entity) (held : id ∈ world.held) (kind : entity.kind = link.info.kind)
    (reads : Reads unsignalled id entity (.link link) access world (.ok (.link (some target))) after) :
    ∃ later other, after.entity? id = some later ∧
      later.Trusts {} after.gates link.info.index (.link (some target)) ∧
      after.entity? target = some other ∧ other.kind = link.info.target ∧
      (world.Cached id entity → link.Tracked → after.Cached target other) := by
  obtain ⟨leads, ⟨isType, -⟩ | ⟨later, its, trusts, -⟩⟩ := reads
  · cases isType
  obtain ⟨later', its', becomes⟩ := leads.becomes stands found held
  obtain rfl := Option.some.inj (its.symm.trans its')
  have isKind := becomes.kind.trans kind
  have trusted := trusts
  obtain ⟨memo, kept, value, -⟩ := trusted
  obtain ⟨other, found', isTarget, -⟩ :=
    leads.stands.sound.targets _ later (.link link) _ memo target its isKind rfl kept value
  refine ⟨later, other, its, trusts, found', isTarget, fun cached tracked => ?_⟩
  obtain ⟨_, cached', -⟩ := leads.cached stands cached held
  obtain rfl := Option.some.inj (its.symm.trans cached'.1)
  obtain ⟨known, cached'', -⟩ := leads.stands.sound.links _ later link target cached' tracked isKind trusts
  exact Option.some.inj (found'.symm.trans cached''.1) ▸ cached''

theorem isInternedRecord_iff (kind : entity.kind = .type) :
    entity.isInternedRecord = true ↔ entity.key.Interned := by
  simp [Entity.isInternedRecord, EntityKey.Interned, kind]

/-- The columns of an interned record type may be kept, whatever they are. -/
theorem recordDescriptor_computes (stands : world.Stands unsignalled) (interned : entity.key.Interned) :
    (recordDescriptor entity.key.sub).Ends world (Computes unsignalled id entity .typeDescriptor access world) := by
  refine (recordDescriptor_ends stands _).weaken fun outcome after ended => ?_
  match outcome with
  | .ok (.cached datum) =>
    exact ⟨ended, ⟨fun _ _ => (nomatch ·), fun _ _ => (nomatch ·), fun _ plain => absurd interned plain⟩,
      fun _ plain => absurd interned plain⟩
  | .ok (.transient datum) => exact ⟨ended, rfl, interned⟩
  | .error interrupt => exact ⟨ended, fun _ _ plain => absurd interned plain⟩

/-- The columns of a composite type, once its relation is found. -/
theorem columns_computes {mid : World} {relation : ThingId} (stands : world.Stands unsignalled)
    (quiet : world.Quiet) (found : world.entity? id = some entity) (held : id ∈ world.held)
    (kind : entity.kind = .type)
    (reads : Reads unsignalled id entity (.link .typeRelation) access world (.ok (.link (some relation))) mid) :
    (do
      let descriptor ← Task.ensuring (relationDescriptor relation access) (release relation)
      return .cached (.link descriptor) : Task World (Computed Datum)).Ends mid
      (Computes unsignalled id entity .typeDescriptor access world) := by
  obtain ⟨later, owner, its, trusts, found', isRelation, cached'⟩ :=
    reads.target .typeRelation stands found held kind
  have leads := reads.1
  have held' : relation ∈ mid.held := leads.gives List.mem_cons_self
  -- What the link says while the type is cached.
  have leadsTo (cached : world.Cached id entity) (clean : Clean unsignalled entity.key.classOid entity.key.object) :
      owner.key.object.isValid = true ∧ world.provider.decode entity.kind (entity.kind.rowKey entity.key)
        Link.typeRelation.info.source .oid = .ok (.oid owner.key.object) := by
    obtain ⟨oid, target, ⟨⟩, ⟨valid, other, isOther, -, rfl⟩, decoded⟩ :=
      reads.right (nomatch ·) kind.symm stands cached held clean
    obtain rfl := Option.some.inj (found'.symm.trans isOther)
    refine ⟨valid, Eq.trans ?_ decoded⟩
    exact (congrArg (·.decode entity.kind (entity.kind.rowKey entity.key) Link.typeRelation.info.source .oid)
      leads.onward.store).symm
  have described : (Task.ensuring (relationDescriptor relation access) (World.release relation)).Ends mid
      fun outcome last => ∃ after, last = World.release relation after ∧
        Reads unsignalled relation owner .relationDescriptor access mid (outcome.map .link) after :=
    .ensuring ((relationDescriptor_ends leads.stands (leads.quiet quiet) found' held' isRelation).weaken
      fun _ after ended => ⟨after, rfl, ended⟩)
  refine described.bind ?_ ?_
  · rintro descriptor _ ⟨after, rfl, ended⟩
    have all : Leads unsignalled descriptor.toList world (World.release relation after) :=
      (leads.trans ended.1).release
    have onward := ended.1.onward.trans (.release relation after)
    refine .pure ⟨all, ⟨fun _ _ => (nomatch ·), fun _ _ => (nomatch ·), fun _ _ => ?_⟩, fun cached _ clean => ?_⟩
    · have live := all.stands.sound.holding id (all.holds held)
      obtain ⟨last, its', becomes⟩ :=
        onward.becomes its (leads.stands.sound.below id (alive_of_entity its)) live
      exact ⟨last, _, its', leads.stands.trusts onward its becomes trusts⟩
    · obtain ⟨valid, decoded⟩ := leadsTo cached clean
      refine ⟨owner.key.object, descriptor, rfl, Eq.trans ?_ decoded, fun invalid => ?_, fun _ own attributes => ?_⟩
      · exact congrArg (·.decode entity.kind (entity.kind.rowKey entity.key) Link.typeRelation.info.source .oid)
          all.onward.store
      · rw [valid] at invalid
        cases invalid
      · obtain ⟨_, contents, ⟨⟩, ⟨shown, rfl, shows'⟩, describes⟩ :=
          ended.right (nomatch ·) isRelation.symm leads.stands (cached' cached (.inl rfl)) held' own attributes
        refine ⟨contents, ⟨shown, rfl, (Onward.release relation after).shows_still shows' ?_ ?_⟩, ?_⟩
        · exact ended.1.stands.sound.below shown (ended.1.stands.sound.holding shown (ended.1.gives List.mem_cons_self))
        · exact all.stands.sound.holding shown (all.gives List.mem_cons_self)
        · rw [← describes]
          exact Provider.describe_of_store (Onward.release relation after).store.symm
  · rintro interrupt _ ⟨after, rfl, ended⟩
    refine ⟨(leads.further ended.1).release, fun isMutator cached _ clean => ?_⟩
    obtain ⟨valid, decoded⟩ := leadsTo cached clean
    refine .inr ⟨owner.key.object, decoded, valid, fun own attributes => ?_⟩
    rw [Provider.describe_of_store leads.onward.store]
    exact ended.2 isMutator (cached' cached (.inl rfl)) own attributes

/-- The columns of a composite type are those of the relation that its link leads to. -/
theorem composite_computes (stands : world.Stands unsignalled) (quiet : world.Quiet)
    (found : world.entity? id = some entity) (held : id ∈ world.held) (kind : entity.kind = .type) :
    (do
      match ← link id .typeRelation access with
      | none => return .cached (.link none)
      | some relation =>
          let descriptor ← Task.ensuring (relationDescriptor relation access) (release relation)
          return .cached (.link descriptor) : Task World (Computed Datum)).Ends world
      (Computes unsignalled id entity .typeDescriptor access world) := by
  refine (link_ends stands quiet found held .typeRelation kind.symm).bind ?_ ?_
  · rintro (_ | relation) mid reads
    · refine .pure ⟨reads.1, ⟨fun _ _ => (nomatch ·), fun _ _ => (nomatch ·), fun _ _ => ?_⟩, fun cached _ clean => ?_⟩
      · obtain ⟨isType, -⟩ | ⟨later, its, trusts, -⟩ := reads.2
        · cases isType
        · exact ⟨later, _, its, trusts⟩
      · obtain ⟨oid, target, ⟨⟩, invalid, decoded⟩ :=
          reads.right (nomatch ·) kind.symm stands cached held clean
        refine ⟨oid, none, rfl, decoded, fun _ => rfl, fun valid => ?_⟩
        rw [show oid.isValid = false from invalid] at valid
        cases valid
    · exact columns_computes stands quiet found held kind reads
  · rintro interrupt mid fails
    exact ⟨fails.1, fun isMutator cached _ clean => .inl (fails.2 isMutator cached clean)⟩

/-- The columns of a type. -/
theorem typeDescriptor_ends (stands : world.Stands unsignalled) (quiet : world.Quiet)
    (found : world.entity? id = some entity) (held : id ∈ world.held) (kind : entity.kind = .type) :
    (typeDescriptor id access).Ends world fun outcome after =>
      Reads unsignalled id entity .typeDescriptor access world (outcome.map .link) after := by
  refine linkSlot_ends .typeDescriptor stands found held kind.symm trivial ?_
  refine .next (requireEntity_run found) ?_
  split
  · next interned => exact recordDescriptor_computes stands ((isInternedRecord_iff kind).mp interned)
  · exact composite_computes stands quiet found held kind

end World

end CatalogReplica.Catalog
