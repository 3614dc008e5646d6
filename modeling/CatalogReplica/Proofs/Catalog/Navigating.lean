import CatalogReplica.Proofs.Catalog.Current

/-!
# Where navigation leads

Eight fields lead from an entity to another one.  While a session reads them of cached
entities, a link that is tracked leads to a cached entity, whatever was evicted before.  The
other six lead to an entity that was evicted just as long as the memo of the link is valid.

* `World.Serves`: a thing is what looking up its key gives, and is not evicted.
* `World.Arrives`: where a read of a link leads.
* `World.navigation_run`: it leads where a valid memo does.
* `Operation.navigation_serves`: the same after any run.
-/

namespace CatalogReplica.Catalog

open Coherence (Access)

/-- The key that is looked up, if the target is an entity. -/
def Script.Target.key? : Script.Target → Option EntityKey
  | .entity kind oid => some (kind.key oid)
  | .attr relation attnum => some (attributeKey relation attnum)
  | .type oid typmod => some { EntityClass.type.key oid with sub := typmod }
  | .encoding _ => none

/-- The field that leads to the other entity, if reading gives one that way. -/
def Accessor.navigates? : Accessor → Option EntityField
  | .link field => some (.link field)
  | .attributeType => some .attributeType
  | _ => none

/-- The target of the field knows who resolved it. -/
def EntityField.Tracked (field : EntityField) : Prop := ∃ link : Link, link.Tracked ∧ field = .link link

namespace World

variable {world after : World} {unsignalled : List EntityKey} {id target : ThingId} {entity : Entity}
  {field : EntityField} {access : Access} {accessor : Accessor}

/-- The entity is not evicted, and every lookup of its key gives it. -/
structure Serves (world : World) (id : ThingId) (entity : Entity) : Prop where
  cached : world.Cached id entity
  status : world.status? id ≠ some (.host .evicted)
  lookups : ∀ lookup : Script.Target, lookup.key? = some entity.key →
    lookup.lookup.Ends world fun outcome _ => outcome = .ok id

theorem status?_evicted (found : world.entity? id = some entity) :
    world.status? id = some (.host .evicted) ↔ entity.table.evicted = true := by
  rw [status?, entity?_eq_some.mp found]
  simp only [Option.map_some, Option.some.injEq, Status.host.injEq, Coherence.SlotTable.status]
  constructor
  · intro isEvicted
    split at isEvicted
    · assumption
    · split at isEvicted
      · cases isEvicted
      · split at isEvicted <;> cases isEvicted
  · exact fun evicted => if_pos evicted

/-! ## Lookups of what is cached -/

/-- A lookup that finds the key of a cached entity finds the entity. -/
theorem Finds.eq (stands : world.Stands unsignalled) (cached : world.Cached id entity) (held : id ∈ world.held)
    {outcome : Except Interrupt ThingId} (finds : Finds unsignalled entity.kind entity.key world outcome after) :
    outcome = .ok id := by
  obtain ⟨other, later, rfl, leads, cached', -, isKey⟩ := finds
  obtain ⟨still, itself, becomes⟩ := leads.cached stands cached held
  rw [leads.stands.sound.cached_unique cached' itself (isKey.trans becomes.key.symm)]

theorem lookup_cached (stands : world.Stands unsignalled) (quiet : world.Quiet) (cached : world.Cached id entity)
    (held : id ∈ world.held) (plain : entity.kind ≠ .attr) {lookup : Script.Target}
    (isKey : lookup.key? = some entity.key) : lookup.lookup.Ends world fun outcome _ => outcome = .ok id := by
  have shaped := stands.sound.shaped id entity cached.1
  have valid := shaped.named.2.1
  have gives {kind : EntityClass} {key : EntityKey} {body : Task World ThingId} (own : key = entity.key)
      (isOid : key.classOid = kind.oid) (finds : body.Ends world (Finds unsignalled kind key world)) :
      body.Ends world fun outcome _ => outcome = .ok id := by
    subst own
    obtain rfl := shaped.kind_eq isOid
    exact finds.weaken fun _ _ finds => finds.eq stands cached held
  cases lookup with
  | entity kind oid =>
    have own : kind.key oid = entity.key := Option.some.inj isKey
    have isOid : entity.key.classOid = kind.oid := by rw [← own]; rfl
    have isObject : entity.key.object = oid := by rw [← own]; rfl
    refine gives own rfl (entity_ends stands quiet (isObject ▸ valid) ?_)
    rwa [← shaped.kind_eq isOid]
  | attr relation attnum =>
    have own : attributeKey relation attnum = entity.key := Option.some.inj isKey
    have isOid : entity.key.classOid = EntityClass.attr.oid := by rw [← own]; rfl
    exact absurd (shaped.kind_eq isOid) plain
  | type oid typmod =>
    have own : ({ EntityClass.type.key oid with sub := typmod } : EntityKey) = entity.key := Option.some.inj isKey
    have isObject : entity.key.object = oid := by rw [← own]; rfl
    exact gives own rfl (typeWith_ends stands quiet (isObject ▸ valid) typmod)
  | encoding number => cases isKey

/-- What is cached and held is served. -/
theorem Cached.serves (cached : world.Cached id entity) (stands : world.Stands unsignalled) (quiet : world.Quiet)
    (held : id ∈ world.held) (plain : entity.kind ≠ .attr) : world.Serves id entity where
  cached := cached
  status isEvicted := by
    have unmarked := stands.sound.unmarked id entity cached List.not_mem_nil
    rw [(status?_evicted cached.1).mp isEvicted] at unmarked
    cases unmarked
  lookups _ isKey := lookup_cached stands quiet cached held plain isKey

/-! ## Reads of links -/

/-- Where a read of the field of the entity leads: to an entity that is served or, if the
    field is not tracked and its slot kept a valid memo of it before, to one that was evicted. -/
def Arrives (world after : World) (entity : Entity) (field : EntityField) (target : ThingId) : Prop :=
  ∃ found, after.entity? target = some found ∧ field.leadsTo? = some found.kind ∧ (after.Serves target found ∨
    (after.status? target = some (.host .evicted) ∧ ¬ field.Tracked ∧
      entity.Trusts {} world.gates field.index (.link (some target))))

theorem Reads.arrives {kind : EntityClass} (leadsTo : field.leadsTo? = some kind) (isField : field.kind = entity.kind)
    (stands : world.Stands unsignalled) (quiet : world.Quiet) (cached : world.Cached id entity)
    (held : id ∈ world.held)
    (reads : Reads unsignalled id entity field access world (.ok (.link (some target))) after) :
    world.Arrives after entity field target := by
  obtain ⟨leads, ⟨rfl, -⟩ | ⟨later, its, trusts, origin⟩⟩ := reads
  · cases leadsTo
  have sound := leads.stands.sound
  obtain ⟨later', cached', becomes⟩ := leads.cached stands cached held
  obtain rfl := Option.some.inj (its.symm.trans cached'.1)
  have isField' : later.kind = field.kind := becomes.kind.trans isField.symm
  have ⟨memo, kept, value, _⟩ := trusts
  obtain ⟨found, found', rfl, place⟩ := sound.targets id later field kind memo target its isField' leadsTo kept value
  -- No link leads to an attribute, so what is cached may be served.
  have plain : found.kind ≠ .attr := by
    intro isAttr
    rw [isAttr] at leadsTo
    revert leadsTo
    cases field with
    | link link => cases link <;> decide
    | _ => exact nofun
  refine ⟨found, found', leadsTo, ?_⟩
  by_cases isCached : after.Cached target found
  · exact .inl (isCached.serves leads.stands (leads.quiet quiet) (leads.gives List.mem_cons_self) plain)
  refine .inr ⟨(status?_evicted found').mpr (place.resolve_left isCached), ?_, ?_⟩
  · -- whoever trusts a tracked link is known at a cached entity
    rintro ⟨link, tracked, rfl⟩
    obtain ⟨known, cached'', -⟩ := sound.links id later link target cached' tracked isField' trusts
    obtain rfl := Option.some.inj (found'.symm.trans cached''.1)
    exact isCached cached''
  · -- what was computed just now is cached
    refine origin.resolve_right fun led => ?_
    obtain ⟨known, cached''⟩ := led _ target leadsTo rfl
    obtain rfl := Option.some.inj (found'.symm.trans cached''.1)
    exact isCached cached''

/-- Where a session is led that reads a link of a cached entity. -/
theorem navigation_ends (rests : world.Rests unsignalled) (cached : world.Cached id entity) (held : id ∈ world.held)
    (offered : accessor.Of entity.kind) (navigates : accessor.navigates? = some field) :
    (accessor.read id .mutator).Ends world fun outcome after => ∀ target, outcome = .ok (.thing (some target)) →
      world.Arrives after entity field target := by
  have arrives {field : EntityField} {kind : EntityClass} {body : Task World (Option ThingId)}
      (leadsTo : field.leadsTo? = some kind) (isField : field.kind = entity.kind)
      (reads : body.Ends world fun outcome after =>
        Reads unsignalled id entity field .mutator world (outcome.map .link) after) :
      (do return Reading.thing (← body)).Ends world fun outcome after => ∀ target,
        outcome = Except.ok (Reading.thing (some target)) → world.Arrives after entity field target := by
    refine reads.bind (fun value after reads => .pure ?_) fun _ _ _ _ failed => nomatch failed
    rintro target ⟨⟩
    exact Reads.arrives leadsTo isField rests.stands rests.quiet cached held reads
  cases accessor with
  | link field =>
    obtain rfl := Option.some.inj navigates
    exact arrives rfl offered (link_ends rests.stands rests.quiet cached.1 held field offered)
  | attributeType =>
    obtain rfl := Option.some.inj navigates
    exact arrives rfl offered.symm (attributeType_ends rests.stands rests.quiet cached.1 held offered)
  | _ => cases navigates

/-- A session is led where a valid memo of the link leads. -/
theorem navigation_run (found : world.entity? id = some entity) (navigates : accessor.navigates? = some field)
    {target : Option ThingId} (trusts : entity.Trusts {} world.gates field.index (.link target)) :
    ∃ last, accessor.read id access world = .ok (.thing target) last := by
  obtain ⟨memo, kept, value, valid, -⟩ := trusts
  have linked (compute : Task World (Coherence.Computed Datum)) : linkSlot id field.spec access compute world
      = .ok target ((Datum.link target).refs.foldl (fun world id => World.hold id world) (count .slotHit world)) := by
    refine (Task.bind_ok (readSlot_serves found kept valid)).trans ?_
    rw [value]
    rfl
  cases accessor with
  | link field =>
    obtain rfl := Option.some.inj navigates
    exact ⟨_, Task.bind_ok (linked _)⟩
  | attributeType =>
    obtain rfl := Option.some.inj navigates
    exact ⟨_, Task.bind_ok (linked _)⟩
  | _ => cases navigates

end World

namespace Operation

/-- The thing that a read gave, and the world that it left. -/
def arrival? : EStateM.Result Interrupt World Reading → Option (ThingId × World)
  | .ok (.thing (some target)) last => some (target, last)
  | _ => none

theorem run_of_arrival {result : EStateM.Result Interrupt World Reading} {target : ThingId} {last : World}
    (arrived : arrival? result = some (target, last)) : result = .ok (.thing (some target)) last := by
  unfold arrival? at arrived
  split at arrived <;> cases arrived
  rfl

/-- After any run, a session that reads a link of a cached entity is led to an entity that is
    served, or along a link that is not tracked and was valid before to one that was evicted.
    It is always led along a link that is valid. -/
theorem navigation_serves (config : Config) (operations : List Operation)
    (allowed : AllowedAll operations (World.start config)) (proper : ∀ operation ∈ operations, operation.Proper)
    (session : (after operations (World.start config)).session.isSome = true)
    (id : ThingId) (entity : Entity) (cached : (after operations (World.start config)).Cached id entity)
    (held : id ∈ (after operations (World.start config)).held)
    (name : String) (accessor : Accessor) (offered : Accessor.ofName? (.entity entity) name = some accessor)
    (field : EntityField) (navigates : accessor.navigates? = some field) :
    ((accessor.read id .mutator).Ends (after operations (World.start config)) fun outcome last =>
      ∀ target, outcome = .ok (.thing (some target)) →
        (after operations (World.start config)).Arrives last entity field target) ∧
    ∀ target, entity.Trusts {} (after operations (World.start config)).gates field.index (.link target) →
      ∃ last, accessor.read id .mutator (after operations (World.start config)) = .ok (.thing target) last := by
  have opened : (after operations (World.start config)).isOpen = true := by
    rw [World.isOpen, session, Bool.or_true]
  have rests := after_rests allowed proper (World.rests_start config) opened
  exact ⟨World.navigation_ends rests cached held (Accessor.of_ofName? offered) navigates,
    fun _ trusts => World.navigation_run cached.1 navigates trusts⟩

/-- The relation of a type is read, and then deleted. -/
def relationDeleted : List Operation := [
  .put (.relation ⟨16384⟩ "items" ⟨2200⟩ ⟨16386⟩ 1), .put (.composite ⟨16386⟩ "items" ⟨16384⟩), .openSession,
  .lookup (.type ⟨16386⟩ 4), .read 0 "relation" .mutator,
  .dispatch [.row EntityClass.relation.oid ⟨16384⟩ .deleted]]

theorem navigation_serves_relationDeleted : AllowedAll relationDeleted (World.start {}) ∧
    ((Accessor.link .typeRelation).read 0 .mutator).Ends (after relationDeleted (World.start {})) fun outcome last =>
      ∃ target found, outcome = .ok (.thing (some target)) ∧ last.Serves target found := by
  have allowed : AllowedAll relationDeleted (World.start {}) := by decide +kernel
  have proper : ∀ operation ∈ relationDeleted, operation.Proper := by simp [relationDeleted, Proper]
  have session : (after relationDeleted (World.start {})).session.isSome = true := by decide +kernel
  have held : 0 ∈ (after relationDeleted (World.start {})).held := by decide +kernel
  have isType : ((after relationDeleted (World.start {})).entity? 0).any (fun type =>
      (type.key, 0) ∈ ((after relationDeleted (World.start {})).caches.of type.kind).table ∧
      Accessor.ofName? (.entity type) "relation" = some (.link .typeRelation)) = true := by decide +kernel
  have reads : (arrival? ((Accessor.link .typeRelation).read 0 .mutator
      (after relationDeleted (World.start {})))).isSome = true := by decide +kernel
  -- the run is not to be carried out again
  generalize relationDeleted = operations at *
  simp only [Option.any_eq_true, decide_eq_true_eq] at isType
  obtain ⟨type, found, entry, offered⟩ := isType
  obtain ⟨serves, -⟩ := navigation_serves {} operations allowed proper session 0 type ⟨found, entry⟩ held "relation" _
    offered _ rfl
  refine ⟨allowed, ?_⟩
  obtain ⟨⟨target, last⟩, arrived⟩ := Option.isSome_iff_exists.mp reads
  unfold Task.Ends at serves ⊢
  rw [run_of_arrival arrived] at serves ⊢
  obtain ⟨other, -, -, served | ⟨-, untracked, -⟩⟩ := serves target rfl
  · exact ⟨target, other, rfl, served⟩
  · exact absurd ⟨.typeRelation, .inl rfl, rfl⟩ untracked

/-- The namespace of a relation is read, and then deleted. -/
def namespaceDeleted : List Operation := [
  .put (.schema ⟨2200⟩ "public" ⟨10⟩), .put (.relation ⟨16384⟩ "items" ⟨2200⟩ ⟨0⟩ 0), .openSession,
  .lookup (.entity .relation ⟨16384⟩), .read 0 "namespace" .mutator,
  .dispatch [.row EntityClass.schema.oid ⟨2200⟩ .deleted]]

/-- No one is known at a namespace: relations lead to it after it was evicted. -/
theorem navigation_evicted : AllowedAll namespaceDeleted (World.start {}) ∧
    (∃ relation, (after namespaceDeleted (World.start {})).Cached 0 relation) ∧
    ((Accessor.link .relationSchema).read 0 .mutator).Ends (after namespaceDeleted (World.start {})) fun outcome last =>
      ∃ target, outcome = .ok (.thing (some target)) ∧ last.status? target = some (.host .evicted) := by
  have allowed : AllowedAll namespaceDeleted (World.start {}) := by decide +kernel
  have isRelation : ((after namespaceDeleted (World.start {})).entity? 0).any (fun relation =>
      (relation.key, 0) ∈ ((after namespaceDeleted (World.start {})).caches.of relation.kind).table) = true := by
    decide +kernel
  have reads : (arrival? ((Accessor.link .relationSchema).read 0 .mutator
      (after namespaceDeleted (World.start {})))).any (fun arrived =>
        arrived.2.status? arrived.1 = some (.host .evicted)) = true := by decide +kernel
  generalize namespaceDeleted = operations at *
  simp only [Option.any_eq_true, decide_eq_true_eq] at isRelation reads
  obtain ⟨relation, found, entry⟩ := isRelation
  obtain ⟨⟨target, last⟩, arrived, evicted⟩ := reads
  refine ⟨allowed, ⟨relation, found, entry⟩, ?_⟩
  unfold Task.Ends
  rw [run_of_arrival arrived]
  exact ⟨target, rfl, evicted⟩

end Operation

end CatalogReplica.Catalog
