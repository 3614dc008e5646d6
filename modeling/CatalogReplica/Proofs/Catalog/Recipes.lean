import CatalogReplica.Proofs.Native.Reads

/-!
# Which slots are read

What reading a field does is written down as a `Recipe`: a tree of steps in which every read of
a slot shows, with the computation that it may start.  Running the recipe of a field is reading
the field.

A recipe is finite along every path, and a computation reads only slots with lower numbers than
its own, whatever the steps before it gave.  So no slot is read while it is being computed, and
computations are nested four deep at most.

* `Recipe`, `Recipe.run`: recipes and what they do.
* `Accessor.run_recipe`: the recipe of a field reads the field.
* `World.readSlot_computes`, `World.readSlot_resting`: which reads run their computations.
* `Recipe.nestings`: the slots read by a run, each on top of those that are being computed.
* `Accessor.nestings_recipe`: no stack has a slot twice, and none is higher than four.
-/

namespace CatalogReplica.Catalog

open Coherence (Access CellId Computed SlotSpec)
open Storage (ColumnType ColumnValue Row)

/-! ## Recipes -/

/-- A slot of a thing. -/
abbrev Site := ThingId × Nat

/-- One step that reads no slot. -/
inductive Recipe.Step : Type → Type where
  | entityOf (id : ThingId) : Step Entity
  | requireOpen : Step Unit
  | search (key : EntityKey) : Step (Option Address)
  | decode (kind : EntityClass) (address : Address) (source : String) (type : ColumnType) : Step ColumnValue
  | lookup (target : Script.Target) : Step ThingId
  | track (link : Link) (oid : Oid) (target : ThingId) : Step PUnit
  | describe (descriptor : Descriptor) : Step ThingId
  | lookupRecord (typmod : Int32) : Step (Option Address)
  | nativeDescriptor (address : Address) : Step ThingId
  | encodingNumber (id : ThingId) : Step Int32
  | describeEncoding (number : Int32) : Step (Option EncodingInfo)
  | hold (id : ThingId) : Step PUnit

/-- A computation, with every slot that it reads. -/
inductive Recipe : Type → Type 1 where
  | done {α : Type} (value : α) : Recipe α
  /-- There is nothing under the key. -/
  | missing {α : Type} (key : String) : Recipe α
  /-- The computation breaks off. -/
  | crash {α : Type} : Recipe α
  /-- A slot holds a value of another type. -/
  | mismatch {α : Type} (spec : SlotSpec) : Recipe α
  | step {α β : Type} (first : Recipe.Step β) (next : β → Recipe α) : Recipe α
  /-- A slot is read; `compute` runs if it keeps no valid value. -/
  | slot {α : Type} (id : ThingId) (spec : SlotSpec) (access : Access) (compute : Recipe (Computed Datum))
      (next : Datum → Recipe α) : Recipe α
  /-- A thing is let go when the body has ended, whatever its outcome. -/
  | releasing {α β : Type} (id : ThingId) (body : Recipe β) (next : β → Recipe α) : Recipe α

namespace Recipe

variable {α β : Type}

open World in
/-- What a step does. -/
def Step.run : {β : Type} → Step β → Task World β
  | _, entityOf id => requireEntity id
  | _, requireOpen => World.requireOpen
  | _, search key => onProvider (Provider.search key)
  | _, decode kind address source type => do
      let layout ← Task.ofExcept ((← get).provider.layout? kind)
      let row : Row := { memory := (← get).provider.memory, layout, address }
      Task.ofOutcome (row.get type source)
  | _, lookup target => target.lookup
  | _, track link oid target => modify (World.track link oid target)
  | _, describe descriptor => construct (return .descriptor descriptor)
  | _, lookupRecord typmod => onProvider (Provider.lookupRecord typmod)
  | _, nativeDescriptor address => World.nativeDescriptor address
  | _, encodingNumber id => do
      match (← get).thing? id with
      | some (.encoding number _) => return number
      | _ => Task.crash
  | _, describeEncoding number => do Task.ofExcept ((← get).provider.encoding? number)
  | _, hold id => modify (World.hold id)

/-- What a recipe does. -/
def run : {α : Type} → Recipe α → Task World α
  | _, done value => pure value
  | _, missing key => Task.fail (.notFound key)
  | _, crash => Task.crash
  | _, mismatch spec => spec.mismatch
  | _, step first next => first.run >>= fun value => (next value).run
  | _, slot id spec access compute next => World.readSlot id spec access compute.run >>= fun datum => (next datum).run
  | _, releasing id body next => Task.ensuring body.run (World.release id) >>= fun value => (next value).run

/-- One recipe after another. -/
def bind : {α : Type} → Recipe α → (α → Recipe β) → Recipe β
  | _, done value, rest => rest value
  | _, missing key, _ => .missing key
  | _, crash, _ => .crash
  | _, mismatch spec, _ => .mismatch spec
  | _, step first next, rest => .step first fun value => (next value).bind rest
  | _, slot id spec access compute next, rest => .slot id spec access compute fun datum => (next datum).bind rest
  | _, releasing id body next, rest => .releasing id body fun value => (next value).bind rest

instance : Monad Recipe where
  pure := done
  bind := bind

/-- A step alone. -/
def perform (first : Step α) : Recipe α := step first done

/-- The read of a slot alone. -/
def read (id : ThingId) (spec : SlotSpec) (access : Access) (compute : Recipe (Computed Datum)) : Recipe Datum :=
  slot id spec access compute done

/-- A body alone that lets a thing go. -/
def ensuring (body : Recipe α) (id : ThingId) : Recipe α := releasing id body done

@[simp] theorem run_pure (value : α) : (pure value : Recipe α).run = pure value := rfl

@[simp] theorem run_missing (key : String) : (missing key : Recipe α).run = Task.fail (.notFound key) := rfl

@[simp] theorem run_crash : (crash : Recipe α).run = Task.crash := rfl

@[simp] theorem run_mismatch (spec : SlotSpec) : (mismatch spec : Recipe α).run = spec.mismatch := rfl

@[simp] theorem run_perform (first : Step α) : (perform first).run = first.run := bind_pure _

@[simp] theorem run_read (id : ThingId) (spec : SlotSpec) (access : Access) (compute : Recipe (Computed Datum)) :
    (read id spec access compute).run = World.readSlot id spec access compute.run := bind_pure _

@[simp] theorem run_ensuring (body : Recipe α) (id : ThingId) :
    (body.ensuring id).run = Task.ensuring body.run (World.release id) := bind_pure _

/-- Recipes are run one after another. -/
@[simp] theorem run_bind (recipe : Recipe α) (rest : α → Recipe β) :
    (recipe >>= rest).run = recipe.run >>= fun value => (rest value).run := by
  change (recipe.bind rest).run = _
  induction recipe with
  | done value => rfl
  | missing key => rfl
  | crash => rfl
  | mismatch spec => rfl
  | step first next ih => simp only [bind, run, ih, bind_assoc]
  | slot id spec access compute next _ ih => simp only [bind, run, ih, bind_assoc]
  | releasing id body next _ ih => simp only [bind, run, ih, bind_assoc]

/-! ## The fields -/

/-- The search for the row of an entity. -/
def search (id : ThingId) : Recipe (Computed Datum) := do
  let key := (← perform (.entityOf id)).rowKey
  match ← perform (.search key) with
  | some address => return .cached (.address address)
  | none => missing key.form.inline

/-- The address of the row of an entity. -/
def tuple (id : ThingId) (access : Access) : Recipe Address := do
  let spec := (← perform (.entityOf id)).kind.tuple
  match ← read id spec access (search id) with
  | .address address => return address
  | _ => mismatch spec

/-- A column of the row of an entity. -/
def rowValue (id : ThingId) (access : Access) (source : String) (type : ColumnType) : Recipe ColumnValue := do
  let address ← tuple id access
  perform .requireOpen
  let kind := (← perform (.entityOf id)).kind
  perform (.decode kind address source type)

/-- A column of the row of an entity that holds an object number. -/
def rowOid (id : ThingId) (access : Access) (source : String) : Recipe Oid := do
  match ← rowValue id access source .oid with
  | .oid oid => return oid
  | _ => crash

/-- A column field. -/
def column (id : ThingId) (field : Column) (access : Access) : Recipe ColumnValue := do
  let datum ← read id field.spec access do
    return .cached (.column (← rowValue id access field.info.source field.info.type))
  match datum with
  | .column value => return value
  | _ => mismatch field.spec

/-- The target of a link. -/
def resolve (id : ThingId) (field : Link) (access : Access) : Recipe (Computed Datum) := do
  let oid ← rowOid id access field.info.source
  if field.info.isOptional && !oid.isValid then return .cached (.link none)
  else
    perform .requireOpen
    let target ← perform (.lookup (.entity field.info.target oid))
    let own := (← perform (.entityOf id)).key.object
    perform (.track field own target)
    return .cached (.link (some target))

/-- A slot that leads to another thing. -/
def linkSlot (id : ThingId) (spec : SlotSpec) (access : Access) (compute : Recipe (Computed Datum)) :
    Recipe (Option ThingId) := do
  match ← read id spec access compute with
  | .link target => return target
  | _ => mismatch spec

/-- A link field. -/
def link (id : ThingId) (field : Link) (access : Access) : Recipe (Option ThingId) :=
  linkSlot id field.spec access (resolve id field access)

/-- A column field that holds an object number. -/
def oidColumn (id : ThingId) (field : Column) (access : Access) : Recipe Oid := do
  match ← column id field access with
  | .oid oid => return oid
  | _ => mismatch field.spec

/-- A column field that holds a type modifier. -/
def typmodColumn (id : ThingId) (field : Column) (access : Access) : Recipe Int32 := do
  match ← column id field access with
  | .i32 typmod => return typmod
  | _ => mismatch field.spec

/-- A column field that holds a count. -/
def countColumn (id : ThingId) (field : Column) (access : Access) : Recipe Int16 := do
  match ← column id field access with
  | .i16 count => return count
  | _ => mismatch field.spec

/-- A column field that holds a name. -/
def nameColumn (id : ThingId) (field : Column) (access : Access) : Recipe String := do
  match ← column id field access with
  | .name name => return name
  | _ => mismatch field.spec

/-- The type of an attribute. -/
def attributeType (id : ThingId) (access : Access) : Recipe (Option ThingId) :=
  linkSlot id Catalog.attributeType access do
    let oid ← oidColumn id .attributeTypeOid access
    let typmod ← typmodColumn id .attributeTypmod access
    perform .requireOpen
    return .cached (.link (some (← perform (.lookup (.type oid typmod)))))

/-- The row type of a relation. -/
def rowType (id : ThingId) (access : Access) : Recipe (Option ThingId) := do
  let oid ← oidColumn id .relationRowType access
  if oid.isValid then
    perform .requireOpen
    return some (← perform (.lookup (.entity .type oid)))
  else return none

/-- The columns of a relation with the given attribute numbers. -/
def relationColumns (oid : Oid) (access : Access) : List Int16 → Recipe (List DescriptorColumn)
  | [] => return []
  | attnum :: rest => do
      let id ← perform (.lookup (.attr oid attnum))
      let body : Recipe DescriptorColumn := do
        let name ← nameColumn id .attributeName access
        let typeOid ← oidColumn id .attributeTypeOid access
        let typmod ← typmodColumn id .attributeTypmod access
        return { attnum, name := some name, typeOid, typmod }
      let first ← body.ensuring id
      return first :: (← relationColumns oid access rest)

/-- The columns of a relation. -/
def relationDescriptor (id : ThingId) (access : Access) : Recipe (Option ThingId) :=
  linkSlot id Catalog.relationDescriptor access do
    let natts ← countColumn id .relationNatts access
    let rowType ← oidColumn id .relationRowType access
    perform .requireOpen
    let oid := (← perform (.entityOf id)).key.object
    let columns ← relationColumns oid access ((List.range' 1 natts.toInt.toNat).map Int16.ofNat)
    let descriptor ← perform (.describe {
      typeOid := rowType, typmod := noTypmod, relation := some oid, columns, guard := none })
    return .cached (.link (some descriptor))

/-- The columns of an interned record type. -/
def recordDescriptor (typmod : Int32) : Recipe (Computed Datum) := do
  perform .requireOpen
  match ← perform (.lookupRecord typmod) with
  | none => return .transient (.link none)
  | some address => return .cached (.link (some (← perform (.nativeDescriptor address))))

/-- The columns of a type. -/
def typeDescriptor (id : ThingId) (access : Access) : Recipe (Option ThingId) :=
  linkSlot id Catalog.typeDescriptor access do
    let type ← perform (.entityOf id)
    if type.isInternedRecord then recordDescriptor type.key.sub
    else
      match ← link id .typeRelation access with
      | none => return .cached (.link none)
      | some relation => return .cached (.link (← (relationDescriptor relation access).ensuring relation))

/-- The provider is asked for the description of an encoding. -/
def askEncoding (id : ThingId) : Recipe (Computed Datum) := do
  perform .requireOpen
  let number ← perform (.encodingNumber id)
  match ← perform (.describeEncoding number) with
  | some info => return .cached (.encoding info)
  | none => missing (Text.quoted s!"encoding {number.toInt}")

/-- The description of an encoding. -/
def encodingInfo (id : ThingId) (access : Access) : Recipe EncodingInfo := do
  match ← read id Catalog.encodingInfo access (askEncoding id) with
  | .encoding info => return info
  | _ => mismatch Catalog.encodingInfo

/-! ## What the recipes do -/

@[simp] theorem run_search (id : ThingId) : (search id).run = World.search id := by
  unfold search World.search
  simp only [run_bind, run_perform, Step.run]
  refine bind_congr fun entity => bind_congr fun found => ?_
  cases found <;> rfl

@[simp] theorem run_tuple (id : ThingId) (access : Access) : (tuple id access).run = World.tuple id access := by
  unfold tuple World.tuple
  simp only [run_bind, run_perform, run_read, run_search, Step.run]
  refine bind_congr fun entity => bind_congr fun datum => ?_
  cases datum <;> rfl

@[simp] theorem run_rowValue (id : ThingId) (access : Access) (source : String) (type : ColumnType) :
    (rowValue id access source type).run = World.rowValue id access source type := by
  simp [rowValue, World.rowValue, Step.run]

@[simp] theorem run_rowOid (id : ThingId) (access : Access) (source : String) :
    (rowOid id access source).run = World.rowOid id access source := by
  simp only [rowOid, World.rowOid, run_bind, run_rowValue]
  refine bind_congr fun value => ?_
  cases value <;> rfl

@[simp] theorem run_column (id : ThingId) (field : Column) (access : Access) :
    (column id field access).run = World.column id field access := by
  simp only [column, World.column, run_bind, run_read, run_rowValue, run_pure]
  refine bind_congr fun datum => ?_
  cases datum <;> rfl

@[simp] theorem run_resolve (id : ThingId) (field : Link) (access : Access) :
    (resolve id field access).run = World.resolve id field access := by
  simp only [resolve, World.resolve, run_bind, run_rowOid]
  refine bind_congr fun oid => ?_
  split
  · rfl
  · simp [Step.run, Script.Target.lookup]

@[simp] theorem run_linkSlot (id : ThingId) (spec : SlotSpec) (access : Access) (compute : Recipe (Computed Datum)) :
    (linkSlot id spec access compute).run = World.linkSlot id spec access compute.run := by
  simp only [linkSlot, World.linkSlot, run_bind, run_read]
  refine bind_congr fun datum => ?_
  cases datum <;> rfl

@[simp] theorem run_link (id : ThingId) (field : Link) (access : Access) :
    (link id field access).run = World.link id field access := by
  simp [link, World.link]

@[simp] theorem run_oidColumn (id : ThingId) (field : Column) (access : Access) :
    (oidColumn id field access).run = World.oidColumn id field access := by
  simp only [oidColumn, World.oidColumn, run_bind, run_column]
  refine bind_congr fun value => ?_
  cases value <;> rfl

@[simp] theorem run_typmodColumn (id : ThingId) (field : Column) (access : Access) :
    (typmodColumn id field access).run = World.typmodColumn id field access := by
  simp only [typmodColumn, World.typmodColumn, run_bind, run_column]
  refine bind_congr fun value => ?_
  cases value <;> rfl

@[simp] theorem run_countColumn (id : ThingId) (field : Column) (access : Access) :
    (countColumn id field access).run = World.countColumn id field access := by
  simp only [countColumn, World.countColumn, run_bind, run_column]
  refine bind_congr fun value => ?_
  cases value <;> rfl

@[simp] theorem run_nameColumn (id : ThingId) (field : Column) (access : Access) :
    (nameColumn id field access).run = World.nameColumn id field access := by
  simp only [nameColumn, World.nameColumn, run_bind, run_column]
  refine bind_congr fun value => ?_
  cases value <;> rfl

@[simp] theorem run_attributeType (id : ThingId) (access : Access) :
    (attributeType id access).run = World.attributeType id access := by
  simp [attributeType, World.attributeType, Step.run, Script.Target.lookup]

@[simp] theorem run_rowType (id : ThingId) (access : Access) : (rowType id access).run = World.rowType id access := by
  simp only [rowType, World.rowType, run_bind, run_oidColumn]
  refine bind_congr fun oid => ?_
  split
  · simp [Step.run, Script.Target.lookup]
  · rfl

@[simp] theorem run_relationColumns (oid : Oid) (access : Access) (attnums : List Int16) :
    (relationColumns oid access attnums).run = World.relationColumns oid access attnums := by
  induction attnums with
  | nil => rfl
  | cons attnum rest ih => simp [relationColumns, World.relationColumns, Step.run, Script.Target.lookup, ih]

@[simp] theorem run_relationDescriptor (id : ThingId) (access : Access) :
    (relationDescriptor id access).run = World.relationDescriptor id access := by
  simp [relationDescriptor, World.relationDescriptor, Step.run]

@[simp] theorem run_recordDescriptor (typmod : Int32) : (recordDescriptor typmod).run = World.recordDescriptor typmod := by
  simp only [recordDescriptor, World.recordDescriptor, run_bind, run_perform, Step.run]
  refine bind_congr fun _ => bind_congr fun found => ?_
  cases found with
  | none => rfl
  | some address => simp [Step.run]

@[simp] theorem run_typeDescriptor (id : ThingId) (access : Access) :
    (typeDescriptor id access).run = World.typeDescriptor id access := by
  simp only [typeDescriptor, World.typeDescriptor, run_linkSlot, run_bind, run_perform, Step.run]
  congr 1
  refine bind_congr fun type => ?_
  split
  · exact run_recordDescriptor _
  · simp only [run_bind, run_link]
    refine bind_congr fun target => ?_
    cases target with
    | none => rfl
    | some relation => simp

theorem run_askEncoding (id : ThingId) : (askEncoding id).run = (do
    World.requireOpen
    match (← get).thing? id with
    | some (.encoding number _) =>
        match ← Task.ofExcept ((← get).provider.encoding? number) with
        | some info => return .cached (.encoding info)
        | none => Task.fail (.notFound (Text.quoted s!"encoding {number.toInt}"))
    | _ => Task.crash) := by
  simp only [askEncoding, run_bind, run_perform, Step.run, bind_assoc]
  refine bind_congr fun _ => bind_congr fun world => ?_
  obtain _ | ⟨entity | ⟨number, table⟩ | descriptor⟩ := world.thing? id
  · rfl
  · rfl
  · simp only [pure_bind]
    refine bind_congr fun world => bind_congr fun found => ?_
    cases found <;> rfl
  · rfl

@[simp] theorem run_encodingInfo (id : ThingId) (access : Access) :
    (encodingInfo id access).run = World.encodingInfo id access := by
  simp only [encodingInfo, World.encodingInfo, run_bind, run_read, run_askEncoding]
  refine bind_congr fun datum => ?_
  cases datum <;> rfl

end Recipe

/-! ## Reads of slots -/

namespace World

variable {id : ThingId} {spec : SlotSpec} {access : Access} {world : World}

/-- A read that computes runs the computation as things stand, and then deals with its value. -/
theorem readSlot_computes (computed : computes id spec access world = true) :
    ∃ finish : Computed Datum → Task World Datum, ∀ compute : Task World (Computed Datum),
      readSlot id spec access compute world = (compute >>= finish) world := by
  unfold computes at computed
  simp only [Bool.and_eq_true, Option.isNone_iff_eq_none] at computed
  obtain ⟨⟨peeked, allowed⟩, passed⟩ := computed
  -- Each check that may stop the read was passed, since the slot is computed.
  obtain broken | required := ((view id).require_run spec world).symm
  · rw [Task.bind_error broken] at passed
    cases passed
  obtain ⟨cell, taken⟩ | broken := (view id).cell_run spec world
  · let place := (view id).place spec
    let finish (result : Computed Datum) : Task World Datum :=
      match result with
      | .cached datum => do
          modify fun state => place.keep ⟨datum, cell⟩ (place.noteCompute state)
          return datum
      | .transient datum => do
          modify place.noteTransient
          return datum
    have reads (compute : Task World (Computed Datum)) :
        (view id).read spec access compute world = (compute >>= finish) world := by
      unfold Coherence.TableView.read Coherence.Place.read Coherence.Place.compute
      rw [Task.bind_ok required, Task.bind_ok (Task.get_run world)]
      simp only [peeked, allowed]
      have governed : ((view id).place spec).cell world = .ok cell world := taken
      rw [Task.bind_ok governed]
      refine congrFun (bind_congr fun result => ?_) world
      cases result <;> rfl
    refine ⟨fun result => finish result >>= pure, fun compute => ?_⟩
    unfold readSlot
    rw [Task.bind_ok (Task.get_run world), Task.bind_run, reads, ← Task.bind_run, bind_assoc, peeked]
    rfl
  · rw [Task.bind_ok required, broken] at passed
    cases passed

/-- A read that does not compute runs as if there were nothing to run. -/
theorem readSlot_resting (kept : computes id spec access world = false) (compute compute' : Task World (Computed Datum)) :
    readSlot id spec access compute world = readSlot id spec access compute' world := by
  have reads : (view id).read spec access compute world = (view id).read spec access compute' world := by
    unfold Coherence.TableView.read
    obtain required | broken := (view id).require_run spec world
    · rw [Task.bind_ok required, Task.bind_ok required]
      unfold Coherence.Place.read
      rw [Task.bind_ok (Task.get_run world), Task.bind_ok (Task.get_run world)]
      cases peeked : ((view id).place spec).peek world with
      | some datum => rfl
      | none =>
        cases allowed : spec.refusal access with
        | some fault => rfl
        | none =>
          -- the cell cannot be taken, so both break off before they run anything
          obtain ⟨cell, taken⟩ | broken := (view id).cell_run spec world
          · simp [computes, peeked, allowed, Task.bind_ok required, taken] at kept
          · exact (Task.bind_error broken).trans (Task.bind_error broken).symm
    · rw [Task.bind_error broken, Task.bind_error broken]
  unfold readSlot
  rw [Task.bind_ok (Task.get_run world), Task.bind_ok (Task.get_run world), Task.bind_run, reads, ← Task.bind_run]

end World

namespace Recipe

variable {α β : Type} {bound bound' depth depth' : Nat} {calls : List Site}

/-- Every read of a slot in a run, on top of the slots that are being computed. -/
def nestings : {α : Type} → Recipe α → List Site → World → List (List Site)
  | _, done _, _, _ => []
  | _, missing _, _, _ => []
  | _, crash, _, _ => []
  | _, mismatch _, _, _ => []
  | _, step first next, calls, world =>
      match first.run world with
      | .ok value after => (next value).nestings calls after
      | .error _ _ => []
  | _, slot id spec access compute next, calls, world =>
      ((id, spec.index) :: calls) ::
        ((if World.computes id spec access world then compute.nestings ((id, spec.index) :: calls) world else []) ++
          match World.readSlot id spec access compute.run world with
          | .ok datum after => (next datum).nestings calls after
          | .error _ _ => [])
  | _, releasing id body next, calls, world =>
      body.nestings calls world ++
        match Task.ensuring body.run (World.release id) world with
        | .ok value after => (next value).nestings calls after
        | .error _ _ => []

/-- The recipe reads only slots below the bound, and nests computations no deeper, each of which
    reads only slots below its own. -/
def Layered : {α : Type} → Recipe α → (bound depth : Nat) → Prop
  | _, done _, _, _ => True
  | _, missing _, _, _ => True
  | _, crash, _, _ => True
  | _, mismatch _, _, _ => True
  | _, step _ next, bound, depth => ∀ value, (next value).Layered bound depth
  | _, slot _ spec _ compute next, bound, depth =>
      spec.index < bound ∧ 0 < depth ∧ compute.Layered spec.index (depth - 1) ∧ ∀ datum, (next datum).Layered bound depth
  | _, releasing _ body next, bound, depth => body.Layered bound depth ∧ ∀ value, (next value).Layered bound depth

namespace Layered

theorem mono {recipe : Recipe α} (layered : recipe.Layered bound depth) (more : bound ≤ bound') (deeper : depth ≤ depth') :
    recipe.Layered bound' depth' := by
  induction recipe generalizing bound bound' depth depth' with
  | done value => trivial
  | missing key => trivial
  | crash => trivial
  | mismatch spec => trivial
  | step first next ih => exact fun value => ih value (layered value) more deeper
  | slot id spec access compute next ihCompute ih =>
    obtain ⟨inside, nested, computes, later⟩ := layered
    exact ⟨by omega, by omega, ihCompute computes (Nat.le_refl _) (by omega), fun datum => ih datum (later datum) more deeper⟩
  | releasing id body next ihBody ih =>
    exact ⟨ihBody layered.1 more deeper, fun value => ih value (layered.2 value) more deeper⟩

theorem bind {recipe : Recipe α} {rest : α → Recipe β} (first : recipe.Layered bound depth)
    (second : ∀ value, (rest value).Layered bound depth) : (recipe >>= rest).Layered bound depth := by
  change (recipe.bind rest).Layered bound depth
  induction recipe with
  | done value => exact second value
  | missing key => trivial
  | crash => trivial
  | mismatch spec => trivial
  | step step next ih => exact fun value => ih value (first value) second
  | slot id spec access compute next _ ih =>
    exact ⟨first.1, first.2.1, first.2.2.1, fun datum => ih datum (first.2.2.2 datum) second⟩
  | releasing id body next _ ih => exact ⟨first.1, fun value => ih value (first.2 value) second⟩

theorem pure (value : α) : (Pure.pure value : Recipe α).Layered bound depth := trivial

theorem perform (first : Step α) : (Recipe.perform first).Layered bound depth := fun _ => trivial

theorem read {id : ThingId} {spec : SlotSpec} {access : Access} {compute : Recipe (Computed Datum)}
    (inside : spec.index < bound) (computes : compute.Layered spec.index depth) :
    (Recipe.read id spec access compute).Layered bound (depth + 1) :=
  ⟨inside, Nat.succ_pos depth, computes, fun _ => trivial⟩

theorem ensuring {body : Recipe α} (layered : body.Layered bound depth) (id : ThingId) :
    (body.ensuring id).Layered bound depth := ⟨layered, fun _ => trivial⟩

/-! ### The layers of the fields -/

theorem search (id : ThingId) : (Recipe.search id).Layered 0 0 := by
  refine (perform _).bind fun entity => (perform _).bind fun found => ?_
  cases found <;> trivial

theorem tuple (id : ThingId) (access : Access) : (Recipe.tuple id access).Layered 1 1 := by
  refine (perform _).bind fun entity => (read (Nat.zero_lt_one) (search id)).bind fun datum => ?_
  cases datum <;> trivial

theorem rowValue (id : ThingId) (access : Access) (source : String) (type : ColumnType) :
    (Recipe.rowValue id access source type).Layered 1 1 :=
  (tuple id access).bind fun _ => (perform _).bind fun _ => (perform _).bind fun _ => perform _

theorem rowOid (id : ThingId) (access : Access) (source : String) : (Recipe.rowOid id access source).Layered 1 1 := by
  refine (rowValue id access source .oid).bind fun value => ?_
  cases value <;> trivial

theorem column (id : ThingId) (field : Column) (access : Access) :
    (Recipe.column id field access).Layered (field.spec.index + 1) 2 := by
  have above : 1 ≤ field.spec.index := by cases field <;> decide
  have computes := (rowValue id access field.info.source field.info.type).mono above (Nat.le_refl 1)
  refine (read (Nat.lt_succ_self _) (computes.bind fun _ => pure _)).bind fun datum => ?_
  cases datum <;> trivial

theorem linkSlot {id : ThingId} {spec : SlotSpec} {access : Access} {compute : Recipe (Computed Datum)}
    (computes : compute.Layered spec.index depth) :
    (Recipe.linkSlot id spec access compute).Layered (spec.index + 1) (depth + 1) := by
  refine (read (Nat.lt_succ_self _) computes).bind fun datum => ?_
  cases datum <;> trivial

theorem link (id : ThingId) (field : Link) (access : Access) :
    (Recipe.link id field access).Layered (field.spec.index + 1) 2 := by
  have above : 1 ≤ field.spec.index := by cases field <;> decide
  refine linkSlot (((rowOid id access field.info.source).mono above (Nat.le_refl 1)).bind fun oid => ?_)
  split
  · trivial
  · exact (perform _).bind fun _ => (perform _).bind fun _ => (perform _).bind fun _ => (perform _).bind fun _ => pure _

theorem oidColumn (id : ThingId) (field : Column) (access : Access) :
    (Recipe.oidColumn id field access).Layered (field.spec.index + 1) 2 := by
  refine (column id field access).bind fun value => ?_
  cases value <;> trivial

theorem typmodColumn (id : ThingId) (field : Column) (access : Access) :
    (Recipe.typmodColumn id field access).Layered (field.spec.index + 1) 2 := by
  refine (column id field access).bind fun value => ?_
  cases value <;> trivial

theorem countColumn (id : ThingId) (field : Column) (access : Access) :
    (Recipe.countColumn id field access).Layered (field.spec.index + 1) 2 := by
  refine (column id field access).bind fun value => ?_
  cases value <;> trivial

theorem nameColumn (id : ThingId) (field : Column) (access : Access) :
    (Recipe.nameColumn id field access).Layered (field.spec.index + 1) 2 := by
  refine (column id field access).bind fun value => ?_
  cases value <;> trivial

theorem attributeType (id : ThingId) (access : Access) : (Recipe.attributeType id access).Layered 6 3 := by
  have oid : (Recipe.oidColumn id .attributeTypeOid access).Layered 5 2 := (oidColumn id .attributeTypeOid access).mono (by decide) (by decide)
  have typmod : (Recipe.typmodColumn id .attributeTypmod access).Layered 5 2 := (typmodColumn id .attributeTypmod access).mono (by decide) (by decide)
  exact linkSlot (oid.bind fun _ => typmod.bind fun _ => (perform _).bind fun _ => (perform _).bind fun _ => pure _)

theorem rowType (id : ThingId) (access : Access) : (Recipe.rowType id access).Layered 6 2 := by
  refine (oidColumn id .relationRowType access).bind fun oid => ?_
  split
  · exact (perform _).bind fun _ => (perform _).bind fun _ => pure _
  · trivial

/-- The columns of a relation are read of its attributes, which are other things; their slots come first all the same. -/
theorem relationColumns (oid : Oid) (access : Access) (attnums : List Int16) :
    (Recipe.relationColumns oid access attnums).Layered 6 2 := by
  induction attnums with
  | nil => trivial
  | cons attnum rest ih =>
    refine (perform _).bind fun id => ?_
    have name : (Recipe.nameColumn id .attributeName access).Layered 6 2 := (nameColumn id .attributeName access).mono (by decide) (by decide)
    have typeOid : (Recipe.oidColumn id .attributeTypeOid access).Layered 6 2 := (oidColumn id .attributeTypeOid access).mono (by decide) (by decide)
    have typmod : (Recipe.typmodColumn id .attributeTypmod access).Layered 6 2 := (typmodColumn id .attributeTypmod access).mono (by decide) (by decide)
    refine Layered.bind (ensuring ?_ id) fun first => ih.bind fun _ => pure _
    exact name.bind fun _ => typeOid.bind fun _ => typmod.bind fun _ => pure _

theorem relationDescriptor (id : ThingId) (access : Access) : (Recipe.relationDescriptor id access).Layered 7 3 := by
  have natts : (Recipe.countColumn id .relationNatts access).Layered 6 2 := (countColumn id .relationNatts access).mono (by decide) (by decide)
  have rowType : (Recipe.oidColumn id .relationRowType access).Layered 6 2 := (oidColumn id .relationRowType access).mono (by decide) (by decide)
  refine linkSlot (natts.bind fun _ => rowType.bind fun _ => (perform _).bind fun _ => (perform _).bind fun _ => ?_)
  exact (relationColumns _ access _).bind fun _ => (perform _).bind fun _ => pure _

theorem recordDescriptor (typmod : Int32) : (Recipe.recordDescriptor typmod).Layered bound depth := by
  refine (perform _).bind fun _ => (perform _).bind fun found => ?_
  cases found with
  | none => trivial
  | some address => exact (perform _).bind fun _ => pure _

theorem typeDescriptor (id : ThingId) (access : Access) : (Recipe.typeDescriptor id access).Layered 9 4 := by
  refine linkSlot ((perform _).bind fun type => ?_)
  split
  · exact recordDescriptor _
  · have relation : (Recipe.link id .typeRelation access).Layered 8 3 := (link id .typeRelation access).mono (by decide) (by decide)
    refine relation.bind fun target => ?_
    cases target with
    | none => trivial
    | some relation =>
      have columns : (Recipe.relationDescriptor relation access).Layered 8 3 :=
        (relationDescriptor relation access).mono (by decide) (by decide)
      exact (columns.ensuring relation).bind fun _ => pure _

theorem encodingInfo (id : ThingId) (access : Access) : (Recipe.encodingInfo id access).Layered 1 1 := by
  have asks : (askEncoding id).Layered 0 0 := by
    refine (perform _).bind fun _ => (perform _).bind fun number => (perform _).bind fun found => ?_
    cases found <;> trivial
  refine (read Nat.zero_lt_one asks).bind fun datum => ?_
  cases datum <;> trivial

end Layered

/-- Slots on a stack are numbered in order, so no computation of a slot starts itself. -/
theorem nestings_layered {recipe : Recipe α} (layered : recipe.Layered bound depth)
    (rising : calls.Pairwise fun one two => one.2 < two.2) (above : ∀ site ∈ calls, bound ≤ site.2) (world : World) :
    ∀ stack ∈ recipe.nestings calls world,
      stack.Pairwise (fun one two => one.2 < two.2) ∧ stack.length ≤ calls.length + depth := by
  -- On the recipe: a slot's own site goes below its computation's, whose recipe is layered deeper.
  induction recipe generalizing bound depth calls world with
  | done value => exact fun _ among => (List.not_mem_nil among).elim
  | missing key => exact fun _ among => (List.not_mem_nil among).elim
  | crash => exact fun _ among => (List.not_mem_nil among).elim
  | mismatch spec => exact fun _ among => (List.not_mem_nil among).elim
  | step first next ih =>
    intro stack among
    unfold nestings at among
    split at among
    · next value after _ => exact ih value (layered value) rising above after stack among
    · exact (List.not_mem_nil among).elim
  | slot id spec access compute next ihCompute ih =>
    obtain ⟨inside, nested, computes, later⟩ := layered
    have pushed : ((id, spec.index) :: calls).Pairwise fun one two => one.2 < two.2 :=
      List.pairwise_cons.mpr ⟨fun site among => Nat.lt_of_lt_of_le inside (above site among), rising⟩
    intro stack among
    unfold nestings at among
    -- The stack is the slot's own, one inside its computation, or one of what follows it.
    obtain rfl | among := List.mem_cons.mp among
    · exact ⟨pushed, by simp only [List.length_cons]; omega⟩
    obtain among | among := List.mem_append.mp among
    · split at among
      · have below : ∀ site ∈ (id, spec.index) :: calls, spec.index ≤ site.2 := by
          intro site among
          obtain rfl | among := List.mem_cons.mp among
          · exact Nat.le_refl _
          · have := above site among
            omega
        obtain ⟨ordered, short⟩ := ihCompute computes pushed below world stack among
        refine ⟨ordered, ?_⟩
        simp only [List.length_cons] at short
        omega
      · exact (List.not_mem_nil among).elim
    · split at among
      · next datum after _ => exact ih datum (later datum) rising above after stack among
      · exact (List.not_mem_nil among).elim
  | releasing id body next ihBody ih =>
    intro stack among
    unfold nestings at among
    obtain among | among := List.mem_append.mp among
    · exact ihBody layered.1 rising above world stack among
    · split at among
      · next value after _ => exact ih value (layered.2 value) rising above after stack among
      · exact (List.not_mem_nil among).elim

end Recipe

/-- How a field of a thing is read. -/
def Accessor.recipe (id : ThingId) (access : Access) : Accessor → Recipe Reading
  | oid => do return .value (.oid (← .perform (.entityOf id)).key.object)
  | attnum => do return .number (← .perform (.entityOf id)).key.sub.toInt16.toInt
  | typmod => do return .number (← .perform (.entityOf id)).key.sub.toInt
  | interned => do return .value (.bool (← .perform (.entityOf id)).isInternedRecord)
  | rowKey => do return .text (← .perform (.entityOf id)).rowKey.text
  | owner => do
      match (← .perform (.entityOf id)).ties.refs.head? with
      | some relation =>
          .perform (.hold relation)
          return .thing (some relation)
      | none => .crash
  | routines => do return .value (.oidList (← .perform (.entityOf id)).ties.routines)
  | column field => do return .value (← .column id field access)
  | composite => do return .value (.bool ((← .column id .typeKind access) == .char compositeKind))
  | link field => do return .thing (← .link id field access)
  | attributeType => do return .thing (← .attributeType id access)
  | rowType => do return .thing (← .rowType id access)
  | relationDescriptor => do return .thing (← .relationDescriptor id access)
  | typeDescriptor => do return .thing (← .typeDescriptor id access)
  | encodingId => do return .number (← .perform (.encodingNumber id)).toInt
  | encodingName => do return .text (← .encodingInfo id access).name
  | encodingMaxCharLen => do return .value (.char (← .encodingInfo id access).maxCharLen)
  | encodingInfo => do return .encoding (← .encodingInfo id access)

/-- The recipe of a field reads the field. -/
theorem Accessor.run_recipe (id : ThingId) (access : Access) (accessor : Accessor) :
    (accessor.recipe id access).run = accessor.read id access := by
  cases accessor with
  | owner =>
    simp only [recipe, read, Recipe.run_bind, Recipe.run_perform, Recipe.Step.run]
    refine bind_congr fun entity => ?_
    cases entity.ties.refs.head? with
    | none => rfl
    | some relation => simp [Recipe.Step.run]
  | encodingId =>
    simp only [recipe, read, Recipe.run_bind, Recipe.run_perform, Recipe.Step.run, bind_assoc]
    refine bind_congr fun world => ?_
    obtain _ | ⟨entity | ⟨number, table⟩ | descriptor⟩ := world.thing? id <;> rfl
  | _ => simp [recipe, read, Recipe.Step.run]

/-- Nine slots and four layers are enough for every field. -/
theorem Accessor.layered_recipe (id : ThingId) (access : Access) (accessor : Accessor) :
    (accessor.recipe id access).Layered 9 4 := by
  cases accessor with
  | column field =>
    have within : field.spec.index + 1 ≤ 9 := by cases field <;> decide
    exact ((Recipe.Layered.column id field access).mono within (by decide)).bind fun _ => .pure _
  | composite => exact ((Recipe.Layered.column id .typeKind access).mono (by decide) (by decide)).bind fun _ => .pure _
  | link field =>
    have within : field.spec.index + 1 ≤ 9 := by cases field <;> decide
    exact ((Recipe.Layered.link id field access).mono within (by decide)).bind fun _ => .pure _
  | attributeType => exact ((Recipe.Layered.attributeType id access).mono (by decide) (by decide)).bind fun _ => .pure _
  | rowType => exact ((Recipe.Layered.rowType id access).mono (by decide) (by decide)).bind fun _ => .pure _
  | relationDescriptor =>
    exact ((Recipe.Layered.relationDescriptor id access).mono (by decide) (by decide)).bind fun _ => .pure _
  | typeDescriptor => exact (Recipe.Layered.typeDescriptor id access).bind fun _ => .pure _
  | encodingName | encodingMaxCharLen | encodingInfo =>
    exact ((Recipe.Layered.encodingInfo id access).mono (by decide) (by decide)).bind fun _ => .pure _
  | owner =>
    refine Recipe.Layered.bind (.perform _) fun entity => ?_
    split
    · exact Recipe.Layered.bind (.perform _) fun _ => .pure _
    · trivial
  | oid | attnum | typmod | interned | rowKey | routines | encodingId =>
    exact Recipe.Layered.bind (.perform _) fun _ => .pure _

/-- No slot is read while it is being computed, and computations are nested four deep at most. -/
theorem Accessor.nestings_recipe (id : ThingId) (access : Access) (accessor : Accessor) (world : World) :
    ∀ stack ∈ (accessor.recipe id access).nestings [] world, stack.Nodup ∧ stack.length ≤ 4 := by
  intro stack among
  obtain ⟨rising, short⟩ := Recipe.nestings_layered (accessor.layered_recipe id access) .nil
    (fun _ among => (List.not_mem_nil among).elim) world stack among
  refine ⟨rising.imp fun {one two} less same => ?_, by simpa using short⟩
  rw [same] at less
  exact Nat.lt_irrefl _ less

end CatalogReplica.Catalog
