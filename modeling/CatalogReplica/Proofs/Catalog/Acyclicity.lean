import CatalogReplica.Proofs.Catalog.Preserving

/-!
# Things refer downwards in every run

Where all rows are usual ones, every operation keeps all things as their sort says.  What only takes away does
so anyway; what is looked up and read was shown to; and a usual row of a type has no element, so that none is
found later.

* `RowPlan.Usual`: the rows that there are.
* `Provider.put_flat`: no type that a search finds has an element once a usual row was written.
* `Operation.apply_stratified`, `Operation.after_stratified`: one operation, and runs.
-/

namespace CatalogReplica.Catalog

open Storage (Memory)

/-! ## Usual rows -/

/-- One of the rows that can be written. -/
inductive RowPlan.Usual : RowPlan → Prop
  | schema (oid : Oid) (name : String) (owner : Oid) : Usual (.schema oid name owner)
  | relation (oid : Oid) (name : String) (schema rowType : Oid) (natts : Int16) :
      Usual (.relation oid name schema rowType natts)
  | attr (relation : Oid) (attnum : Int16) (name : String) (type : Oid) (typmod : Int32) :
      Usual (.attr relation attnum name type typmod)
  | scalar (oid : Oid) (name : String) (length : Int16) (byValue : Bool) : Usual (.scalar oid name length byValue)
  | composite (oid : Oid) (name : String) (relation : Oid) : Usual (.composite oid name relation)
  | record : Usual .record
  | routine (oid : Oid) (name : String) (schema language : Oid) (arguments : List Oid) (source : Option String) :
      Usual (.routine oid name schema language arguments source)
  | language (oid : Oid) (name : String) (trusted : Bool) : Usual (.language oid name trusted)

theorem RowPlan.Usual.keyed {plan : RowPlan} (usual : plan.Usual) : plan.key.classOid = plan.kind.oid := by
  cases usual <;> rfl

/-- A usual row of a type is one of columns that types have, and its element is none of them. -/
theorem RowPlan.Usual.flat {plan : RowPlan} (usual : plan.Usual) (isType : plan.key.classOid = EntityClass.type.oid) :
    plan.kind = .type ∧ (plan.columns.map (·.1)).Nodup ∧
      (∀ column ∈ plan.columns, (column.1, column.2.type) ∈ EntityClass.type.columns) ∧
        Link.typeElement.info.source ∉ plan.columns.map (·.1) := by
  have kind : plan.kind = .type := EntityClass.oid_injective (usual.keyed.symm.trans isType)
  -- which columns there are is a matter of their names and types
  suffices profiled : ∃ profile : List (String × Storage.ColumnType),
      plan.columns.map (fun column => (column.1, column.2.type)) = profile ∧ (profile.map (·.1)).Nodup ∧
        (∀ field ∈ profile, field ∈ EntityClass.type.columns) ∧ Link.typeElement.info.source ∉ profile.map (·.1) by
    obtain ⟨_, rfl, once, fitting, absent⟩ := profiled
    rw [List.map_map] at once absent
    exact ⟨kind, once, fun column among => fitting _ (List.mem_map_of_mem among), absent⟩
  cases usual with
  | scalar oid name length byValue =>
    exact ⟨[("typname", .name), ("typlen", .i16), ("typbyval", .bool), ("typtype", .char)], rfl, by decide, by decide, by decide⟩
  | composite oid name relation =>
    exact ⟨[("typname", .name), ("typlen", .i16), ("typbyval", .bool), ("typtype", .char), ("typrelid", .oid)], rfl,
      by decide, by decide, by decide⟩
  | record => exact ⟨[("typname", .name), ("typlen", .i16), ("typtype", .char)], rfl, by decide, by decide, by decide⟩
  | schema | relation | attr | routine | language => cases kind

namespace Provider

variable {provider later : Provider}

/-- More memory is there, and rows are as before or have no element. -/
theorem Flat.grow (flat : provider.Flat) (grows : provider.memory.Grows later.memory)
    (sound : provider.memory.Sound → later.memory.Sound) (layouts : later.layouts = provider.layouts)
    (rows : ∀ key address, later.row? key = some address → key.classOid = EntityClass.type.oid →
      provider.row? key = some address ∨ FlatAt later.memory address) : later.Flat where
  rows key address found isType :=
    (rows key address found isType).elim (fun before => (flat.rows key address before isType).grows grows) fun new => new
  layouts := layouts.trans flat.layouts
  sound := sound flat.sound
  low := Nat.lt_of_lt_of_le flat.low grows.1

theorem put_flat {plan : RowPlan} (usual : plan.Usual) (flat : provider.Flat) :
    (put plan).Ends provider fun _ after => after.Flat ∧ provider.memory.Grows after.memory := by
  let written (outcome : Except Interrupt Address) (memory : Memory) : Prop :=
    provider.memory.Grows memory ∧ (provider.memory.Sound → memory.Sound) ∧
      ∀ address, outcome = .ok address → plan.key.classOid = EntityClass.type.oid → FlatAt memory address
  have writes : (Storage.writeRow plan.kind.layout plan.columns).Ends provider.memory written := by
    have adds := Storage.writeRow_adds plan.kind.layout plan.columns provider.memory
    -- Only a row of `pg_type` has an element to leave blank; for the others any memory that grew will do.
    by_cases isType : plan.key.classOid = EntityClass.type.oid
    · obtain ⟨kind, once, fitting, absent⟩ := usual.flat isType
      have there : (Link.typeElement.info.source, Storage.ColumnType.oid) ∈ EntityClass.type.columns := by decide
      obtain ⟨address, memory, run, blank⟩ :=
        Storage.writeRow_blank EntityClass.type.oid (by decide) flat.sound flat.low once fitting there absent
      rw [kind] at adds ⊢
      have ends := (Task.Ends.of_ok run).mp adds
      refine (Task.Ends.of_ok run).mpr ⟨ends.1, ends.2, ?_⟩
      rintro _ ⟨⟩ -
      exact blank
    · exact adds.weaken fun _ _ ended => ⟨ended.1, ended.2, fun _ _ type => absurd type isType⟩
  have stored : (onMemory (Storage.writeRow plan.kind.layout plan.columns)).Ends provider fun outcome after =>
      ∃ memory, after = { provider with memory } ∧ written outcome memory := by
    unfold Task.Ends onMemory Task.within at *
    cases ran : Storage.writeRow plan.kind.layout plan.columns provider.memory <;> rw [ran] at writes <;> exact ⟨_, rfl, writes⟩
  refine stored.bind ?_ ?_
  · rintro address _ ⟨memory, rfl, grows, sound, blank⟩
    refine .next (Task.modify_run _ _) ⟨flat.grow grows sound rfl fun key found there isType => ?_, grows⟩
    unfold row? at there ⊢
    dsimp only at there
    -- A key of the extra table shadows the row written, so only the other case meets the blank address.
    cases extra : provider.extraRows.get? key with
    | some other =>
      rw [extra] at there
      exact .inl there
    | none =>
      rw [extra] at there
      change (provider.rows.set plan.key address).get? key = some found at there
      rw [Assoc.get?_set] at there
      split at there
      · next same =>
        cases there
        exact .inr (blank address rfl (same ▸ isType))
      · exact .inl there
  · rintro interrupt _ ⟨memory, rfl, grows, sound, -⟩
    exact ⟨flat.grow grows sound rfl fun _ _ found _ => .inl found, grows⟩

theorem remove_flat (key : EntityKey) (flat : provider.Flat) : (remove key provider).2.Flat := by
  refine flat.grow (.refl _) (fun sound => sound) rfl fun other address found _ => .inl ?_
  unfold remove row? at *
  dsimp only at found
  rw [Assoc.get?_erase, Assoc.get?_erase] at found
  split at found
  · cases found
  · exact found

theorem intern_flat (typmod : Int32) (types : List Oid) (flat : provider.Flat) :
    (intern typmod types).Ends provider fun _ after => after.Flat ∧ provider.memory.Grows after.memory := by
  refine (onMemory_adds (Storage.writeRow_adds _ _) provider).bind ?_ ?_
  · rintro address _ ⟨memory, rfl, grows, sound⟩
    exact .next (Task.modify_run _ _) ⟨flat.grow grows sound rfl fun _ _ found _ => .inl found, grows⟩
  · rintro interrupt _ ⟨memory, rfl, grows, sound⟩
    exact ⟨flat.grow grows sound rfl fun _ _ found _ => .inl found, grows⟩

end Provider

namespace World

variable {world : World}

/-- Rows are written, and no type that is found has an element. -/
theorem Stratified.provide (stratified : world.Stratified) {provider : Provider} (flat : provider.Flat)
    (grows : world.provider.memory.Grows provider.memory) (room : provider.memory.next ≤ UInt64.size) :
    ({ world with provider } : World).Stratified where
  below := stratified.below
  things id thing found := by
    have before := stratified.things id thing found
    refine ⟨before.keyed, before.tied, fun index datum keeps => ⟨(before.kept index datum keeps).leads, ?_⟩⟩
    exact fun address isType same => ((before.kept index datum keeps).flat address isType same).grows grows
  entered stocks entry among := by
    cases stocks with
    | entities kind => exact stratified.entered (.entities kind) entry among
    | descriptors => exact stratified.entered .descriptors entry among
    | encodings => exact stratified.entered .encodings entry among
  provider := flat
  room := room

theorem stratified_start (config : Config) : (World.start config).Stratified where
  below _ live := nomatch live
  things _ _ found := nomatch found
  entered stocks _ among := by
    cases stocks with
    | entities kind => cases kind <;> cases among
    | descriptors | encodings => cases among
  provider := ⟨fun _ _ found => (by cases found), rfl, Memory.sound_blank, show 0 < ({} : Memory).next by decide⟩
  room := show ({} : Memory).next ≤ UInt64.size by decide

end World

namespace Operation

open World (Fades Stratified Sustains)

variable {world : World} {operation : Operation} {operations : List Operation}

/-- The operation writes usual rows only. -/
def Usual : Operation → Prop
  | .put plan => plan.Usual
  | _ => True

theorem lookup_target_sorts (stratified : world.Stratified) (target : Script.Target) :
    world.Sorts target.lookup fun _ _ => True := by
  cases target with
  | entity kind oid => exact (World.entity_sorts stratified kind oid).weaken fun _ _ _ _ => trivial
  | attr relation attnum => exact (World.attributeOf_sorts stratified relation attnum).weaken fun _ _ _ _ => trivial
  | type oid typmod => exact (World.typeWith_sorts stratified oid typmod).weaken fun _ _ _ _ => trivial
  | encoding id => exact (World.encoding_sorts stratified id).weaken fun _ _ _ _ => trivial

/-- Every operation keeps all things as their sort says, as long as memory can be addressed. -/
theorem apply_stratified (usual : operation.Usual) (stratified : world.Stratified)
    (room : (operation.apply world).provider.memory.next ≤ UInt64.size) : (operation.apply world).Stratified := by
  -- A step interns (`sorts`), only loses (`fades`), or works on the provider (`provides`).
  have sorts {α : Type} {body : Task World α} {given : α → World → Prop} (sorts : world.Sorts body given) :
      (discard body : Task World PUnit).Ends world fun _ after => after.Stratified :=
    .discard (Task.Ends.weaken sorts fun _ _ ended => ended.1.stratified)
  have fades (task : operation.task.Keeps (Fades world)) : (operation.apply world).Stratified :=
    stratified.fades (task world (.refl world)).exec
  have provides {α : Type} {body : Task Provider α}
      (flat : body.Ends world.provider fun _ after => after.Flat ∧ world.provider.memory.Grows after.memory) :
      (World.onProvider body).Ends world fun _ after => after.provider.memory.next ≤ UInt64.size → after.Stratified :=
    World.onProvider_ends (flat.weaken fun _ _ ended room => stratified.provide ended.1 ended.2 room)
  have beside {f : Provider → Provider} (flat : (f world.provider).Flat)
      (grows : world.provider.memory.Grows (f world.provider).memory) :
      (modify f : Task Provider PUnit).Ends world.provider fun _ after =>
        after.Flat ∧ world.provider.memory.Grows after.memory := .of_run (Task.modify_run _ _) ⟨flat, grows⟩
  have flat := stratified.provider
  have same : Sustains world world := .refl stratified
  cases operation with
  | put plan => exact (Task.Ends.discard (provides (Provider.put_flat usual flat))).exec room
  | remove key => exact (Task.Ends.discard (provides (.lift ⟨Provider.remove_flat key flat, .refl _⟩))).exec room
  | putEncoding info =>
    exact (provides (beside (flat.grow (.refl _) (fun sound => sound) rfl fun _ _ found _ => .inl found) (.refl _))).exec room
  | intern typmod types => exact (Task.Ends.discard (provides (Provider.intern_flat typmod types flat))).exec room
  | setScope address kind =>
    exact (provides (beside (flat.grow (.refl _) (fun sound => sound) rfl fun _ _ found _ => .inl found) (.refl _))).exec room
  | openSession =>
    have opens : World.openSession.Ends world fun _ after => Sustains world after :=
      openSession_ends (same.congr rfl rfl rfl rfl) fun _ _ _ _ => same.congr rfl rfl rfl rfl
    exact opens.exec.stratified
  | closeSession =>
    refine (closeSession_ends (fun _ => stratified) fun session _ => ?_).exec
    have sustains : Sustains world { world with
        ledger := world.ledger.onQueue world.queue fun queue => (queue.unbind session.mutator).2, session := none } :=
      same.congr rfl rfl rfl rfl
    exact sustains.stratified.fades (Fades.refl _).closeIfUnheld
  | dropCatalog =>
    have dropped : Fades world { world with catalogHeld := false } := (Fades.refl world).congr rfl rfl rfl rfl rfl
    exact stratified.fades dropped.closeIfUnheld
  | lookup target => exact (sorts (lookup_target_sorts stratified target)).exec
  | read id field access =>
    refine (read_ends stratified fun accessor offered => ?_).exec
    obtain ⟨thing, found, offered⟩ := Option.bind_eq_some_iff.mp offered
    exact Task.Ends.weaken (World.read_sorts stratified found offered access) fun _ _ ended => ended.1.stratified
  | drop id => exact stratified.fades ((Fades.refl world).release id)
  | trip id =>
    refine fades (Task.Keeps.get.bind fun state => ?_)
    split
    · exact .modify fun _ fades => fades.gates _
    · exact .pure _
  | pin id =>
    refine fades (Task.Keeps.get.bind fun state => ?_)
    split
    · exact (Fades.onLedger _).discard.bind fun _ => .modify fun _ fades => fades.hold id
    · exact .pure _
  | unpin id =>
    refine fades (Task.Keeps.get.bind fun state => ?_)
    split
    · exact (Fades.onLedger _).bind fun _ => .modify fun _ fades => fades.release id
    · exact .pure _
  | dispatch signals => exact fades (Fades.dispatch signals).discard
  | drain => exact fades Fades.drain.discard
  | purge => exact fades (Task.Keeps.discard (.lift fun _ fades => fades.purge))
  | relieve => exact fades (Task.Keeps.discard (.lift fun _ fades => fades.relieve))
  | lifespan address => exact stratified.fades ((Fades.refl world).lifespan address)
  | currentLifespan =>
    have kept : World.currentLifespan.Keeps (Sustains world) := World.currentLifespan_keeps
      (fun _ _ sustains => sustains.congr rfl rfl rfl rfl) fun _ _ sustains => sustains.congr rfl rfl rfl (World.store_notice _ _)
    exact (Task.Ends.discard ((kept world same).weaken fun _ _ sustains => sustains.stratified)).exec

/-- Every run keeps all things as their sort says, as long as memory can be addressed. -/
theorem after_stratified (config : Config) (usual : ∀ operation ∈ operations, operation.Usual)
    (room : (after operations (World.start config)).provider.memory.next ≤ UInt64.size) :
    (after operations (World.start config)).Stratified := by
  suffices all : ∀ world, World.Recorded world → world.Stratified →
      (after operations world).provider.memory.next ≤ UInt64.size → (after operations world).Stratified from
    all _ (World.start_recorded config) (World.stratified_start config) room
  clear room
  induction operations with
  | nil => exact fun _ _ stratified _ => stratified
  | cons operation operations ih =>
    intro world recorded stratified room
    have first := apply_retains recorded operation
    -- memory only grows, so that it could be addressed before
    have grows := (after_retains first.recorded operations).memory
    have earlier := apply_stratified (usual operation List.mem_cons_self) stratified (Nat.le_trans grows.1 room)
    exact ih (fun other among => usual other (List.mem_cons_of_mem _ among)) _ first.recorded earlier room

end Operation

end CatalogReplica.Catalog
