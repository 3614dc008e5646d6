import CatalogReplica.Proofs.Catalog.Onward

/-!
# Batches of gates

A dispatch adds gates to a batch and trips them together.  From the moment on at which its
gate is in the batch, nothing that an entity keeps is trusted any more.

* `Sound.trip`, `Fresh.trip`: a gate is added to the batch.
* `Sound.commit`, `Fresh.commit`: the batch is tripped.
* `Sound.paid`: those who are owed something were reached.
* `Sound.condemn`: keys are going to be evicted.
-/

namespace CatalogReplica.Coherence

variable {α : Type} {memo : Memo α} {gates : Gates} {trips : Batch} {gate : GateId}

/-- What is trusted before a commit is trusted after it. -/
theorem Memo.Trusted.commit (trusted : memo.Trusted trips gates gate) (sound : gates.Sound trips)
    (governed : memo.Governed trips gates gate) : memo.Trusted {} (trips.commit gates).2 gate := by
  obtain ⟨valid, absent⟩ := trusted
  obtain ⟨cell, -, kept, place⟩ := governed
  rw [Memo.isValid_cell kept, Bool.not_eq_true'] at valid
  have apart := (sound.current gate cell ((place valid).2 absent)).2.2
  refine ⟨?_, List.not_mem_nil⟩
  rw [Memo.isValid_cell kept, Batch.isTripped_commit, valid, decide_eq_false fun inside => apart inside.1]
  rfl

/-- What is trusted stays trusted when a gate is added to the batch, unless it is its own. -/
theorem Memo.Trusted.add (trusted : memo.Trusted trips gates gate) {other : GateId}
    (absent : gate ∉ (trips.add other gates).1.gates) :
    memo.Trusted (trips.add other gates).1 (trips.add other gates).2 gate := by
  refine ⟨?_, absent⟩
  have valid := trusted.1
  unfold Memo.isValid at valid ⊢
  cases governs : memo.cell with
  | none => rfl
  | some cell =>
    rw [governs] at valid
    simp only [Batch.isTripped_add]
    exact valid

end CatalogReplica.Coherence

namespace CatalogReplica.Catalog

open Coherence (Batch Gates GateId)

/-! ## What entities trust -/

namespace Entity

variable {entity : Entity} {gates : Gates} {trips : Batch} {index : Nat} {datum : Datum}

theorem Trusts.spared (trusts : entity.Trusts trips gates index datum) : entity.gate ∉ trips.gates := by
  obtain ⟨memo, -, -, trusted⟩ := trusts
  exact trusted.2

theorem Trusts.of_add {gate : GateId}
    (trusts : entity.Trusts (trips.add gate gates).1 (trips.add gate gates).2 index datum) :
    entity.Trusts trips gates index datum := by
  obtain ⟨memo, kept, value, trusted⟩ := trusts
  exact ⟨memo, kept, value, trusted.of_add⟩

theorem Trusts.of_commit (trusts : entity.Trusts {} (trips.commit gates).2 index datum)
    (shaped : entity.Shaped trips gates) : entity.Trusts trips gates index datum := by
  obtain ⟨memo, kept, value, trusted⟩ := trusts
  exact ⟨memo, kept, value, trusted.of_commit (shaped.governed index memo kept)⟩

theorem Shaped.add (shaped : entity.Shaped trips gates) (gate : GateId) :
    entity.Shaped (trips.add gate gates).1 (trips.add gate gates).2 where
  gated := shaped.gated
  known := by
    rw [Batch.current_size_add]
    exact shaped.known
  slots := shaped.slots
  named := shaped.named
  tied := shaped.tied
  governed index memo kept := (shaped.governed index memo kept).add gate

theorem Shaped.commit (shaped : entity.Shaped trips gates) :
    entity.Shaped {} (trips.commit gates).2 where
  gated := shaped.gated
  known := by
    rw [Batch.current_commit]
    exact shaped.known
  slots := shaped.slots
  named := shaped.named
  tied := shaped.tied
  governed index memo kept := (shaped.governed index memo kept).commit

end Entity

namespace World

variable {world : World} {cascade : Cascade} {owed : List (EntityClass × Oid)} {trips : Batch}
  {unsignalled : List EntityKey}

/-! ## The batch -/

/-- A gate is added to the batch. -/
theorem Sound.trip (sound : world.Sound cascade owed) (gate : GateId) :
    ({ world with gates := (cascade.trips.add gate world.gates).2 } : World).Sound
      { cascade with trips := (cascade.trips.add gate world.gates).1 } owed where
  below := sound.below
  unique := sound.unique
  handedOut := sound.handedOut
  entered := sound.entered
  closed := sound.closed
  holding := sound.holding
  gates := sound.gates.add gate
  shaped id entity found := (sound.shaped id entity found).add gate
  tied := sound.tied
  attributes := sound.attributes
  typmods := sound.typmods
  links id entity link target cached tracked kind trusts :=
    sound.links id entity link target cached tracked kind trusts.of_add
  columns id entity datum found isType plain trusts := by
    obtain ⟨target, memo, kept, value, trusted⟩ :=
      sound.columns id entity datum found isType plain trusts.of_add
    exact ⟨target, memo, kept, value, trusted.add trusts.spared⟩
  targets := sound.targets
  unmarked := sound.unmarked
  indexed := sound.indexed

theorem Fresh.trip (fresh : world.Fresh trips unsignalled) (gate : GateId) :
    ({ world with gates := (trips.add gate world.gates).2 } : World).Fresh
      (trips.add gate world.gates).1 unsignalled :=
  fun id entity field datum cached kind trusts => fresh id entity field datum cached kind trusts.of_add

/-- The gates of the batch are tripped. -/
theorem Sound.commit (sound : world.Sound cascade owed) :
    ({ world with gates := (cascade.trips.commit world.gates).2 } : World).Sound
      { cascade with trips := {} } owed where
  below := sound.below
  unique := sound.unique
  handedOut := sound.handedOut
  entered := sound.entered
  closed := sound.closed
  holding := sound.holding
  gates := sound.gates.commit
  shaped id entity found := (sound.shaped id entity found).commit
  tied := sound.tied
  attributes := sound.attributes
  typmods := sound.typmods
  links id entity link target cached tracked kind trusts :=
    sound.links id entity link target cached tracked kind
      (trusts.of_commit (sound.shaped id entity cached.1))
  columns id entity datum found isType plain trusts := by
    have shaped := sound.shaped id entity found
    obtain ⟨target, memo, kept, value, trusted⟩ :=
      sound.columns id entity datum found isType plain (trusts.of_commit shaped)
    exact ⟨target, memo, kept, value, trusted.commit sound.gates (shaped.governed _ memo kept)⟩
  targets := sound.targets
  unmarked := sound.unmarked
  indexed := sound.indexed

theorem Fresh.commit (fresh : world.Fresh cascade.trips unsignalled) (sound : world.Sound cascade owed) :
    ({ world with gates := (cascade.trips.commit world.gates).2 } : World).Fresh {} unsignalled :=
  fun id entity field datum cached kind trusts => fresh id entity field datum cached kind
    (trusts.of_commit (sound.shaped id entity cached.1))

/-! ## Who is owed something, and who is going to be evicted -/

/-- Nothing is owed any more to those whose gates are in the batch. -/
theorem Sound.paid (sound : world.Sound cascade owed) {rest : List (EntityClass × Oid)}
    (reached : ∀ id entity, world.Cached id entity → (entity.kind, entity.key.object) ∈ owed →
      (entity.kind, entity.key.object) ∈ rest ∨ entity.gate ∈ cascade.trips.gates) :
    world.Sound cascade rest :=
  { sound with
    links := fun id entity link target cached tracked isKind trusts => by
      obtain ⟨found, its, isTarget, stays, known⟩ :=
        sound.links id entity link target cached tracked isKind trusts
      refine ⟨found, its, isTarget, stays, known.imp_right fun due => ?_⟩
      exact (reached id entity cached due).resolve_right trusts.spared }

/-- Further keys are going to be evicted: those of relations together with those of their
    attributes, and none of entities where anyone is known. -/
theorem Sound.condemn (sound : world.Sound cascade []) {later : Cascade}
    (trips : later.trips = cascade.trips) (more : ∀ key ∈ cascade.evictions, key ∈ later.evictions)
    (attributes : ∀ id relation, world.Cached id relation → relation.kind = .relation →
      relation.key ∈ later.evictions → relation.key ∉ cascade.evictions →
      ∀ attnum ∈ relation.ties.attributes, attributeKey relation.key.object attnum ∈ later.evictions)
    (lonely : ∀ id entity, world.Cached id entity → entity.key ∈ later.evictions →
      entity.key ∉ cascade.evictions → entity.ties.dependents = []) :
    world.Sound later [] := by
  obtain ⟨batch, evictions, teardowns⟩ := later
  dsimp only at trips more attributes lonely
  subst trips
  exact { sound with
    attributes := fun id entity cached isAttr => by
      cases sound.attributes id entity cached isAttr with
      | inl evicted => exact .inl (more _ evicted)
      | inr tied =>
        obtain ⟨owner, relation, attnum, ties, its, stays, knows, key⟩ := tied
        by_cases goes : relation.key ∈ evictions
        · obtain ⟨relation', its', isRelation, -⟩ := sound.tied id entity owner cached.1 ties
          obtain rfl := Option.some.inj (its.1.symm.trans its')
          exact .inl (key ▸ attributes owner relation its isRelation goes stays attnum knows)
        · exact .inr ⟨owner, relation, attnum, ties, its, goes, knows, key⟩
    links := fun id entity link target cached tracked isKind trusts => by
      obtain ⟨found, its, isTarget, stays, known⟩ :=
        sound.links id entity link target cached tracked isKind trusts
      refine ⟨found, its, isTarget, fun goes => ?_, known⟩
      have nobody := lonely target found its goes stays
      rw [nobody] at known
      cases known with
      | inl depends => cases depends
      | inr due => cases due
    unmarked := fun id entity cached stays =>
      sound.unmarked id entity cached fun goes => stays (more _ goes) }

end World

end CatalogReplica.Catalog
