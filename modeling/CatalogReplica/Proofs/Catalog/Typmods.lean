import CatalogReplica.Proofs.Catalog.Evicting
import CatalogReplica.Proofs.Catalog.Precision

/-!
# Types under all their type modifiers

A signal about a type is to reach it under every type modifier that it was constructed with.  The catalog keeps the
modifiers of each number apart from the cache of types: a lookup notes one before the type is there, and an eviction takes
one away, while types also leave the cache when nobody keeps them and come back later.  A modifier may thus be known under
which no type is left.  But none is missing, and none is known twice.

* `World.TypesFound`: exactly the types of a number are found, each once.
* `World.Sound.typesFound`: whenever the catalog is sound.
* `Operation.types_found`: after any run, and at any time while a burst is collected and entities are evicted.
-/

namespace CatalogReplica.Catalog

namespace World

variable {world : World} {cascade : Cascade} {owed : List (EntityClass × Oid)} {unsignalled evictions : List EntityKey}
  {oid : Oid} {id : ThingId} {before : World}

/-- Those who are found for the number are the live entries of types with the number, under whatever type modifier, and each
    is found once. -/
structure TypesFound (world : World) (oid : Oid) : Prop where
  once : (typesOf oid world).1.Nodup
  exactly : ∀ id, id ∈ (typesOf oid world).1 ↔
    ∃ key, key.object = oid ∧ (key, id) ∈ (world.caches.of .type).table ∧ world.alive id = true

/-! ## Finding -/

/-- The keys differ under which a type is looked for. -/
theorem Sound.nodup_typeKeys (sound : world.Sound cascade owed) (oid : Oid) : (world.typeKeys oid).Nodup := by
  have modifiers := sound.indexed oid
  exact modifiers.map fun one other same => congrArg EntityKey.sub same

/-- Types with a number are those who stand for its row. -/
theorem Sound.represents_type_iff (sound : world.Sound cascade owed) : (∃ entity, world.Represents .type oid id entity) ↔
    ∃ key, key.object = oid ∧ (key, id) ∈ (world.caches.of .type).table ∧ world.alive id = true := by
  constructor
  · rintro ⟨entity, cached, isType, object⟩
    have entry := cached.2
    rw [isType] at entry
    exact ⟨entity.key, object, entry, alive_of_entity cached.1⟩
  · rintro ⟨key, object, entry, live⟩
    obtain ⟨entity, found, isType, rfl⟩ := sound.entered .type key id entry live
    exact ⟨entity, ⟨found, isType.symm ▸ entry⟩, isType, object⟩

theorem typesOf_run (tidy : Tidy [] world) (oid : Oid) :
    (typesOf oid world).1 = (world.rowKeys .type oid).filterMap (world.liveAt .type) := by
  obtain ⟨tally, run⟩ := findAll_run tidy .type (world.typeKeys oid)
  exact congrArg Prod.fst run

/-- Where the catalog is sound, its types are found. -/
theorem Sound.typesFound (sound : world.Sound cascade owed) (tidy : Tidy [] world) (oid : Oid) : world.TypesFound oid := by
  have found := typesOf_run tidy oid
  constructor
  · rw [found]
    refine (sound.nodup_typeKeys oid).filterMap fun one other id first second => ?_
    -- whatever is found is found under its own key
    obtain ⟨entity, cached, -, rfl⟩ := sound.liveAt_iff.mp first
    obtain ⟨entity', cached', -, rfl⟩ := sound.liveAt_iff.mp second
    rw [Option.some.inj (cached.1.symm.trans cached'.1)]
  · intro id
    rw [found, ← sound.represents_type_iff]
    change id ∈ (world.rowKeys .type oid).filterMap (world.liveAt EntityClass.type.owner) ↔ _
    exact sound.mem_found_iff

/-! ## Bursts -/

/-- What is collected neither adds nor takes away entries or type modifiers. -/
theorem TypesFound.gathered {asked : Coherence.GateId → Prop} {condemned : EntityKey → Prop} {tied : ThingId → Ties → Ties}
    {state : Cascade × World} (found : world.TypesFound oid) (tidy : Tidy [] world)
    (gathers : Gathers world asked condemned tied state) : state.2.TypesFound oid := by
  have same : (typesOf oid state.2).1 = (typesOf oid world).1 := by
    rw [typesOf_run gathers.tidy, typesOf_run tidy, gathers.rowKeys, gathers.liveAt]
  constructor
  · rw [same]
    exact found.once
  · rw [same, gathers.caches, gathers.alive]
    exact found.exactly

/-- Signals are collected, and further entities are told of. -/
theorem collected_hears (sound : world.Sound {} []) (tidy : Tidy [] world) (signals : List Signal)
    (told : List (Change × ThingId)) :
    Hears world (signals.flatMap world.tells ++ told)
      (told.foldl (fun state one => invalidate one.1 one.2 state) (collectAll signals world)) := by
  have collected := collectAll_hears sound tidy signals
  generalize signals.flatMap world.tells = news at collected
  generalize collectAll signals world = state at collected ⊢
  induction told generalizing news state with
  | nil => rwa [List.append_nil]
  | cons one told inductionHypothesis =>
    have further := inductionHypothesis _ _ (collected.hear sound one.1 one.2)
    rwa [List.append_assoc] at further

end World

namespace Operation

/-- Whatever was carried out, with whatever type modifiers, however types are retained, and whatever the provider did: the
    types of a number are found.  So they are at any time of a burst, be it that some signals were collected and then some
    entities told of, or that some of the keys were evicted that were collected. -/
theorem types_found (config : Config) (world : World) (attained : Attained config world) (opened : world.isOpen = true) :
    (∀ oid, world.TypesFound oid) ∧
    (∀ signals told oid, (List.foldl (fun state (one : Change × ThingId) => World.invalidate one.1 one.2 state)
      (World.collectAll signals world) told).2.TypesFound oid) ∧
    ∀ signals evicted waiting, (World.collectAll signals world).1.evictions = evicted ++ waiting → ∀ oid,
      (World.evictAll evicted (World.tripBatch (World.collectAll signals world).1.trips
        (World.collectAll signals world).2).2).2.TypesFound oid := by
  have orderly := attained.orderly opened
  have tidy := attained.reached.tidy
  have found := orderly.sound.typesFound tidy
  refine ⟨found, fun signals told oid => ?_, fun signals evicted waiting split => ?_⟩
  · exact (found oid).gathered tidy (World.collected_hears orderly.sound tidy signals told)
  · obtain ⟨unsignalled, unvouched⟩ := World.exists_not_vouched
    obtain ⟨collects, -⟩ := World.collectAll_collects (orderly.settles unvouched).stands signals
    have tripped := (collects.underway.settle fun _ among => .inl among).tripped collects.wanes
    rw [split] at tripped
    have delivered : World.Batched [] world {} [] (World.evictAll evicted (World.tripBatch
        (World.collectAll signals world).1.trips (World.collectAll signals world).2).2).2 :=
      (World.Batched.refl.collectAll signals).tripBatch.edits (World.Edits.refl.evictAll evicted)
    exact (World.evictFirst_clearing tripped).sound.typesFound (tidy.batched delivered)

/-- A type is found under two modifiers and without one; then nobody keeps it under the first. -/
def modifiersFound : List Operation := [
  .put (.scalar ⟨25⟩ "text" (-1) false), .openSession, .lookup (.entity .type ⟨25⟩), .lookup (.type ⟨25⟩ 4),
  .lookup (.type ⟨25⟩ 8), .drop 1, .purge]

/-- The modifier is known still under which no type is left. -/
theorem types_found_modifiersFound : AllowedAll modifiersFound (World.start {}) ∧
    (after modifiersFound (World.start {})).typmods.get? ⟨25⟩ = some [4, 8] ∧
    (after modifiersFound (World.start {})).TypesFound ⟨25⟩ ∧
    (∀ id, id ∈ (World.typesOf ⟨25⟩ (after modifiersFound (World.start {}))).1 ↔ id = 0 ∨ id = 2) ∧
    (World.evictAll [{ EntityClass.type.key ⟨25⟩ with sub := noTypmod }] (World.tripBatch
      (World.collectAll [.row EntityClass.type.oid ⟨25⟩ .deleted] (after modifiersFound (World.start {}))).1.trips
      (World.collectAll [.row EntityClass.type.oid ⟨25⟩ .deleted] (after modifiersFound (World.start {}))).2).2).2.TypesFound
        ⟨25⟩ := by
  have allowed : AllowedAll modifiersFound (World.start {}) := by decide +kernel
  have proper : ∀ operation ∈ modifiersFound, operation.Proper := by simp [modifiersFound, Proper]
  have opened : (after modifiersFound (World.start {})).isOpen = true := by decide +kernel
  have known : (after modifiersFound (World.start {})).typmods.get? ⟨25⟩ = some [4, 8] := by decide +kernel
  have entries : ((after modifiersFound (World.start {})).caches.of .type).table
      = [({ EntityClass.type.key ⟨25⟩ with sub := 8 }, 2), ({ EntityClass.type.key ⟨25⟩ with sub := noTypmod }, 0)] := by
    decide +kernel
  have live : (after modifiersFound (World.start {})).alive 0 = true ∧
      (after modifiersFound (World.start {})).alive 2 = true := by decide +kernel
  have evictions : (World.collectAll [.row EntityClass.type.oid ⟨25⟩ .deleted]
      (after modifiersFound (World.start {}))).1.evictions
        = [{ EntityClass.type.key ⟨25⟩ with sub := noTypmod }] ++ [{ EntityClass.type.key ⟨25⟩ with sub := 8 }] := by decide +kernel
  -- the run is not to be carried out again
  generalize modifiersFound = operations at *
  obtain ⟨found, -, evicting⟩ := types_found {} (after operations (World.start {})) (Attained.start.run allowed proper) opened
  refine ⟨allowed, known, found _, fun id => ((found ⟨25⟩).exactly id).trans ?_, evicting _ _ _ evictions _⟩
  rw [entries]
  constructor
  · rintro ⟨key, -, among, -⟩
    simp only [List.mem_cons, Prod.mk.injEq, List.not_mem_nil, or_false] at among
    exact (among.imp And.right And.right).symm
  · rintro (rfl | rfl)
    · exact ⟨_, rfl, List.mem_cons_of_mem _ List.mem_cons_self, live.1⟩
    · exact ⟨_, rfl, List.mem_cons_self, live.2⟩

end Operation

end CatalogReplica.Catalog
