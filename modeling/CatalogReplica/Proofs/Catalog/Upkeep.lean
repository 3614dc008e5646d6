import CatalogReplica.Proofs.Catalog.Touching

/-!
# Nothing unwanted is left

Every operation leaves a catalog in which nothing lives without a reason, as each of the small changes does
that it is made of.

* `World.Tidy.touch`: one change.
* `Operation.apply_tidy`, `Operation.Reached.tidy`: every operation, and every run.
-/

namespace CatalogReplica.Catalog

open Identity (CacheView)

namespace World

variable {got got' : List ThingId} {world after : World}

/-- Blank caches keep nothing alive. -/
theorem shelved_blank (config : Config) (alive : ThingId → Bool) {κ : Type} {view : CacheView World κ ThingId}
    (shelf : Shelf view) (world : World) : (view.get { world with caches := .blank config }).Shelved alive := by
  cases shelf with
  | entities kind => cases kind <;> exact ⟨List.nodup_nil, ⟨config.shards, rfl⟩, fun _ kept => (List.not_mem_nil kept).elim⟩
  | descriptors => exact ⟨List.nodup_nil, ⟨config.shards, rfl⟩, fun _ kept => (List.not_mem_nil kept).elim⟩
  | encodings => exact ⟨List.nodup_nil, ⟨config.shards, rfl⟩, fun _ kept => (List.not_mem_nil kept).elim⟩

/-- Whatever changes, nothing unwanted is left. -/
theorem Tidy.touch (tidy : Tidy [] world) (touch : Touch got world got' after) : Tidy [] after := by
  cases touch with
  | edit edit => exact tidy.edit edit
  | stays stays => exact tidy.stays stays
  | sought address => exact tidy.ask .descriptors mutatorThread address
  | @found _ _ _ address id hit =>
    have sought := tidy.ask .descriptors mutatorThread address
    rw [hit] at sought
    exact sought.hold id
  | @made _ _ _ thing _ absent => exact (tidy.add thing).settle .descriptors (alive_add world thing) absent
  | abandoned address => exact tidy.abandon .descriptors address
  | served _ _ => exact tidy.holdAll _
  | kept id _ => exact tidy.onTable id _
  | pinned id _ => exact tidy.hold id
  | dropped id => exact tidy.release id
  | emptied =>
    -- what only the caches kept alive goes with them
    have blank : Tidy world.heap.ids { world with caches := .blank world.config } :=
      ⟨tidy.once, tidy.below, fun id live => .inr (Numbered.isSome_get?.mp live), fun shelf => shelved_blank _ _ shelf world⟩
    exact blank.reap

theorem tidy_teardown (address : Address) (deleted : Bool) : (teardown address deleted).Keeps (Tidy []) :=
  fun world tidy => (stays_teardown address deleted world).weaken fun _ _ stays => tidy.stays stays

end World

namespace Operation

open World (Stays Tidy)

variable {world : World} {config : Config}

/-- Every operation leaves nothing unwanted. -/
theorem apply_tidy (operation : Operation) (tidy : Tidy [] world) : Tidy [] (operation.apply world) :=
  @World.Touches.keeps (fun _ world => Tidy [] world) (fun tidy touch => tidy.touch touch) _ _ _ _ tidy
    (operation.touched world)

/-- A new catalog has no things. -/
theorem tidy_start (config : Config) : Tidy [] (World.start config) :=
  ⟨List.nodup_nil, fun _ among => (List.not_mem_nil among).elim, fun _ live => (by cases live), fun shelf =>
    World.shelved_blank config _ shelf (World.start config)⟩

/-- Whatever ran and whatever the provider did meanwhile, everything that lives is wanted. -/
theorem Reached.tidy (reached : Reached config world) : Tidy [] world := by
  induction reached with
  | start => exact tidy_start config
  | step operation _ _ tidy => exact apply_tidy operation tidy
  | served provider _ tidy => exact tidy.stays ⟨rfl, rfl, rfl, rfl⟩

end Operation

end CatalogReplica.Catalog
