import CatalogReplica.Tally
import CatalogReplica.Task
import CatalogReplica.Identity.Retention

/-!
# Identity caches

An identity cache holds at most one object for each key.  Its table points at
objects that others may keep alive; `Retention` says which ones the cache keeps
alive itself: all in the table (strong), none (weak), or those constructed last,
in a queue (soft).  An entry whose object is gone stays in the table until a
lookup, a sweep or a purge finds it.

A lookup that finds no live object claims the key, constructs an object while the
key is claimed, and then settles the claim with the object or abandons it.

* `Cache.ask` looks a key up and claims it; `Cache.settle` and `Cache.abandon` end
  the claim.
* `CacheView.lookup` is the whole discipline, for a cache that lives somewhere in a
  larger state.
* `Cache.sweep` removes the dead entries of a shard once it has grown to its
  threshold.

Whether an object lives is not for the cache to say: its operations take it as an
argument.
-/

namespace CatalogReplica.Identity

open Text (Form quoted)

/-- Why an entry left a cache. -/
inductive Departure where
  | evicted
  | reclaimed
  | cleared
  deriving DecidableEq, Inhabited, Repr

def Departure.text : Departure → String
  | evicted => "Evict"
  | reclaimed => "Reclaim"
  | cleared => "Clear"

/-- What an operation of a cache reports. -/
inductive Note (κ : Type) where
  | hit
  | miss
  | constructed (key : κ)
  | left (why : Departure) (key : κ)
  deriving DecidableEq, Inhabited, Repr

namespace Note

variable {κ : Type}

/-- The counter that the note moves. -/
def counter? : Note κ → Option Counter
  | hit => some .identityHit
  | miss => some .identityMiss
  | constructed _ => some .identityConstruct
  | left .evicted _ => some .identityEvict
  | left .reclaimed _ => some .identityReclaim
  | left .cleared _ => none

/-- The key that left, and why. -/
def departure? : Note κ → Option (κ × Departure)
  | left why key => some (key, why)
  | _ => none

def count (notes : List (Note κ)) (tally : Tally) : Tally :=
  (notes.filterMap counter?).foldl (fun tally counter => tally.add counter) tally

end Note

/-- Who may use a cache. -/
inductive Discipline where
  /-- Every thread; the table is split into shards. -/
  | shared (shards : Nat)
  /-- One thread; the table is one piece. -/
  | confined
  deriving DecidableEq, Inhabited, Repr

/-- A key whose object is being constructed. -/
structure Claim (κ : Type) where
  key : κ
  thread : Nat
  deriving DecidableEq, Inhabited, Repr

/-- An identity cache. -/
structure Cache (κ ν : Type) where
  name : String
  retention : Retention := .weak
  discipline : Discipline := .shared 8
  spread : κ → Nat
  table : List (κ × ν) := []
  soft : List ν := []
  raised : List (Nat × Nat) := []
  claims : List (Claim κ) := []

/-- What a lookup found. -/
inductive Asked (ν : Type) where
  | hit (value : ν)
  | reentrant
  | wait
  /-- Nothing; the key is claimed now. -/
  | build
  deriving DecidableEq, Inhabited, Repr

namespace Cache

variable {κ ν : Type} [DecidableEq κ] [DecidableEq ν]

/-! ## The table -/

/-- The object in the entry of a key, dead or alive. -/
def find? (cache : Cache κ ν) (key : κ) : Option ν := cache.table.lookup key

/-- Removes the entry of a key. -/
def erase (cache : Cache κ ν) (key : κ) : Cache κ ν :=
  { cache with table := cache.table.filter fun entry => entry.1 != key }

/-- Puts an object into the entry of a key. -/
def insert (cache : Cache κ ν) (key : κ) (value : ν) : Cache κ ν :=
  { cache with table := (key, value) :: (cache.erase key).table }

/-- How many entries there are, dead or alive. -/
def length (cache : Cache κ ν) : Nat := cache.table.length

/-- The entries with live objects. -/
def live (cache : Cache κ ν) (alive : ν → Bool) : List (κ × ν) :=
  cache.table.filter fun entry => alive entry.2

/-- The keys of the dead entries. -/
def dead (cache : Cache κ ν) (alive : ν → Bool) : List κ :=
  (cache.table.filter fun entry => !alive entry.2).map (·.1)

/-- Whether the cache itself keeps the object alive. -/
def keeps (cache : Cache κ ν) (value : ν) : Bool :=
  cache.soft.contains value
    || (cache.retention == .strong && cache.table.any fun entry => entry.2 == value)

/-! ## Shards -/

def shard (cache : Cache κ ν) (key : κ) : Nat :=
  match cache.discipline with
  | .shared shards => cache.spread key % shards
  | .confined => 0

/-- Shards below this size are never swept. -/
def sweepMin : Nat := 64

/-- The size at which the shard is swept next. -/
def threshold (cache : Cache κ ν) (shard : Nat) : Nat :=
  (cache.raised.lookup shard).getD sweepMin

def inShard (cache : Cache κ ν) (shard : Nat) : List (κ × ν) :=
  cache.table.filter fun entry => cache.shard entry.1 == shard

/-- Removes the dead entries of a shard that has grown to its threshold and gives
    their keys.  The next threshold is twice what remains. -/
def sweep (cache : Cache κ ν) (alive : ν → Bool) (shard : Nat) : List κ × Cache κ ν :=
  if (cache.inShard shard).length < cache.threshold shard then ([], cache)
  else
    let swept := (cache.inShard shard).filter fun entry => !alive entry.2
    let cache := { cache with
      table := cache.table.filter fun entry => cache.shard entry.1 != shard || alive entry.2 }
    let next := max sweepMin (2 * (cache.inShard shard).length)
    (swept.map (·.1), { cache with raised := (shard, next) :: cache.raised })

/-! ## The soft queue -/

/-- Queues an object and gives the one that the queue has no room for. -/
def queue (cache : Cache κ ν) (value : ν) : Option ν × Cache κ ν :=
  if cache.retention.capacity = 0 then (none, cache)
  else
    match cache.soft ++ [value] with
    | oldest :: rest =>
        if cache.retention.capacity < rest.length + 1 then
          (some oldest, { cache with soft := rest })
        else (none, { cache with soft := oldest :: rest })
    | [] => (none, cache)

/-! ## Lookups -/

def claim? (cache : Cache κ ν) (key : κ) : Option (Claim κ) :=
  cache.claims.find? fun claim => claim.key == key

/-- Claims a key without a live entry for a thread. -/
def claim (cache : Cache κ ν) (thread : Nat) (key : κ) : Asked ν × Cache κ ν :=
  match cache.claim? key with
  | some claim => (if claim.thread = thread then .reentrant else .wait, cache)
  | none => (.build, { cache with claims := ⟨key, thread⟩ :: cache.claims })

/-- Ends the claim on a key without an object. -/
def abandon (cache : Cache κ ν) (key : κ) : Cache κ ν :=
  { cache with claims := cache.claims.filter fun claim => claim.key != key }

/-- What a lookup reports of the dead entry that it removed.  A shared cache that
    refuses a constructor its own key reports nothing. -/
def removal (cache : Cache κ ν) (asked : Asked ν) (key : κ) : List (Note κ) :=
  match cache.discipline, asked with
  | .shared _, .reentrant => []
  | _, _ => [.left .reclaimed key]

/-- Looks a key up for a thread.  A dead entry is removed, and a key without a live
    entry is claimed. -/
def ask (cache : Cache κ ν) (alive : ν → Bool) (thread : Nat) (key : κ) :
    Asked ν × List (Note κ) × Cache κ ν :=
  match cache.find? key with
  | some value =>
      if alive value then (.hit value, [.hit], cache)
      else
        let (asked, cache) := (cache.erase key).claim thread key
        (asked, .miss :: cache.removal asked key, cache)
  | none =>
      let (asked, cache) := cache.claim thread key
      (asked, [.miss], cache)

/-- Ends the claim on a key with the object that was constructed.  Gives the object
    that the cache no longer keeps alive for it. -/
def settle (cache : Cache κ ν) (alive : ν → Bool) (key : κ) (value : ν) :
    Option ν × List (Note κ) × Cache κ ν :=
  let cache := (cache.abandon key).insert key value
  -- The new entry counts for the size at which its shard is swept.
  let (swept, cache) := cache.sweep alive (cache.shard key)
  let (out, cache) := cache.queue value
  (out, .constructed key :: swept.map (.left .reclaimed), cache)

/-! ## Further operations -/

/-- The live object of a key.  A confined cache removes a dead entry it meets. -/
def get? (cache : Cache κ ν) (alive : ν → Bool) (key : κ) :
    Option ν × List (Note κ) × Cache κ ν :=
  match cache.find? key with
  | some value =>
      if alive value then (some value, [.hit], cache)
      else
        match cache.discipline with
        | .shared _ => (none, [.miss], cache)
        | .confined => (none, [.left .reclaimed key, .miss], cache.erase key)
  | none => (none, [.miss], cache)

/-- Removes the entry of a key and gives its object if it is live. -/
def evict (cache : Cache κ ν) (alive : ν → Bool) (key : κ) :
    Option ν × List (Note κ) × Cache κ ν :=
  match cache.find? key with
  | none => (none, [], cache)
  | some value =>
      let cache := cache.erase key
      if alive value then
        (some value, [.left .evicted key], { cache with soft := cache.soft.erase value })
      else (none, [.left .evicted key], cache)

def clear (cache : Cache κ ν) : List (Note κ) × Cache κ ν :=
  (cache.table.map fun entry => .left .cleared entry.1, { cache with table := [], soft := [] })

/-- Removes the dead entries and counts them. -/
def purge (cache : Cache κ ν) (alive : ν → Bool) : Nat × List (Note κ) × Cache κ ν :=
  let dead := cache.dead alive
  (dead.length, dead.map (.left .reclaimed), { cache with table := cache.live alive })

/-- Empties the soft queue and gives what was in it. -/
def relieve (cache : Cache κ ν) : List ν × Cache κ ν := (cache.soft, { cache with soft := [] })

/-! ## Faults and shown forms -/

/-- A constructor asked for the key that it constructs. -/
def reentry (cache : Cache κ ν) (key : Form) : Fault :=
  { kind := .reentrant
    message := "mirror constructor re-entered its own key"
    context := [("cache", cache.name), ("key", key.inline)] }

/-- The constructor that a thread waited for broke off. -/
def brokenOff (key : Form) : Fault :=
  { kind := .external
    message := "mirror constructor panicked"
    context := [("key", key.inline)] }

/-- The cache as it is shown. -/
def form (cache : Cache κ ν) : Form :=
  let named := [("name", .atom (quoted cache.name)), ("retention", cache.retention.form)]
  match cache.discipline with
  | .shared shards => .record "IdentityCache" (named ++ [("shards", .ofNat shards)])
  | .confined => .record "LocalIdentityCache" named

end Cache

/-- How a cache is found and changed in a larger state. -/
structure CacheView (σ κ ν : Type) where
  get : σ → Cache κ ν
  set : Cache κ ν → σ → σ
  alive : σ → ν → Bool
  note : List (Note κ) → σ → σ
  hold : ν → σ → σ
  letGo : List ν → σ → σ
  key : κ → Form

namespace CacheView

variable {σ κ ν : Type} [DecidableEq κ] [DecidableEq ν]

/-- Stores the cache and takes notice. -/
def store (view : CacheView σ κ ν) (notes : List (Note κ)) (cache : Cache κ ν) (state : σ) : σ :=
  view.note notes (view.set cache state)

/-- Looks a key up for a thread. -/
def ask (view : CacheView σ κ ν) (thread : Nat) (key : κ) (state : σ) : Asked ν × σ :=
  let (asked, notes, cache) := (view.get state).ask (view.alive state) thread key
  (asked, view.store notes cache state)

/-- Ends the claim on a key with an object. -/
def settle (view : CacheView σ κ ν) (key : κ) (value : ν) (state : σ) : σ :=
  let (out, notes, cache) := (view.get state).settle (view.alive state) key value
  view.letGo out.toList (view.store notes cache state)

/-- Ends the claim on a key without an object. -/
def abandon (view : CacheView σ κ ν) (key : κ) (state : σ) : σ :=
  view.set ((view.get state).abandon key) state

/-- The object of a key.  If there is none, `construct` makes one while the key is
    claimed; what it makes is held for the one who asks, like an object that was
    found. -/
def lookup (view : CacheView σ κ ν) (thread : Nat) (key : κ) (construct : Task σ ν) :
    Task σ ν := fun state =>
  match view.ask thread key state with
  | (.hit value, state) => .ok value (view.hold value state)
  | (.reentrant, state) => .error (.fault ((view.get state).reentry (view.key key))) state
  -- Nobody else runs here who could finish the object.
  | (.wait, state) => .error (.crash none) state
  | (.build, state) =>
      match construct state with
      | .ok value state => .ok value (view.settle key value state)
      | .error interrupt state => .error interrupt (view.abandon key state)

/-- The live object of a key, held for the one who asks. -/
def get? (view : CacheView σ κ ν) (key : κ) (state : σ) : Option ν × σ :=
  let (found, notes, cache) := (view.get state).get? (view.alive state) key
  (found, found.toList.foldl (fun state value => view.hold value state)
    (view.store notes cache state))

/-- Removes the entry of a key.  A live object is held for the one who asks. -/
def evict (view : CacheView σ κ ν) (key : κ) (state : σ) : Option ν × σ :=
  let (found, notes, cache) := (view.get state).evict (view.alive state) key
  (found, view.store notes cache
    (found.toList.foldl (fun state value => view.hold value state) state))

def clear (view : CacheView σ κ ν) (state : σ) : σ :=
  let (notes, cache) := (view.get state).clear
  view.store notes cache state

/-- Removes the dead entries and counts them. -/
def purge (view : CacheView σ κ ν) (state : σ) : Nat × σ :=
  let (count, notes, cache) := (view.get state).purge (view.alive state)
  (count, view.store notes cache state)

/-- Empties the soft queue and counts what was in it. -/
def relieve (view : CacheView σ κ ν) (state : σ) : Nat × σ :=
  let (out, cache) := (view.get state).relieve
  (out.length, view.letGo out (view.set cache state))

end CacheView

end CatalogReplica.Identity
