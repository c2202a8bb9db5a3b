import WeakIdentity.Heap.Basic
import WeakIdentity.ObjectId
import WeakIdentity.Options
import WeakIdentity.Registry.Event

/-! The identity registry: a table from addresses to ids whose entries hold weak references. An
entry reserves the bytes of its object, so that the address cannot come to mean another object, but
does not keep the object alive. Entries of dead objects are removed when the table has grown to its
watermark, which each sweep moves to twice the entries it leaves.

A registry does not touch the heap: it says which weak references its change takes and releases. -/

namespace WeakIdentity

open Text (Outline)

/-- One entry: the id given to the object `token`, found under its address. -/
structure Entry where
  address : Nat
  id : ObjectId
  token : Object
  deriving DecidableEq, Repr

structure Registry where
  /-- The least watermark. -/
  threshold : UInt64
  /-- The table, the newest entry first. -/
  entries : List Entry := []
  /-- How many ids have been given; the next one to give. -/
  minted : UInt64 := 0
  /-- The number of entries at which the next insertion sweeps. -/
  watermark : UInt64
  /-- How many entries sweeps have removed. -/
  reclaimed : UInt64 := 0
  sweeps : UInt64 := 0
  deriving DecidableEq, Repr

/-- The counters of a registry at one point in time. -/
structure Stats where
  entries : Nat
  live : Nat
  minted : UInt64
  reclaimed : UInt64
  sweeps : UInt64
  deriving DecidableEq, Repr

def Stats.toList (stats : Stats) : List Nat :=
  [stats.entries, stats.live, stats.minted.toNat, stats.reclaimed.toNat, stats.sweeps.toNat]

def Stats.outline (stats : Stats) : Outline :=
  .group "RegistryStats" .curly
    [.labelled "entries" (.ofNat stats.entries), .labelled "live" (.ofNat stats.live),
      .labelled "minted" (.ofNat stats.minted.toNat),
      .labelled "reclaimed" (.ofNat stats.reclaimed.toNat),
      .labelled "sweeps" (.ofNat stats.sweeps.toNat)]

/-- What a call does: the registry after it, the weak references it takes and releases, and what it
reports. -/
structure Change where
  registry : Registry
  taken : List Object := []
  released : List Object := []
  events : List Event := []
  deriving DecidableEq, Repr

namespace Registry

/-- An empty registry, whether or not the options make sense. The capacity is not part of it, since
it only decides whether the table can be allocated. -/
def ofOptions (options : Options) : Registry where
  threshold := options.sweepThreshold
  watermark := options.sweepThreshold

/-- An empty registry, if the options make sense. None if the program panics, because the table that
the options require cannot be allocated. -/
def withOptions (alloc : Allocator) (options : Options) : Option (Except Fault Registry) :=
  match options.validate with
  | .error fault => some (.error fault)
  | .ok () => if alloc.fits options.initialCapacity then some (.ok (ofOptions options)) else none

/-- The number of entries, dead ones included. -/
def size (r : Registry) : Nat := r.entries.length

def find? (r : Registry) (address : Nat) : Option Entry :=
  r.entries.find? fun entry => entry.address == address

def idOf (r : Registry) (address : Nat) : Option ObjectId := (r.find? address).map Entry.id

/-- Twice `n`, or the greatest word if that is less. -/
def doubled (n : Nat) : UInt64 := .ofNat (min (2 * n) (UInt64.size - 1))

/-- Removes the entries of dead objects and moves the watermark. The count is of those removed. -/
def sweep (alive : Object → Bool) (r : Registry) : Change × Nat :=
  let kept := r.entries.filter fun entry => alive entry.token
  let count := r.size - kept.length
  let watermark := max r.threshold (doubled kept.length)
  ({ registry :=
      { r with
        entries := kept
        watermark
        reclaimed := r.reclaimed + .ofNat count
        sweeps := r.sweeps + 1 }
     released := (r.entries.filter fun entry => !alive entry.token).map Entry.token
     events := [.sweep count kept.length watermark] },
    count)

/-- Makes room for an insertion: a sweep if the table has reached its watermark. -/
def makeRoom (alive : Object → Bool) (r : Registry) : Change :=
  if r.watermark.toNat ≤ r.size then (r.sweep alive).1 else { registry := r }

/-- The id of the object at `address`: the one it has, or the next one. -/
def observe (alive : Object → Bool) (address : Nat) (object : Object) (r : Registry) :
    Change × ObjectId :=
  match r.find? address with
  | some entry => ({ registry := r }, entry.id)
  | none =>
    let room := r.makeRoom alive
    let id : ObjectId := ⟨room.registry.minted⟩
    let entries := ⟨address, id, object⟩ :: room.registry.entries
    ({ registry := { room.registry with entries, minted := room.registry.minted + 1 }
       taken := [object]
       released := room.released
       events := room.events ++ [.assign id entries.length] },
      id)

/-- Removes the entry under an address, and returns the id it held. -/
def forget (address : Nat) (r : Registry) : Change × Option ObjectId :=
  match r.find? address with
  | none => ({ registry := r }, none)
  | some entry =>
    ({ registry := { r with entries := r.entries.filter fun other => other.address != address }
       released := [entry.token]
       events := [.forget entry.id] },
      some entry.id)

/-- What the destruction of a registry does: it removes every entry. -/
def close (r : Registry) : Change where
  registry := { r with entries := [] }
  released := r.entries.map Entry.token

def stats (alive : Object → Bool) (r : Registry) : Stats where
  entries := r.size
  live := (r.entries.filter fun entry => alive entry.token).length
  minted := r.minted
  reclaimed := r.reclaimed
  sweeps := r.sweeps

def outline (alive : Object → Bool) (r : Registry) : Outline :=
  .group "IdentityRegistry" .curly
    [.labelled "sweep_threshold" (.ofNat r.threshold.toNat),
      .labelled "stats" (r.stats alive).outline]

end Registry

end WeakIdentity
