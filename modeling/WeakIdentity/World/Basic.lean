import WeakIdentity.Registry.Basic

/-! The heap together with the registries that observe it. Registries are numbered; number zero is
the one of the whole process, which is no object and is never destroyed. -/

namespace WeakIdentity

inductive Destruction where
  /-- A probe or a node was destroyed. -/
  | object (name : String)
  /-- A purger was destroyed, and its purge removed `count` entries. -/
  | purger (name : String) (count : Nat)
  deriving DecidableEq, Repr

def Destruction.text : Destruction → String
  | .object name => name
  | .purger name count => name ++ ":" ++ Nat.repr count

/-- The heap, the registries by number, and what has been reported. -/
structure World where
  heap : Heap := {}
  registries : Array Registry := #[.ofOptions {}]
  /-- The events of each registry, in order. -/
  events : List (Nat × Event) := []
  destroyed : List Destruction := []

namespace World

def processWide : Nat := 0

def registry (w : World) (number : Nat) : Registry :=
  w.registries.getD number (.ofOptions {})

/-- The number of the registry that an object is. -/
def registryNumber? (w : World) (object : Object) : Option Nat :=
  match (w.heap.block? object).map Block.content with
  | some (.registry number) => some number
  | _ => none

/-- The number of the registry that a reference is to. -/
def refNumber? (w : World) : RegistryRef → Option Nat
  | .processWide => some processWide
  | .shared object => w.registryNumber? object

/-- Carries out what a registry does. -/
def apply (w : World) (number : Nat) (change : Change) : World :=
  { w with
    registries := w.registries.setIfInBounds number change.registry
    heap := change.released.foldl Heap.releaseWeak (change.taken.foldl Heap.retainWeak w.heap)
    events := w.events ++ change.events.map (Prod.mk number) }

def report (w : World) (destruction : Destruction) : World :=
  { w with destroyed := w.destroyed ++ [destruction] }

def quiet (w : World) : World := { w with events := [], destroyed := [] }

/-- The id of the object of a handle in a registry, given now if it has none. -/
def observe (w : World) (number : Nat) (handle : Handle) : World × ObjectId :=
  let (change, id) :=
    (w.registry number).observe w.heap.isLive (w.heap.pointer handle).thin handle.object
  (w.apply number change, id)

/-- The id of the object of a handle in a registry, if it has one. -/
def idOf (w : World) (number : Nat) (handle : Handle) : Option ObjectId :=
  (w.registry number).idOf (w.heap.pointer handle).thin

def forget (w : World) (number : Nat) (handle : Handle) : World × Option ObjectId :=
  let (change, id) := (w.registry number).forget (w.heap.pointer handle).thin
  (w.apply number change, id)

/-! The static type of a handle does not matter to a registry. -/

theorem observe_handle (w : World) (number : Nat) (handle : Handle) :
    w.observe number handle = w.observe number handle.object := rfl

theorem idOf_handle (w : World) (number : Nat) (handle : Handle) :
    w.idOf number handle = w.idOf number handle.object := rfl

theorem forget_handle (w : World) (number : Nat) (handle : Handle) :
    w.forget number handle = w.forget number handle.object := rfl

def purge (w : World) (number : Nat) : World × Nat :=
  let (change, count) := (w.registry number).sweep w.heap.isLive
  (w.apply number change, count)

/-- Removes all entries of a registry that is destroyed. -/
def close (w : World) (number : Nat) : World := w.apply number (w.registry number).close

def stats (w : World) (number : Nat) : Stats := (w.registry number).stats w.heap.isLive

end World

end WeakIdentity
