/-! The heap: blocks of bytes, each with a header, two counts and the content of one object. Objects
are named by the order of their creation and not by address, since a range of bytes is used again
once nothing refers to its block. -/

namespace WeakIdentity

/-- An object, named by its number in the order of creation. -/
structure Object where
  serial : Nat
  deriving DecidableEq, Repr

/-- The static type of a handle: that of its object, or one that it was coerced to. -/
inductive View where
  | whole
  | any
  | debug
  | slice
  | bytes
  | int
  | probe
  deriving DecidableEq, Repr

/-- A strong handle to an object, of some static type. -/
structure Handle where
  object : Object
  view : View := .whole
  deriving DecidableEq, Repr

instance : Coe Object Handle := ⟨fun object => { object }⟩

/-- A reference to a registry: to the process-wide one, or a strong handle to one that is an
object. -/
inductive RegistryRef where
  | processWide
  | shared (registry : Object)
  deriving DecidableEq, Repr

/-- The registry object that a reference keeps alive. -/
def RegistryRef.owned : RegistryRef → List Object
  | .processWide => []
  | .shared object => [object]

/-- What an object holds, as far as its destruction depends on it. -/
inductive Content where
  | plain
  | probe (name : String)
  /-- Reports its destruction and holds a strong handle to each of `links`. -/
  | node (name : String) (links : List Object)
  /-- Refers to a registry, which its destruction purges. -/
  | purger (name : String) (target : RegistryRef)
  /-- Refers to a registry, and reports its destruction without a purge. -/
  | keeper (name : String) (target : RegistryRef)
  | registry (number : Nat)
  deriving DecidableEq, Repr

/-- The objects that a content keeps alive, one for each strong handle in it. -/
def Content.owned : Content → List Object
  | .node _ links => links
  | .purger _ target | .keeper _ target => target.owned
  | _ => []

/-- The size of a block: the counts and what aligns the payload come first, then the payload, which
may be empty. -/
structure Layout where
  header : Nat
  size : Nat
  header_ge : 16 ≤ header
  deriving DecidableEq, Repr

/-- A payload of `size` bytes that starts at a multiple of `alignment`, after the two counts. -/
def Layout.aligned (alignment size : Nat) : Layout where
  header := max 16 alignment
  size
  header_ge := Nat.le_max_left 16 alignment

def Layout.length (layout : Layout) : Nat := layout.header + layout.size

structure Block where
  start : Nat
  layout : Layout
  strong : Nat
  /-- How many weak references there are, with one for all strong handles together. -/
  weak : Nat
  content : Content
  deriving DecidableEq, Repr

namespace Block

/-- The address of the payload, which handles store. -/
def address (block : Block) : Nat := block.start + block.layout.header

def stop (block : Block) : Nat := block.start + block.layout.length

/-- The object lives as long as a strong handle refers to it. -/
def isLive (block : Block) : Bool := 0 < block.strong

/-- The bytes stay reserved as long as any reference is left. -/
def isReserved (block : Block) : Bool := 0 < block.weak

end Block

/-- A pointer to a payload, with the metadata that its static type requires. -/
structure Pointer where
  address : Nat
  view : View
  deriving DecidableEq, Repr

/-- The thin address of a pointer: the metadata is discarded. -/
def Pointer.thin (pointer : Pointer) : Nat := pointer.address

/-- Every block ever made, by the number of its object. -/
structure Heap where
  blocks : Array Block := #[]

namespace Heap

def block? (heap : Heap) (object : Object) : Option Block := heap.blocks[object.serial]?

def isLive (heap : Heap) (object : Object) : Bool := (heap.block? object).any Block.isLive

def address (heap : Heap) (object : Object) : Nat := (heap.block? object).elim 0 Block.address

/-- The pointer that a handle is. -/
def pointer (heap : Heap) (handle : Handle) : Pointer := ⟨heap.address handle.object, handle.view⟩

/-- Handles to one object have one thin address, whatever their static types. -/
@[simp] theorem thin_pointer (heap : Heap) (handle : Handle) :
    (heap.pointer handle).thin = heap.address handle.object := rfl

def strongCount (heap : Heap) (object : Object) : Nat := (heap.block? object).elim 0 Block.strong

/-- The number of weak references to a live object, the one of its strong handles not counted. -/
def weakCount (heap : Heap) (object : Object) : Nat :=
  (heap.block? object).elim 0 (·.weak - 1)

def modify (heap : Heap) (object : Object) (f : Block → Block) : Heap :=
  ⟨heap.blocks.modify object.serial f⟩

theorem block?_modify (heap : Heap) (object other : Object) (f : Block → Block) :
    (heap.modify object f).block? other =
      if object = other then (heap.block? other).map f else heap.block? other := by
  have serial : object = other ↔ object.serial = other.serial :=
    ⟨fun h => h ▸ rfl, fun h => by cases object; cases other; exact congrArg Object.mk h⟩
  simp only [block?, modify, Array.getElem?_modify, serial]

def retain (heap : Heap) (object : Object) : Heap :=
  heap.modify object fun block => { block with strong := block.strong + 1 }

def retainWeak (heap : Heap) (object : Object) : Heap :=
  heap.modify object fun block => { block with weak := block.weak + 1 }

def releaseWeak (heap : Heap) (object : Object) : Heap :=
  heap.modify object fun block => { block with weak := block.weak - 1 }

def setContent (heap : Heap) (object : Object) (content : Content) : Heap :=
  heap.modify object fun block => { block with content }

/-- Whether a block of the given layout at `start` would meet no reserved block. -/
def isVacant (heap : Heap) (start : Nat) (layout : Layout) : Bool :=
  heap.blocks.all fun block =>
    !block.isReserved || block.stop ≤ start || start + layout.length ≤ block.start

def frontier (heap : Heap) : Nat := heap.blocks.foldl (fun n block => max n block.stop) 0

end Heap

/-- Where an allocator would put the next block, for every state of the heap. -/
abbrev Placement := Heap → Layout → Nat

namespace Placement

def beyond : Placement := fun heap _ => heap.frontier

/-- Where the last of the blocks that are not reserved and have the right length was. -/
def recycling : Placement := fun heap layout =>
  ((heap.blocks.findRev? fun block => !block.isReserved && block.layout.length == layout.length).map
    Block.start).getD heap.frontier

end Placement

/-- An allocator: where it puts blocks, and which tables it has memory for. A table without room for
entries needs no memory. An entry takes 32 bytes, and no allocation has more than 2^63 - 1. -/
structure Allocator where
  start : Placement
  /-- Whether a table with room for that many entries can be allocated. -/
  fits : UInt64 → Bool
  fits_zero : fits 0 = true
  fits_lt : ∀ capacity, fits capacity = true → 32 * capacity.toNat < 9223372036854775808

namespace Allocator

/-- The same allocator, but for where it puts blocks. -/
def placing (alloc : Allocator) (start : Placement) : Allocator := { alloc with start }

/-- The capacity of the largest table whose size in bytes is not over the bound: 2^57 buckets, each
of 33 bytes, seven eighths of which may be filled. -/
def largestTable : UInt64 := 126100789566373888

theorem decide_zero_le_largestTable : decide (0 ≤ largestTable) = true := by decide

theorem lt_of_le_largestTable (capacity : UInt64) (h : decide (capacity ≤ largestTable) = true) :
    32 * capacity.toNat < 9223372036854775808 := by
  have bound : capacity.toNat ≤ 126100789566373888 :=
    UInt64.le_iff_toNat_le.mp (of_decide_eq_true h)
  omega

/-- An allocator that does not run out of memory, so that the size in bytes is the only bound. -/
def unlimited (start : Placement) : Allocator where
  start
  fits capacity := decide (capacity ≤ largestTable)
  fits_zero := decide_zero_le_largestTable
  fits_lt := lt_of_le_largestTable

def beyond : Allocator := unlimited .beyond

def recycling : Allocator := unlimited .recycling

end Allocator

namespace Heap

/-- The start of the next block: where `alloc` puts it if nothing reserved is there, and otherwise
beyond everything. -/
def startFor (heap : Heap) (alloc : Allocator) (layout : Layout) : Nat :=
  let start := alloc.start heap layout
  if heap.isVacant start layout then start else heap.frontier

def nextObject (heap : Heap) : Object := ⟨heap.blocks.size⟩

def allocate (heap : Heap) (alloc : Allocator) (layout : Layout) (content : Content) : Heap :=
  ⟨heap.blocks.push
    { start := heap.startFor alloc layout, layout, strong := 1, weak := 1, content }⟩

/-- An allocation changes no other object. -/
theorem block?_allocate_of_ne (heap : Heap) (alloc : Allocator) (layout : Layout)
    (content : Content) {object : Object} (h : object ≠ heap.nextObject) :
    (heap.allocate alloc layout content).block? object = heap.block? object := by
  have other : object.serial ≠ heap.blocks.size := fun same =>
    h (by cases object; exact congrArg Object.mk same)
  simp [block?, allocate, Array.getElem?_push, other]

end Heap

end WeakIdentity
