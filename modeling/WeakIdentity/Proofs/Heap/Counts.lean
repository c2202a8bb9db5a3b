import Mathlib.Algebra.BigOperators.Group.List.Basic
import Mathlib.Algebra.Order.Ring.Nat
import Mathlib.Data.Multiset.AddSub
import WeakIdentity.World.Lifetime

/-! What the operations of the heap do to its counts: the strong handles and the weak references to
an object, and the strong handles to it that live blocks hold. -/

namespace WeakIdentity

/-- Changing one item changes a sum by as much as the item. -/
theorem sum_map_modify {α : Type} (g : α → Nat) (f : α → α) {items : List α} {i : Nat} {item : α}
    (h : items[i]? = some item) :
    ((items.modify i f).map g).sum + g item = (items.map g).sum + g (f item) := by
  induction items generalizing i with
  | nil => simp at h
  | cons first rest ih =>
    cases i with
    | zero =>
      simp only [List.getElem?_cons_zero, Option.some.injEq] at h
      subst h
      simp only [List.modify_zero_cons, List.map_cons, List.sum_cons]
      omega
    | succ i =>
      have step := ih (by simpa using h)
      simp only [List.modify_succ_cons, List.map_cons, List.sum_cons]
      omega

/-- The objects that a live block keeps alive. -/
def Block.links (block : Block) : List Object :=
  if block.isLive then block.content.owned else []

theorem Block.links_of_live {block : Block} (h : 0 < block.strong) :
    block.links = block.content.owned := by
  simp [links, isLive, h]

theorem Block.links_of_dead {block : Block} (h : block.strong = 0) : block.links = [] := by
  simp [links, isLive, h]

namespace Heap

/-- The number of weak references to an object, with the one of its strong handles. -/
def weakRefs (heap : Heap) (object : Object) : Nat := (heap.block? object).elim 0 Block.weak

theorem weakCount_eq (heap : Heap) (object : Object) :
    heap.weakCount object = heap.weakRefs object - 1 := by
  unfold weakCount weakRefs
  cases heap.block? object <;> rfl

/-- The number of strong handles to an object that live blocks hold. -/
def linkCount (heap : Heap) (object : Object) : Nat :=
  (heap.blocks.toList.map fun block => block.links.count object).sum

/-- The weak reference that the strong handles of an object have together. -/
def sharedRef (heap : Heap) (object : Object) : Nat := if heap.isLive object then 1 else 0

/-! ### Reading a block -/

theorem isLive_iff {heap : Heap} {object : Object} :
    heap.isLive object = true ↔ 0 < heap.strongCount object := by
  unfold isLive strongCount
  cases heap.block? object with
  | none => simp
  | some block => simp [Block.isLive]

theorem block_of_strong {heap : Heap} {object : Object} (h : 0 < heap.strongCount object) :
    ∃ block, heap.block? object = some block ∧ block.strong = heap.strongCount object := by
  unfold strongCount at h ⊢
  cases hb : heap.block? object with
  | none => simp [hb] at h
  | some block => exact ⟨block, rfl, rfl⟩

theorem block_of_live {heap : Heap} {object : Object} (h : heap.isLive object = true) :
    ∃ block, heap.block? object = some block ∧ 0 < block.strong := by
  obtain ⟨block, hb, hs⟩ := block_of_strong (isLive_iff.mp h)
  exact ⟨block, hb, hs ▸ isLive_iff.mp h⟩

theorem block_of_weak {heap : Heap} {object : Object} (h : 0 < heap.weakRefs object) :
    ∃ block, heap.block? object = some block ∧ block.weak = heap.weakRefs object := by
  unfold weakRefs at h ⊢
  cases hb : heap.block? object with
  | none => simp [hb] at h
  | some block => exact ⟨block, rfl, rfl⟩

theorem sharedRef_congr {before after : Heap} {object : Object}
    (h : after.strongCount object = before.strongCount object) :
    after.sharedRef object = before.sharedRef object := by
  have live : after.isLive object = before.isLive object := by
    rw [Bool.eq_iff_iff, isLive_iff, isLive_iff, h]
  rw [sharedRef, sharedRef, live]

/-- What is read of a block does not change with what is not read. -/
theorem read_modify_of_eq {β : Type} (g : Block → β) (default : β) (heap : Heap)
    (object other : Object) (f : Block → Block) (h : ∀ block, g (f block) = g block) :
    ((heap.modify object f).block? other).elim default g = (heap.block? other).elim default g := by
  rw [block?_modify]
  split
  · cases heap.block? other with
    | none => rfl
    | some block => exact h block
  · rfl

/-- What is read of a block that changes. -/
theorem read_modify {heap : Heap} {object : Object} {block : Block}
    (hb : heap.block? object = some block) (g : Block → Nat) (f : Block → Block) (other : Object) :
    ((heap.modify object f).block? other).elim 0 g =
      if other = object then g (f block) else (heap.block? other).elim 0 g := by
  rw [block?_modify]
  by_cases same : other = object
  · subst same
    simp [hb]
  · simp [same, Ne.symm same]

theorem linkCount_modify {heap : Heap} {object : Object} {block : Block}
    (h : heap.block? object = some block) (f : Block → Block) (other : Object) :
    (heap.modify object f).linkCount other + block.links.count other =
      heap.linkCount other + (f block).links.count other := by
  simp only [linkCount, modify, Array.toList_modify]
  exact sum_map_modify (fun block : Block => block.links.count other) f (by simpa [block?] using h)

theorem linkCount_modify_of_eq (heap : Heap) (object other : Object) (f : Block → Block)
    (h : ∀ block, heap.block? object = some block → (f block).links = block.links) :
    (heap.modify object f).linkCount other = heap.linkCount other := by
  cases hb : heap.block? object with
  | some block =>
    have step := linkCount_modify hb f other
    rw [h block hb] at step
    omega
  | none =>
    have out : heap.blocks.size ≤ object.serial := by simpa [block?] using hb
    simp [linkCount, modify, List.modify_eq_self, out]

/-! ### Handles -/

section Retain

variable {heap : Heap} {object : Object} (live : heap.isLive object = true)
include live

theorem strongCount_retain (other : Object) :
    (heap.retain object).strongCount other =
      heap.strongCount other + if other = object then 1 else 0 := by
  obtain ⟨block, hb, -⟩ := block_of_live live
  simp only [retain, strongCount, read_modify hb]
  split
  · next same => simp [same, hb]
  · rfl

theorem linkCount_retain (other : Object) :
    (heap.retain object).linkCount other = heap.linkCount other := by
  obtain ⟨block, hb, positive⟩ := block_of_live live
  refine linkCount_modify_of_eq heap object other _ fun found hf => ?_
  obtain rfl : block = found := Option.some.inj (hb.symm.trans hf)
  rw [Block.links_of_live positive, Block.links_of_live (Nat.succ_pos _)]

theorem isLive_retain (other : Object) : (heap.retain object).isLive other = heap.isLive other := by
  rw [Bool.eq_iff_iff, isLive_iff, isLive_iff, strongCount_retain live]
  have positive := isLive_iff.mp live
  split
  · next same => subst same; omega
  · rfl

end Retain

theorem isLive_foldl_retain {heap : Heap} {objects : List Object}
    (live : ∀ o ∈ objects, heap.isLive o = true) (other : Object) :
    (objects.foldl retain heap).isLive other = heap.isLive other := by
  induction objects generalizing heap with
  | nil => rfl
  | cons o rest ih =>
    have first := isLive_retain (live o List.mem_cons_self)
    rw [List.foldl_cons, ih fun p mem => ?_, first]
    rw [first]
    exact live p (List.mem_cons_of_mem _ mem)

@[simp] theorem weakRefs_retain (heap : Heap) (object other : Object) :
    (heap.retain object).weakRefs other = heap.weakRefs other :=
  read_modify_of_eq Block.weak 0 heap object other _ fun _ => rfl

/-- One strong handle less. -/
def unretain (heap : Heap) (object : Object) : Heap :=
  heap.modify object fun block => { block with strong := block.strong - 1 }

theorem strongCount_unretain (heap : Heap) (object other : Object) :
    (heap.unretain object).strongCount other =
      heap.strongCount other - if other = object then 1 else 0 := by
  cases hb : heap.block? object with
  | some block =>
    simp only [unretain, strongCount, read_modify hb]
    split
    · next same => simp [same, hb]
    · rfl
  | none =>
    simp only [unretain, strongCount, block?_modify]
    by_cases same : object = other
    · subst same
      simp [hb]
    · simp [same, Ne.symm same]

@[simp] theorem weakRefs_unretain (heap : Heap) (object other : Object) :
    (heap.unretain object).weakRefs other = heap.weakRefs other :=
  read_modify_of_eq Block.weak 0 heap object other _ fun _ => rfl

/-- With the last strong handle to an object, the handles in it are no longer counted. -/
theorem linkCount_unretain_last {heap : Heap} {object : Object} {block : Block}
    (hb : heap.block? object = some block) (last : block.strong = 1) (other : Object) :
    (heap.unretain object).linkCount other + block.content.owned.count other =
      heap.linkCount other := by
  have step := linkCount_modify hb (fun b => { b with strong := b.strong - 1 }) other
  rw [Block.links_of_live (by omega), Block.links_of_dead (by simp [last])] at step
  simpa [unretain] using step

theorem linkCount_unretain_other {heap : Heap} {object : Object} {block : Block}
    (hb : heap.block? object = some block) (more : block.strong ≠ 1) (other : Object) :
    (heap.unretain object).linkCount other = heap.linkCount other := by
  refine linkCount_modify_of_eq heap object other _ fun found hf => ?_
  obtain rfl : block = found := Option.some.inj (hb.symm.trans hf)
  by_cases dead : block.strong = 0
  · rw [Block.links_of_dead dead, Block.links_of_dead (by simp [dead])]
  · have before : 0 < block.strong := by omega
    have after : 0 < block.strong - 1 := by omega
    rw [Block.links_of_live before]
    exact Block.links_of_live after

/-- With the last strong handle the weak reference of all of them is left over. -/
theorem sharedRef_unretain_last {heap : Heap} {object : Object} {block : Block}
    (hb : heap.block? object = some block) (last : block.strong = 1) (other : Object) :
    (heap.unretain object).sharedRef other + (if other = object then 1 else 0) =
      heap.sharedRef other := by
  have count := heap.strongCount_unretain object other
  split
  · next same =>
    subst same
    have one : heap.strongCount other = 1 := by rw [strongCount, hb]; exact last
    have alive : heap.isLive other = true := isLive_iff.mpr (by omega)
    have dead : ¬ (heap.unretain other).isLive other = true := by
      rw [isLive_iff, count, if_pos rfl]
      omega
    rw [sharedRef, sharedRef, if_neg dead, if_pos alive]
  · next different =>
    rw [if_neg different] at count
    exact sharedRef_congr count

theorem sharedRef_unretain_other {heap : Heap} {object : Object} {block : Block}
    (hb : heap.block? object = some block) (more : block.strong ≠ 1) (other : Object) :
    (heap.unretain object).sharedRef other = heap.sharedRef other := by
  have count := heap.strongCount_unretain object other
  have same : (heap.unretain object).isLive other = heap.isLive other := by
    rw [Bool.eq_iff_iff, isLive_iff, isLive_iff, count]
    split
    · next same =>
      have strong : heap.strongCount other = block.strong := by rw [same, strongCount, hb]; rfl
      omega
    · rfl
  rw [sharedRef, sharedRef, same]

/-! ### Weak references -/

@[simp] theorem strongCount_retainWeak (heap : Heap) (object other : Object) :
    (heap.retainWeak object).strongCount other = heap.strongCount other :=
  read_modify_of_eq Block.strong 0 heap object other _ fun _ => rfl

@[simp] theorem linkCount_retainWeak (heap : Heap) (object other : Object) :
    (heap.retainWeak object).linkCount other = heap.linkCount other :=
  linkCount_modify_of_eq heap object other _ fun _ _ => rfl

theorem weakRefs_retainWeak {heap : Heap} {object : Object} (h : 0 < heap.weakRefs object)
    (other : Object) :
    (heap.retainWeak object).weakRefs other =
      heap.weakRefs other + if other = object then 1 else 0 := by
  obtain ⟨block, hb, -⟩ := block_of_weak h
  simp only [retainWeak, weakRefs, read_modify hb]
  split
  · next same => simp [same, hb]
  · rfl

@[simp] theorem strongCount_releaseWeak (heap : Heap) (object other : Object) :
    (heap.releaseWeak object).strongCount other = heap.strongCount other :=
  read_modify_of_eq Block.strong 0 heap object other _ fun _ => rfl

@[simp] theorem linkCount_releaseWeak (heap : Heap) (object other : Object) :
    (heap.releaseWeak object).linkCount other = heap.linkCount other :=
  linkCount_modify_of_eq heap object other _ fun _ _ => rfl

theorem weakRefs_releaseWeak (heap : Heap) (object other : Object) :
    (heap.releaseWeak object).weakRefs other =
      heap.weakRefs other - if other = object then 1 else 0 := by
  cases hb : heap.block? object with
  | some block =>
    simp only [releaseWeak, weakRefs, read_modify hb]
    split
    · next same => simp [same, hb]
    · rfl
  | none =>
    simp only [releaseWeak, weakRefs, block?_modify]
    by_cases same : object = other
    · subst same
      simp [hb]
    · simp [same, Ne.symm same]

/-- What a registry's change keeps, reference by reference. -/
theorem read_foldl {β : Type} {f : Heap → Object → Heap} (g : Heap → β)
    (h : ∀ heap object, g (f heap object) = g heap) (heap : Heap) (objects : List Object) :
    g (objects.foldl f heap) = g heap := by
  induction objects generalizing heap with
  | nil => rfl
  | cons object rest ih => rw [List.foldl_cons, ih, h]

theorem weakRefs_foldl_releaseWeak (heap : Heap) (objects : List Object) (other : Object) :
    (objects.foldl releaseWeak heap).weakRefs other =
      heap.weakRefs other - objects.count other := by
  induction objects generalizing heap with
  | nil => simp
  | cons object rest ih =>
    rw [List.foldl_cons, ih, weakRefs_releaseWeak, List.count_cons]
    by_cases same : other = object
    · subst same
      simp only [if_true, beq_self_eq_true]
      omega
    · simp [same, Ne.symm same]

theorem weakRefs_foldl_retainWeak {heap : Heap} {objects : List Object}
    (h : ∀ object ∈ objects, 0 < heap.weakRefs object) (other : Object) :
    (objects.foldl retainWeak heap).weakRefs other =
      heap.weakRefs other + objects.count other := by
  induction objects generalizing heap with
  | nil => simp
  | cons object rest ih =>
    have first := weakRefs_retainWeak (h object List.mem_cons_self)
    have later : ∀ o ∈ rest, 0 < (heap.retainWeak object).weakRefs o := by
      intro o mem
      have positive := h o (List.mem_cons_of_mem _ mem)
      rw [first]
      omega
    rw [List.foldl_cons, ih later, first, List.count_cons]
    by_cases same : other = object
    · subst same
      simp only [if_true, beq_self_eq_true]
      omega
    · simp [same, Ne.symm same]

/-! ### Contents -/

/-- The content of an object's block. -/
def content? (heap : Heap) (object : Object) : Option Content :=
  (heap.block? object).map Block.content

/-- What is read of a block does not change with what is not read. -/
theorem map_block?_modify {β : Type} (g : Block → β) (heap : Heap) (object other : Object)
    (f : Block → Block) (h : ∀ block, g (f block) = g block) :
    ((heap.modify object f).block? other).map g = (heap.block? other).map g := by
  rw [block?_modify]
  split
  · cases heap.block? other with
    | none => rfl
    | some block => exact congrArg some (h block)
  · rfl

@[simp] theorem content?_retain (heap : Heap) (object other : Object) :
    (heap.retain object).content? other = heap.content? other :=
  map_block?_modify Block.content heap object other _ fun _ => rfl

@[simp] theorem content?_unretain (heap : Heap) (object other : Object) :
    (heap.unretain object).content? other = heap.content? other :=
  map_block?_modify Block.content heap object other _ fun _ => rfl

@[simp] theorem content?_retainWeak (heap : Heap) (object other : Object) :
    (heap.retainWeak object).content? other = heap.content? other :=
  map_block?_modify Block.content heap object other _ fun _ => rfl

@[simp] theorem content?_releaseWeak (heap : Heap) (object other : Object) :
    (heap.releaseWeak object).content? other = heap.content? other :=
  map_block?_modify Block.content heap object other _ fun _ => rfl

theorem content?_setContent {heap : Heap} {object : Object} {block : Block}
    (hb : heap.block? object = some block) (content : Content) (other : Object) :
    (heap.setContent object content).content? other =
      if other = object then some content else heap.content? other := by
  rw [content?, setContent, block?_modify]
  by_cases same : other = object
  · subst same
    simp [hb]
  · simp [same, Ne.symm same, content?]

@[simp] theorem strongCount_setContent (heap : Heap) (object other : Object) (content : Content) :
    (heap.setContent object content).strongCount other = heap.strongCount other :=
  read_modify_of_eq Block.strong 0 heap object other _ fun _ => rfl

@[simp] theorem weakRefs_setContent (heap : Heap) (object other : Object) (content : Content) :
    (heap.setContent object content).weakRefs other = heap.weakRefs other :=
  read_modify_of_eq Block.weak 0 heap object other _ fun _ => rfl

theorem linkCount_setContent {heap : Heap} {object : Object} {block : Block}
    (hb : heap.block? object = some block) (live : 0 < block.strong) (content : Content)
    (other : Object) :
    (heap.setContent object content).linkCount other + block.content.owned.count other =
      heap.linkCount other + content.owned.count other := by
  have step := linkCount_modify hb (fun b => { b with content }) other
  have after : ({ block with content } : Block).links = content.owned := Block.links_of_live live
  rwa [Block.links_of_live live, after] at step

/-! ### New blocks -/

theorem nextObject_foldl_retain (heap : Heap) (objects : List Object) :
    (objects.foldl retain heap).nextObject = heap.nextObject :=
  read_foldl nextObject (fun heap o => by simp [nextObject, retain, modify]) heap objects

theorem block?_nextObject (heap : Heap) : heap.block? heap.nextObject = none := by
  simp [block?, nextObject]

theorem block?_allocate_next (heap : Heap) (alloc : Allocator) (layout : Layout)
    (content : Content) :
    (heap.allocate alloc layout content).block? heap.nextObject =
      some { start := heap.startFor alloc layout, layout, strong := 1, weak := 1, content } := by
  simp [block?, allocate, nextObject]

theorem content?_allocate (heap : Heap) (alloc : Allocator) (layout : Layout) (content : Content)
    (other : Object) :
    (heap.allocate alloc layout content).content? other =
      if other = heap.nextObject then some content else heap.content? other := by
  unfold content?
  split
  · next same =>
    subst same
    rw [block?_allocate_next]
    rfl
  · next different => rw [block?_allocate_of_ne heap alloc layout content different]

theorem strongCount_allocate (heap : Heap) (alloc : Allocator) (layout : Layout)
    (content : Content) (other : Object) :
    (heap.allocate alloc layout content).strongCount other =
      heap.strongCount other + if other = heap.nextObject then 1 else 0 := by
  unfold strongCount
  split
  · next same =>
    subst same
    rw [block?_allocate_next, block?_nextObject]
    rfl
  · next different => rw [block?_allocate_of_ne heap alloc layout content different, Nat.add_zero]

theorem weakRefs_allocate (heap : Heap) (alloc : Allocator) (layout : Layout)
    (content : Content) (other : Object) :
    (heap.allocate alloc layout content).weakRefs other =
      heap.weakRefs other + if other = heap.nextObject then 1 else 0 := by
  unfold weakRefs
  split
  · next same =>
    subst same
    rw [block?_allocate_next, block?_nextObject]
    rfl
  · next different => rw [block?_allocate_of_ne heap alloc layout content different, Nat.add_zero]

/-- A new block is the only one whose strong handles are new. -/
theorem sharedRef_allocate (heap : Heap) (alloc : Allocator) (layout : Layout)
    (content : Content) (other : Object) :
    (heap.allocate alloc layout content).sharedRef other =
      heap.sharedRef other + if other = heap.nextObject then 1 else 0 := by
  have count := heap.strongCount_allocate alloc layout content other
  by_cases fresh : other = heap.nextObject
  · have dead : heap.isLive other = false := by simp [isLive, fresh, block?_nextObject]
    have alive : (heap.allocate alloc layout content).isLive other = true := by
      rw [isLive_iff, count, if_pos fresh]
      omega
    rw [sharedRef, sharedRef, alive, dead, if_pos fresh]
    rfl
  · rw [if_neg fresh, Nat.add_zero] at count ⊢
    exact sharedRef_congr count

theorem linkCount_allocate (heap : Heap) (alloc : Allocator) (layout : Layout)
    (content : Content) (other : Object) :
    (heap.allocate alloc layout content).linkCount other =
      heap.linkCount other + content.owned.count other := by
  simp [linkCount, allocate, Block.links, Block.isLive]

end Heap

end WeakIdentity
