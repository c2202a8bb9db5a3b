import WeakIdentity.Proofs.Heap.Counts

/-! Where blocks are: a block never moves, reserved blocks share no bytes, and so the address of a
payload distinguishes reserved blocks, even if the payload is empty and lies at the end of its
block. -/

namespace WeakIdentity

/-- The first byte and the layout of a block, which never change. -/
def Block.place (block : Block) : Nat × Layout := (block.start, block.layout)

namespace Heap

/-- The first byte and the layout of an object's block. -/
def place? (heap : Heap) (object : Object) : Option (Nat × Layout) :=
  (heap.block? object).map Block.place

@[simp] theorem place?_retain (heap : Heap) (object other : Object) :
    (heap.retain object).place? other = heap.place? other :=
  map_block?_modify Block.place heap object other _ fun _ => rfl

@[simp] theorem place?_unretain (heap : Heap) (object other : Object) :
    (heap.unretain object).place? other = heap.place? other :=
  map_block?_modify Block.place heap object other _ fun _ => rfl

@[simp] theorem place?_retainWeak (heap : Heap) (object other : Object) :
    (heap.retainWeak object).place? other = heap.place? other :=
  map_block?_modify Block.place heap object other _ fun _ => rfl

@[simp] theorem place?_releaseWeak (heap : Heap) (object other : Object) :
    (heap.releaseWeak object).place? other = heap.place? other :=
  map_block?_modify Block.place heap object other _ fun _ => rfl

@[simp] theorem place?_setContent (heap : Heap) (object other : Object) (content : Content) :
    (heap.setContent object content).place? other = heap.place? other :=
  map_block?_modify Block.place heap object other _ fun _ => rfl

theorem place?_allocate_of_ne (heap : Heap) (alloc : Allocator) (layout : Layout)
    (content : Content) {object : Object} (h : object ≠ heap.nextObject) :
    (heap.allocate alloc layout content).place? object = heap.place? object := by
  rw [place?, block?_allocate_of_ne heap alloc layout content h, place?]

theorem place?_allocate_next (heap : Heap) (alloc : Allocator) (layout : Layout)
    (content : Content) :
    (heap.allocate alloc layout content).place? heap.nextObject =
      some (heap.startFor alloc layout, layout) := by
  rw [place?, block?_allocate_next]
  rfl

theorem address_eq_place (heap : Heap) (object : Object) :
    heap.address object = (heap.place? object).elim 0 fun place => place.1 + place.2.header := by
  rw [address, place?]
  cases heap.block? object <;> rfl

theorem address_congr {before after : Heap} {object : Object}
    (h : after.place? object = before.place? object) :
    after.address object = before.address object := by
  rw [address_eq_place, address_eq_place, h]

theorem place_of_weak {heap : Heap} {object : Object} (h : 0 < heap.weakRefs object) :
    ∃ start layout, heap.place? object = some (start, layout) := by
  obtain ⟨block, hb, -⟩ := block_of_weak h
  exact ⟨block.start, block.layout, by rw [place?, hb]; rfl⟩

theorem ne_nextObject_of_weak {heap : Heap} {object : Object} (h : 0 < heap.weakRefs object) :
    object ≠ heap.nextObject := by
  rintro rfl
  simp [weakRefs, block?_nextObject] at h

/-! ### Disjoint blocks -/

/-- Reserved blocks share no bytes. -/
def Apart (heap : Heap) : Prop :=
  ∀ ⦃o p : Object⦄, o ≠ p → 0 < heap.weakRefs o → 0 < heap.weakRefs p →
    ∀ ⦃start layout start' layout'⦄, heap.place? o = some (start, layout) →
      heap.place? p = some (start', layout') →
      start + layout.length ≤ start' ∨ start' + layout'.length ≤ start

/-- Blocks stay apart as long as none moves and none is reserved again. -/
theorem Apart.mono {before after : Heap} (apart : before.Apart)
    (places : ∀ o, after.place? o = before.place? o)
    (reserved : ∀ o, 0 < after.weakRefs o → 0 < before.weakRefs o) : after.Apart := by
  intro o p different ho hp start layout start' layout' first second
  rw [places] at first second
  exact apart different (reserved o ho) (reserved p hp) first second

/-- The address of the payload distinguishes reserved blocks: it lies after a header, so that the
end of one block is never the address of the next. -/
theorem Apart.eq_of_address {heap : Heap} (apart : heap.Apart) {o p : Object}
    (ho : 0 < heap.weakRefs o) (hp : 0 < heap.weakRefs p) (h : heap.address o = heap.address p) :
    o = p := by
  by_contra different
  obtain ⟨start, layout, first⟩ := place_of_weak ho
  obtain ⟨start', layout', second⟩ := place_of_weak hp
  rw [address_eq_place, address_eq_place, first, second] at h
  have header := layout.header_ge
  have header' := layout'.header_ge
  simp only [Option.elim_some] at h
  rcases apart different ho hp first second with before | after
  · simp only [Layout.length] at before
    omega
  · simp only [Layout.length] at after
    omega

theorem le_foldl_stop (blocks : List Block) (n : Nat) :
    n ≤ blocks.foldl (fun n block => max n block.stop) n := by
  induction blocks generalizing n with
  | nil => exact Nat.le_refl n
  | cons block rest ih => exact Nat.le_trans (Nat.le_max_left n block.stop) (ih _)

theorem stop_le_foldl {blocks : List Block} {block : Block} (h : block ∈ blocks) (n : Nat) :
    block.stop ≤ blocks.foldl (fun n block => max n block.stop) n := by
  induction blocks generalizing n with
  | nil => simp at h
  | cons first rest ih =>
    rcases List.mem_cons.mp h with rfl | later
    · exact Nat.le_trans (Nat.le_max_right n block.stop) (le_foldl_stop rest _)
    · exact ih later _

theorem stop_le_frontier {heap : Heap} {block : Block} (h : block ∈ heap.blocks.toList) :
    block.stop ≤ heap.frontier := by
  rw [frontier, ← Array.foldl_toList]
  exact stop_le_foldl h 0

theorem isVacant_frontier (heap : Heap) (layout : Layout) :
    heap.isVacant heap.frontier layout = true := by
  simp only [isVacant, ← Array.all_toList, List.all_eq_true, Bool.or_eq_true, decide_eq_true_eq]
  exact fun block mem => Or.inl (Or.inr (stop_le_frontier mem))

/-- The start of a new block is vacant, whatever start the allocator proposes. -/
theorem isVacant_startFor (heap : Heap) (alloc : Allocator) (layout : Layout) :
    heap.isVacant (heap.startFor alloc layout) layout = true := by
  simp only [startFor]
  split
  · assumption
  · exact heap.isVacant_frontier layout

theorem vacant_apart {heap : Heap} {start : Nat} {layout : Layout}
    (h : heap.isVacant start layout = true) {object : Object} (reserved : 0 < heap.weakRefs object)
    {start' : Nat} {layout' : Layout} (place : heap.place? object = some (start', layout')) :
    start' + layout'.length ≤ start ∨ start + layout.length ≤ start' := by
  obtain ⟨block, hb, weak⟩ := block_of_weak reserved
  have mem : block ∈ heap.blocks.toList := by
    rw [block?] at hb
    exact Array.mem_toList_iff.mpr (Array.mem_of_getElem? hb)
  simp only [isVacant, ← Array.all_toList, List.all_eq_true, Bool.or_eq_true, decide_eq_true_eq,
    Bool.not_eq_true'] at h
  rw [place?, hb] at place
  obtain ⟨rfl, rfl⟩ := Prod.mk.inj (Option.some.inj place)
  rcases h block mem with (unreserved | before) | after
  · simp only [Block.isReserved, decide_eq_false_iff_not] at unreserved
    omega
  · exact Or.inl before
  · exact Or.inr after

theorem Apart.allocate {heap : Heap} (apart : heap.Apart) (alloc : Allocator) (layout : Layout)
    (content : Content) : (heap.allocate alloc layout content).Apart := by
  have vacant := heap.isVacant_startFor alloc layout
  have old : ∀ {o : Object}, o ≠ heap.nextObject →
      (heap.allocate alloc layout content).weakRefs o = heap.weakRefs o := fun h => by
    rw [weakRefs_allocate, if_neg h, Nat.add_zero]
  intro o p different ho hp start layout₁ start' layout₂ first second
  by_cases newFirst : o = heap.nextObject
  · have oldSecond : p ≠ heap.nextObject := fun same => different (newFirst.trans same.symm)
    subst newFirst
    rw [place?_allocate_next] at first
    rw [place?_allocate_of_ne heap alloc layout content oldSecond] at second
    rw [old oldSecond] at hp
    obtain ⟨rfl, rfl⟩ := Prod.mk.inj (Option.some.inj first)
    exact (vacant_apart vacant hp second).symm
  · rw [place?_allocate_of_ne heap alloc layout content newFirst] at first
    rw [old newFirst] at ho
    by_cases newSecond : p = heap.nextObject
    · subst newSecond
      rw [place?_allocate_next] at second
      obtain ⟨rfl, rfl⟩ := Prod.mk.inj (Option.some.inj second)
      exact vacant_apart vacant ho first
    · rw [place?_allocate_of_ne heap alloc layout content newSecond] at second
      rw [old newSecond] at hp
      exact apart different ho hp first second

end Heap

end WeakIdentity
