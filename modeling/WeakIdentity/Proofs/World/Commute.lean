import WeakIdentity.Proofs.World.Changes

/-! Changes that do not meet can be made in either order, and then the worlds are not only alike but
the same: a registry may release the references of a sweep before it takes that of an insertion, and
a handle that is held during a call leaves the world that the call alone would leave. -/

namespace WeakIdentity

namespace Heap

theorem ext_block? {first second : Heap} (h : ∀ o, first.block? o = second.block? o) :
    first = second := by
  obtain ⟨blocks⟩ := first
  obtain ⟨others⟩ := second
  exact congrArg Heap.mk (Array.ext_getElem? fun i => h ⟨i⟩)

/-- Two changes can be made in either order, if they are of different objects or commute on
blocks. -/
theorem modify_comm (heap : Heap) {o p : Object} {f g : Block → Block}
    (commute : o = p → ∀ block, f (g block) = g (f block)) :
    (heap.modify o f).modify p g = (heap.modify p g).modify o f := by
  refine ext_block? fun q => ?_
  simp only [block?_modify]
  by_cases first : o = q
  · by_cases second : p = q
    · simp [first, second, Function.comp_def, commute (first.trans second.symm)]
    · simp [first, second]
  · simp [first]

theorem foldl_comm (change : Heap → Heap) {f : Heap → Object → Heap} {objects : List Object}
    (commute : ∀ heap, ∀ o ∈ objects, f (change heap) o = change (f heap o)) (heap : Heap) :
    objects.foldl f (change heap) = change (objects.foldl f heap) := by
  induction objects generalizing heap with
  | nil => rfl
  | cons o rest ih =>
    rw [List.foldl_cons, List.foldl_cons, commute heap o List.mem_cons_self]
    exact ih (fun heap p mem => commute heap p (List.mem_cons_of_mem o mem)) _

theorem foldl_releaseWeak_retainWeak (heap : Heap) {taken released : List Object}
    (apart : ∀ o ∈ taken, o ∉ released) :
    released.foldl releaseWeak (taken.foldl retainWeak heap) =
      taken.foldl retainWeak (released.foldl releaseWeak heap) := by
  refine foldl_comm (fun heap => taken.foldl retainWeak heap) (fun heap p released => ?_) heap
  refine (foldl_comm (fun heap => heap.releaseWeak p) (fun heap o mem => ?_) heap).symm
  refine modify_comm heap fun same => ?_
  subst same
  exact absurd released (apart p mem)

theorem unretain_retain (heap : Heap) (o : Object) : (heap.retain o).unretain o = heap := by
  refine ext_block? fun q => ?_
  simp only [retain, unretain, block?_modify]
  split
  · simp [Function.comp_def]
  · rfl

end Heap

namespace World

variable {w : World}

theorem apply_same (w : World) (n : Nat) : w.apply n { registry := w.registry n } = w := by
  have same : w.registries.setIfInBounds n (w.registry n) = w.registries := by
    refine Array.ext_getElem? fun i => ?_
    rw [Array.getElem?_setIfInBounds]
    split
    · next here =>
      subst here
      split
      · next bound => rw [getElem?_registry bound]
      · next out => rw [Array.getElem?_eq_none (Nat.not_lt.mp out)]
    · rfl
  simp [apply, same]

/-- A registry that first releases and then takes may do both at once, unless it takes what it
releases. -/
theorem apply_apply {first second : Change} (n : Nat) (gives : first.taken = [])
    (takes : second.released = []) (apart : ∀ o ∈ second.taken, o ∉ first.released) :
    (w.apply n first).apply n second =
      w.apply n
        { second with released := first.released, events := first.events ++ second.events } := by
  simp only [apply, gives, takes, List.foldl_nil, Array.setIfInBounds_setIfInBounds,
    Heap.foldl_releaseWeak_retainWeak _ apart, List.map_append, List.append_assoc]

theorem apply_retain (w : World) (n : Nat) (change : Change) (o : Object) :
    (w.retain o).apply n change = (w.apply n change).retain o := by
  have taken : ∀ heap : Heap, change.taken.foldl Heap.retainWeak (heap.retain o) =
      (change.taken.foldl Heap.retainWeak heap).retain o :=
    Heap.foldl_comm (fun heap => heap.retain o)
      fun heap p _ => Heap.modify_comm heap fun _ _ => rfl
  have released : ∀ heap : Heap, change.released.foldl Heap.releaseWeak (heap.retain o) =
      (change.released.foldl Heap.releaseWeak heap).retain o :=
    Heap.foldl_comm (fun heap => heap.retain o)
      fun heap p _ => Heap.modify_comm heap fun _ _ => rfl
  simp only [apply, retain, taken, released]

/-- A handle that is made and dropped again leaves the same world. -/
theorem release_retain {o : Object} (live : w.heap.isLive o = true) :
    (w.retain o).release o = w := by
  obtain ⟨block, hb, positive⟩ := Heap.block_of_live live
  have found : (w.retain o).heap.block? o = some { block with strong := block.strong + 1 } := by
    rw [World.retain, Heap.retain, Heap.block?_modify, if_pos rfl, hb]
    rfl
  have more : ({ block with strong := block.strong + 1 } : Block).strong ≠ 1 :=
    Nat.ne_of_gt (Nat.succ_lt_succ positive)
  rw [release, settle, perform_more found more, List.nil_append, settle]
  simp only [retain, Heap.unretain_retain]

/-- A weak handle whose object lives is as good as a strong one. -/
theorem tryObserve_of_live {o : Object} (live : w.heap.isLive o = true) (n : Nat) :
    w.tryObserve n (some o) = ((w.observe n o).1, .ok (w.observe n o).2) := by
  have alive : (w.retain o).heap.isLive = w.heap.isLive := funext (Heap.isLive_retain live)
  have address : (w.retain o).heap.address o = w.heap.address o :=
    Heap.address_congr (Heap.place?_retain w.heap o o)
  have observed : (w.retain o).observe n o = ((w.observe n o).1.retain o, (w.observe n o).2) := by
    rw [observe_eq, observe_eq, apply_retain, alive, address]
    rfl
  have lives : (w.observe n o).1.heap.isLive o = true := by
    rwa [observe_eq, isLive_apply]
  rw [tryObserve, upgrade?, if_pos live]
  simp only [observed, release_retain lives]

end World

end WeakIdentity
