import WeakIdentity.Proofs.World.Sound

/-! The operations on a world keep its invariant, each with the references that it takes from
outside and gives back. -/

namespace WeakIdentity

namespace World

variable {w : World} {strong weak : Multiset Object}

/-! ### Handles -/

theorem Sound.retain (sound : w.Sound strong weak) {o : Object} (live : w.heap.isLive o = true) :
    (w.retain o).Sound (o ::ₘ strong) weak := by
  have counted := sound.counted
  refine ⟨counted.reheap (fun p => ?_) (fun p => ?_) (fun p => Heap.place?_retain w.heap o p)
    (fun p h => by simpa using h), sound.numbered.congr (fun p n h => ?_) rfl⟩
  · rw [Heap.strongCount_retain live, Heap.linkCount_retain live, counted.strong_eq,
      Multiset.count_cons]
    omega
  · rw [Heap.weakRefs_retain, counted.weak_eq, Heap.sharedRef, Heap.sharedRef,
      Heap.isLive_retain live]
  · rwa [registryNumber?_congr (Heap.content?_retain w.heap o p)] at h

theorem Open.retain {n : Nat} {o : Object} (usable : w.Open n) (live : w.heap.isLive o = true) :
    (w.retain o).Open n := by
  rcases usable with process | ⟨p, alive, number⟩
  · exact Or.inl process
  · refine Or.inr ⟨p, ?_, ?_⟩
    · rw [World.retain, Heap.isLive_retain live]
      exact alive
    · rwa [registryNumber?_congr (Heap.content?_retain w.heap o p)]

theorem Sound.retainWeak (sound : w.Sound strong weak) {o : Object}
    (reserved : 0 < w.heap.weakRefs o) : (w.retainWeak o).Sound strong (o ::ₘ weak) := by
  have counted := sound.counted
  have refs := Heap.weakRefs_retainWeak reserved
  refine ⟨counted.reheap (fun p => ?_) (fun p => ?_) (fun p => Heap.place?_retainWeak w.heap o p)
    (fun p h => ?_), sound.numbered.congr (fun p n h => ?_) rfl⟩
  · rw [Heap.strongCount_retainWeak, Heap.linkCount_retainWeak, counted.strong_eq]
  · rw [refs, counted.weak_eq, Multiset.count_cons,
      Heap.sharedRef_congr (Heap.strongCount_retainWeak w.heap o p)]
    omega
  · rw [refs] at h
    split at h
    · next same => rw [same]; exact reserved
    · exact h
  · rwa [registryNumber?_congr (Heap.content?_retainWeak w.heap o p)] at h

theorem Sound.releaseWeak {o : Object} (sound : w.Sound strong (o ::ₘ weak)) :
    (w.releaseWeak o).Sound strong weak := by
  have counted := sound.counted
  refine ⟨counted.reheap (fun p => ?_) (fun p => ?_) (fun p => Heap.place?_releaseWeak w.heap o p)
    (fun p h => ?_), sound.numbered.congr (fun p n h => ?_) rfl⟩
  · rw [Heap.strongCount_releaseWeak, Heap.linkCount_releaseWeak, counted.strong_eq]
  · rw [Heap.weakRefs_releaseWeak, counted.weak_eq, Multiset.count_cons,
      Heap.sharedRef_congr (Heap.strongCount_releaseWeak w.heap o p)]
    omega
  · rw [Heap.weakRefs_releaseWeak] at h
    omega
  · rwa [registryNumber?_congr (Heap.content?_releaseWeak w.heap o p)] at h

/-! ### Links -/

/-- The content that a node gets may name no registry. -/
theorem Numbered.setContent {o : Object} {name : String} {links : List Object}
    {block : Block} (numbered : w.Numbered) (hb : w.heap.block? o = some block) :
    ({ w with heap := w.heap.setContent o (.node name links) } : World).Numbered := by
  refine numbered.congr (fun p n h => ?_) rfl
  rw [registryNumber?_eq_some] at h ⊢
  rw [Heap.content?_setContent hb] at h
  split at h
  · exact absurd (Option.some.inj h) (by simp)
  · exact h

theorem Sound.setContent {o : Object} (sound : w.Sound strong weak) {block : Block}
    (hb : w.heap.block? o = some block) (live : 0 < block.strong) (name : String)
    (links : List Object) {strong' : Multiset Object}
    (same : ∀ p, strong'.count p + links.count p = strong.count p + block.content.owned.count p) :
    ({ w with heap := w.heap.setContent o (.node name links) } : World).Sound strong' weak := by
  have counted := sound.counted
  refine ⟨counted.reheap (fun p => ?_) (fun p => ?_)
    (fun p => Heap.place?_setContent w.heap o p _) (fun p h => by simpa using h),
    sound.numbered.setContent hb⟩
  · have moved := Heap.linkCount_setContent hb live (.node name links) p
    rw [Heap.strongCount_setContent, counted.strong_eq]
    have balance := same p
    simp only [Content.owned] at moved balance
    omega
  · rw [Heap.weakRefs_setContent, counted.weak_eq,
      Heap.sharedRef_congr (Heap.strongCount_setContent w.heap o p _)]

theorem block_of_content {o : Object} {content : Content}
    (h : (w.heap.block? o).map Block.content = some content) :
    ∃ block, w.heap.block? o = some block ∧ block.content = content := by
  simpa using h

theorem Sound.link (sound : w.Sound strong weak) {node target : Object} (hn : node ∈ strong)
    (ht : target ∈ strong) {w' : World} (h : w.link? node target = some w') :
    w'.Sound strong weak := by
  have counted := sound.counted
  unfold link? at h
  split at h
  · next name links content =>
    obtain ⟨block, hb, -⟩ := block_of_content content
    have retained := sound.retain (counted.live_of_mem ht)
    have alive : (w.retain target).heap.isLive node = true :=
      retained.counted.live_of_mem (Multiset.mem_cons_of_mem hn)
    obtain ⟨found, hf, positive⟩ := Heap.block_of_live alive
    have kept : found.content = .node name links := by
      have read := Heap.content?_retain w.heap target node
      have there : (w.heap.retain target).content? node = some found.content := by
        rw [Heap.content?]; exact congrArg (Option.map Block.content) hf
      exact Option.some.inj ((there.symm.trans read).trans content)
    rw [← Option.some.inj h]
    refine retained.setContent hf positive name (links ++ [target]) fun p => ?_
    rw [kept, Multiset.count_cons]
    simp only [Content.owned, List.count_append, List.count_singleton, beq_iff_eq]
    rw [if_congr (eq_comm (a := p)) rfl rfl]
    omega
  · exact absurd h (by simp)

theorem Sound.unlink (sound : w.Sound strong weak) {node : Object} (hn : node ∈ strong)
    {name : String} {links : List Object}
    (content : w.heap.content? node = some (.node name links)) :
    ({ w with heap := w.heap.setContent node (.node name []) } : World).Sound
      (↑links + strong) weak := by
  obtain ⟨block, hb, positive⟩ := Heap.block_of_live (sound.counted.live_of_mem hn)
  obtain ⟨found, hf, kept⟩ := block_of_content content
  obtain rfl : block = found := Option.some.inj (hb.symm.trans hf)
  refine sound.setContent hb positive name [] fun p => ?_
  rw [kept, Multiset.count_add, Multiset.coe_count]
  simp only [Content.owned, List.count_nil]
  omega

/-! ### New objects -/

theorem create_eq (w : World) (alloc : Allocator) (layout : Layout) (content : Content) :
    w.create alloc layout content =
      ({ w with heap := (content.owned.foldl Heap.retain w.heap).allocate alloc layout content },
        w.heap.nextObject) := by
  rw [create, Heap.nextObject_foldl_retain]

theorem Sound.retainAll {objects : List Object} (sound : w.Sound strong weak)
    (held : ∀ o ∈ objects, w.heap.isLive o = true) :
    ({ w with heap := objects.foldl Heap.retain w.heap } : World).Sound
      (↑objects + strong) weak := by
  induction objects generalizing w strong with
  | nil => simpa using sound
  | cons o rest ih =>
    have first := sound.retain (held o List.mem_cons_self)
    have later : ∀ p ∈ rest, (w.retain o).heap.isLive p = true := fun p mem =>
      (Heap.isLive_retain (held o List.mem_cons_self) p).trans
        (held p (List.mem_cons_of_mem _ mem))
    have all := ih first later
    rwa [Multiset.add_cons, ← Multiset.cons_add, Multiset.cons_coe] at all

/-- The handles in a new object come from outside, which gets a handle to the object instead. -/
theorem Counted.allocate {content : Content}
    (counted : w.Counted (↑content.owned + strong) weak) (alloc : Allocator) (layout : Layout) :
    ({ w with heap := w.heap.allocate alloc layout content } : World).Counted
      (w.heap.nextObject ::ₘ strong) weak := by
  refine ⟨fun p => ?_, fun p => ?_, counted.apart.allocate alloc layout content, fun n => ?_⟩
  · rw [Heap.strongCount_allocate, Heap.linkCount_allocate, counted.strong_eq,
      Multiset.count_cons, Multiset.count_add, Multiset.coe_count]
    omega
  · have old := counted.weak_eq p
    rw [Heap.weakRefs_allocate, Heap.sharedRef_allocate, old]
    exact Nat.add_assoc _ _ _
  · refine (counted.keyed n).congr fun o mem => Heap.address_congr ?_
    obtain ⟨entry, there, rfl⟩ := List.mem_map.mp mem
    have old := Heap.ne_nextObject_of_weak (counted.token_reserved there)
    exact Heap.place?_allocate_of_ne w.heap alloc layout content old

theorem Sound.createCounted (sound : w.Sound strong weak) (alloc : Allocator) (layout : Layout)
    (content : Content) (held : ∀ o ∈ content.owned, o ∈ strong) :
    (w.create alloc layout content).1.Counted (w.heap.nextObject ::ₘ strong) weak := by
  have retained := sound.retainAll fun o mem => sound.counted.live_of_mem (held o mem)
  have allocated := retained.counted.allocate alloc layout
  rw [create_eq]
  rwa [Heap.nextObject_foldl_retain] at allocated

theorem content?_create (w : World) (alloc : Allocator) (layout : Layout) (content : Content)
    (o : Object) :
    (w.create alloc layout content).1.heap.content? o =
      if o = w.heap.nextObject then some content else w.heap.content? o := by
  have kept := Heap.read_foldl (fun heap => heap.content? o)
    (fun heap p => Heap.content?_retain heap p o) w.heap content.owned
  rw [create_eq, Heap.content?_allocate, Heap.nextObject_foldl_retain, kept]

theorem Sound.create (sound : w.Sound strong weak) (alloc : Allocator) (layout : Layout)
    {content : Content} (held : ∀ o ∈ content.owned, o ∈ strong)
    (other : ∀ n, content ≠ .registry n) :
    (w.create alloc layout content).1.Sound (w.heap.nextObject ::ₘ strong) weak := by
  refine ⟨sound.createCounted alloc layout content held, sound.numbered.congr (fun o n h => ?_)
    rfl⟩
  rw [registryNumber?_eq_some] at h ⊢
  rw [content?_create] at h
  split at h
  · exact absurd (Option.some.inj h) (other n)
  · exact h

end World

end WeakIdentity
