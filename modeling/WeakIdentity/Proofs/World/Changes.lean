import WeakIdentity.Proofs.World.Operations

/-! What registries do keeps the invariant: calls, sweeps, new registries, and destruction, which
is one drop of a handle after another. -/

namespace WeakIdentity

namespace World

variable {w : World} {strong weak : Multiset Object}

/-! ### Changes of one registry -/

theorem observe_eq (w : World) (n : Nat) (o : Object) :
    w.observe n o =
      (w.apply n ((w.registry n).observe w.heap.isLive (w.heap.address o) o).1,
        ((w.registry n).observe w.heap.isLive (w.heap.address o) o).2) := rfl

theorem forget_eq (w : World) (n : Nat) (o : Object) :
    w.forget n o =
      (w.apply n ((w.registry n).forget (w.heap.address o)).1,
        ((w.registry n).forget (w.heap.address o)).2) := rfl

theorem purge_eq (w : World) (n : Nat) :
    w.purge n =
      (w.apply n ((w.registry n).sweep w.heap.isLive).1,
        ((w.registry n).sweep w.heap.isLive).2) := rfl

/-- A change of a registry changes nothing in the heap but weak references. -/
theorem read_apply {β : Type} (g : Heap → β) (taken : ∀ heap o, g (heap.retainWeak o) = g heap)
    (released : ∀ heap o, g (heap.releaseWeak o) = g heap) (w : World) (n : Nat)
    (change : Change) : g (w.apply n change).heap = g w.heap := by
  rw [apply, Heap.read_foldl g released, Heap.read_foldl g taken]

@[simp] theorem strongCount_apply (w : World) (n : Nat) (change : Change) (o : Object) :
    (w.apply n change).heap.strongCount o = w.heap.strongCount o :=
  read_apply (·.strongCount o) (fun heap p => heap.strongCount_retainWeak p o)
    (fun heap p => heap.strongCount_releaseWeak p o) w n change

@[simp] theorem linkCount_apply (w : World) (n : Nat) (change : Change) (o : Object) :
    (w.apply n change).heap.linkCount o = w.heap.linkCount o :=
  read_apply (·.linkCount o) (fun heap p => heap.linkCount_retainWeak p o)
    (fun heap p => heap.linkCount_releaseWeak p o) w n change

@[simp] theorem place?_apply (w : World) (n : Nat) (change : Change) (o : Object) :
    (w.apply n change).heap.place? o = w.heap.place? o :=
  read_apply (·.place? o) (fun heap p => heap.place?_retainWeak p o)
    (fun heap p => heap.place?_releaseWeak p o) w n change

@[simp] theorem content?_apply (w : World) (n : Nat) (change : Change) (o : Object) :
    (w.apply n change).heap.content? o = w.heap.content? o :=
  read_apply (·.content? o) (fun heap p => heap.content?_retainWeak p o)
    (fun heap p => heap.content?_releaseWeak p o) w n change

@[simp] theorem registryNumber?_apply (w : World) (n : Nat) (change : Change) (o : Object) :
    (w.apply n change).registryNumber? o = w.registryNumber? o :=
  registryNumber?_congr (content?_apply w n change o)

@[simp] theorem isLive_apply (w : World) (n : Nat) (change : Change) (o : Object) :
    (w.apply n change).heap.isLive o = w.heap.isLive o := by
  rw [Bool.eq_iff_iff, Heap.isLive_iff, Heap.isLive_iff, strongCount_apply]

@[simp] theorem address_apply (w : World) (n : Nat) (change : Change) (o : Object) :
    (w.apply n change).heap.address o = w.heap.address o :=
  Heap.address_congr (place?_apply w n change o)

@[simp] theorem size_apply (w : World) (n : Nat) (change : Change) :
    (w.apply n change).registries.size = w.registries.size := by
  simp [apply]

theorem open_apply {n k : Nat} {change : Change} : (w.apply n change).Open k ↔ w.Open k := by
  simp [Open]

theorem registry_apply {n : Nat} (bound : n < w.registries.size) (change : Change) (k : Nat) :
    (w.apply n change).registry k = if k = n then change.registry else w.registry k := by
  rw [registry_eq_getD, registry_eq_getD, apply, Array.getElem?_setIfInBounds]
  by_cases same : k = n
  · subst same
    simp [bound]
  · simp [same, Ne.symm same]

theorem tokenCount_apply {n : Nat} (bound : n < w.registries.size) (change : Change) (o : Object) :
    (w.apply n change).tokenCount o + (w.registry n).tokens.count o =
      w.tokenCount o + change.registry.tokens.count o := by
  simp only [tokenCount, apply, Array.toList_setIfInBounds, List.set_eq_modify]
  exact sum_map_modify (fun r : Registry => r.tokens.count o) (fun _ => change.registry)
    (by simpa using getElem?_registry bound)

theorem weakRefs_apply {n : Nat} {change : Change}
    (taken : ∀ o ∈ change.taken, 0 < w.heap.weakRefs o) (o : Object) :
    (w.apply n change).heap.weakRefs o =
      w.heap.weakRefs o + change.taken.count o - change.released.count o := by
  rw [apply, Heap.weakRefs_foldl_releaseWeak, Heap.weakRefs_foldl_retainWeak taken]

/-- A balanced change of a registry keeps the invariant, if the table that it leaves is sound. -/
theorem Sound.apply (sound : w.Sound strong weak) {n : Nat} (bound : n < w.registries.size)
    {change : Change} (balances : change.Balances (w.registry n))
    (taken : ∀ o ∈ change.taken, 0 < w.heap.weakRefs o)
    (keyed : change.registry.Keyed w.heap) : (w.apply n change).Sound strong weak := by
  have counted := sound.counted
  refine ⟨⟨fun o => ?_, fun o => ?_, ?_, fun k => ?_⟩,
    sound.numbered.congr (fun o k h => by simpa using h) (size_apply w n change)⟩
  · rw [strongCount_apply, linkCount_apply, counted.strong_eq]
  · have refs := weakRefs_apply taken (n := n) o
    have tables := tokenCount_apply bound change o
    have balance := balances o
    have before := counted.weak_eq o
    rw [refs, Heap.sharedRef_congr (strongCount_apply w n change o)]
    omega
  · refine counted.apart.mono (place?_apply w n change) fun o h => ?_
    rw [weakRefs_apply taken] at h
    by_contra unreserved
    have absent : o ∉ change.taken := fun mem => unreserved (taken o mem)
    rw [List.count_eq_zero_of_not_mem absent] at h
    omega
  · have before : ((w.apply n change).registry k).Keyed w.heap := by
      rw [registry_apply bound]
      split
      · exact keyed
      · exact counted.keyed k
    exact before.congr fun o _ => address_apply w n change o

theorem Sound.purge (sound : w.Sound strong weak) {n : Nat} (bound : n < w.registries.size) :
    (w.purge n).1.Sound strong weak := by
  rw [purge_eq]
  exact sound.apply bound (Registry.balances_sweep _ _) (by simp)
    ((sound.counted.keyed n).sublist (Registry.sublist_sweep _ _))

theorem Sound.close (sound : w.Sound strong weak) {n : Nat} (bound : n < w.registries.size) :
    (w.close n).Sound strong weak :=
  sound.apply bound (Registry.balances_close _) (by simp [Registry.close])
    ((sound.counted.keyed n).sublist (List.nil_sublist _))

theorem Sound.forget (sound : w.Sound strong weak) {n : Nat} (bound : n < w.registries.size)
    (o : Object) : (w.forget n o).1.Sound strong weak := by
  have keyed := sound.counted.keyed n
  rw [forget_eq]
  exact sound.apply bound (Registry.balances_forget keyed.distinct _) (by simp) (keyed.forget _)

theorem Sound.observe (sound : w.Sound strong weak) {n : Nat} (bound : n < w.registries.size)
    {o : Object} (live : w.heap.isLive o = true) : (w.observe n o).1.Sound strong weak := by
  have reserved := sound.counted.reserved_of_live live
  rw [observe_eq]
  exact sound.apply bound (Registry.balances_observe _ _ _ _)
    (fun p mem => by rw [Registry.eq_of_mem_taken_observe mem]; exact reserved)
    ((sound.counted.keyed n).observe _ o)

/-! ### New registries -/

theorem createRegistry_eq (w : World) (alloc : Allocator) (r : Registry) :
    w.createRegistry alloc r =
      ({ (w.create alloc registryLayout (.registry w.registries.size)).1 with
          registries := w.registries.push r },
        w.heap.nextObject) := by
  rw [createRegistry, create_eq]

theorem registry_push {r : Registry} {heap : Heap} (k : Nat) :
    ({ w with heap, registries := w.registries.push r } : World).registry k =
      if k = w.registries.size then r else w.registry k := by
  rw [registry_eq_getD, registry_eq_getD, Array.getElem?_push]
  split <;> rfl

theorem Sound.createRegistry (sound : w.Sound strong weak) (alloc : Allocator) (r : Registry)
    (empty : r.entries = []) :
    (w.createRegistry alloc r).1.Sound (w.heap.nextObject ::ₘ strong) weak := by
  have counted := sound.createCounted alloc registryLayout (.registry w.registries.size)
    (by simp [Content.owned])
  have content := content?_create w alloc registryLayout (.registry w.registries.size)
  have number : ∀ o k, (w.createRegistry alloc r).1.registryNumber? o = some k →
      (o = w.heap.nextObject ∧ k = w.registries.size) ∨ w.registryNumber? o = some k := by
    intro o k h
    rw [createRegistry_eq, registryNumber?_eq_some] at h
    rw [registryNumber?_eq_some]
    have read := content o
    rw [h] at read
    split at read
    · next same => exact Or.inl ⟨same, Content.registry.inj (Option.some.inj read)⟩
    · exact Or.inr read.symm
  constructor
  · rw [createRegistry_eq]
    refine ⟨counted.strong_eq, fun o => ?_, counted.apart, fun k => ?_⟩
    · have tables : (w.registries.push r).toList.map (fun r => r.tokens.count o) =
          w.registries.toList.map (fun r => r.tokens.count o) ++ [0] := by
        simp [Registry.tokens, empty]
      rw [counted.weak_eq, tokenCount, tokenCount, tables]
      simp [create_eq]
    · have kept := counted.keyed k
      rw [create_eq] at kept ⊢
      rw [registry_push]
      split
      · exact ⟨by simp [empty], by simp [empty]⟩
      · exact kept
  · have size : (w.createRegistry alloc r).1.registries.size = w.registries.size + 1 := by
      simp [createRegistry_eq]
    refine ⟨fun o k h => ?_, fun o p k first second => ?_, ?_⟩
    · rw [size]
      rcases number o k h with ⟨-, rfl⟩ | old
      · have process := sound.numbered.process
        exact ⟨by omega, by omega⟩
      · have bounds := sound.numbered.bounds o k old
        exact ⟨bounds.1, by omega⟩
    · rcases number o k first with ⟨rfl, rfl⟩ | old
      · rcases number p _ second with ⟨rfl, -⟩ | old'
        · rfl
        · have bounds := sound.numbered.bounds p _ old'
          omega
      · rcases number p k second with ⟨rfl, rfl⟩ | old'
        · have bounds := sound.numbered.bounds o _ old
          omega
        · exact sound.numbered.unique o p k old old'
    · rw [size]
      exact Nat.zero_lt_succ _

/-! ### Destruction -/

theorem upgrade?_eq_some {weakHandle : Option Object} {w' : World} {o : Object}
    (h : w.upgrade? weakHandle = some (w', o)) :
    weakHandle = some o ∧ w.heap.isLive o = true ∧ w' = w.retain o := by
  unfold upgrade? at h
  split at h
  · cases h
  · next object =>
    split at h
    · next live =>
      obtain ⟨rfl, rfl⟩ := Prod.mk.inj (Option.some.inj h)
      exact ⟨rfl, live, rfl⟩
    · cases h

theorem Sound.report (sound : w.Sound strong weak) (destruction : Destruction) :
    (w.report destruction).Sound strong weak :=
  ⟨⟨sound.counted.strong_eq, sound.counted.weak_eq, sound.counted.apart, sound.counted.keyed⟩,
    ⟨sound.numbered.bounds, sound.numbered.unique, sound.numbered.process⟩⟩

theorem Sound.finalize (sound : w.Sound strong weak) {content : Content}
    (number : ∀ n, content = .registry n → n < w.registries.size) :
    (w.finalize content).Sound strong weak := by
  cases content with
  | plain => exact sound
  | probe name => exact sound.report _
  | node name links => exact sound.report _
  | keeper name target => exact sound.report _
  | purger name target =>
    simp only [World.finalize]
    split
    · exact sound.report _
    · next n found => exact (sound.purge (sound.numbered.refNumber_lt_size found)).report _
  | registry n => exact sound.close (number n rfl)

theorem perform_last {o : Object} {block : Block} (hb : w.heap.block? o = some block)
    (last : block.strong = 1) :
    w.perform (.release o) =
      (({ w with heap := w.heap.unretain o } : World).finalize block.content,
        block.content.owned.map Task.release ++ [.discard o]) := by
  simp [perform, hb, last, Heap.unretain]

theorem perform_more {o : Object} {block : Block} (hb : w.heap.block? o = some block)
    (more : block.strong ≠ 1) :
    w.perform (.release o) = ({ w with heap := w.heap.unretain o }, []) := by
  simp [perform, hb, more, Heap.unretain]

/-- The content of an object does not change while others are destroyed. -/
theorem content?_perform (w : World) (task : Task) (o : Object) :
    (w.perform task).1.heap.content? o = w.heap.content? o := by
  have finalized : ∀ (v : World) (content : Content),
      (v.finalize content).heap.content? o = v.heap.content? o := by
    intro v content
    cases content with
    | purger name target =>
      simp only [World.finalize]
      split
      · rfl
      · next n _ => exact content?_apply v n _ o
    | registry n => exact content?_apply v n _ o
    | _ => rfl
  cases task with
  | discard p => exact Heap.content?_releaseWeak w.heap p o
  | release p =>
    cases hb : w.heap.block? p with
    | none => simp [perform, hb]
    | some block =>
      by_cases last : block.strong = 1
      · rw [perform_last hb last, finalized]
        exact Heap.content?_unretain w.heap p o
      · rw [perform_more hb last]
        exact Heap.content?_unretain w.heap p o

/-- Destruction makes no registries. -/
theorem size_perform (w : World) (task : Task) :
    (w.perform task).1.registries.size = w.registries.size := by
  have finalized : ∀ (v : World) (content : Content),
      (v.finalize content).registries.size = v.registries.size := by
    intro v content
    cases content with
    | purger name target =>
      simp only [World.finalize]
      split
      · rfl
      · next n _ => exact size_apply v n _
    | registry n => exact size_apply v n _
    | _ => rfl
  cases task with
  | discard p => rfl
  | release p =>
    cases hb : w.heap.block? p with
    | none => rw [perform, hb]
    | some block =>
      by_cases last : block.strong = 1
      · rw [perform_last hb last, finalized]
      · rw [perform_more hb last]

end World

/-- The strong handle that a task drops. -/
def Task.release? : Task → Option Object
  | .release o => some o
  | .discard _ => none

/-- The weak reference that a task gives up. -/
def Task.discard? : Task → Option Object
  | .release _ => none
  | .discard o => some o

/-- The strong handles that tasks drop. -/
def releases (tasks : List Task) : Multiset Object := ↑(tasks.filterMap Task.release?)

/-- The weak references that tasks give up. -/
def discards (tasks : List Task) : Multiset Object := ↑(tasks.filterMap Task.discard?)

@[simp] theorem releases_nil : releases [] = 0 := rfl

@[simp] theorem discards_nil : discards [] = 0 := rfl

@[simp] theorem releases_release (o : Object) (tasks : List Task) :
    releases (.release o :: tasks) = o ::ₘ releases tasks := rfl

@[simp] theorem discards_release (o : Object) (tasks : List Task) :
    discards (.release o :: tasks) = discards tasks := rfl

@[simp] theorem releases_discard (o : Object) (tasks : List Task) :
    releases (.discard o :: tasks) = releases tasks := rfl

@[simp] theorem discards_discard (o : Object) (tasks : List Task) :
    discards (.discard o :: tasks) = o ::ₘ discards tasks := rfl

@[simp] theorem releases_append (first second : List Task) :
    releases (first ++ second) = releases first + releases second := by
  simp [releases]

@[simp] theorem discards_append (first second : List Task) :
    discards (first ++ second) = discards first + discards second := by
  simp [discards]

@[simp] theorem releases_map (objects : List Object) :
    releases (objects.map Task.release) = objects := by
  rw [releases, List.filterMap_map, show Task.release? ∘ Task.release = some from rfl,
    List.filterMap_some]

@[simp] theorem discards_map (objects : List Object) :
    discards (objects.map Task.release) = 0 := by
  simp [discards, Task.discard?]

namespace World

variable {w : World} {strong weak : Multiset Object}

theorem Numbered.unretain (numbered : w.Numbered) (o : Object) :
    ({ w with heap := w.heap.unretain o } : World).Numbered :=
  numbered.congr
    (fun p n h => by rwa [registryNumber?_congr (Heap.content?_unretain w.heap o p)] at h) rfl

/-- After the drop of the last strong handle, what the object held is still to be dropped, and so is
the weak reference that all strong handles share. -/
theorem Sound.unretain_last {o : Object} (sound : w.Sound (o ::ₘ strong) weak) {block : Block}
    (hb : w.heap.block? o = some block) (last : block.strong = 1) :
    ({ w with heap := w.heap.unretain o } : World).Sound
      (↑block.content.owned + strong) ({o} + weak) := by
  have counted := sound.counted
  refine ⟨counted.reheap (fun p => ?_) (fun p => ?_) (fun p => Heap.place?_unretain w.heap o p)
    (fun p h => by simpa using h), sound.numbered.unretain o⟩
  · have moved := Heap.linkCount_unretain_last hb last p
    have before := counted.strong_eq p
    rw [Heap.strongCount_unretain, Multiset.count_add, Multiset.coe_count]
    rw [Multiset.count_cons] at before
    omega
  · have shared := Heap.sharedRef_unretain_last hb last p
    rw [Heap.weakRefs_unretain, counted.weak_eq, Multiset.count_add, Multiset.count_singleton]
    omega

theorem Sound.unretain_more {o : Object} (sound : w.Sound (o ::ₘ strong) weak) {block : Block}
    (hb : w.heap.block? o = some block) (more : block.strong ≠ 1) :
    ({ w with heap := w.heap.unretain o } : World).Sound strong weak := by
  have counted := sound.counted
  refine ⟨counted.reheap (fun p => ?_) (fun p => ?_) (fun p => Heap.place?_unretain w.heap o p)
    (fun p h => by simpa using h), sound.numbered.unretain o⟩
  · have before := counted.strong_eq p
    rw [Heap.strongCount_unretain, Heap.linkCount_unretain_other hb more]
    rw [Multiset.count_cons] at before
    omega
  · rw [Heap.weakRefs_unretain, counted.weak_eq, Heap.sharedRef_unretain_other hb more]

/-- After the drop of the last handle to a registry it can no longer be called. -/
theorem Numbered.not_open_unretain {o : Object} {block : Block} (numbered : w.Numbered)
    (hb : w.heap.block? o = some block) (last : block.strong = 1) {n : Nat}
    (content : block.content = .registry n) :
    n < w.registries.size ∧ ¬({ w with heap := w.heap.unretain o } : World).Open n := by
  have number : w.registryNumber? o = some n := by
    rw [registryNumber?_eq_some, Heap.content?, hb, ← content]
    rfl
  obtain ⟨notProcess, bound⟩ := numbered.bounds o n number
  refine ⟨bound, ?_⟩
  rintro (process | ⟨p, live, found⟩)
  · exact notProcess process
  · rw [registryNumber?_congr (Heap.content?_unretain w.heap o p)] at found
    obtain rfl := numbered.unique p o n found number
    have one : w.heap.strongCount p = 1 := by rw [Heap.strongCount, hb]; exact last
    rw [Heap.isLive_iff, Heap.strongCount_unretain, if_pos rfl] at live
    omega

/-- Dropping a strong handle leaves its owner with the handles that it kept alive. -/
theorem Sound.perform_release {o : Object} (sound : w.Sound (o ::ₘ strong) weak) :
    (w.perform (.release o)).1.Sound (releases (w.perform (.release o)).2 + strong)
      (discards (w.perform (.release o)).2 + weak) := by
  have live := sound.counted.live_of_mem (Multiset.mem_cons_self o strong)
  obtain ⟨block, hb, -⟩ := Heap.block_of_live live
  by_cases last : block.strong = 1
  · rw [perform_last hb last]
    have tasks : releases (block.content.owned.map Task.release ++ [.discard o]) =
        block.content.owned := by simp
    have pending : discards (block.content.owned.map Task.release ++ [.discard o]) = {o} := by
      simp
    rw [tasks, pending]
    exact (sound.unretain_last hb last).finalize fun n content =>
      (sound.numbered.not_open_unretain hb last content).1
  · rw [perform_more hb last, releases_nil, discards_nil, Multiset.zero_add, Multiset.zero_add]
    exact sound.unretain_more hb last

end World

end WeakIdentity
