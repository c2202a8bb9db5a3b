import WeakIdentity.Proofs.World.Changes

/-! Worlds that are alike: they may differ in their tables, in where their blocks lie, and in
whether a destruction purges. Objects live and die together in both. -/

namespace WeakIdentity

/-- A content, apart from whether its destruction purges. -/
def Content.shape : Content → Content
  | .purger name target => .keeper name target
  | content => content

theorem Content.owned_shape (content : Content) : content.shape.owned = content.owned := by
  cases content <;> rfl

theorem Content.shape_eq_node {content : Content} {name : String} {links : List Object} :
    content.shape = .node name links ↔ content = .node name links := by
  cases content <;> simp [shape]

theorem Content.shape_eq_registry {content : Content} {n : Nat} :
    content.shape = .registry n ↔ content = .registry n := by
  cases content <;> simp [shape]

/-- What the lifetime of an object depends on. -/
def Block.core (block : Block) : Nat × Content := (block.strong, block.content.shape)

/-- The name that a destruction reports. -/
def Destruction.name : Destruction → String
  | .object name => name
  | .purger name _ => name

namespace Heap

/-- What the lifetime of an object depends on. -/
def core? (heap : Heap) (object : Object) : Option (Nat × Content) :=
  (heap.block? object).map Block.core

theorem strongCount_eq_core (heap : Heap) (object : Object) :
    heap.strongCount object = (heap.core? object).elim 0 Prod.fst := by
  rw [strongCount, core?]
  cases heap.block? object <;> rfl

theorem core?_modify (heap : Heap) (object other : Object) {f : Block → Block}
    {g : Nat × Content → Nat × Content} (h : ∀ block, (f block).core = g block.core) :
    (heap.modify object f).core? other =
      if object = other then (heap.core? other).map g else heap.core? other := by
  rw [core?, core?, block?_modify]
  split
  · rw [Option.map_map, Option.map_map]
    exact congrArg (Option.map · _) (funext h)
  · rfl

@[simp] theorem core?_retainWeak (heap : Heap) (object other : Object) :
    (heap.retainWeak object).core? other = heap.core? other :=
  map_block?_modify Block.core heap object other _ fun _ => rfl

@[simp] theorem core?_releaseWeak (heap : Heap) (object other : Object) :
    (heap.releaseWeak object).core? other = heap.core? other :=
  map_block?_modify Block.core heap object other _ fun _ => rfl

theorem core?_allocate (heap : Heap) (alloc : Allocator) (layout : Layout) (content : Content)
    (other : Object) :
    (heap.allocate alloc layout content).core? other =
      if other = heap.nextObject then some (1, content.shape) else heap.core? other := by
  unfold core?
  split
  · next same =>
    subst same
    rw [block?_allocate_next]
    rfl
  · next different => rw [block?_allocate_of_ne heap alloc layout content different]

@[simp] theorem size_modify (heap : Heap) (object : Object) (f : Block → Block) :
    (heap.modify object f).blocks.size = heap.blocks.size := by
  simp [modify]

end Heap

namespace World

theorem link?_of_node {w : World} {node : Object} {name : String} {links : List Object}
    (h : w.heap.content? node = some (.node name links)) (target : Object) :
    w.link? node target =
      some { w with
        heap := (w.heap.retain target).setContent node (.node name (links ++ [target])) } := by
  unfold Heap.content? at h
  simp only [link?, h]

theorem link?_of_other {w : World} {node : Object}
    (h : ∀ name links, w.heap.content? node ≠ some (.node name links)) (target : Object) :
    w.link? node target = none := by
  unfold link?
  split
  · next name links content => exact absurd content (h name links)
  · rfl

theorem unlink?_of_node {w : World} {node : Object} {name : String} {links : List Object}
    (h : w.heap.content? node = some (.node name links)) :
    w.unlink? node =
      some (({ w with heap := w.heap.setContent node (.node name []) } : World).settle
        (links.map Task.release), links.length) := by
  unfold Heap.content? at h
  simp only [unlink?, h]

theorem unlink?_of_other {w : World} {node : Object}
    (h : ∀ name links, w.heap.content? node ≠ some (.node name links)) :
    w.unlink? node = none := by
  unfold unlink?
  split
  · next name links content => exact absurd content (h name links)
  · rfl

/-- The objects of two worlds are the same and hold the same objects. -/
structure Alike (w v : World) : Prop where
  cores : ∀ o, w.heap.core? o = v.heap.core? o
  size : w.heap.blocks.size = v.heap.blocks.size
  registries : w.registries.size = v.registries.size
  destroyed : w.destroyed.map Destruction.name = v.destroyed.map Destruction.name

namespace Alike

variable {w v : World}

theorem refl (w : World) : w.Alike w := ⟨fun _ => rfl, rfl, rfl, rfl⟩

variable (alike : w.Alike v)
include alike

/-! ### What can be read off -/

theorem nextObject_eq : w.heap.nextObject = v.heap.nextObject :=
  congrArg Object.mk alike.size

theorem strongCount_eq (o : Object) : w.heap.strongCount o = v.heap.strongCount o := by
  rw [Heap.strongCount_eq_core, Heap.strongCount_eq_core, alike.cores]

theorem isLive_eq (o : Object) : w.heap.isLive o = v.heap.isLive o := by
  rw [Bool.eq_iff_iff, Heap.isLive_iff, Heap.isLive_iff, alike.strongCount_eq]

theorem shape_eq (o : Object) :
    (w.heap.content? o).map Content.shape = (v.heap.content? o).map Content.shape := by
  have same := congrArg (Option.map Prod.snd) (alike.cores o)
  simpa [Heap.core?, Heap.content?, Option.map_map, Function.comp_def, Block.core] using same

theorem content_node {o : Object} {name : String} {links : List Object}
    (h : w.heap.content? o = some (.node name links)) :
    v.heap.content? o = some (.node name links) := by
  have same := alike.shape_eq o
  rw [h, Option.map_some] at same
  obtain ⟨content, found, shape⟩ := Option.map_eq_some_iff.mp same.symm
  rw [found, Content.shape_eq_node.mp shape]

theorem registryNumber?_le {o : Object} {n : Nat} (h : w.registryNumber? o = some n) :
    v.registryNumber? o = some n := by
  rw [registryNumber?_eq_some] at h ⊢
  have same := alike.shape_eq o
  rw [h, Option.map_some] at same
  obtain ⟨content, found, shape⟩ := Option.map_eq_some_iff.mp same.symm
  rw [found, Content.shape_eq_registry.mp shape]

theorem symm : v.Alike w :=
  ⟨fun o => (alike.cores o).symm, alike.size.symm, alike.registries.symm, alike.destroyed.symm⟩

theorem trans {u : World} (second : v.Alike u) : w.Alike u :=
  ⟨fun o => (alike.cores o).trans (second.cores o), alike.size.trans second.size,
    alike.registries.trans second.registries, alike.destroyed.trans second.destroyed⟩

theorem registryNumber?_eq (o : Object) : w.registryNumber? o = v.registryNumber? o := by
  cases h : w.registryNumber? o with
  | some n => exact (alike.registryNumber?_le h).symm
  | none =>
    cases h' : v.registryNumber? o with
    | none => rfl
    | some n =>
      rw [alike.symm.registryNumber?_le h'] at h
      cases h

/-! ### What keeps worlds alike -/

theorem modify {f : Block → Block} {g : Nat × Content → Nat × Content}
    (h : ∀ block, (f block).core = g block.core) (o : Object) :
    ({ w with heap := w.heap.modify o f } : World).Alike
      { v with heap := v.heap.modify o f } where
  cores p := by rw [Heap.core?_modify _ _ _ h, Heap.core?_modify _ _ _ h, alike.cores]
  size := by simpa using alike.size
  registries := alike.registries
  destroyed := alike.destroyed

theorem retain (o : Object) : (w.retain o).Alike (v.retain o) :=
  alike.modify (g := fun core => (core.1 + 1, core.2)) (fun _ => rfl) o

theorem unretain (o : Object) :
    ({ w with heap := w.heap.unretain o } : World).Alike { v with heap := v.heap.unretain o } :=
  alike.modify (g := fun core => (core.1 - 1, core.2)) (fun _ => rfl) o

theorem retainWeak (o : Object) : (w.retainWeak o).Alike (v.retainWeak o) :=
  alike.modify (f := fun block => { block with weak := block.weak + 1 }) (g := id) (fun _ => rfl) o

theorem releaseWeak (o : Object) : (w.releaseWeak o).Alike (v.releaseWeak o) :=
  alike.modify (f := fun block => { block with weak := block.weak - 1 }) (g := id) (fun _ => rfl) o

theorem setContent (o : Object) (content : Content) :
    ({ w with heap := w.heap.setContent o content } : World).Alike
      { v with heap := v.heap.setContent o content } :=
  alike.modify (g := fun core => (core.1, content.shape)) (fun _ => rfl) o

/-- A change of a registry keeps worlds alike. -/
theorem applyLeft (n : Nat) (change : Change) : (w.apply n change).Alike v where
  cores o := by
    rw [← alike.cores]
    exact read_apply (fun heap => heap.core? o) (fun heap p => heap.core?_retainWeak p o)
      (fun heap p => heap.core?_releaseWeak p o) w n change
  size := by
    rw [← alike.size]
    exact read_apply (fun heap => heap.blocks.size) (fun heap p => heap.size_modify p _)
      (fun heap p => heap.size_modify p _) w n change
  registries := by rw [size_apply, alike.registries]
  destroyed := alike.destroyed

theorem apply (n k : Nat) (change change' : Change) :
    (w.apply n change).Alike (v.apply k change') :=
  ((alike.applyLeft n change).symm.applyLeft k change').symm

theorem report {destruction destruction' : Destruction}
    (same : destruction.name = destruction'.name) :
    (w.report destruction).Alike (v.report destruction') where
  cores := alike.cores
  size := alike.size
  registries := alike.registries
  destroyed := by simp [World.report, alike.destroyed, same]

/-- A purger reports as a keeper does, whatever it purges. -/
theorem finalizeShape (content : Content) :
    (w.finalize content).Alike (v.finalize content.shape) := by
  cases content with
  | plain => exact alike
  | probe name => exact alike.report rfl
  | node name links => exact alike.report rfl
  | keeper name target => exact alike.report rfl
  | purger name target =>
    simp only [World.finalize, Content.shape]
    split
    · exact alike.report rfl
    · next n _ => exact Alike.report (alike.applyLeft n _) rfl
  | registry n => exact alike.apply n n _ _

theorem finalize {content content' : Content} (same : content.shape = content'.shape) :
    (w.finalize content).Alike (v.finalize content') := by
  have first := alike.finalizeShape content
  rw [same] at first
  exact first.trans ((refl v).finalizeShape content').symm

/-- A task does the same in both worlds and brings the same tasks. -/
theorem perform (task : Task) :
    (w.perform task).1.Alike (v.perform task).1 ∧ (w.perform task).2 = (v.perform task).2 := by
  cases task with
  | discard o => exact ⟨alike.releaseWeak o, rfl⟩
  | release o =>
    have same := alike.cores o
    unfold Heap.core? at same
    cases first : w.heap.block? o with
    | none =>
      rw [first, Option.map_none, eq_comm, Option.map_eq_none_iff] at same
      simp only [World.perform, first, same]
      exact ⟨alike, trivial⟩
    | some block =>
      rw [first, Option.map_some, eq_comm, Option.map_eq_some_iff] at same
      obtain ⟨block', second, core⟩ := same
      obtain ⟨strong, shape⟩ := Prod.mk.inj core
      have dropped := alike.unretain o
      by_cases last : block.strong = 1
      · rw [perform_last first last, perform_last second (strong.trans last)]
        refine ⟨dropped.finalize shape.symm, ?_⟩
        rw [← block.content.owned_shape, ← block'.content.owned_shape, shape]
      · rw [perform_more first last, perform_more second (by rwa [strong])]
        exact ⟨dropped, rfl⟩

theorem settle (tasks : List Task) : (w.settle tasks).Alike (v.settle tasks) := by
  fun_induction World.settle w tasks generalizing v with
  | case1 w =>
    rw [World.settle]
    exact alike
  | case2 w task rest ih =>
    obtain ⟨next, same⟩ := alike.perform task
    rw [World.settle, ← same]
    exact ih next

theorem release (o : Object) : (w.release o).Alike (v.release o) := alike.settle [.release o]

/-! ### New objects -/

theorem retainAll (objects : List Object) :
    ({ w with heap := objects.foldl Heap.retain w.heap } : World).Alike
      { v with heap := objects.foldl Heap.retain v.heap } := by
  induction objects generalizing w v with
  | nil => exact alike
  | cons o rest ih => exact ih (alike.retain o)

/-- New objects of one shape, wherever they are put. -/
theorem create (alloc alloc' : Allocator) (layout : Layout) (content content' : Content)
    (same : content.shape = content'.shape) :
    (w.create alloc layout content).1.Alike (v.create alloc' layout content').1 := by
  have owned : content.owned = content'.owned := by
    rw [← content.owned_shape, same, content'.owned_shape]
  have held := alike.retainAll content.owned
  have next := held.nextObject_eq
  rw [create_eq, create_eq, ← owned]
  exact
    { cores := fun o => by
        have kept := held.cores o
        rw [Heap.core?_allocate, Heap.core?_allocate, next, same]
        split
        · rfl
        · exact kept
      size := by simpa [Heap.allocate] using held.size
      registries := alike.registries
      destroyed := alike.destroyed }

theorem createRegistry (alloc alloc' : Allocator) (r r' : Registry) :
    (w.createRegistry alloc r).1.Alike (v.createRegistry alloc' r').1 := by
  have made := alike.create alloc alloc' registryLayout (.registry w.registries.size)
    (.registry v.registries.size) (by rw [alike.registries])
  rw [createRegistry_eq, createRegistry_eq]
  exact ⟨made.cores, made.size, by simpa using alike.registries, made.destroyed⟩

/-! ### Links -/

theorem link? (node target : Object) :
    Option.Rel Alike (w.link? node target) (v.link? node target) := by
  by_cases h : ∃ name links, w.heap.content? node = some (.node name links)
  · obtain ⟨name, links, content⟩ := h
    have linked := (alike.retain target).setContent node (.node name (links ++ [target]))
    rw [link?_of_node content, link?_of_node (alike.content_node content)]
    exact .some linked
  · rw [link?_of_other fun name links content => h ⟨name, links, content⟩,
      link?_of_other fun name links content => h ⟨name, links, alike.symm.content_node content⟩]
    exact .none

end Alike

end World

end WeakIdentity
