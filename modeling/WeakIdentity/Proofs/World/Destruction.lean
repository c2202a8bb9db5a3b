import WeakIdentity.Proofs.World.Alike
import WeakIdentity.Proofs.World.Commute

/-! The objects that are destroyed while tasks are carried out, and their order: each object when a
task drops the last strong handle to it, and no other. -/

namespace WeakIdentity

/-- The name that the destruction of a content reports. -/
def Content.name? : Content → Option String
  | .probe name | .node name _ | .purger name _ | .keeper name _ => some name
  | .plain | .registry _ => none

namespace World

/-- The object that a task destroys. -/
def destroyedObject? (w : World) : Task → Option Object
  | .discard _ => none
  | .release o => if w.heap.strongCount o = 1 then some o else none

/-- The objects that are destroyed while tasks are carried out, in order. -/
def destroyedObjects (w : World) : List Task → List Object
  | [] => []
  | task :: rest =>
    (w.destroyedObject? task).toList ++
      destroyedObjects (w.perform task).1 ((w.perform task).2 ++ rest)
termination_by tasks => tasks.length + w.heap.debt
decreasing_by
  have := debt_perform w task
  simp only [List.length_append, List.length_cons]
  omega

variable {w v : World}

/-- Tasks destroy the same objects in worlds that are alike. -/
theorem Alike.destroyedObjects (alike : w.Alike v) (tasks : List Task) :
    w.destroyedObjects tasks = v.destroyedObjects tasks := by
  fun_induction World.destroyedObjects w tasks generalizing v with
  | case1 w => rw [World.destroyedObjects]
  | case2 w task rest ih =>
    obtain ⟨next, same⟩ := alike.perform task
    have destroyed : w.destroyedObject? task = v.destroyedObject? task := by
      cases task with
      | discard o => rfl
      | release o => rw [destroyedObject?, destroyedObject?, alike.strongCount_eq]
    rw [World.destroyedObjects, ← same, ← destroyed, ih next]

/-! ### One task -/

theorem strongCount_finalize (w : World) (content : Content) (o : Object) :
    (w.finalize content).heap.strongCount o = w.heap.strongCount o := by
  cases content with
  | purger name target =>
    simp only [finalize]
    split
    · rfl
    · next n _ => exact strongCount_apply w n _ o
  | registry n => exact strongCount_apply w n _ o
  | _ => rfl

theorem strongCount_perform (w : World) (o p : Object) :
    (w.perform (.release o)).1.heap.strongCount p =
      w.heap.strongCount p - if p = o then 1 else 0 := by
  cases hb : w.heap.block? o with
  | none =>
    have none : w.heap.strongCount o = 0 := by simp [Heap.strongCount, hb]
    simp only [perform, hb]
    split
    · next same => rw [same, none]
    · rfl
  | some block =>
    by_cases last : block.strong = 1
    · rw [perform_last hb last, strongCount_finalize]
      exact Heap.strongCount_unretain w.heap o p
    · rw [perform_more hb last]
      exact Heap.strongCount_unretain w.heap o p

/-- A task destroys at most the object it drops, whatever the destructor of that does. -/
theorem isLive_perform (w : World) (task : Task) (p : Object) :
    (w.perform task).1.heap.isLive p = true ↔
      w.heap.isLive p = true ∧ w.destroyedObject? task ≠ some p := by
  rw [Heap.isLive_iff, Heap.isLive_iff]
  cases task with
  | discard o =>
    rw [perform, Heap.strongCount_releaseWeak]
    simp [destroyedObject?]
  | release o =>
    rw [strongCount_perform, destroyedObject?]
    by_cases same : p = o
    · subst same
      simp
      omega
    · simp [same, Ne.symm same]

/-- A task destroys an object just if it drops the last strong handle to it. -/
theorem dies_perform {o : Object} (live : w.heap.isLive o = true) (task : Task) :
    (w.perform task).1.heap.isLive o = false ↔ task = .release o ∧ w.heap.strongCount o = 1 := by
  rw [← Bool.not_eq_true, isLive_perform, and_iff_right live, not_not]
  cases task with
  | discard p => simp [destroyedObject?]
  | release p =>
    rw [destroyedObject?, Task.release.injEq, Option.ite_none_right_eq_some, Option.some.injEq]
    constructor
    · rintro ⟨last, rfl⟩
      exact ⟨rfl, last⟩
    · rintro ⟨rfl, last⟩
      exact ⟨last, rfl⟩

theorem live_of_destroyed {task : Task} {o : Object} (h : w.destroyedObject? task = some o) :
    w.heap.isLive o = true := by
  cases task with
  | discard p => cases h
  | release p =>
    rw [destroyedObject?] at h
    split at h
    · next last =>
      rw [← Option.some.inj h, Heap.isLive_iff, last]
      exact Nat.one_pos
    · cases h

theorem destroyed_finalize (w : World) (content : Content) :
    (w.finalize content).destroyed.map Destruction.name =
      w.destroyed.map Destruction.name ++ content.name?.toList := by
  cases content with
  | purger name target =>
    simp only [finalize]
    split <;> simp [report, purge, apply, Content.name?, Destruction.name]
  | plain | registry n => simp [finalize, close, apply, Content.name?]
  | _ => simp [finalize, report, Content.name?, Destruction.name]

/-- A task reports the object that it destroys, if that has a name. -/
theorem destroyed_perform (w : World) (task : Task) :
    (w.perform task).1.destroyed.map Destruction.name =
      w.destroyed.map Destruction.name ++
        (w.destroyedObject? task).toList.filterMap fun o =>
          (w.heap.content? o).bind Content.name? := by
  cases task with
  | discard o => simp [perform, destroyedObject?]
  | release o =>
    cases hb : w.heap.block? o with
    | none => simp [perform, hb, destroyedObject?, Heap.strongCount]
    | some block =>
      by_cases last : block.strong = 1
      · rw [perform_last hb last, destroyed_finalize]
        cases h : block.content.name? <;>
          simp [destroyedObject?, Heap.strongCount, Heap.content?, hb, last, h]
      · rw [perform_more hb last]
        simp [destroyedObject?, Heap.strongCount, hb, last]

/-! ### Many tasks -/

theorem live_of_live_settle {tasks : List Task} {o : Object}
    (live : (w.settle tasks).heap.isLive o = true) : w.heap.isLive o = true := by
  fun_induction World.settle w tasks with
  | case1 w => exact live
  | case2 w task rest ih => exact ((isLive_perform w task o).mp (ih live)).1

/-- The destroyed objects are those that were live before the tasks and are dead after them. -/
theorem mem_destroyedObjects {tasks : List Task} {o : Object} :
    o ∈ w.destroyedObjects tasks ↔
      w.heap.isLive o = true ∧ (w.settle tasks).heap.isLive o = false := by
  fun_induction World.destroyedObjects w tasks with
  | case1 w =>
    rw [settle]
    simp
  | case2 w task rest ih =>
    have step := isLive_perform w task o
    have later : ((w.perform task).1.settle ((w.perform task).2 ++ rest)).heap.isLive o = true →
        (w.perform task).1.heap.isLive o = true := live_of_live_settle
    rw [settle, List.mem_append, ih, Option.mem_toList, step]
    constructor
    · rintro (destroyed | ⟨⟨live, -⟩, dead⟩)
      · refine ⟨live_of_destroyed destroyed, ?_⟩
        rw [← Bool.not_eq_true]
        intro live
        exact (step.mp (later live)).2 destroyed
      · exact ⟨live, dead⟩
    · rintro ⟨live, dead⟩
      by_cases destroyed : w.destroyedObject? task = some o
      · exact Or.inl destroyed
      · exact Or.inr ⟨⟨live, destroyed⟩, dead⟩

theorem nodup_destroyedObjects (w : World) (tasks : List Task) :
    (w.destroyedObjects tasks).Nodup := by
  fun_induction World.destroyedObjects w tasks with
  | case1 w => exact List.nodup_nil
  | case2 w task rest ih =>
    have one : (w.destroyedObject? task).toList.Nodup := by cases w.destroyedObject? task <;> simp
    refine List.nodup_append.mpr ⟨one, ih, ?_⟩
    rintro o first p second rfl
    have live := (isLive_perform w task o).mp (mem_destroyedObjects.mp second).1
    exact live.2 (Option.mem_toList.mp first)

/-- The reported destructions are the names of the destroyed objects, in order. -/
theorem destroyed_settle (w : World) (tasks : List Task) :
    (w.settle tasks).destroyed.map Destruction.name =
      w.destroyed.map Destruction.name ++
        (w.destroyedObjects tasks).filterMap fun o => (w.heap.content? o).bind Content.name? := by
  fun_induction World.destroyedObjects w tasks with
  | case1 w =>
    rw [settle]
    simp
  | case2 w task rest ih =>
    simp only [content?_perform] at ih
    rw [settle, ih, destroyed_perform, List.filterMap_append, List.append_assoc]

theorem content?_settle (w : World) (tasks : List Task) (o : Object) :
    (w.settle tasks).heap.content? o = w.heap.content? o := by
  fun_induction World.settle w tasks with
  | case1 w => rfl
  | case2 w task rest ih => rw [ih, content?_perform]

/-! ### Handles for a while -/

/-- A handle that is made and dropped again leaves no trace. -/
theorem alike_release_retain {o : Object} (live : w.heap.isLive o = true) :
    ((w.retain o).release o).Alike w := by
  rw [release_retain live]
  exact Alike.refl w

/-- The objects that are destroyed by a call through a weak handle. -/
def tryDestroyedObjects (w : World) (n : Nat) (weak : Option Object) : List Object :=
  match w.upgrade? weak with
  | none => []
  | some (held, object) => (held.observe n object).1.destroyedObjects [.release object]

section TryObserve

variable {o : Object} (live : w.heap.isLive o = true) (n : Nat)
include live

theorem alike_tryObserve : (((w.retain o).observe n o).1.release o).Alike w := by
  have observed : ((w.retain o).observe n o).1.Alike (w.retain o) := (Alike.refl _).applyLeft n _
  exact (observed.release o).trans (alike_release_retain live)

/-- The object is not destroyed, even if it has been registered meanwhile. -/
theorem destroyedObjects_tryObserve :
    ((w.retain o).observe n o).1.destroyedObjects [.release o] = [] := by
  rw [List.eq_nil_iff_forall_not_mem]
  intro p mem
  obtain ⟨before, after⟩ := mem_destroyedObjects.mp mem
  have same := (alike_tryObserve live n).isLive_eq p
  rw [observe_eq, isLive_apply, World.retain, Heap.isLive_retain live] at before
  rw [release, after, before] at same
  cases same

end TryObserve

theorem tryDestroyedObjects_eq_nil (w : World) (n : Nat) (weak : Option Object) :
    w.tryDestroyedObjects n weak = [] := by
  unfold tryDestroyedObjects
  split
  · rfl
  · next held object upgraded =>
    obtain ⟨-, live, rfl⟩ := upgrade?_eq_some upgraded
    exact destroyedObjects_tryObserve live n

end World

end WeakIdentity
