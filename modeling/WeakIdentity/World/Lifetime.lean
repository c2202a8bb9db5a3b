import WeakIdentity.World.Basic

/-! Lifetimes: an object is destroyed when its last strong handle is dropped. Destruction first
runs the destructor of the content, then drops the strong handles that the content holds, one after
another and each with all that follows from it, and last gives up the weak reference that the strong
handles had together. -/

namespace WeakIdentity

/-- What remains to be done for a destruction. -/
inductive Task where
  | release (object : Object)
  /-- Give up the weak reference that the strong handles had together. -/
  | discard (object : Object)
  deriving DecidableEq, Repr

/-- The tasks that the destruction of a live object brings: one for each handle in it, and one for
its block. -/
def Block.debt (block : Block) : Nat :=
  if block.strong = 0 then 0 else block.content.owned.length + 1

/-- The tasks that the destruction of all live objects among some brings. -/
def Block.totalDebt : List Block → Nat
  | [] => 0
  | block :: rest => block.debt + totalDebt rest

/-- The tasks that the destruction of all live objects brings. -/
def Heap.debt (heap : Heap) : Nat := Block.totalDebt heap.blocks.toList

/-- Changing one block changes the tasks to come by as much as its own. -/
theorem Block.totalDebt_modify (f : Block → Block) {blocks : List Block} {i : Nat} {block : Block}
    (h : blocks[i]? = some block) :
    totalDebt (blocks.modify i f) + block.debt = totalDebt blocks + (f block).debt := by
  induction blocks generalizing i with
  | nil => simp at h
  | cons first rest ih =>
    cases i with
    | zero =>
      simp only [List.getElem?_cons_zero, Option.some.injEq] at h
      subst h
      simp only [List.modify_zero_cons, totalDebt]
      omega
    | succ i =>
      have step := ih (by simpa using h)
      simp only [List.modify_succ_cons, totalDebt]
      omega

namespace Heap

theorem debt_modify {heap : Heap} {object : Object} {block : Block}
    (h : heap.block? object = some block) (f : Block → Block) :
    (heap.modify object f).debt + block.debt = heap.debt + (f block).debt := by
  simp only [debt, modify, Array.toList_modify]
  exact Block.totalDebt_modify f (by simpa [block?] using h)

/-- A change that keeps every block's tasks keeps their sum. -/
theorem debt_modify_eq (heap : Heap) (object : Object) (f : Block → Block)
    (h : ∀ block : Block, (f block).debt = block.debt) :
    (heap.modify object f).debt = heap.debt := by
  cases hb : heap.block? object with
  | some block =>
    have step := debt_modify hb f
    rw [h block] at step
    omega
  | none =>
    have out : heap.blocks.size ≤ object.serial := by simpa [block?] using hb
    simp [debt, modify, List.modify_eq_self, out]

@[simp] theorem debt_retainWeak (heap : Heap) (object : Object) :
    (heap.retainWeak object).debt = heap.debt :=
  debt_modify_eq heap object _ fun _ => rfl

@[simp] theorem debt_releaseWeak (heap : Heap) (object : Object) :
    (heap.releaseWeak object).debt = heap.debt :=
  debt_modify_eq heap object _ fun _ => rfl

theorem debt_foldl {f : Heap → Object → Heap} (h : ∀ heap object, (f heap object).debt = heap.debt)
    (heap : Heap) (objects : List Object) : (objects.foldl f heap).debt = heap.debt := by
  induction objects generalizing heap with
  | nil => rfl
  | cons object rest ih => rw [List.foldl_cons, ih, h]

end Heap

namespace World

/-- What the destruction of a content does before the handles in it are dropped. -/
def finalize (w : World) : Content → World
  | .plain => w
  | .probe name => w.report (.object name)
  | .node name _ => w.report (.object name)
  | .keeper name _ => w.report (.object name)
  | .purger name target =>
    match w.refNumber? target with
    | none => w.report (.purger name 0)
    | some number =>
      let (purged, count) := w.purge number
      purged.report (.purger name count)
  | .registry number => w.close number

/-- Carries out a task, and returns the tasks that follow from it. -/
def perform (w : World) : Task → World × List Task
  | .discard object => ({ w with heap := w.heap.releaseWeak object }, [])
  | .release object =>
    match w.heap.block? object with
    | none => (w, [])
    | some block =>
      let released : World :=
        { w with heap := w.heap.modify object fun b => { b with strong := b.strong - 1 } }
      if block.strong = 1 then
        (released.finalize block.content,
          block.content.owned.map Task.release ++ [.discard object])
      else (released, [])

@[simp] theorem debt_apply (w : World) (number : Nat) (change : Change) :
    (w.apply number change).heap.debt = w.heap.debt := by
  simp [apply, Heap.debt_foldl]

@[simp] theorem debt_finalize (w : World) (content : Content) :
    (w.finalize content).heap.debt = w.heap.debt := by
  cases content <;> simp only [finalize, close, report, debt_apply]
  split <;> simp [purge]

/-- Every task is paid for by the tasks to come. -/
theorem debt_perform (w : World) (task : Task) :
    (w.perform task).2.length + (w.perform task).1.heap.debt ≤ w.heap.debt := by
  cases task with
  | discard object => simp [perform]
  | release object =>
    simp only [perform]
    split
    · simp
    · next block hb =>
      have step := Heap.debt_modify hb fun b => { b with strong := b.strong - 1 }
      by_cases h : block.strong = 1
      · simp only [h, if_true, List.length_append, List.length_map, List.length_cons,
          List.length_nil, debt_finalize]
        simp only [Block.debt, h] at step
        simp at step
        omega
      · simp only [h, if_false, List.length_nil, Block.debt] at step ⊢
        split at step <;> split at step <;> omega

/-- Carries out tasks in order, each with all that it brings. -/
def settle (w : World) : List Task → World
  | [] => w
  | task :: rest => settle (w.perform task).1 ((w.perform task).2 ++ rest)
termination_by tasks => tasks.length + w.heap.debt
decreasing_by
  have := debt_perform w task
  simp only [List.length_append, List.length_cons]
  omega

/-- A new object, with a strong handle to it and one to each object that its content holds. -/
def create (w : World) (alloc : Allocator) (layout : Layout) (content : Content) :
    World × Object :=
  let heap := content.owned.foldl Heap.retain w.heap
  ({ w with heap := heap.allocate alloc layout content }, heap.nextObject)

def retain (w : World) (object : Object) : World := { w with heap := w.heap.retain object }

/-- One strong handle less, with all that follows. -/
def release (w : World) (object : Object) : World := w.settle [.release object]

def retainWeak (w : World) (object : Object) : World :=
  { w with heap := w.heap.retainWeak object }

def releaseWeak (w : World) (object : Object) : World :=
  { w with heap := w.heap.releaseWeak object }

/-- The bytes that a registry's own block takes. -/
def registryLayout : Layout := .aligned 8 80

/-- A new registry, as an object with one strong handle. -/
def createRegistry (w : World) (alloc : Allocator) (registry : Registry) : World × Object :=
  let (created, object) := w.create alloc registryLayout (.registry w.registries.size)
  ({ created with registries := created.registries.push registry }, object)

/-- A strong handle to the object of a weak one, if it is still alive. -/
def upgrade? (w : World) (weak : Option Object) : Option (World × Object) :=
  match weak with
  | none => none
  | some object => if w.heap.isLive object then some (w.retain object, object) else none

/-- The id of the object of a weak handle, which is held for as long as it is looked up. -/
def tryObserve (w : World) (number : Nat) (weak : Option Object) :
    World × Except Fault ObjectId :=
  match w.upgrade? weak with
  | none => (w, .error .dangling)
  | some (held, object) =>
    let (observed, id) := held.observe number object
    (observed.release object, .ok id)

/-- Adds a strong handle to `target` to the links of a node. Only a node has links. -/
def link? (w : World) (node target : Object) : Option World :=
  match (w.heap.block? node).map Block.content with
  | some (.node name links) =>
    some { w with heap := (w.heap.retain target).setContent node (.node name (links ++ [target])) }
  | _ => none

/-- Takes all links away from a node and drops them in order. -/
def unlink? (w : World) (node : Object) : Option (World × Nat) :=
  match (w.heap.block? node).map Block.content with
  | some (.node name links) =>
    let emptied : World := { w with heap := w.heap.setContent node (.node name []) }
    some (emptied.settle (links.map Task.release), links.length)
  | _ => none

end World

end WeakIdentity
