import WeakIdentity.Proofs.World.Alike
import WeakIdentity.Session.Basic

/-! An action on handles in two stages: first new handles are made and names are bound, then strong
handles that are no longer bound are dropped. Objects are destroyed in the second stage only. -/

namespace WeakIdentity

/-- A session after the first stage of an action. -/
structure Staged where
  session : Session
  /-- The objects of the strong handles that are to be dropped, in order. -/
  dropped : List Object := []
  answer : Answer := .done

/-- The second stage: drops the handles. -/
def Staged.finish (staged : Staged) : Session × Answer :=
  (staged.session.release staged.dropped, staged.answer)

namespace Session

/-- Binds a slot to a strong handle. The handle that was there is to be dropped. -/
def stageHandle (s : Session) (slot : Slot) (handle : Handle) : Staged where
  session := { s with handles := s.handles.insert slot handle }
  dropped := (s.handles.get? slot).toList.map Handle.object

/-- Binds a name to a labeler. The labeler that was there is to be dropped. -/
def stageLabeler (s : Session) (name : String) (labeler : Labeler) : Staged where
  session := { s with labelers := s.labelers.insert name labeler }
  dropped := (s.labelers.get? name).elim [] RegistryRef.owned

/-- The first stage of an action on handles. -/
def stage? (s : Session) (alloc : Allocator) : HandleAction → Option Staged
  | .create slot kind name => do
    let content ← s.content? name kind
    let (world, object) := s.world.create alloc kind.layout content
    some ({ s with world := world }.stageHandle slot { object })
  | .clone source target => do
    let handle ← s.handles.get? source
    some ({ s with world := s.world.retain handle.object }.stageHandle target handle)
  | .coerce source view target => do
    let handle ← s.handles.get? source
    some ({ s with world := s.world.retain handle.object }.stageHandle target { handle with view })
  | .shareRegistry registry target => do
    let object ← s.registries.get? registry
    some ({ s with world := s.world.retain object }.stageHandle target { object })
  | .drop slot => do
    let handle ← s.handles.get? slot
    some { session := { s with handles := s.handles.erase slot }, dropped := [handle.object] }
  | .unlink node => do
    let node ← s.handles.get? node
    match s.world.heap.content? node.object with
    | some (.node name links) =>
      let world := { s.world with heap := s.world.heap.setContent node.object (.node name []) }
      some { session := { s with world }, dropped := links, answer := .count links.length }
    | _ => none
  | .upgrade weak target => do
    let weak ← s.weaks.get? weak
    match s.world.upgrade? weak with
    | none => some { session := s, answer := .alive false }
    | some (world, object) =>
      some { { s with world := world }.stageHandle target { object } with answer := .alive true }
  | .openRegistry name options =>
    match configure alloc options with
    | .error refusal => some { session := s, answer := .refused refusal }
    | .ok registry =>
      let (world, object) := s.world.createRegistry alloc registry
      some
        { session := { s with world := world, registries := s.registries.insert name object }
          dropped := (s.registries.get? name).toList }
  | .dropRegistry name => do
    let object ← s.registries.get? name
    some { session := { s with registries := s.registries.erase name }, dropped := [object] }
  | .openLabeler name registry => do
    let labeler ← s.registryRef? registry
    some ({ s with world := labeler.owned.foldl World.retain s.world }.stageLabeler name labeler)
  | .cloneLabeler source target => do
    let labeler ← s.labelers.get? source
    some ({ s with world := labeler.owned.foldl World.retain s.world }.stageLabeler target labeler)
  | .dropLabeler name => do
    let labeler ← s.labelers.get? name
    some { session := { s with labelers := s.labelers.erase name }, dropped := labeler.owned }
  -- All others drop no strong handle.
  | action => (s.handle? alloc action).map fun (session, answer) => { session, answer }

theorem release_nil (s : Session) : s.release [] = s := by
  rw [release, List.map_nil, World.settle]

/-- An action that needs a value under a name. -/
theorem bind_finish {α : Type} (found : Option α) {whole : α → Option (Session × Answer)}
    {first : α → Option Staged} (each : ∀ value, whole value = (first value).map Staged.finish) :
    found.bind whole = (found.bind first).map Staged.finish := by
  cases found with
  | none => rfl
  | some value => exact each value

theorem handle?_unlink (s : Session) (alloc : Allocator) (node : Slot) :
    s.handle? alloc (.unlink node) = (s.stage? alloc (.unlink node)).map Staged.finish := by
  refine bind_finish (s.handles.get? node) fun handle => ?_
  by_cases h : ∃ name links, s.world.heap.content? handle.object = some (.node name links)
  · obtain ⟨name, links, content⟩ := h
    rw [World.unlink?_of_node content, content]
    rfl
  · have other : ∀ name links, s.world.heap.content? handle.object ≠ some (.node name links) :=
      fun name links content => h ⟨name, links, content⟩
    rw [World.unlink?_of_other other]
    split
    · next name links content => exact absurd content (other name links)
    · rfl

theorem handle?_upgrade (s : Session) (alloc : Allocator) (weak : String) (target : Slot) :
    s.handle? alloc (.upgrade weak target) =
      (s.stage? alloc (.upgrade weak target)).map Staged.finish := by
  refine bind_finish (s.weaks.get? weak) fun object => ?_
  cases s.world.upgrade? object with
  | none => simp [Staged.finish, release_nil]
  | some result => rfl

/-- An action is its first stage followed by its second. -/
theorem handle?_eq (s : Session) (alloc : Allocator) (action : HandleAction) :
    s.handle? alloc action = (s.stage? alloc action).map Staged.finish := by
  have undropped : s.handle? alloc action =
      ((s.handle? alloc action).map fun (session, answer) => ({ session, answer } : Staged)).map
        Staged.finish := by
    rw [Option.map_map]
    cases s.handle? alloc action with
    | none => rfl
    | some result => simp [Staged.finish, release_nil]
  cases action with
  | create slot kind name => exact bind_finish (s.content? name kind) fun _ => rfl
  | clone source | coerce source => exact bind_finish (s.handles.get? source) fun _ => rfl
  | shareRegistry registry => exact bind_finish (s.registries.get? registry) fun _ => rfl
  | drop slot => exact bind_finish (s.handles.get? slot) fun _ => rfl
  | unlink node => exact handle?_unlink s alloc node
  | upgrade weak target => exact handle?_upgrade s alloc weak target
  | openRegistry name options =>
    simp only [handle?, stage?]
    cases configure alloc options with
    | error refusal => simp [Staged.finish, release_nil]
    | ok registry => rfl
  | dropRegistry name => exact bind_finish (s.registries.get? name) fun _ => rfl
  | openLabeler name registry => exact bind_finish (s.registryRef? registry) fun _ => rfl
  | cloneLabeler source => exact bind_finish (s.labelers.get? source) fun _ => rfl
  | dropLabeler name => exact bind_finish (s.labelers.get? name) fun _ => rfl
  | _ => exact undropped

end Session

end WeakIdentity
