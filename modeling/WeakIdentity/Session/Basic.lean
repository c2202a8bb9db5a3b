import WeakIdentity.Session.Action
import WeakIdentity.Session.Bindings
import WeakIdentity.Tally

/-! Sessions: a world, and the handles, registries and labels that are bound to names. A name that
gets a new value drops the old one, after the new one has been made. An action that refers to an
unknown name does nothing. -/

namespace WeakIdentity

/-- A world and the names in it. -/
structure Session where
  world : World := {}
  handles : Bindings Slot Handle := {}
  /-- Weak handles; one that never had an object refers to none. -/
  weaks : Bindings String (Option Object) := {}
  registries : Bindings String Object := {}
  labelers : Bindings String Labeler := {}
  locations : Bindings String Location := {}
  tally : Tally := {}

namespace Session

/-! ### Names -/

def registryRef? (s : Session) : RegistryName → Option RegistryRef
  | .processWide => some .processWide
  | .named name => (s.registries.get? name).map .shared

def registryNumber? (s : Session) : RegistryName → Option Nat
  | .processWide => some World.processWide
  | .named name => (s.registries.get? name).bind s.world.registryNumber?

def release (s : Session) (objects : List Object) : Session :=
  { s with world := s.world.settle (objects.map Task.release) }

def releaseWeak (s : Session) (weak : Option Object) : Session :=
  match weak with
  | none => s
  | some object => { s with world := s.world.releaseWeak object }

/-- Keeps a strong handle in a slot, and drops the one that was there. -/
def bindHandle (s : Session) (slot : Slot) (handle : Handle) : Session :=
  let old := s.handles.get? slot
  { s with handles := s.handles.insert slot handle }.release (old.toList.map Handle.object)

def bindWeak (s : Session) (name : String) (weak : Option Object) : Session :=
  let old := s.weaks.get? name
  { s with weaks := s.weaks.insert name weak }.releaseWeak old.join

def bindRegistry (s : Session) (name : String) (object : Object) : Session :=
  let old := s.registries.get? name
  { s with registries := s.registries.insert name object }.release old.toList

def bindLabeler (s : Session) (name : String) (labeler : Labeler) : Session :=
  let old := s.labelers.get? name
  { s with labelers := s.labelers.insert name labeler }.release (old.elim [] RegistryRef.owned)

def keepLocation (s : Session) (keep : Option String) (location : Location) : Session :=
  match keep with
  | none => s
  | some name => { s with locations := s.locations.insert name location }

/-! ### Handles -/

def content? (s : Session) (name : String) : Kind → Option Content
  | .probe => some (.probe name)
  | .node => some (.node name [])
  | .purger registry => (s.registryRef? registry).map (.purger name)
  | .keeper registry => (s.registryRef? registry).map (.keeper name)
  | _ => some .plain

/-- The registry for the options of a document, or for the default ones. -/
def configure (alloc : Allocator) (options : Option Json.Value) : Except Refusal Registry :=
  match options with
  | none => .ok (.ofOptions {})
  | some document =>
    match Options.ofJson document with
    | .error error => .error (.undecodable error)
    | .ok options =>
      match Registry.withOptions alloc options with
      | none => .error .capacityOverflow
      | some (.error fault) => .error (.fault fault)
      | some (.ok registry) => .ok registry

/-- Does an action on handles; none if it refers to an unknown name. -/
def handle? (s : Session) (alloc : Allocator) : HandleAction → Option (Session × Answer)
  | .create slot kind name => do
    let content ← s.content? name kind
    let (world, object) := s.world.create alloc kind.layout content
    some ({ s with world := world }.bindHandle slot { object }, .done)
  | .clone source target => do
    let handle ← s.handles.get? source
    some ({ s with world := s.world.retain handle.object }.bindHandle target handle, .done)
  | .coerce source view target => do
    let handle ← s.handles.get? source
    some ({ s with world := s.world.retain handle.object }.bindHandle target
      { handle with view }, .done)
  | .shareRegistry registry target => do
    let object ← s.registries.get? registry
    some ({ s with world := s.world.retain object }.bindHandle target { object }, .done)
  | .drop slot => do
    let handle ← s.handles.get? slot
    some ({ s with handles := s.handles.erase slot }.release [handle.object], .done)
  | .link node target => do
    let node ← s.handles.get? node
    let target ← s.handles.get? target
    let world ← s.world.link? node.object target.object
    some ({ s with world := world }, .done)
  | .unlink node => do
    let node ← s.handles.get? node
    let (world, count) ← s.world.unlink? node.object
    some ({ s with world := world }, .count count)
  | .counts slot => do
    let handle ← s.handles.get? slot
    some (s, .counts (s.world.heap.strongCount handle.object)
      (s.world.heap.weakCount handle.object))
  | .downgrade source target => do
    let handle ← s.handles.get? source
    some ({ s with world := s.world.retainWeak handle.object }.bindWeak target
      (some handle.object), .done)
  | .weakNew target => some (s.bindWeak target none, .done)
  | .weakClone source target => do
    let weak ← s.weaks.get? source
    let retained :=
      match weak with
      | none => s
      | some object => { s with world := s.world.retainWeak object }
    some (retained.bindWeak target weak, .done)
  | .weakDrop weak => do
    let old ← s.weaks.get? weak
    some ({ s with weaks := s.weaks.erase weak }.releaseWeak old, .done)
  | .upgrade weak target => do
    let weak ← s.weaks.get? weak
    match s.world.upgrade? weak with
    | none => some (s, .alive false)
    | some (world, object) =>
      some ({ s with world := world }.bindHandle target { object }, .alive true)
  | .openRegistry name options =>
    match configure alloc options with
    | .error refusal => some (s, .refused refusal)
    | .ok registry =>
      let (world, object) := s.world.createRegistry alloc registry
      some ({ s with world := world }.bindRegistry name object, .done)
  | .dropRegistry name => do
    let object ← s.registries.get? name
    some ({ s with registries := s.registries.erase name }.release [object], .done)
  | .openLabeler name registry => do
    let labeler ← s.registryRef? registry
    let world := labeler.owned.foldl World.retain s.world
    some ({ s with world := world }.bindLabeler name labeler, .done)
  | .cloneLabeler source target => do
    let labeler ← s.labelers.get? source
    let world := labeler.owned.foldl World.retain s.world
    some ({ s with world := world }.bindLabeler target labeler, .done)
  | .dropLabeler name => do
    let labeler ← s.labelers.get? name
    some ({ s with labelers := s.labelers.erase name }.release labeler.owned, .done)

/-! ### Registries -/

def ask? (s : Session) (number : Nat) : RegistryCall → Option (Session × Answer)
  | .observe slot => do
    let handle ← s.handles.get? slot
    let (world, id) := s.world.observe number handle
    some ({ s with world := world }, .id id)
  | .tryObserve weak => do
    let weak ← s.weaks.get? weak
    match s.world.tryObserve number weak with
    | (_, .error fault) => some (s, .refused (.fault fault))
    | (world, .ok id) => some ({ s with world := world }, .id id)
  | .idOf slot => do
    let handle ← s.handles.get? slot
    some (s, .lookup (s.world.idOf number handle))
  | .forget slot => do
    let handle ← s.handles.get? slot
    let (world, id) := s.world.forget number handle
    some ({ s with world := world }, .lookup id)
  | .purge =>
    let (world, count) := s.world.purge number
    some ({ s with world := world }, .count count)
  | .size => some (s, .count (s.world.registry number).size)
  | .minted => some (s, .count (s.world.registry number).minted.toNat)
  | .isEmpty => some (s, .truth (s.world.registry number).entries.isEmpty)
  | .stats => some (s, .stats (s.world.stats number))
  | .describe indented =>
    some (s, .text (((s.world.registry number).outline s.world.heap.isLive).render indented))

/-! ### Locations -/

/-- Does an action on locations; none if it refers to an unknown name. -/
def label? (s : Session) : LabelAction → Option (Session × Answer)
  | .field labeler slot name keep => do
    let labeler ← s.labelers.get? labeler
    let handle ← s.handles.get? slot
    let number ← s.world.refNumber? labeler
    let (world, location) := Labeler.field s.world number handle name
    some ({ s with world := world }.keepLocation keep location, .label location)
  | .element labeler slot index keep => do
    let labeler ← s.labelers.get? labeler
    let handle ← s.handles.get? slot
    let number ← s.world.refNumber? labeler
    let (world, location) := Labeler.element s.world number handle index
    some ({ s with world := world }.keepLocation keep location, .label location)
  | .static labeler typeName name keep => do
    let _ ← s.labelers.get? labeler
    let location := Labeler.staticField typeName name
    some (s.keepLocation keep location, .label location)
  | .describeLabeler labeler indented => do
    let labeler ← s.labelers.get? labeler
    some (s, .text ((labeler.outline s.world).render indented))
  | .equal first second => do
    let a ← s.locations.get? first
    let b ← s.locations.get? second
    some (s, .truth (a = b))
  | .describe location indented => do
    let location ← s.locations.get? location
    some (s, .text (location.outline.render indented))
  | .record location => do
    let location ← s.locations.get? location
    let tally := s.tally.record location
    some ({ s with tally := tally }, .recorded (tally.count location) tally.size)

/-- Does an action; none if it refers to an unknown name. -/
def act? (s : Session) (alloc : Allocator) : Action → Option (Session × Answer)
  | .handle action => s.handle? alloc action
  | .registry name call => do
    let number ← s.registryNumber? name
    s.ask? number call
  | .label action => s.label? action

def act (s : Session) (alloc : Allocator) (action : Action) : Session × Answer :=
  (s.act? alloc action).getD (s, .unknown)

def run (s : Session) (alloc : Allocator) : List Action → Session × List Answer
  | [] => (s, [])
  | action :: rest =>
    let (next, answer) := s.act alloc action
    let (final, answers) := next.run alloc rest
    (final, answer :: answers)

def watch (s : Session) : List (String × Stats) :=
  s.registries.pairs.filterMap fun (name, object) =>
    (s.world.registryNumber? object).map fun number => (name, s.world.stats number)

end Session

end WeakIdentity
