import WeakIdentity.Labeler

/-! The actions of a session, and what they answer. Actions name their handles, weak handles,
registries, labelers and locations, in a name space for each. -/

namespace WeakIdentity

/-- Where a strong handle is kept: under a name, or aside while one request needs it. -/
inductive Slot where
  | named (name : String)
  | aside
  deriving DecidableEq, Repr

inductive RegistryName where
  | processWide
  | named (name : String)
  deriving DecidableEq, Repr

/-- The kinds of object. Those that only differ in their bytes are alike to a registry. -/
inductive Kind where
  | unit
  | byte
  | int
  | text
  | array
  | wide
  | string
  | emptyString
  | bytes
  | slice
  | emptySlice
  | probe
  | node
  | purger (registry : RegistryName)
  | keeper (registry : RegistryName)
  deriving DecidableEq, Repr

/-- The bytes that an object of a kind takes. There is padding between the counts and a payload with
a wide alignment. -/
def Kind.layout : Kind → Layout
  | .unit | .emptyString => .aligned 1 0
  | .emptySlice => .aligned 8 0
  | .byte => .aligned 1 1
  | .int => .aligned 8 8
  | .text => .aligned 8 24
  | .array => .aligned 8 32
  | .wide => .aligned 64 64
  | .string | .bytes => .aligned 1 5
  | .slice => .aligned 8 24
  | .probe | .purger _ | .keeper _ => .aligned 8 40
  | .node => .aligned 8 64

/-- What is done with handles, and with whatever holds handles. -/
inductive HandleAction where
  /-- Makes an object, which reports its destruction under `name`. -/
  | create (slot : Slot) (kind : Kind) (name : String)
  | clone (source target : Slot)
  /-- Makes another strong handle to an object, with another view. -/
  | coerce (source : Slot) (view : View) (target : Slot)
  /-- Makes a strong handle to a registry as an object. -/
  | shareRegistry (registry : String) (target : Slot)
  | drop (slot : Slot)
  | link (node target : Slot)
  | unlink (node : Slot)
  | counts (slot : Slot)
  | downgrade (source : Slot) (target : String)
  /-- Makes a weak handle that never had an object. -/
  | weakNew (target : String)
  | weakClone (source target : String)
  | weakDrop (weak : String)
  | upgrade (weak : String) (target : Slot)
  /-- Makes a registry, with the options of a document if one is given. -/
  | openRegistry (registry : String) (options : Option Json.Value)
  | dropRegistry (registry : String)
  | openLabeler (labeler : String) (registry : RegistryName)
  | cloneLabeler (source target : String)
  | dropLabeler (labeler : String)

inductive RegistryCall where
  /-- The id of an object, given now if it has none. -/
  | observe (slot : Slot)
  | tryObserve (weak : String)
  | idOf (slot : Slot)
  | forget (slot : Slot)
  | purge
  | size
  | minted
  | isEmpty
  | stats
  | describe (indented : Bool)
  deriving DecidableEq, Repr

/-- What is done with locations. A label may be kept under a name. -/
inductive LabelAction where
  | field (labeler : String) (slot : Slot) (name : String) (keep : Option String)
  | element (labeler : String) (slot : Slot) (index : UInt64) (keep : Option String)
  | static (labeler typeName name : String) (keep : Option String)
  | describeLabeler (labeler : String) (indented : Bool)
  | equal (first second : String)
  | describe (location : String) (indented : Bool)
  | record (location : String)
  deriving DecidableEq, Repr

inductive Action where
  | handle (action : HandleAction)
  | registry (name : RegistryName) (call : RegistryCall)
  | label (action : LabelAction)

/-- Why a valid action does nothing. -/
inductive Refusal where
  | undecodable (error : DecodeError)
  | fault (fault : Fault)
  /-- The action panics, because a table cannot be allocated. -/
  | capacityOverflow
  deriving DecidableEq, Repr

inductive Answer where
  | done
  | alive (alive : Bool)
  | counts (strong weak : Nat)
  | count (count : Nat)
  | truth (value : Bool)
  | id (id : ObjectId)
  | lookup (id : Option ObjectId)
  | ids (ids : List (Option ObjectId))
  | stats (stats : Stats)
  | text (text : String)
  | label (location : Location)
  | recorded (count size : Nat)
  | churned (first last : Option ObjectId) (greatest : Nat)
  /-- The different ids that some threads saw. -/
  | seen (ids : List ObjectId)
  /-- The same, and whether all threads saw the same ids for the same objects. -/
  | agreed (ids : List ObjectId) (agree : Bool)
  | refused (refusal : Refusal)
  /-- The action refers to an unknown name. -/
  | unknown
  deriving DecidableEq, Repr

end WeakIdentity
