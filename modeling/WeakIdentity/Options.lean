import WeakIdentity.DecodeError
import WeakIdentity.Fault
import WeakIdentity.Text.Outline

/-! Registry options, and how they are read: from a list of named or numbered fields, from a JSON
object, or from a JSON array. Reading stops at the first fault, so that the error is the one of the
first bad field in order. -/

namespace WeakIdentity

open Text (Outline)

/-- What can be chosen about a registry. -/
structure Options where
  /-- How many entries to make room for at the start. -/
  initialCapacity : UInt64 := 0
  /-- The number of entries at which an insertion first sweeps. -/
  sweepThreshold : UInt64 := 1024
  deriving DecidableEq, Repr

namespace Options

def outline (options : Options) : Outline :=
  .group "RegistryOptions" .curly
    [.labelled "initial_capacity" (.ofNat options.initialCapacity.toNat),
      .labelled "sweep_threshold" (.ofNat options.sweepThreshold.toNat)]

/-- A registry cannot sweep at no entries. -/
def validate (options : Options) : Except Fault Unit :=
  if options.sweepThreshold = 0 then
    .error (.invalidOption "sweep_threshold" "must be greater than zero")
  else .ok ()

inductive Field where
  | initialCapacity
  | sweepThreshold
  deriving DecidableEq, Repr

def Field.name : Field → String
  | .initialCapacity => "initial_capacity"
  | .sweepThreshold => "sweep_threshold"

/-- How a document names a field. -/
inductive Key where
  | name (text : String)
  | index (position : Nat)
  deriving DecidableEq, Repr

def Key.field : Key → Except DecodeError Field
  | .name text =>
    if text = Field.initialCapacity.name then .ok .initialCapacity
    else if text = Field.sweepThreshold.name then .ok .sweepThreshold
    else .error (.unknownField text)
  | .index 0 => .ok .initialCapacity
  | .index 1 => .ok .sweepThreshold
  | .index position => .error (.unknownIndex position)

/-- The fields that have been read so far. -/
structure Draft where
  initialCapacity : Option UInt64 := none
  sweepThreshold : Option UInt64 := none
  deriving DecidableEq, Repr

namespace Draft

def get? (draft : Draft) : Field → Option UInt64
  | .initialCapacity => draft.initialCapacity
  | .sweepThreshold => draft.sweepThreshold

def set (draft : Draft) (field : Field) (value : UInt64) : Draft :=
  match field with
  | .initialCapacity => { draft with initialCapacity := some value }
  | .sweepThreshold => { draft with sweepThreshold := some value }

/-- The options, with the default for each field that has not been read. -/
def finish (draft : Draft) : Options :=
  let unset : Options := {}
  { initialCapacity := draft.initialCapacity.getD unset.initialCapacity
    sweepThreshold := draft.sweepThreshold.getD unset.sweepThreshold }

/-- Reads one more field: first its key, then whether it is new, then its value. -/
def read (draft : Draft) (pair : Key × Json.Value) : Except DecodeError Draft :=
  match pair.1.field with
  | .error e => .error e
  | .ok field =>
    if (draft.get? field).isSome then .error (.duplicateField field.name)
    else
      match decodeWord .size pair.2 with
      | .error e => .error e
      | .ok value => .ok (draft.set field value)

end Draft

def readPairs (draft : Draft) : List (Key × Json.Value) → Except DecodeError Draft
  | [] => .ok draft
  | pair :: rest =>
    match draft.read pair with
    | .error e => .error e
    | .ok next => readPairs next rest

def ofPairs (pairs : List (Key × Json.Value)) : Except DecodeError Options :=
  (readPairs {} pairs).map Draft.finish

/-- The entries of an object by ascending key, only the last of several with one key. -/
def sortedEntries (entries : List (String × Json.Value)) : List (String × Json.Value) :=
  entries.foldl insert []
where
  insert : List (String × Json.Value) → String × Json.Value → List (String × Json.Value)
    | [], entry => [entry]
    | first :: rest, entry =>
      if entry.1 = first.1 then entry :: rest
      else if entry.1 < first.1 then entry :: first :: rest
      else first :: insert rest entry

/-- The options in the items of an array: the fields by position, and nothing after them. -/
def ofItems (items : List Json.Value) : Except DecodeError Options :=
  match readPairs {} ((items.take 2).zipIdx.map fun (value, i) => (Key.index i, value)) with
  | .error e => .error e
  | .ok draft => if 2 < items.length then .error (.tooLong items.length) else .ok draft.finish

def ofJson : Json.Value → Except DecodeError Options
  | .object entries => ofPairs ((sortedEntries entries).map fun (key, value) => (.name key, value))
  | .array items => ofItems items
  | other => .error (.invalidType (.ofValue other) .options)

end Options

end WeakIdentity
