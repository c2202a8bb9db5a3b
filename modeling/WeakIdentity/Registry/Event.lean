import WeakIdentity.ObjectId

/-! What a registry reports about its work. -/

namespace WeakIdentity

inductive Event where
  /-- A new id was given, after which the table has `entries` entries. -/
  | assign (id : ObjectId) (entries : Nat)
  /-- The entry of an id was removed by a call. -/
  | forget (id : ObjectId)
  /-- Entries of dead objects were removed, `live` entries remain, and the next sweep comes when
  there are `watermark` of them. -/
  | sweep (reclaimed live : Nat) (watermark : UInt64)
  deriving DecidableEq, Repr

/-- The level of detail at which an event is shown. -/
inductive Level where
  | trace
  | debug
  deriving DecidableEq, Repr

namespace Event

/-- Sweeps are of wider interest than single entries. -/
def level : Event → Level
  | .assign .. => .trace
  | .forget .. => .trace
  | .sweep .. => .debug

def message : Event → String
  | .assign .. => "identity.assign"
  | .forget .. => "identity.forget"
  | .sweep .. => "identity.sweep"

def fields : Event → List (String × Json.Value)
  | .assign id entries => [("id", .string id.text), ("entries", .ofNat entries)]
  | .forget id => [("id", .string id.text)]
  | .sweep reclaimed live watermark =>
    [("reclaimed", .ofNat reclaimed), ("live", .ofNat live), ("watermark", .ofNat watermark.toNat)]

end Event

end WeakIdentity
