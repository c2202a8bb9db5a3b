import WeakIdentity.DecodeError
import WeakIdentity.Text.Outline

/-! Object ids: the numbers 0, 1, 2, … in the order in which a registry first sees its objects. -/

namespace WeakIdentity

open Text (Outline)

/-- The number of an observed object. -/
structure ObjectId where
  value : UInt64
  deriving DecidableEq, Repr

namespace ObjectId

/-- The id as a reader sees it, `#3`. -/
def text (id : ObjectId) : String := "#" ++ Nat.repr id.value.toNat

def outline (id : ObjectId) : Outline := .group "ObjectId" .round [.ofNat id.value.toNat]

/-- An id is a bare integer in JSON. -/
def toJson (id : ObjectId) : Json.Value := .ofNat id.value.toNat

def ofJson (value : Json.Value) : Except DecodeError ObjectId :=
  (decodeWord .word value).map ObjectId.mk

/-- Ids are ordered as numbers. -/
def compare (a b : ObjectId) : Ordering := Ord.compare a.value b.value

def le (a b : ObjectId) : Bool := a.value ≤ b.value

/-- The ids in ascending order, equal ones kept. -/
def sorted (ids : List ObjectId) : List ObjectId := ids.mergeSort le

/-- An ascending list without its repetitions. -/
def withoutRepeats : List ObjectId → List ObjectId
  | a :: b :: rest => if a = b then withoutRepeats (b :: rest) else a :: withoutRepeats (b :: rest)
  | ids => ids

/-- The different ids among `ids`, in ascending order. -/
def distinct (ids : List ObjectId) : List ObjectId := withoutRepeats (sorted ids)

end ObjectId

end WeakIdentity
