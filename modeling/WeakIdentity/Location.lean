import WeakIdentity.ObjectId
import WeakIdentity.Text.Outline
import WeakIdentity.Text.Quoted
import WeakIdentity.Json.Printer

/-! Locations: a field or an element of an object, named by the object's id, or a static field,
named by the type that owns it. -/

namespace WeakIdentity

open Text (Outline quoted)

inductive Location where
  /-- The field `name` of an object, `#3.value`. -/
  | field (owner : ObjectId) (name : String)
  /-- An element of an object that is a sequence, `#3[5]`. -/
  | element (owner : ObjectId) (index : UInt64)
  /-- A static field of a type, `Counter::value`. -/
  | static (ownerType name : String)
  deriving DecidableEq, Repr

namespace Location

/-- The id of the object that the location belongs to; a static field belongs to none. -/
def owner : Location → Option ObjectId
  | .field owner _ => some owner
  | .element owner _ => some owner
  | .static _ _ => none

def text : Location → String
  | .field owner name => owner.text ++ "." ++ name
  | .element owner index => owner.text ++ "[" ++ Nat.repr index.toNat ++ "]"
  | .static ownerType name => ownerType ++ "::" ++ name

def outline : Location → Outline
  | .field owner name =>
    .group "Field" .curly
      [.labelled "owner" owner.outline, .labelled "field" (.atom (quoted name))]
  | .element owner index =>
    .group "Element" .curly
      [.labelled "owner" owner.outline, .labelled "index" (.ofNat index.toNat)]
  | .static ownerType name =>
    .group "Static" .curly
      [.labelled "owner_type" (.atom (quoted ownerType)), .labelled "field" (.atom (quoted name))]

/-- The location as a JSON object that says first which kind it is. -/
def toJson : Location → Json.Value
  | .field owner name =>
    .object [("kind", .string "field"), ("owner", owner.toJson), ("field", .string name)]
  | .element owner index =>
    .object [("kind", .string "element"), ("owner", owner.toJson), ("index", .ofNat index.toNat)]
  | .static ownerType name =>
    .object [("kind", .string "static"), ("owner_type", .string ownerType), ("field", .string name)]

def json (location : Location) : String := location.toJson.text

end Location

end WeakIdentity
