import WeakIdentity.Location
import WeakIdentity.TypeName
import WeakIdentity.World.Lifetime

/-! Labelers: they name locations by the ids of one registry, the process-wide one or one that they
hold a strong handle to. -/

namespace WeakIdentity

open Text (Outline)

/-- A labeler is the registry whose ids it uses. -/
abbrev Labeler := RegistryRef

namespace Labeler

/-- The label of the field `name` of an object, which gets an id if it has none. -/
def field (w : World) (number : Nat) (handle : Handle) (name : String) : World × Location :=
  let (observed, id) := w.observe number handle
  (observed, .field id name)

/-- The label of an element of an object, which gets an id if it has none. -/
def element (w : World) (number : Nat) (handle : Handle) (index : UInt64) : World × Location :=
  let (observed, id) := w.observe number handle
  (observed, .element id index)

/-- The label of the static field `name` of a type, given by its full name. It calls no registry. -/
def staticField (typeName name : String) : Location := .static (TypeName.shorten typeName) name

def outline (labeler : Labeler) (w : World) : Outline :=
  .group "Labeler" .curly [.labelled "registry" inner]
where
  inner : Outline :=
    match w.refNumber? labeler, labeler with
    | some number, .shared _ =>
      .group "Shared" .round [(w.registry number).outline w.heap.isLive]
    | _, _ => .atom "Global"

end Labeler

end WeakIdentity
