import WeakIdentity.Text.Outline
import WeakIdentity.Text.Quoted

/-! The two ways in which a registry refuses a call. -/

namespace WeakIdentity

open Text (Outline)

inductive Fault where
  /-- A weak handle has no live object behind it. -/
  | dangling
  /-- The option `field` has a value it must not have. -/
  | invalidOption (field reason : String)
  deriving DecidableEq, Repr

namespace Fault

def message : Fault → String
  | .dangling => "handle does not refer to a live object"
  | .invalidOption field reason => "invalid registry option `" ++ field ++ "`: " ++ reason

def outline : Fault → Outline
  | .dangling => .atom "Dangling"
  | .invalidOption field reason =>
    .group "InvalidOptions" .curly
      [.labelled "field" (.atom (Text.quoted field)),
        .labelled "reason" (.atom (Text.quoted reason))]

end Fault

end WeakIdentity
