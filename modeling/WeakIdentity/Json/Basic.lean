/-! JSON values. A number keeps its literal apart from its value, because a decimal point makes a
number a fraction even where the value is whole, and an object keeps its entries as written. -/

namespace WeakIdentity.Json

/-- A number literal: an integer, or `digits * 10 ^ exponent` written with a point or an
exponent. -/
inductive Numeral where
  | integer (negative : Bool) (magnitude : Nat)
  | decimal (negative : Bool) (digits : Nat) (exponent : Int)
  deriving DecidableEq, Repr

inductive Value where
  | null
  | boolean (value : Bool)
  | number (numeral : Numeral)
  | string (text : String)
  | array (items : List Value)
  | object (entries : List (String × Value))

namespace Value

def ofNat (n : Nat) : Value := .number (.integer false n)

def ofNats (ns : List Nat) : Value := .array (ns.map ofNat)

/-- The value stored under `key` in an object: the last entry of that name. -/
def get? (value : Value) (key : String) : Option Value :=
  match value with
  | .object entries => (entries.reverse.find? fun entry => entry.1 == key).map Prod.snd
  | _ => none

end Value

/-- What an integer or decimal literal denotes to a reader with words of 64 bits: a natural number
or a negative integer that fits a word, and a fraction in every other case, negative zero
included. -/
inductive Reading where
  | natural (n : UInt64)
  | negative (magnitude : Nat)
  | floating
  deriving DecidableEq, Repr

def Numeral.reading : Numeral → Reading
  | .integer false n => if n < UInt64.size then .natural (.ofNat n) else .floating
  | .integer true n => if 0 < n ∧ 2 * n ≤ UInt64.size then .negative n else .floating
  | .decimal .. => .floating

def Numeral.toFloat : Numeral → Float
  | .integer negative n => signed negative (.ofScientific n false 0)
  | .decimal negative digits exponent =>
    signed negative (.ofScientific digits (exponent < 0) exponent.natAbs)
where
  signed (negative : Bool) (x : Float) : Float := if negative then -x else x

end WeakIdentity.Json
