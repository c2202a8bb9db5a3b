import WeakIdentity.Decimal.Style
import WeakIdentity.Json.Basic
import WeakIdentity.Text.Quoted

/-! Why a JSON value is not the value that a reader expects. -/

namespace WeakIdentity

inductive Expected where
  | options
  | size
  | word
  deriving DecidableEq, Repr

def Expected.text : Expected → String
  | .options => "struct RegistryOptions"
  | .size => "usize"
  | .word => "u64"

/-- What a reader finds, as far as its message shows it. -/
inductive Found where
  | null
  | boolean (value : Bool)
  | integer (value : Int)
  | floating (numeral : Json.Numeral)
  | string (text : String)
  | sequence
  | map
  deriving DecidableEq, Repr

/-- Fractions in messages: sixteen digits before the point and four zeros after it at most, a
point in every positional text, and a sign on every exponent. -/
def Found.fraction : Decimal.Style where
  positionalFrom := -5
  positionalTo := 15
  wholeEnd := ".0"
  upMark := "e+"
  downMark := "e-"
  infinite := "inf"
  undefined := "NaN"

namespace Found

/-- What is found in the place of a number. -/
def ofNumeral (numeral : Json.Numeral) : Found :=
  match numeral.reading with
  | .natural n => .integer n.toNat
  | .negative magnitude => .integer (-magnitude)
  | .floating => .floating numeral

/-- What is found in the place of any value. -/
def ofValue : Json.Value → Found
  | .null => .null
  | .boolean value => .boolean value
  | .number numeral => .ofNumeral numeral
  | .string text => .string text
  | .array _ => .sequence
  | .object _ => .map

def integerText (n : Int) : String :=
  (if n < 0 then "-" else "") ++ Nat.repr n.natAbs

def text : Found → String
  | .null => "null"
  | .boolean true => "boolean `true`"
  | .boolean false => "boolean `false`"
  | .integer n => "integer `" ++ integerText n ++ "`"
  | .floating numeral => "floating point `" ++ fraction.text numeral.toFloat ++ "`"
  | .string s => "string " ++ Text.quoted s
  | .sequence => "sequence"
  | .map => "map"

end Found

/-- Why a JSON value cannot be read. -/
inductive DecodeError where
  /-- A value of another kind than the expected one. -/
  | invalidType (found : Found) (expected : Expected)
  | negative (value : Int) (expected : Expected)
  | unknownField (name : String)
  | unknownIndex (index : Nat)
  | duplicateField (name : String)
  /-- An array with more items than there are fields. -/
  | tooLong (length : Nat)
  deriving DecidableEq, Repr

def DecodeError.message : DecodeError → String
  | .invalidType found expected =>
    "invalid type: " ++ found.text ++ ", expected " ++ expected.text
  | .negative n expected =>
    "invalid value: " ++ (Found.integer n).text ++ ", expected " ++ expected.text
  | .unknownField name =>
    "unknown field `" ++ name ++ "`, expected `initial_capacity` or `sweep_threshold`"
  | .unknownIndex index =>
    "invalid value: " ++ (Found.integer index).text ++ ", expected field index 0 <= i < 2"
  | .duplicateField name => "duplicate field `" ++ name ++ "`"
  | .tooLong length =>
    "invalid length " ++ Nat.repr length ++ ", expected fewer elements in array"

/-- Reads a number of 64 bits. -/
def decodeWord (expected : Expected) (value : Json.Value) : Except DecodeError UInt64 :=
  match value with
  | .number numeral =>
    match numeral.reading with
    | .natural n => .ok n
    | .negative magnitude => .error (.negative (-magnitude) expected)
    | .floating => .error (.invalidType (.floating numeral) expected)
  | other => .error (.invalidType (.ofValue other) expected)

end WeakIdentity
