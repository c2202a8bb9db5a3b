import WeakIdentity.Json.Basic

/-! JSON text: compact, entries in the order in which the value holds them, and no character below
the space, so that a value is always one line. -/

namespace WeakIdentity.Json

def fourHex (n : Nat) : List Char :=
  let digits := Nat.toDigits 16 n
  List.replicate (4 - digits.length) '0' ++ digits

/-- How `c` stands in a JSON string. -/
def escapedChar (c : Char) : List Char :=
  if c = '"' then ['\\', '"']
  else if c = '\\' then ['\\', '\\']
  else if c = '\x08' then ['\\', 'b']
  else if c = '\x0c' then ['\\', 'f']
  else if c = '\n' then ['\\', 'n']
  else if c = '\r' then ['\\', 'r']
  else if c = '\t' then ['\\', 't']
  else if c.toNat < 0x20 then ['\\', 'u'] ++ fourHex c.toNat
  else [c]

/-- The JSON string that holds `s`. -/
def stringText (s : String) : String :=
  String.ofList ('"' :: s.toList.flatMap escapedChar ++ ['"'])

def Numeral.text : Numeral → String
  | .integer negative n => sign negative ++ Nat.repr n
  | .decimal negative digits exponent =>
    sign negative ++ Nat.repr digits ++ "e" ++ sign (exponent < 0) ++ Nat.repr exponent.natAbs
where
  sign (negative : Bool) : String := if negative then "-" else ""

namespace Value

mutual

def text : Value → String
  | .null => "null"
  | .boolean true => "true"
  | .boolean false => "false"
  | .number numeral => numeral.text
  | .string s => stringText s
  | .array items => "[" ++ itemsText items ++ "]"
  | .object entries => "\x7b" ++ entriesText entries ++ "\x7d"

def itemsText : List Value → String
  | [] => ""
  | [item] => item.text
  | item :: rest => item.text ++ "," ++ itemsText rest

def entriesText : List (String × Value) → String
  | [] => ""
  | [(key, value)] => stringText key ++ ":" ++ value.text
  | (key, value) :: rest => stringText key ++ ":" ++ value.text ++ "," ++ entriesText rest

end

end Value

end WeakIdentity.Json
