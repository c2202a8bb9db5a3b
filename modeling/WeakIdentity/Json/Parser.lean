import WeakIdentity.Json.Basic

/-! Reading JSON text. The reader takes characters from the front of a list and hands back what it
does not need; it refuses every text that is not one JSON value. -/

namespace WeakIdentity.Json

/-- Whether `c` may stand between tokens. -/
def isBlank (c : Char) : Bool := c == ' ' || c == '\n' || c == '\r' || c == '\t'

/-- The text after the blanks in front of it. -/
def skipBlanks (cs : List Char) : List Char := cs.dropWhile isBlank

/-! ## Numbers -/

/-- The number that a list of decimal digits denotes. -/
def digitsValue (ds : List Char) : Nat :=
  ds.foldl (fun n c => 10 * n + (c.toNat - '0'.toNat)) 0

/-- Whether `ds` may stand before the point: some digits, and no zero in front of others. -/
def isWhole : List Char → Bool
  | [] => false
  | ['0'] => true
  | c :: _ => c != '0'

/-- The digits after a point, none if no point comes first. -/
def readFraction : List Char → Option (List Char × List Char)
  | '.' :: cs =>
    let ds := cs.takeWhile Char.isDigit
    if ds.isEmpty then none else some (ds, cs.dropWhile Char.isDigit)
  | cs => some ([], cs)

/-- The digits of an exponent whose sign has been read. -/
def readExponentDigits (negative : Bool) (cs : List Char) : Option (Option Int × List Char) :=
  let ds := cs.takeWhile Char.isDigit
  if ds.isEmpty then none
  else
    let n : Int := digitsValue ds
    some (some (if negative then -n else n), cs.dropWhile Char.isDigit)

def readExponent : List Char → Option (Option Int × List Char)
  | c :: cs =>
    if c = 'e' ∨ c = 'E' then
      match cs with
      | '+' :: ds => readExponentDigits false ds
      | '-' :: ds => readExponentDigits true ds
      | ds => readExponentDigits false ds
    else some (none, c :: cs)
  | [] => some (none, [])

/-- A number whose sign has been read. -/
def readNumeral (negative : Bool) (cs : List Char) : Option (Numeral × List Char) := do
  let whole := cs.takeWhile Char.isDigit
  if !isWhole whole then none
  else
    let (fraction, rest) ← readFraction (cs.dropWhile Char.isDigit)
    let (exponent, rest) ← readExponent rest
    if fraction.isEmpty && exponent.isNone then
      some (.integer negative (digitsValue whole), rest)
    else
      some (.decimal negative (digitsValue (whole ++ fraction))
        (exponent.getD 0 - fraction.length), rest)

/-! ## Strings -/

def hexDigit? (c : Char) : Option Nat :=
  if '0' ≤ c ∧ c ≤ '9' then some (c.toNat - '0'.toNat)
  else if 'a' ≤ c ∧ c ≤ 'f' then some (c.toNat - 'a'.toNat + 10)
  else if 'A' ≤ c ∧ c ≤ 'F' then some (c.toNat - 'A'.toNat + 10)
  else none

/-- The number written by four digits in base sixteen. -/
def hexValue? (a b c d : Char) : Option Nat := do
  some (((← hexDigit? a) * 16 + (← hexDigit? b)) * 256 + (← hexDigit? c) * 16 + (← hexDigit? d))

/-- The character that a backslash and `c` stand for. -/
def shortEscape? (c : Char) : Option Char :=
  if c = '"' ∨ c = '\\' ∨ c = '/' then some c
  else if c = 'b' then some '\x08'
  else if c = 'f' then some '\x0c'
  else if c = 'n' then some '\n'
  else if c = 'r' then some '\r'
  else if c = 't' then some '\t'
  else none

/-- The character that the pair of units `high`, `low` stands for. -/
def pairedChar (high low : Nat) : Char :=
  .ofNat (0x10000 + (high - 0xd800) * 0x400 + (low - 0xdc00))

/-- The characters of a string whose opening quote has been read, up to its closing quote. -/
def readString : List Char → Option (List Char × List Char)
  | '"' :: rest => some ([], rest)
  | '\\' :: 'u' :: a :: b :: c :: d :: rest => do
    let unit ← hexValue? a b c d
    if 0xd800 ≤ unit ∧ unit < 0xdc00 then
      match rest with
      | '\\' :: 'u' :: e :: f :: g :: h :: rest => do
        let low ← hexValue? e f g h
        if 0xdc00 ≤ low ∧ low < 0xe000 then
          let (text, rest) ← readString rest
          some (pairedChar unit low :: text, rest)
        else none
      | _ => none
    else if 0xdc00 ≤ unit ∧ unit < 0xe000 then none
    else do
      let (text, rest) ← readString rest
      some (.ofNat unit :: text, rest)
  | '\\' :: c :: rest => do
    let char ← shortEscape? c
    let (text, rest) ← readString rest
    some (char :: text, rest)
  | c :: rest =>
    if c.toNat < 0x20 ∨ c = '\\' then none
    else do
      let (text, rest) ← readString rest
      some (c :: text, rest)
  | [] => none

/-! ## Values -/

mutual

/-- The value in front of the text. `fuel` bounds the depth of the reading. -/
def readValue : Nat → List Char → Option (Value × List Char)
  | 0, _ => none
  | fuel + 1, cs =>
    match skipBlanks cs with
    | 'n' :: 'u' :: 'l' :: 'l' :: rest => some (.null, rest)
    | 't' :: 'r' :: 'u' :: 'e' :: rest => some (.boolean true, rest)
    | 'f' :: 'a' :: 'l' :: 's' :: 'e' :: rest => some (.boolean false, rest)
    | '"' :: rest => do
      let (text, rest) ← readString rest
      some (.string (.ofList text), rest)
    | '[' :: rest =>
      match skipBlanks rest with
      | ']' :: rest => some (.array [], rest)
      | rest => do
        let (items, rest) ← readItems fuel rest
        some (.array items, rest)
    | '\x7b' :: rest =>
      match skipBlanks rest with
      | '\x7d' :: rest => some (.object [], rest)
      | rest => do
        let (entries, rest) ← readEntries fuel rest
        some (.object entries, rest)
    | '-' :: rest => do
      let (numeral, rest) ← readNumeral true rest
      some (.number numeral, rest)
    | rest => do
      let (numeral, rest) ← readNumeral false rest
      some (.number numeral, rest)

/-- The items of an array that is not empty, up to its closing bracket. -/
def readItems : Nat → List Char → Option (List Value × List Char)
  | 0, _ => none
  | fuel + 1, cs => do
    let (item, rest) ← readValue fuel cs
    match skipBlanks rest with
    | ',' :: rest => do
      let (items, rest) ← readItems fuel rest
      some (item :: items, rest)
    | ']' :: rest => some ([item], rest)
    | _ => none

/-- The entries of an object that is not empty, up to its closing brace. -/
def readEntries : Nat → List Char → Option (List (String × Value) × List Char)
  | 0, _ => none
  | fuel + 1, cs =>
    match skipBlanks cs with
    | '"' :: rest => do
      let (key, rest) ← readString rest
      match skipBlanks rest with
      | ':' :: rest => do
        let (value, rest) ← readValue fuel rest
        match skipBlanks rest with
        | ',' :: rest => do
          let (entries, rest) ← readEntries fuel rest
          some ((.ofList key, value) :: entries, rest)
        | '\x7d' :: rest => some ([(.ofList key, value)], rest)
        | _ => none
      | _ => none
    | _ => none

end

/-- The value that `text` writes, if it writes exactly one. A value nests at most as deep as its
text is long, and each level takes two steps. -/
def parse? (text : String) : Option Value :=
  let cs := text.toList
  match readValue (2 * cs.length + 2) cs with
  | some (value, rest) => if (skipBlanks rest).isEmpty then some value else none
  | none => none

end WeakIdentity.Json
