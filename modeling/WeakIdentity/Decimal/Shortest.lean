/-! The shortest decimal that names a fraction of double precision: of the decimals that are read
back as the same fraction, those with the fewest digits, and of these the nearest. -/

namespace WeakIdentity.Decimal

/-- The rational number `num / den`. -/
structure Ratio where
  num : Nat
  den : Nat
  deriving DecidableEq, Repr

def Ratio.ofBinary (n : Nat) (q : Int) : Ratio :=
  if 0 ≤ q then ⟨n * Nat.pow 2 q.toNat, 1⟩ else ⟨n, Nat.pow 2 (-q).toNat⟩

def Ratio.ofDecimal (n : Nat) (k : Int) : Ratio :=
  if 0 ≤ k then ⟨n * Nat.pow 10 k.toNat, 1⟩ else ⟨n, Nat.pow 10 (-k).toNat⟩

def Ratio.le (a b : Ratio) : Bool := a.num * b.den ≤ b.num * a.den

def Ratio.lt (a b : Ratio) : Bool := a.num * b.den < b.num * a.den

/-- A positive fraction of double precision with the numbers that round to it: those between `low`
and `high`, the ends included where the significand is even. -/
structure Rounding where
  low : Ratio
  value : Ratio
  high : Ratio
  closed : Bool

/-- Whether `r` rounds to the value. -/
def Rounding.contains (s : Rounding) (r : Ratio) : Bool :=
  if s.closed then s.low.le r && r.le s.high else s.low.lt r && r.lt s.high

/-- The bit that a significand of 53 bits starts with, `2 ^ 52`. -/
def leadingBit : Nat := 0x10000000000000

/-- The fraction `m * 2 ^ q`. Below a power of two the next fraction is twice as near, unless the
fraction is as small as its exponent allows. -/
def Rounding.ofBinary (m : Nat) (q : Int) : Rounding where
  low := .ofBinary (4 * m - (if m = leadingBit ∧ -1074 < q then 1 else 2)) (q - 2)
  value := .ofBinary (4 * m) (q - 2)
  high := .ofBinary (4 * m + 2) (q - 2)
  closed := m % 2 == 0

/-- The least `j` from `j` on with `10 ^ j` at least the reciprocal of `r`, looked for `fuel`
times. -/
def leadingZeros (r : Ratio) : Nat → Nat → Nat
  | 0, j => j
  | fuel + 1, j => if r.den ≤ r.num * Nat.pow 10 j then j else leadingZeros r fuel (j + 1)

/-- The exponent of the first digit of `r`. No fraction of double precision has more than 324
zeros after its point. -/
def leadingExponent (r : Ratio) : Int :=
  if r.den ≤ r.num then ((Nat.toDigits 10 (r.num / r.den)).length : Int) - 1
  else -(leadingZeros r 330 0 : Int)

/-- The multiple of `10 ^ k` just below `r`, as a count of `10 ^ k`. -/
def floorOn (r : Ratio) (k : Int) : Nat :=
  if 0 ≤ k then r.num / (r.den * Nat.pow 10 k.toNat)
  else r.num * Nat.pow 10 (-k).toNat / r.den

/-- Whether `r` is nearer to `(n + 1) * 10 ^ k` than to `n * 10 ^ k`, or as near to both with `n`
odd. -/
def nearerAbove (r : Ratio) (n : Nat) (k : Int) : Bool :=
  let middle := Ratio.ofDecimal (10 * n + 5) (k - 1)
  middle.lt r || (middle.le r && n % 2 == 1)

/-- A multiple of `10 ^ k` that rounds to the value: the nearer of its two neighbours if both
do. -/
def candidate? (s : Rounding) (k : Int) : Option Nat :=
  let n := floorOn s.value k
  let below := s.contains (.ofDecimal n k)
  let above := s.contains (.ofDecimal (n + 1) k)
  if below && above then some (if nearerAbove s.value n k then n + 1 else n)
  else if below then some n
  else if above then some (n + 1)
  else none

/-- The shortest decimal with `count` digits or more, and at most `fuel` digits more than that. -/
def shortestFrom (s : Rounding) (lead : Int) : Nat → Nat → Nat × Int
  | 0, count => (floorOn s.value (lead - count + 1), lead - count + 1)
  | fuel + 1, count =>
    let k := lead - count + 1
    match candidate? s k with
    | some n => (n, k)
    | none => shortestFrom s lead fuel (count + 1)

/-- The digits of a decimal and the exponent of the first of them. -/
structure Digits where
  digits : List Char
  lead : Int
  deriving DecidableEq, Repr

/-- The digits of `n * 10 ^ k`, without zeros at the end. -/
def Digits.ofScaled (n : Nat) (k : Int) : Digits :=
  let all := Nat.toDigits 10 n
  ⟨(all.reverse.dropWhile (· == '0')).reverse, k + all.length - 1⟩

/-- The shortest decimal that is read back as `m * 2 ^ q`. Seventeen digits always are enough. -/
def shortest (m : Nat) (q : Int) : Digits :=
  let s := Rounding.ofBinary m q
  let (n, k) := shortestFrom s (leadingExponent s.value) 17 1
  .ofScaled n k

/-- What the bits of a fraction of double precision say. -/
inductive Binary where
  | zero (negative : Bool)
  | finite (negative : Bool) (significand : Nat) (exponent : Int)
  | infinite (negative : Bool)
  | undefined
  deriving DecidableEq, Repr

/-- Reads the 64 bits of a fraction. -/
def Binary.ofBits (bits : UInt64) : Binary :=
  let n := bits.toNat
  let negative : Bool := 2048 * leadingBit ≤ n
  let biased : Nat := n / leadingBit % 2048
  let low := n % leadingBit
  if biased = 2047 then if low = 0 then .infinite negative else .undefined
  else if biased = 0 then
    if low = 0 then .zero negative else .finite negative low (-1074)
  else .finite negative (leadingBit + low) ((biased : Int) - 1075)

end WeakIdentity.Decimal
