import WeakIdentity.Decimal.Shortest

/-! How the digits of a fraction are laid out: which exponents are written out with zeros, and how
the others are marked. -/

namespace WeakIdentity.Decimal

/-- The choices a writer of fractions makes. -/
structure Style where
  /-- The least exponent of the first digit for which the point stands among the digits. -/
  positionalFrom : Int
  positionalTo : Int
  /-- What stands after the digits of a whole number. -/
  wholeEnd : String
  /-- What stands between the digits and an exponent that is not negative. -/
  upMark : String
  /-- What stands between the digits and the size of a negative exponent. -/
  downMark : String
  infinite : String
  undefined : String

/-- The digits with a point among them, zeros added where the point lies beyond them. -/
def Style.positional (style : Style) (d : Digits) : String :=
  if d.lead < 0 then
    "0." ++ String.ofList (List.replicate (d.lead.natAbs - 1) '0' ++ d.digits)
  else
    let before := d.lead.toNat + 1
    let whole := d.digits.take before ++ List.replicate (before - d.digits.length) '0'
    let after := d.digits.drop before
    String.ofList whole ++
      (if after.isEmpty then style.wholeEnd else "." ++ String.ofList after)

/-- The first digit, a point, the other digits, and the exponent. -/
def Style.scientific (style : Style) (d : Digits) : String :=
  let after := d.digits.drop 1
  String.ofList (d.digits.take 1) ++
    (if after.isEmpty then "" else "." ++ String.ofList after) ++
    (if d.lead < 0 then style.downMark else style.upMark) ++ Nat.repr d.lead.natAbs

def Style.digits (style : Style) (d : Digits) : String :=
  if style.positionalFrom ≤ d.lead ∧ d.lead ≤ style.positionalTo then style.positional d
  else style.scientific d

def Style.text (style : Style) (x : Float) : String :=
  match Binary.ofBits x.toBits with
  | .zero negative => sign negative ++ "0" ++ style.wholeEnd
  | .finite negative m q => sign negative ++ style.digits (shortest m q)
  | .infinite negative => sign negative ++ style.infinite
  | .undefined => style.undefined
where
  sign (negative : Bool) : String := if negative then "-" else ""

end WeakIdentity.Decimal
