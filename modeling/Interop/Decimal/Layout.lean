import Interop.Decimal.Shortest
/-!
How floating point numbers are written. A layout fixes what the digits leave open: which magnitudes
are written positionally, and whether an integer keeps a point.
-/

set_option autoImplicit false

namespace Interop.Decimal

/-- The decisions of one way to write numbers. -/
structure Layout where
  /-- The magnitudes written without an exponent: `least ≤ e` and `e < bound` where the number is
  `d.ddd · 10 ^ e`; without a range, all. -/
  positional : Option (Int × Int)
  /-- Whether an integer is written with `.0`. -/
  keepsPoint : Bool
  /-- Whether an exponent that is not negative has a plus sign. -/
  signsExponent : Bool
  tie : Tie

/-- Numbers in running text: never an exponent, and no point in integers. -/
def Layout.text : Layout := ⟨none, false, false, .up⟩

/-- Numbers in descriptions of values: from `1e16` on and below `1e-4` with an exponent. -/
def Layout.description : Layout := ⟨some (-4, 16), true, false, .up⟩

/-- Numbers in JSON: from `1e16` on and below `1e-5` with an exponent, whose sign is always
written. -/
def Layout.json : Layout := ⟨some (-5, 16), true, true, .toEven⟩

/-- The digits of a decimal around a point that stands after `whole` of them. -/
def placed (digits : List Char) (whole : Int) (keepsPoint : Bool) : List Char :=
  if whole ≤ 0 then
    '0' :: '.' :: List.replicate (-whole).toNat '0' ++ digits
  else if digits.length ≤ whole.toNat then
    digits ++ List.replicate (whole.toNat - digits.length) '0' ++
      (if keepsPoint then ['.', '0'] else [])
  else digits.take whole.toNat ++ '.' :: digits.drop whole.toNat

/-- A positive decimal in a layout. -/
def Layout.positive (layout : Layout) (s : Scientific) : String :=
  let digits := Nat.toDigits 10 s.digits
  let whole : Int := s.exponent + digits.length
  let positional :=
    match layout.positional with
    | none => true
    | some (least, bound) => least ≤ whole - 1 && whole - 1 < bound
  if positional then String.ofList (placed digits whole layout.keepsPoint)
  else
    let mantissa :=
      match digits with
      | [d] => [d]
      | d :: rest => d :: '.' :: rest
      | [] => []
    let sign := if layout.signsExponent && 1 ≤ whole then "+" else ""
    String.ofList mantissa ++ "e" ++ sign ++ toString (whole - 1)

def Layout.write (layout : Layout) (x : Binary64) : String :=
  if x.isNaN then "NaN"
  else
    (if x.isNegative then "-" else "") ++
      (if x.isInfinite then "inf"
       else if x.isZero then (if layout.keepsPoint then "0.0" else "0")
       else layout.positive (shortest layout.tie x))

/-- An integral number with all its digits and `.0`; any other in running text. -/
def exact (x : Binary64) : String :=
  match x.toInt? with
  | some value => (if x.isNegative then "-" else "") ++ toString value.natAbs ++ ".0"
  | none => Layout.text.write x

end Interop.Decimal
