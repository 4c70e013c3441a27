/-!
Binary floating point numbers of 64 bits, as bit patterns. A finite number is read exactly as
`± significand · 2 ^ exponent`; arithmetic is exact arithmetic on these readings followed by one
rounding to the nearest number, halves to the even one.
-/

set_option autoImplicit false

namespace Interop

/-- A floating point number given by its 64 bits. -/
structure Binary64 where
  /-- Sign, eleven bits of exponent, fifty-two bits of fraction. -/
  bits : UInt64
  deriving DecidableEq, Inhabited

namespace Binary64

/-! ### Reading -/

def isNegative (x : Binary64) : Bool := Nat.pow 2 63 ≤ x.bits.toNat

def exponentField (x : Binary64) : Nat := x.bits.toNat / Nat.pow 2 52 % Nat.pow 2 11

def fractionField (x : Binary64) : Nat := x.bits.toNat % Nat.pow 2 52

def isFinite (x : Binary64) : Bool := x.exponentField != 2047

def isNaN (x : Binary64) : Bool := x.exponentField == 2047 && x.fractionField != 0

def isInfinite (x : Binary64) : Bool := x.exponentField == 2047 && x.fractionField == 0

def isZero (x : Binary64) : Bool := x.exponentField == 0 && x.fractionField == 0

/-- The integer factor of a finite number's magnitude. -/
def significand (x : Binary64) : Nat :=
  if x.exponentField = 0 then x.fractionField else Nat.pow 2 52 + x.fractionField

/-- The power of two that goes with `significand`. -/
def exponent (x : Binary64) : Int :=
  if x.exponentField = 0 then -1074 else (x.exponentField : Int) - 1075

/-- The magnitude of a finite number as a fraction: numerator and denominator. -/
def magnitude (x : Binary64) : Nat × Nat :=
  if 0 ≤ x.exponent then (x.significand * Nat.pow 2 x.exponent.toNat, 1)
  else (x.significand, Nat.pow 2 (-x.exponent).toNat)

/-- The integer that a finite number is equal to, if it is one. -/
def toInt? (x : Binary64) : Option Int :=
  let (numerator, denominator) := x.magnitude
  if x.isFinite && numerator % denominator == 0 then
    let value : Int := (numerator / denominator : Nat)
    some (if x.isNegative then -value else value)
  else none

/-! ### Rounding -/

/-- The bits, without sign, of the number nearest to `numerator / denominator`; of two that are
equally near, the one whose last bit is zero. Beyond the largest finite number this is infinity. -/
def roundedBits (numerator denominator : Nat) : Nat :=
  if numerator = 0 then 0 else
  let scaled (e : Int) : Nat × Nat :=
    if 0 ≤ e then (numerator, denominator * Nat.pow 2 e.toNat)
    else (numerator * Nat.pow 2 (-e).toNat, denominator)
  let wide : Int := max ((numerator.log2 : Int) - denominator.log2 - 52) (-1074)
  let narrow : Int := max (wide - 1) (-1074)
  let e := if (scaled wide).1 / (scaled wide).2 < Nat.pow 2 52 then narrow else wide
  let (n, d) := scaled e
  let quotient := n / d
  let remainder := n % d
  let nearest :=
    if d < 2 * remainder || (2 * remainder == d && quotient % 2 == 1) then quotient + 1
    else quotient
  min ((e + 1074).toNat * Nat.pow 2 52 + nearest) (2047 * Nat.pow 2 52)

/-- A number from its sign and the remaining bits. -/
def ofParts (negative : Bool) (rest : Nat) : Binary64 :=
  ⟨UInt64.ofNat (if negative then Nat.pow 2 63 + rest else rest)⟩

/-- The number nearest to a fraction with the given sign. -/
def ofRatio (negative : Bool) (numerator denominator : Nat) : Binary64 :=
  ofParts negative (roundedBits numerator denominator)

def ofInt (i : Int) : Binary64 := ofRatio (i < 0) i.natAbs 1

/-- The number nearest to `digits · 10 ^ exponent`. -/
def ofDecimal (digits : Nat) (exponent : Int) : Binary64 :=
  if 0 ≤ exponent then ofRatio false (digits * Nat.pow 10 exponent.toNat) 1
  else ofRatio false digits (Nat.pow 10 (-exponent).toNat)

def zero : Binary64 := ⟨0⟩

def infinity (negative : Bool) : Binary64 := ofParts negative (2047 * Nat.pow 2 52)

/-- The result of an operation that has none, such as a difference of infinities. -/
def undefined : Binary64 := ofParts true (2047 * Nat.pow 2 52 + Nat.pow 2 51)

/-! ### Arithmetic -/

def neg (x : Binary64) : Binary64 := ⟨x.bits ^^^ 0x8000000000000000⟩

/-- A number that is not a number, made to raise no further signal. -/
def quiet (x : Binary64) : Binary64 := ⟨x.bits ||| 0x0008000000000000⟩

/-- What an operation answers if one of its operands is not a number: the first such operand. -/
def ifNumbers (x y : Binary64) (result : Binary64) : Binary64 :=
  if x.isNaN then x.quiet else if y.isNaN then y.quiet else result

/-- The sum. Opposite numbers add up to positive zero. -/
def add (x y : Binary64) : Binary64 :=
  ifNumbers x y <|
    if x.isInfinite then
      if y.isInfinite && x.isNegative != y.isNegative then undefined else x
    else if y.isInfinite then y
    else
      let e := min x.exponent y.exponent
      let aligned (z : Binary64) : Int :=
        let n : Int := (z.significand * Nat.pow 2 (z.exponent - e).toNat : Nat)
        if z.isNegative then -n else n
      let sum := aligned x + aligned y
      if sum = 0 then ofParts (x.isNegative && y.isNegative) 0
      else if 0 ≤ e then ofRatio (sum < 0) (sum.natAbs * Nat.pow 2 e.toNat) 1
      else ofRatio (sum < 0) sum.natAbs (Nat.pow 2 (-e).toNat)

def sub (x y : Binary64) : Binary64 := ifNumbers x y (x.add y.neg)

def mul (x y : Binary64) : Binary64 :=
  let negative := x.isNegative != y.isNegative
  ifNumbers x y <|
    if x.isInfinite || y.isInfinite then
      if x.isZero || y.isZero then undefined else infinity negative
    else
      let (n, d) := x.magnitude
      let (n', d') := y.magnitude
      ofRatio negative (n * n') (d * d')

def div (x y : Binary64) : Binary64 :=
  let negative := x.isNegative != y.isNegative
  ifNumbers x y <|
    if x.isInfinite then
      if y.isInfinite then undefined else infinity negative
    else if y.isInfinite then ofParts negative 0
    else if y.isZero then
      if x.isZero then undefined else infinity negative
    else
      let (n, d) := x.magnitude
      let (n', d') := y.magnitude
      ofRatio negative (n * d') (d * n')

/-- Numeric equality: the two zeros are equal, and what is not a number equals nothing. -/
def equals (x y : Binary64) : Bool :=
  !x.isNaN && !y.isNaN && (x == y || (x.isZero && y.isZero))

end Binary64
end Interop
