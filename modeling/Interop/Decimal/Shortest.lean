import Interop.Binary64
/-!
Shortest decimals: the fewest digits that read back as a given floating point number, and of those
the digits nearest to it.
-/

set_option autoImplicit false

namespace Interop.Decimal

/-- Which of two equally near decimals is taken. -/
inductive Tie
  | up
  | toEven
  deriving DecidableEq

/-- A positive decimal: `digits · 10 ^ exponent`. -/
structure Scientific where
  digits : Nat
  exponent : Int
  deriving DecidableEq

/-- The positive reals that are read as one number, as integers over a common denominator: the
number itself, the two ends, and whether the ends belong to it. -/
structure Interval where
  value : Nat
  low : Nat
  high : Nat
  denominator : Nat
  closed : Bool

/-- The interval around a positive finite number. Below a power of two the gap is half as wide. -/
def Interval.around (x : Binary64) : Interval :=
  let m := x.significand
  let q := x.exponent - 2
  let below := if x.fractionField = 0 && 1 < x.exponentField then 1 else 2
  let unit := Nat.pow 2 q.toNat
  { value := 4 * m * unit
    low := (4 * m - below) * unit
    high := (4 * m + 2) * unit
    denominator := Nat.pow 2 (-q).toNat
    closed := m % 2 == 0 }

/-- Whether the decimal `n / d` lies in the interval. -/
def Interval.contains (i : Interval) (n d : Nat) : Bool :=
  if i.closed then i.low * d ≤ n * i.denominator && n * i.denominator ≤ i.high * d
  else i.low * d < n * i.denominator && n * i.denominator < i.high * d

/-- The power of ten that the value reaches but for one: the least `k` from `start` on with
`value < 10 ^ k`, looking at `fuel` candidates. -/
def Interval.magnitude (i : Interval) : Nat → Int → Int
  | 0, k => k
  | fuel + 1, k =>
    let reached :=
      if 0 ≤ k then Nat.pow 10 k.toNat * i.denominator ≤ i.value
      else i.denominator ≤ i.value * Nat.pow 10 (-k).toNat
    if reached then i.magnitude fuel (k + 1) else k

/-- The decimals with unit `10 ^ p` next to the value: the one below and its distance to it, in
units of `1 / (denominator · 10 ^ max 0 (-p))`, and the unit in the same measure. -/
def Interval.neighbour (i : Interval) (p : Int) : Nat × Nat × Nat :=
  let unit := Nat.pow 10 p.toNat * i.denominator
  let value := i.value * Nat.pow 10 (-p).toNat
  (value / unit, value % unit, unit)

/-- The decimal of unit `10 ^ p` in the interval that is nearest to the value. -/
def Interval.onGrid? (i : Interval) (tie : Tie) (p : Int) : Option Nat :=
  let (below, rest, unit) := i.neighbour p
  let inside (c : Nat) : Bool := i.contains (c * Nat.pow 10 p.toNat) (Nat.pow 10 (-p).toNat)
  let upper : Bool :=
    if 2 * rest = unit then
      match tie with
      | .up => true
      | .toEven => below % 2 == 1
    else decide (unit < 2 * rest)
  match inside below, inside (below + 1) with
  | true, true => some (if upper then below + 1 else below)
  | true, false => some below
  | false, true => some (below + 1)
  | false, false => none

/-- The first of the grids of `10 ^ p`, `10 ^ (p - 1)`, … that meets the interval. -/
def Interval.search (i : Interval) (tie : Tie) : Nat → Int → Scientific
  | 0, p => ⟨(i.neighbour p).1, p⟩
  | fuel + 1, p =>
    match i.onGrid? tie p with
    | some c => ⟨c, p⟩
    | none => i.search tie fuel (p - 1)

/-- The same decimal without zeros at the end of its digits; `fuel` bounds their number. -/
def Scientific.trimmed : Nat → Scientific → Scientific
  | 0, s => s
  | fuel + 1, s =>
    if s.digits % 10 = 0 && s.digits ≠ 0 then
      Scientific.trimmed fuel ⟨s.digits / 10, s.exponent + 1⟩
    else s

/-- The shortest decimal of a positive finite number. -/
def shortest (tie : Tie) (x : Binary64) : Scientific :=
  let i := Interval.around x
  let k := i.magnitude 640 (-325)
  (i.search tie 17 (k - 1)).trimmed 20

end Interop.Decimal
