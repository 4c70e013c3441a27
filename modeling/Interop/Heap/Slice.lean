import Interop.Heap.Basic
/-!
Positions in a sequence: single indices, which may count from the end, and the positions that a
slice selects.
-/

set_option autoImplicit false

namespace Interop

/-- The position of an index in a sequence; a negative index counts from the end. -/
def resolveIndex? (index : Int64) (length : Nat) : Option Nat :=
  let position := if index < 0 then index.toInt + length else index.toInt
  if 0 ≤ position ∧ position < length then some position.toNat else none

/-- A bound of a slice moved into the range that its step allows. -/
def clampBound (size lower upper default : Int64) : Option Int64 → Int64
  | none => default
  | some bound => if bound < 0 then max (bound + size) lower else min bound upper

/-- The positions from `index` on in steps until `stop` is reached or the next position is no signed
word. -/
def positionsFrom (step stop index : Int64) : Except Fault (List Nat) :=
  if (0 < step ∧ index < stop) ∨ (step < 0 ∧ stop < index) then
    if index < 0 then .error .slicePosition
    else
      match _h : word? (index.toInt + step.toInt) with
      | none => .ok [index.toInt.toNat]
      | some next => (index.toInt.toNat :: ·) <$> positionsFrom step stop next
  else .ok []
termination_by
  (if 0 < step then stop.toInt - index.toInt else index.toInt - stop.toInt).toNat
decreasing_by
  rename_i goes _
  have moves := toInt_of_word? _h
  simp only [Int64.lt_iff_toInt_lt, Int64.toInt_zero] at goes ⊢
  split
  · omega
  · omega

/-- Where a slice begins and ends in a sequence of a given size. -/
def sliceBounds (size : Int64) (start stop : Option Int64) (step : Int64) : Int64 × Int64 :=
  let lower := if 0 < step then 0 else -1
  let upper := if 0 < step then size else size - 1
  (clampBound size lower upper (if 0 < step then lower else upper) start,
    clampBound size lower upper (if 0 < step then upper else lower) stop)

/-- The positions that a slice selects from a sequence of a given length. -/
def slicePositions (length : Nat) (start stop step : Option Int64) : Except Fault (List Nat) :=
  if FitsWord length then
    let step := step.getD 1
    if step = 0 then .error .zeroStep
    else
      let (first, last) := sliceBounds (Int64.ofInt length) start stop step
      positionsFrom step last first
  else .error .sequenceTooLong

end Interop
