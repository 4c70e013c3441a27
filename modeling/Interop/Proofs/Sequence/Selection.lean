import Interop.Proofs.Heap.Answers
import Mathlib.Data.List.Sort
import Mathlib.Tactic.Linarith
import Mathlib.Tactic.Ring
/-!
What a slice selects, told without a loop: the positions between its bounds that lie whole steps
from the first bound, in the direction of the step.
-/

set_option autoImplicit false

namespace Interop

/-! ### The selection -/

/-- A bound of a selection as a place of the sequence; it counts from the end if it is negative, and
does not leave the places from `lower` to `upper`. -/
def placeOfBound (length lower upper bound : Int) : Int :=
  max lower (min upper (if bound < 0 then bound + length else bound))

/-- The positions that a selection takes from a sequence of some length, for a step that is not
zero. -/
def selection (length : Nat) (start stop step : Option Int) : List Nat :=
  let step := step.getD 1
  if 0 < step then
    let first := (start.map (placeOfBound length 0 length)).getD 0
    let last := (stop.map (placeOfBound length 0 length)).getD length
    (List.range length).filter fun p => first ≤ p ∧ p < last ∧ step ∣ p - first
  else
    let first := (start.map (placeOfBound length (-1) (length - 1))).getD (length - 1)
    let last := (stop.map (placeOfBound length (-1) (length - 1))).getD (-1)
    (List.range length).reverse.filter fun p => last < p ∧ p ≤ first ∧ step ∣ p - first

/-! ### The loop -/

/-- Whether a place comes before the end of a loop that goes by `step`. -/
def Before (step stop place : Int) : Prop := (0 < step ∧ place < stop) ∨ (step < 0 ∧ stop < place)

instance (step stop place : Int) : Decidable (Before step stop place) :=
  inferInstanceAs (Decidable (_ ∨ _))

/-- All places of a loop are positions and words. -/
def Unhindered (step stop index : Int) : Prop :=
  ∀ k : Nat, Before step stop (index + k * step) →
    0 ≤ index + k * step ∧ FitsWord (index + k * step)

/-- The positions that a loop takes in order: one whole step after the other from where it starts,
up to its end. -/
def TakenBy (step stop index : Int) (positions : List Nat) : Prop :=
  ∀ k : Nat, positions[k]? =
    if Before step stop (index + k * step) then some (index + k * step).toNat else none

section Loop

variable {step stop index : Int} {positions : List Nat}

theorem place_succ (index step : Int) (k : Nat) :
    index + (k + 1 : Nat) * step = index + step + k * step := by
  push_cast
  ring

theorem Unhindered.next (free : Unhindered step stop index) :
    Unhindered step stop (index + step) := by
  intro k before
  rw [← place_succ] at before ⊢
  exact free (k + 1) before

theorem not_before_later {place : Int} (ended : ¬ Before step stop place) (nonzero : step ≠ 0)
    (k : Nat) : ¬ Before step stop (place + k * step) := by
  unfold Before at ended ⊢
  rcases lt_or_gt_of_ne nonzero with down | up
  · have further : (k : Int) * step ≤ 0 :=
      Int.mul_nonpos_of_nonneg_of_nonpos (Int.natCast_nonneg k) down.le
    omega
  · have further : 0 ≤ (k : Int) * step := Int.mul_nonneg (Int.natCast_nonneg k) up.le
    omega

theorem takenBy_nil (ended : ¬ Before step stop index) (nonzero : step ≠ 0) :
    TakenBy step stop index [] := by
  intro k
  rw [if_neg (not_before_later ended nonzero k)]
  rfl

theorem TakenBy.cons (goes : Before step stop index)
    (taken : TakenBy step stop (index + step) positions) :
    TakenBy step stop index (index.toNat :: positions) := by
  intro k
  cases k with
  | zero => simp [goes]
  | succ k => rw [place_succ, List.getElem?_cons_succ, taken k]

theorem positionsFrom_eq_ok {step stop index : Int64} (nonzero : step.toInt ≠ 0)
    (free : Unhindered step.toInt stop.toInt index.toInt) :
    ∃ positions, positionsFrom step stop index = .ok positions ∧
      TakenBy step.toInt stop.toInt index.toInt positions := by
  have before_iff : ∀ place : Int64, (0 < step ∧ place < stop ∨ step < 0 ∧ stop < place) ↔
      Before step.toInt stop.toInt place.toInt := by
    intro place
    simp only [Int64.lt_iff_toInt_lt, Int64.toInt_zero, Before]
  fun_induction positionsFrom step stop index with
  -- the loop never stands at a place that is no position
  | case1 index goes negative =>
      have start : Before step.toInt stop.toInt (index.toInt + (0 : Nat) * step.toInt) := by
        simpa using (before_iff index).mp goes
      have natural := (free 0 start).1
      rw [Int64.lt_iff_toInt_lt, Int64.toInt_zero] at negative
      omega
  -- a next place that is no word is no place of the loop: the loop would have ended there anyway
  | case2 index goes _ beyond =>
      have ended : ¬ Before step.toInt stop.toInt (index.toInt + step.toInt) := by
        intro goesOn
        have fits := (free 1 (by simpa using goesOn)).2
        simp [word?] at beyond
        exact beyond (by simpa using fits)
      exact ⟨_, rfl, (takenBy_nil ended nonzero).cons ((before_iff index).mp goes)⟩
  | case3 index goes _ next word ih =>
      rw [toInt_of_word? word] at ih
      obtain ⟨positions, run, taken⟩ := ih free.next
      rw [run]
      exact ⟨_, rfl, taken.cons ((before_iff index).mp goes)⟩
  | case4 index ended =>
      exact ⟨[], rfl, takenBy_nil (mt (before_iff index).mpr ended) nonzero⟩

theorem TakenBy.place (taken : TakenBy step stop index positions)
    (free : Unhindered step stop index) {k p : Nat} (found : positions[k]? = some p) :
    (p : Int) = index + k * step ∧ Before step stop p := by
  rw [taken k] at found
  split at found
  · rename_i before
    have natural := (free k before).1
    have same : (p : Int) = index + k * step := by
      have position := Option.some.inj found
      omega
    rw [same]
    exact ⟨rfl, before⟩
  · cases found

/-- A loop takes the places whole steps from where it starts that come before its end. -/
theorem TakenBy.mem_iff (taken : TakenBy step stop index positions)
    (free : Unhindered step stop index) (p : Nat) :
    p ∈ positions ↔ ∃ k : Nat, (p : Int) = index + k * step ∧ Before step stop p := by
  rw [List.mem_iff_getElem?]
  apply exists_congr
  intro k
  constructor
  · exact taken.place free
  · rintro ⟨place, before⟩
    rw [taken k, ← place, if_pos before, Int.toNat_natCast]

/-- A loop takes its places in the direction of the step. -/
theorem TakenBy.pairwise (taken : TakenBy step stop index positions) (nonzero : step ≠ 0)
    (free : Unhindered step stop index) :
    positions.Pairwise fun p q : Nat => Before step q p := by
  rw [List.pairwise_iff_getElem]
  intro i j hi hj earlier
  have first := (taken.place free (List.getElem?_eq_getElem hi)).1
  have second := (taken.place free (List.getElem?_eq_getElem hj)).1
  obtain ⟨distance, rfl⟩ := Nat.exists_eq_add_of_lt earlier
  unfold Before
  push_cast at second
  rcases lt_or_gt_of_ne nonzero with down | up
  · have further : ((distance : Int) + 1) * step < 0 := Int.mul_neg_of_pos_of_neg (by omega) down
    right
    constructor
    · exact down
    · linarith
  · have further : 0 < ((distance : Int) + 1) * step := Int.mul_pos (by omega) up
    left
    constructor
    · exact up
    · linarith

end Loop

/-! ### The bounds of a slice -/

/-- Where a slice begins and ends, and the step between its positions. -/
structure Indices where
  first : Int
  last : Int
  step : Int

/-- A bound of a slice as a place; it counts from the end if it is negative. -/
def resolveBound (length lower upper default : Int) : Option Int → Int
  | none => default
  | some bound => if bound < 0 then max (bound + length) lower else min bound upper

/-- The bounds and the step that a slice has for sequences of some length. -/
def sliceIndices (length : Int) (start stop step : Option Int) : Indices :=
  let step := step.getD 1
  let lower := if step < 0 then -1 else 0
  let upper := if step < 0 then length - 1 else length
  { first := resolveBound length lower upper (if step < 0 then upper else lower) start
    last := resolveBound length lower upper (if step < 0 then lower else upper) stop
    step := step }

theorem resolveBound_eq {length lower upper default : Int} (low : lower ≤ 0)
    (high : length - 1 ≤ upper) (ordered : lower ≤ upper) (bound : Option Int) :
    resolveBound length lower upper default bound =
      (bound.map (placeOfBound length lower upper)).getD default := by
  cases bound with
  | none => rfl
  | some bound =>
      simp only [resolveBound, Option.map_some, Option.getD_some, placeOfBound]
      split
      · omega
      · omega

theorem placeOfBound_mem (length lower upper default : Int) (bound : Option Int)
    (ordered : lower ≤ upper) (between : lower ≤ default ∧ default ≤ upper) :
    lower ≤ (bound.map (placeOfBound length lower upper)).getD default ∧
      (bound.map (placeOfBound length lower upper)).getD default ≤ upper := by
  cases bound with
  | none => exact between
  | some bound =>
      simp only [Option.map_some, Option.getD_some, placeOfBound]
      omega

theorem sliceIndices_between (length : Nat) (start stop step : Option Int) :
    let indices := sliceIndices length start stop step
    (0 < indices.step → 0 ≤ indices.first ∧ indices.last ≤ length) ∧
      (indices.step < 0 → indices.first < length ∧ -1 ≤ indices.last) := by
  intro indices
  constructor
  · intro up
    have ascends : ¬ step.getD 1 < 0 := not_lt.mpr up.le
    simp only [indices, sliceIndices, if_neg ascends]
    rw [resolveBound_eq (by omega) (by omega) (by omega),
      resolveBound_eq (by omega) (by omega) (by omega)]
    have first := placeOfBound_mem length 0 length 0 start (by omega) (by omega)
    have last := placeOfBound_mem length 0 length length stop (by omega) (by omega)
    omega
  · intro down
    have descends : step.getD 1 < 0 := down
    simp only [indices, sliceIndices, if_pos descends]
    rw [resolveBound_eq (by omega) (by omega) (by omega),
      resolveBound_eq (by omega) (by omega) (by omega)]
    have first := placeOfBound_mem length (-1) (length - 1) (length - 1) start (by omega) (by omega)
    have last := placeOfBound_mem length (-1) (length - 1) (-1) stop (by omega) (by omega)
    omega

/-- A loop between two places of a sequence takes positions of the sequence only. -/
theorem inside_of_between {step first last : Int} {length : Nat}
    (up : 0 < step → 0 ≤ first ∧ last ≤ length) (down : step < 0 → first < length ∧ -1 ≤ last)
    {k : Nat} (before : Before step last (first + k * step)) :
    0 ≤ first + k * step ∧ first + k * step < length := by
  rcases before with ⟨ascends, before⟩ | ⟨descends, before⟩
  · obtain ⟨least, greatest⟩ := up ascends
    have further : (k : Int) * 1 ≤ k * step :=
      Int.mul_le_mul_of_nonneg_left (by omega) (Int.natCast_nonneg k)
    omega
  · obtain ⟨greatest, least⟩ := down descends
    have further : (k : Int) * step ≤ k * -1 :=
      Int.mul_le_mul_of_nonneg_left (by omega) (Int.natCast_nonneg k)
    omega

theorem sliceIndices_inside {length : Nat} {start stop step : Option Int} {k : Nat} :
    let indices := sliceIndices length start stop step
    Before indices.step indices.last (indices.first + k * indices.step) →
      0 ≤ indices.first + k * indices.step ∧ indices.first + k * indices.step < length := by
  obtain ⟨up, down⟩ := sliceIndices_between length start stop step
  exact inside_of_between up down

theorem sliceIndices_unhindered {length : Nat} (fits : FitsWord length)
    (start stop step : Option Int) :
    let indices := sliceIndices length start stop step
    Unhindered indices.step indices.last indices.first := by
  intro indices k before
  have inside : 0 ≤ indices.first + k * indices.step ∧ indices.first + k * indices.step < length :=
    sliceIndices_inside before
  unfold FitsWord at fits ⊢
  omega

/-! ### Words -/

theorem toInt_max (a b : Int64) : (max a b).toInt = max a.toInt b.toInt := by
  change (if a ≤ b then b else a).toInt = _
  split
  · rename_i below
    rw [Int64.le_iff_toInt_le] at below
    omega
  · rename_i above
    rw [Int64.le_iff_toInt_le] at above
    omega

theorem toInt_min (a b : Int64) : (min a b).toInt = min a.toInt b.toInt := by
  change (if a ≤ b then a else b).toInt = _
  split
  · rename_i below
    rw [Int64.le_iff_toInt_le] at below
    omega
  · rename_i above
    rw [Int64.le_iff_toInt_le] at above
    omega

theorem toInt_add_size {bound size : Int64} (negative : bound < 0) (natural : 0 ≤ size.toInt) :
    (bound + size).toInt = bound.toInt + size.toInt := by
  rw [Int64.lt_iff_toInt_lt, Int64.toInt_zero] at negative
  have least := bound.le_toInt
  have greatest := size.toInt_lt
  rw [Int64.toInt_add, Int.bmod_eq_of_le (by omega) (by omega)]

theorem toInt_sub_one {size : Int64} (natural : 0 ≤ size.toInt) :
    (size - 1).toInt = size.toInt - 1 := by
  have greatest := size.toInt_lt
  rw [Int64.toInt_sub, Int64.toInt_one, Int.bmod_eq_of_le (by omega) (by omega)]

theorem toInt_clampBound {size : Int64} (natural : 0 ≤ size.toInt) (lower upper default : Int64)
    (bound : Option Int64) :
    (clampBound size lower upper default bound).toInt =
      resolveBound size.toInt lower.toInt upper.toInt default.toInt (bound.map Int64.toInt) := by
  cases bound with
  | none => rfl
  | some bound =>
      simp only [clampBound, resolveBound, Option.map_some, ← Int64.toInt_zero,
        ← Int64.lt_iff_toInt_lt]
      split
      · rename_i negative
        rw [toInt_max, toInt_add_size negative natural]
      · rw [toInt_min]

theorem toInt_sliceBounds {size step : Int64} (natural : 0 ≤ size.toInt) (nonzero : step.toInt ≠ 0)
    (start stop : Option Int64) :
    let indices := sliceIndices size.toInt (start.map Int64.toInt) (stop.map Int64.toInt)
      (some step.toInt)
    (sliceBounds size start stop step).1.toInt = indices.first ∧
      (sliceBounds size start stop step).2.toInt = indices.last := by
  have minusOne : (-1 : Int64).toInt = -1 := by decide
  have up_iff : 0 < step ↔ 0 < step.toInt := by rw [Int64.lt_iff_toInt_lt, Int64.toInt_zero]
  by_cases up : 0 < step
  · have down : ¬ step.toInt < 0 := not_lt.mpr (up_iff.mp up).le
    simp only [sliceBounds, sliceIndices, Option.getD_some, if_pos up, if_neg down,
      toInt_clampBound natural, Int64.toInt_zero, and_self]
  · have down : step.toInt < 0 := lt_of_le_of_ne (not_lt.mp (mt up_iff.mpr up)) nonzero
    simp only [sliceBounds, sliceIndices, Option.getD_some, if_neg up, if_pos down,
      toInt_clampBound natural, toInt_sub_one natural, minusOne, and_self]

/-! ### The positions of a slice -/

theorem slicePositions_eq_ok {length : Nat} {start stop step : Option Int64}
    (fits : FitsWord length) (nonzero : step.getD 1 ≠ 0) :
    let indices := sliceIndices length (start.map Int64.toInt) (stop.map Int64.toInt)
      (step.map Int64.toInt)
    ∃ positions, slicePositions length start stop step = .ok positions ∧
      TakenBy indices.step indices.last indices.first positions := by
  have sizeIs : (Int64.ofInt length).toInt = length := toInt_ofInt_of_fitsWord fits
  have natural : 0 ≤ (Int64.ofInt length).toInt := by omega
  have nonzeroStep : (step.getD 1).toInt ≠ 0 := by
    rw [← Int64.toInt_zero]
    exact mt Int64.toInt_inj.mp nonzero
  have same : sliceIndices length (start.map Int64.toInt) (stop.map Int64.toInt)
      (step.map Int64.toInt) = sliceIndices length (start.map Int64.toInt) (stop.map Int64.toInt)
        (some (step.getD 1).toInt) := by
    cases step with
    | none => rw [Option.getD_none, Int64.toInt_one]; rfl
    | some step => rfl
  have free := sliceIndices_unhindered fits (start.map Int64.toInt) (stop.map Int64.toInt)
    (some (step.getD 1).toInt)
  obtain ⟨first, last⟩ := toInt_sliceBounds natural nonzeroStep start stop
  rw [sizeIs] at first last
  have run : slicePositions length start stop step = positionsFrom (step.getD 1)
      (sliceBounds (Int64.ofInt length) start stop (step.getD 1)).2
      (sliceBounds (Int64.ofInt length) start stop (step.getD 1)).1 := by
    rw [slicePositions, if_pos fits]
    dsimp only
    rw [if_neg nonzero]
  rw [same, run]
  dsimp only at free ⊢
  rw [← first, ← last] at free ⊢
  exact positionsFrom_eq_ok nonzeroStep free

/-- Whole steps from a place, in the direction of the step. -/
theorem exists_steps_iff {step first p : Int} (nonzero : step ≠ 0) :
    (∃ k : Nat, p = first + k * step) ↔
      step ∣ p - first ∧ (0 < step → first ≤ p) ∧ (step < 0 → p ≤ first) := by
  constructor
  · rintro ⟨k, rfl⟩
    refine ⟨⟨k, by ring⟩, fun up => ?_, fun down => ?_⟩
    · have further : 0 ≤ (k : Int) * step := Int.mul_nonneg (Int.natCast_nonneg k) up.le
      omega
    · have further : (k : Int) * step ≤ 0 :=
        Int.mul_nonpos_of_nonneg_of_nonpos (Int.natCast_nonneg k) down.le
      omega
  · rintro ⟨⟨m, distance⟩, up, down⟩
    have natural : 0 ≤ m := by
      by_contra negative
      rcases lt_or_gt_of_ne nonzero with descends | ascends
      · have before := down descends
        nlinarith
      · have before := up ascends
        nlinarith
    refine ⟨m.toNat, ?_⟩
    rw [Int.toNat_of_nonneg natural, mul_comm, ← distance]
    omega

/-- What a loop takes between the bounds of a slice is the selection of the slice. -/
theorem TakenBy.eq_selection {length : Nat} {start stop step : Option Int} {positions : List Nat}
    (fits : FitsWord length) (nonzero : step.getD 1 ≠ 0)
    (taken : TakenBy (sliceIndices length start stop step).step
      (sliceIndices length start stop step).last (sliceIndices length start stop step).first
      positions) :
    positions = selection length start stop step := by
  have free := sliceIndices_unhindered fits start stop step
  -- both lists are sorted in the direction of the step, so that it is enough to compare members
  unfold selection
  dsimp only at free ⊢
  by_cases up : 0 < step.getD 1
  · have ascends : ¬ step.getD 1 < 0 := not_lt.mpr up.le
    have startsInside := placeOfBound_mem length 0 length 0 start (by omega) (by omega)
    simp only [sliceIndices, if_neg ascends] at taken free
    rw [resolveBound_eq (by omega) (by omega) (by omega),
      resolveBound_eq (by omega) (by omega) (by omega)] at taken free
    have stopsInside := placeOfBound_mem length 0 length length stop (by omega) (by omega)
    rw [if_pos up]
    generalize (start.map (placeOfBound length 0 length)).getD 0 = first at *
    generalize (stop.map (placeOfBound length 0 length)).getD length = last at *
    have ascending : positions.Pairwise (· < ·) :=
      (taken.pairwise nonzero free).imp fun before => by unfold Before at before; omega
    refine ascending.eq_of_mem_iff (List.pairwise_lt_range.filter _) fun p => ?_
    rw [taken.mem_iff free, List.mem_filter, List.mem_range, decide_eq_true_iff,
      exists_and_right, exists_steps_iff nonzero]
    unfold Before
    omega
  · have descends : step.getD 1 < 0 := by omega
    simp only [sliceIndices, if_pos descends] at taken free
    rw [resolveBound_eq (by omega) (by omega) (by omega),
      resolveBound_eq (by omega) (by omega) (by omega)] at taken free
    have startsInside := placeOfBound_mem length (-1) (length - 1) (length - 1) start (by omega)
      (by omega)
    have stopsInside := placeOfBound_mem length (-1) (length - 1) (-1) stop (by omega) (by omega)
    rw [if_neg up]
    generalize (start.map (placeOfBound length (-1) (length - 1))).getD (length - 1) = first at *
    generalize (stop.map (placeOfBound length (-1) (length - 1))).getD (-1) = last at *
    have descending : positions.Pairwise (· > ·) :=
      (taken.pairwise nonzero free).imp fun before => by unfold Before at before; omega
    have reversed : (List.range length).reverse.Pairwise (· > ·) :=
      List.pairwise_reverse.mpr List.pairwise_lt_range
    refine descending.eq_of_mem_iff (reversed.filter _) fun p => ?_
    rw [taken.mem_iff free, List.mem_filter, List.mem_reverse, List.mem_range, decide_eq_true_iff,
      exists_and_right, exists_steps_iff nonzero]
    unfold Before
    omega

theorem getD_map_toInt (step : Option Int64) :
    (step.map Int64.toInt).getD 1 = (step.getD 1).toInt := by
  cases step with
  | none => exact Int64.toInt_one.symm
  | some step => rfl

theorem slicePositions_zeroStep {length : Nat} {start stop step : Option Int64}
    (fits : FitsWord length) (zero : (step.map Int64.toInt).getD 1 = 0) :
    slicePositions length start stop step = .error .zeroStep := by
  rw [getD_map_toInt, ← Int64.toInt_zero, Int64.toInt_inj] at zero
  rw [slicePositions, if_pos fits]
  dsimp only
  rw [if_pos zero]

theorem slicePositions_eq {length : Nat} {start stop step : Option Int64} (fits : FitsWord length)
    (nonzero : (step.map Int64.toInt).getD 1 ≠ 0) :
    slicePositions length start stop step = .ok
      (selection length (start.map Int64.toInt) (stop.map Int64.toInt) (step.map Int64.toInt)) := by
  have nonzeroWord : step.getD 1 ≠ 0 := by
    rintro zero
    rw [getD_map_toInt, zero] at nonzero
    exact nonzero Int64.toInt_zero
  obtain ⟨positions, run, taken⟩ := @slicePositions_eq_ok length start stop step fits nonzeroWord
  rw [run, taken.eq_selection fits nonzero]

end Interop
