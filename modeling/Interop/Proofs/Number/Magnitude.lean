import Interop.Binary64
import Mathlib.Algebra.Order.Field.Power
import Mathlib.Data.Rat.Cast.Order
/-!
The exact values of floats. A finite float is a whole number of units, where the unit is the least
positive float; the number of units determines the float, but for the sign of zero.
-/

set_option autoImplicit false

namespace Interop.Binary64

variable {x y : Binary64}

/-- The number that a finite float stands for. -/
def value (x : Binary64) : ℚ :=
  (if x.isNegative then -1 else 1) * (x.significand * 2 ^ x.exponent)

/-! ### Fields -/

theorem exponentField_lt (x : Binary64) : x.exponentField < 2 ^ 11 :=
  Nat.mod_lt _ (by decide)

theorem fractionField_lt (x : Binary64) : x.fractionField < 2 ^ 52 :=
  Nat.mod_lt _ (by decide)

theorem toNat_bits (x : Binary64) : x.bits.toNat =
    (if x.isNegative then 2 ^ 63 else 0) + x.exponentField * 2 ^ 52 + x.fractionField := by
  have bounded := x.bits.toNat_lt
  simp only [isNegative, exponentField, fractionField, Nat.pow_eq, decide_eq_true_eq]
  split
  · omega
  · omega

/-- A float is determined by its sign and its two fields. -/
theorem eq_of_fields (sign : x.isNegative = y.isNegative)
    (exponent : x.exponentField = y.exponentField) (fraction : x.fractionField = y.fractionField) :
    x = y := by
  have bits : x.bits.toNat = y.bits.toNat := by
    rw [toNat_bits, toNat_bits, sign, exponent, fraction]
  cases x
  cases y
  exact congrArg Binary64.mk (UInt64.toNat_inj.mp bits)

/-! ### Units -/

/-- The power of two that the significand is multiplied with to count in units. -/
def scale (x : Binary64) : Nat := x.exponentField - 1

/-- The magnitude of a finite float in units. -/
def size (x : Binary64) : Nat := x.significand * 2 ^ x.scale

/-- A finite float in units of the least positive one. -/
def units (x : Binary64) : Int := if x.isNegative then -x.size else x.size

theorem exponent_eq (x : Binary64) : x.exponent = x.scale - 1074 := by
  unfold exponent scale
  split <;> omega

theorem significand_lt (x : Binary64) : x.significand < 2 ^ 53 := by
  have bounded := x.fractionField_lt
  unfold significand
  split
  · omega
  · rw [Nat.pow_eq]
    omega

/-- A significand is as long as it can be, except at the smallest scale. -/
theorem full_significand (x : Binary64) : x.scale = 0 ∨ 2 ^ 52 ≤ x.significand := by
  unfold scale significand
  split
  · omega
  · rw [Nat.pow_eq]
    omega

/-- How many units make one. -/
def unitsOfOne : Nat := 2 ^ 1074

theorem unitsOfOne_pos : 0 < unitsOfOne := pow_pos Nat.two_pos 1074

theorem two_pow_add_unitsOfOne (k : Nat) : 2 ^ (k + 1074) = 2 ^ k * unitsOfOne :=
  pow_add 2 k 1074

theorem cast_unitsOfOne_ne_zero : (unitsOfOne : ℚ) ≠ 0 :=
  Nat.cast_ne_zero.mpr unitsOfOne_pos.ne'

theorem value_eq (x : Binary64) : x.value = x.units / unitsOfOne := by
  have counted : (unitsOfOne : ℚ) = 2 ^ 1074 := by
    rw [unitsOfOne, Nat.cast_pow, Nat.cast_ofNat]
  have scaled : (2 : ℚ) ^ x.exponent = 2 ^ x.scale / unitsOfOne := by
    rw [exponent_eq, zpow_sub₀ two_ne_zero, zpow_natCast, zpow_ofNat, counted]
  have sized : (x.size : ℚ) = x.significand * 2 ^ x.scale := by
    rw [size, Nat.cast_mul, Nat.cast_pow, Nat.cast_ofNat]
  rw [value, scaled, ← mul_div_assoc, ← mul_div_assoc, ← sized, units]
  by_cases negative : x.isNegative = true
  · rw [if_pos negative, if_pos negative, neg_one_mul, Int.cast_neg, Int.cast_natCast, neg_div]
  · rw [if_neg negative, if_neg negative, one_mul, Int.cast_natCast]

theorem value_eq_value_iff : x.value = y.value ↔ x.units = y.units := by
  rw [value_eq, value_eq, div_left_inj' cast_unitsOfOne_ne_zero, Int.cast_inj]

theorem value_eq_int_iff {i : Int} : x.value = i ↔ x.units = i * unitsOfOne := by
  rw [value_eq, div_eq_iff cast_unitsOfOne_ne_zero]
  norm_cast

/-! ### Floats of one value -/

/-- A number of units is written in one way only. -/
theorem eq_of_size_eq (same : x.size = y.size) :
    x.significand = y.significand ∧ x.scale = y.scale := by
  have notLess : ∀ {x y : Binary64}, x.size = y.size → ¬ x.scale < y.scale := by
    intro x y same less
    -- the significand at the larger scale is full, and shifted it is too long for the smaller one
    obtain ⟨more, sum⟩ := Nat.exists_eq_add_of_lt less
    have full : 2 ^ 52 ≤ y.significand := y.full_significand.resolve_left (by omega)
    have shifted : x.significand = y.significand * 2 ^ (more + 1) := by
      have split : 2 ^ y.scale = 2 ^ (more + 1) * 2 ^ x.scale := by
        rw [← Nat.pow_add, sum]
        congr 1
        omega
      rw [size, size, split, ← Nat.mul_assoc] at same
      exact Nat.eq_of_mul_eq_mul_right (Nat.two_pow_pos _) same
    have long : y.significand * 2 ≤ x.significand := by
      rw [shifted, Nat.pow_succ, ← Nat.mul_assoc]
      exact Nat.mul_le_mul_right 2 (Nat.le_mul_of_pos_right _ (Nat.two_pow_pos _))
    have short := x.significand_lt
    omega
  have scale : x.scale = y.scale :=
    Nat.le_antisymm (Nat.le_of_not_lt (notLess same.symm)) (Nat.le_of_not_lt (notLess same))
  rw [size, size, scale] at same
  exact ⟨Nat.eq_of_mul_eq_mul_right (Nat.two_pow_pos _) same, scale⟩

theorem fields_eq (significand : x.significand = y.significand) (scale : x.scale = y.scale) :
    x.exponentField = y.exponentField ∧ x.fractionField = y.fractionField := by
  have one := x.fractionField_lt
  have other := y.fractionField_lt
  unfold Binary64.significand at significand
  unfold Binary64.scale at scale
  rw [Nat.pow_eq] at significand
  split at significand <;> split at significand <;> omega

/-- Two floats with one value are the same, unless the value is zero. -/
theorem eq_of_value_eq (same : x.value = y.value) (nonzero : x.value ≠ 0) : x = y := by
  have counted := value_eq_value_iff.mp same
  have notZero : x.units ≠ 0 := by
    rw [value_eq] at nonzero
    exact fun zero => nonzero (by rw [zero, Int.cast_zero, zero_div])
  have sign : x.isNegative = y.isNegative := by
    unfold units at counted notZero
    cases one : x.isNegative <;> cases other : y.isNegative <;>
      simp only [one, other, if_true, if_false, Bool.false_eq_true] at counted notZero ⊢ <;> omega
  have size : x.size = y.size := by
    unfold units at counted
    rw [sign] at counted
    split at counted <;> omega
  obtain ⟨significand, scale⟩ := eq_of_size_eq size
  obtain ⟨exponent, fraction⟩ := fields_eq significand scale
  exact eq_of_fields sign exponent fraction

/-! ### Integral floats -/

theorem magnitude_eq (x : Binary64) : x.magnitude.1 * unitsOfOne = x.size * x.magnitude.2 := by
  have scaled := x.exponent_eq
  unfold magnitude size unitsOfOne
  split
  · have exponents : x.scale = x.exponent.toNat + 1074 := by omega
    rw [Nat.pow_eq, exponents, Nat.pow_add, Nat.mul_one, Nat.mul_assoc]
  · have exponents : 1074 = x.scale + (-x.exponent).toNat := by omega
    rw [Nat.pow_eq, exponents, Nat.pow_add, Nat.mul_assoc]

theorem magnitude_pos (x : Binary64) : 0 < x.magnitude.2 := by
  unfold magnitude
  split
  · exact Nat.one_pos
  · rw [Nat.pow_eq]
    exact Nat.two_pow_pos _

/-- The magnitude is a whole number if it is that number of times the units of one. -/
theorem size_eq_iff {n : Nat} : x.size = n * unitsOfOne ↔
    x.magnitude.1 % x.magnitude.2 = 0 ∧ x.magnitude.1 / x.magnitude.2 = n := by
  have scaled := x.magnitude_eq
  constructor
  · intro whole
    rw [whole, Nat.mul_right_comm] at scaled
    have exact : x.magnitude.1 = n * x.magnitude.2 :=
      Nat.eq_of_mul_eq_mul_right unitsOfOne_pos scaled
    rw [exact]
    exact ⟨Nat.mul_mod_left _ _, Nat.mul_div_cancel _ x.magnitude_pos⟩
  · rintro ⟨divides, rfl⟩
    have exact := Nat.div_mul_cancel (Nat.dvd_of_mod_eq_zero divides)
    apply Nat.eq_of_mul_eq_mul_right x.magnitude_pos
    rw [← scaled, Nat.mul_right_comm, exact]

theorem units_eq_iff {i : Int} : x.units = i * unitsOfOne ↔
    ∃ n : Nat, x.size = n * unitsOfOne ∧ (if x.isNegative then -(n : Int) else n) = i := by
  have positive : (0 : Int) < unitsOfOne := Int.natCast_pos.mpr unitsOfOne_pos
  constructor
  · intro counted
    have sized : x.size = i.natAbs * unitsOfOne := by
      have magnitude : x.size = x.units.natAbs := by
        unfold units
        split <;> omega
      rw [magnitude, counted, Int.natAbs_mul, Int.natAbs_natCast]
    refine ⟨i.natAbs, sized, ?_⟩
    unfold units at counted
    split at counted
    · have natural : 0 ≤ -i * unitsOfOne := by
        rw [Int.neg_mul, ← counted, Int.neg_neg]
        exact Int.natCast_nonneg _
      have sign : 0 ≤ -i := nonneg_of_mul_nonneg_left natural positive
      rw [if_pos ‹_›]
      omega
    · have natural : 0 ≤ i * unitsOfOne := by
        rw [← counted]
        exact Int.natCast_nonneg _
      have sign : 0 ≤ i := nonneg_of_mul_nonneg_left natural positive
      rw [if_neg ‹_›]
      omega
  · rintro ⟨n, sized, rfl⟩
    unfold units
    rw [sized]
    split
    · rw [Int.neg_mul, Nat.cast_mul]
    · rw [Nat.cast_mul]

/-- A finite float is read as an integer exactly if its value is that integer. -/
theorem toInt?_eq_some_iff {i : Int} :
    x.toInt? = some i ↔ x.isFinite = true ∧ x.value = i := by
  rw [value_eq_int_iff, units_eq_iff]
  unfold toInt?
  dsimp only
  constructor
  · intro read
    split at read
    · rename_i whole
      obtain ⟨isFinite, divides⟩ := Bool.and_eq_true_iff.mp whole
      exact ⟨isFinite, _, size_eq_iff.mpr ⟨beq_iff_eq.mp divides, rfl⟩, Option.some.inj read⟩
    · cases read
  · rintro ⟨isFinite, n, sized, rfl⟩
    obtain ⟨divides, rfl⟩ := size_eq_iff.mp sized
    rw [isFinite, divides]
    rfl

/-! ### Powers of two -/

section Bounds

variable {n k : Nat} (sized : x.size = n * unitsOfOne)

include sized

theorem lt_two_pow_of_size_eq (small : x.scale + 53 ≤ k + 1074) : n < 2 ^ k := by
  have bounded : x.size < 2 ^ (k + 1074) :=
    calc x.significand * 2 ^ x.scale
        < 2 ^ 53 * 2 ^ x.scale := Nat.mul_lt_mul_of_pos_right x.significand_lt (Nat.two_pow_pos _)
      _ = 2 ^ (53 + x.scale) := (Nat.pow_add 2 53 x.scale).symm
      _ ≤ 2 ^ (k + 1074) := Nat.pow_le_pow_right Nat.two_pos (Nat.add_comm 53 x.scale ▸ small)
  rw [sized, two_pow_add_unitsOfOne] at bounded
  exact Nat.lt_of_mul_lt_mul_right bounded

theorem two_pow_le_of_size_eq (large : k + 1074 ≤ x.scale + 52) (full : 2 ^ 52 ≤ x.significand) :
    2 ^ k ≤ n := by
  have bounded : 2 ^ (k + 1074) ≤ x.size :=
    calc 2 ^ (k + 1074)
        ≤ 2 ^ (52 + x.scale) := Nat.pow_le_pow_right Nat.two_pos (Nat.add_comm x.scale 52 ▸ large)
      _ = 2 ^ 52 * 2 ^ x.scale := Nat.pow_add 2 52 x.scale
      _ ≤ x.significand * 2 ^ x.scale := Nat.mul_le_mul_right _ full
  rw [sized, two_pow_add_unitsOfOne] at bounded
  exact Nat.le_of_mul_le_mul_right bounded unitsOfOne_pos

end Bounds

/-- The exponent field of an integral float whose magnitude has 63 binary digits is 1085. -/
theorem exponentField_of_value_eq_int {i : Int} (whole : x.value = i) :
    (i.natAbs < 2 ^ 63 → x.exponentField < 1086) ∧
      (2 ^ 62 ≤ i.natAbs → 1085 ≤ x.exponentField) := by
  obtain ⟨n, sized, same⟩ := units_eq_iff.mp (value_eq_int_iff.mp whole)
  have magnitude : i.natAbs = n := by
    rw [← same]
    split <;> omega
  have scaled : x.scale = x.exponentField - 1 := rfl
  rw [magnitude]
  constructor
  · intro short
    by_contra large
    have full := x.full_significand.resolve_left (by omega)
    exact Nat.not_lt.mpr (two_pow_le_of_size_eq (k := 63) sized (by omega) full) short
  · intro long
    by_contra small
    exact Nat.not_le.mpr (lt_two_pow_of_size_eq (k := 62) sized (by omega)) long

end Interop.Binary64
