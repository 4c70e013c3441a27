import Interop.Heap.Hash
import Interop.Proofs.Heap.Unfolding
import Interop.Proofs.Number.Magnitude
/-!
Hashes of numbers and of tuples of numbers. Two numbers that are equal have one hash if they are
both floats or neither is, and otherwise exactly if they are below the bound up to which a float is
hashed as an integer.
-/

set_option autoImplicit false

namespace Interop

variable {κ : Type}

/-! ### Hashes of floats -/

section HashFloat

open Binary64

variable {x y : Binary64} {i : Int}

theorem hashFloat_of_value_eq_int (finite : x.isFinite = true) (whole : x.value = i) :
    hashFloat x =
      if i.natAbs < 9200000000000000000 then Int64.ofInt i else x.bits.toInt64 := by
  unfold hashFloat
  rw [toInt?_eq_some_iff.mpr ⟨finite, whole⟩]

/-- The bits of a float as a signed word. -/
theorem toInt_bits (x : Binary64) : x.bits.toInt64.toInt =
    (if x.isNegative then -2 ^ 63 else 0) + x.exponentField * 2 ^ 52 + x.fractionField := by
  have counted := x.toNat_bits
  have exponent := x.exponentField_lt
  have fraction := x.fractionField_lt
  have word : x.bits.toInt64.toInt = (x.bits.toNat : Int).bmod (2 ^ 64) :=
    BitVec.toInt_eq_toNat_bmod _
  rw [word, counted]
  split <;> rw [Int.bmod_def] <;> split <;> omega

/-- The bits of an integral float are another word than the integer, if this is a large one. -/
theorem toInt_bits_ne (whole : x.value = i) (fits : FitsWord i)
    (large : 9200000000000000000 ≤ i.natAbs) : x.bits.toInt64.toInt ≠ i := by
  obtain ⟨least, greatest⟩ := fits
  rw [Int.pow_eq] at least greatest
  obtain ⟨below, above⟩ := exponentField_of_value_eq_int whole
  obtain ⟨n, _, same⟩ := units_eq_iff.mp (value_eq_int_iff.mp whole)
  have fraction := x.fractionField_lt
  have bits := toInt_bits x
  split at same
  · -- the bits of a negative float are above `1085 * 2 ^ 52 - 2 ^ 63`
    have exponent := above (by omega)
    rw [if_pos ‹_›] at bits
    omega
  · -- those of a positive one are below `1086 * 2 ^ 52`
    have exponent := below (by omega)
    rw [if_neg ‹_›] at bits
    omega

theorem hashFloat_eq_ofInt_iff (finite : x.isFinite = true) (whole : x.value = i)
    (fits : FitsWord i) : hashFloat x = Int64.ofInt i ↔ i.natAbs < 9200000000000000000 := by
  rw [hashFloat_of_value_eq_int finite whole]
  split
  · exact iff_of_true rfl ‹_›
  · refine iff_of_false (fun same => ?_) ‹_›
    have words := congrArg Int64.toInt same
    rw [toInt_ofInt_of_fitsWord fits] at words
    exact toInt_bits_ne whole fits (Nat.le_of_not_lt ‹_›) words

theorem hashFloat_eq_of_value_eq (finite : x.isFinite = true) (likewise : y.isFinite = true)
    (same : x.value = y.value) : hashFloat x = hashFloat y := by
  by_cases zero : x.value = 0
  · have whole : x.value = (0 : Int) := zero.trans Int.cast_zero.symm
    rw [hashFloat_of_value_eq_int finite whole,
      hashFloat_of_value_eq_int likewise (same.symm.trans whole)]
    rfl
  · rw [eq_of_value_eq same zero]

end HashFloat

/-! ### Equal numbers -/

/-- A number, of whatever kind. -/
inductive Scalar
  | bool (value : Bool)
  | int (value : Int64)
  | float (value : Binary64)

/-- What a number stands for. -/
inductive ExactNumber
  | finite (value : ℚ)
  | infinite (negative : Bool)

namespace ExactNumber

variable {x : Binary64}

/-- The number that a float stands for. One that is not a number stands for none. -/
def ofFloat? (x : Binary64) : Option ExactNumber :=
  if x.isNaN then none
  else if x.isInfinite then some (.infinite x.isNegative)
  else some (.finite x.value)

theorem of_ofFloat?_eq_finite {value : ℚ} (meant : ofFloat? x = some (.finite value)) :
    x.isFinite = true ∧ x.value = value := by
  unfold ofFloat? at meant
  split at meant
  · cases meant
  · split at meant
    · cases meant
    · refine ⟨?_, finite.inj (Option.some.inj meant)⟩
      simp only [Binary64.isNaN, Binary64.isInfinite, Binary64.isFinite] at *
      grind

theorem of_ofFloat?_eq_infinite {negative : Bool} (meant : ofFloat? x = some (.infinite negative)) :
    x.isInfinite = true ∧ x.isNegative = negative := by
  unfold ofFloat? at meant
  split at meant
  · cases meant
  · split at meant
    · exact ⟨‹_›, infinite.inj (Option.some.inj meant)⟩
    · cases meant

theorem ofFloat?_of_toInt?_eq_some {i : Int} (read : x.toInt? = some i) :
    ofFloat? x = some (.finite i) := by
  obtain ⟨isFinite, whole⟩ := Binary64.toInt?_eq_some_iff.mp read
  have proper : (x.exponentField == 2047) = false := beq_false_of_ne (bne_iff_ne.mp isFinite)
  rw [ofFloat?, Binary64.isNaN, Binary64.isInfinite, proper, whole]
  rfl

end ExactNumber

namespace Scalar

open ExactNumber

variable {a b : Scalar}

def kind : Scalar → Kind κ
  | bool value => .bool value
  | int value => .int value
  | float value => .float value

def isFloat : Scalar → Bool
  | float _ => true
  | _ => false

/-- The number that is meant, if it is one. -/
def meaning? : Scalar → Option ExactNumber
  | bool value => some (.finite (if value then 1 else 0))
  | int value => some (.finite value.toInt)
  | float value => ofFloat? value

/-- Two numbers are equal if the same number is meant. -/
def Equal (a b : Scalar) : Prop := ∃ exact, a.meaning? = some exact ∧ b.meaning? = some exact

/-- Two numbers are hashed by one rule: both as floats or neither, or the float as an integer. -/
def Agreeing (a b : Scalar) : Prop :=
  a.isFloat = b.isFloat ∨ ∃ value, a.meaning? = some (.finite value) ∧ |value| < 9200000000000000000

def hash : Scalar → Int64
  | bool value => if value then 1 else 0
  | int value => value
  | float value => hashFloat value

theorem meaning?_of_isFloat_eq_false (word : a.isFloat = false) :
    a.meaning? = some (.finite a.hash.toInt) := by
  cases a with
  | bool value => cases value <;> simp [meaning?, hash]
  | int value => rfl
  | float value => cases word

theorem Equal.symm (equal : a.Equal b) : b.Equal a := by
  obtain ⟨exact, left, right⟩ := equal
  exact ⟨exact, right, left⟩

theorem agreeing_comm (equal : a.Equal b) : a.Agreeing b ↔ b.Agreeing a := by
  obtain ⟨exact, left, right⟩ := equal
  unfold Agreeing
  rw [left, right, eq_comm]

theorem kind_injective (same : (a.kind : Kind κ) = b.kind) : a = b := by
  cases a <;> cases b <;> cases same <;> rfl

theorem kind_ne_tuple (a : Scalar) (items : List Handle) : (a.kind : Kind κ) ≠ .tuple items := by
  cases a <;> nofun

theorem exists_eq_float (kind : a.isFloat = true) : ∃ x, a = float x := by
  cases a with
  | bool value | int value => cases kind
  | float value => exact ⟨value, rfl⟩

theorem hash_eq_of_words (equal : a.Equal b) (word : a.isFloat = false)
    (likewise : b.isFloat = false) : a.hash = b.hash := by
  obtain ⟨exact, left, right⟩ := equal
  rw [meaning?_of_isFloat_eq_false word] at left
  rw [meaning?_of_isFloat_eq_false likewise, ← left] at right
  have values := finite.inj (Option.some.inj right)
  exact (Int64.toInt_inj.mp (Int.cast_injective values)).symm

theorem hash_eq_of_floats {x y : Binary64} (equal : (float x).Equal (float y)) :
    hashFloat x = hashFloat y := by
  obtain ⟨exact | negative, left, right⟩ := equal
  · obtain ⟨finite, value⟩ := of_ofFloat?_eq_finite left
    obtain ⟨likewise, other⟩ := of_ofFloat?_eq_finite right
    exact hashFloat_eq_of_value_eq finite likewise (value.trans other.symm)
  · obtain ⟨infinite, sign⟩ := of_ofFloat?_eq_infinite left
    obtain ⟨likewise, other⟩ := of_ofFloat?_eq_infinite right
    simp only [Binary64.isInfinite, Bool.and_eq_true, beq_iff_eq] at infinite likewise
    rw [Binary64.eq_of_fields (sign.trans other.symm) (infinite.1.trans likewise.1.symm)
      (infinite.2.trans likewise.2.symm)]

/-- A boolean or an integer has the hash of an equal float up to the bound. -/
theorem hash_eq_hashFloat_iff {x : Binary64} (equal : a.Equal (float x))
    (word : a.isFloat = false) : a.hash = hashFloat x ↔ a.Agreeing (float x) := by
  obtain ⟨exact, left, right⟩ := equal
  have meant := meaning?_of_isFloat_eq_false word
  obtain ⟨isFinite, value⟩ := of_ofFloat?_eq_finite (right.trans (left.symm.trans meant))
  have hashed := hashFloat_eq_ofInt_iff isFinite value ⟨a.hash.le_toInt, a.hash.toInt_lt⟩
  rw [Int64.ofInt_toInt] at hashed
  have bound : |(a.hash.toInt : ℚ)| < 9200000000000000000 ↔
      a.hash.toInt.natAbs < 9200000000000000000 := by
    rw [← Int.cast_abs, Int.abs_eq_natAbs]
    norm_cast
  rw [eq_comm, hashed, ← bound]
  constructor
  · exact fun small => .inr ⟨_, meant, small⟩
  · rintro (kinds | ⟨_, same, small⟩)
    · cases word.symm.trans kinds
    · rw [finite.inj (Option.some.inj (meant.symm.trans same))]
      exact small

theorem hash_eq_iff (equal : a.Equal b) : a.hash = b.hash ↔ a.Agreeing b := by
  cases kind : a.isFloat with
  | false =>
      cases other : b.isFloat with
      | false =>
          exact iff_of_true (hash_eq_of_words equal kind other) (.inl (kind.trans other.symm))
      | true =>
          obtain ⟨x, rfl⟩ := exists_eq_float other
          exact hash_eq_hashFloat_iff equal kind
  | true =>
      obtain ⟨x, rfl⟩ := exists_eq_float kind
      cases other : b.isFloat with
      | false =>
          rw [eq_comm, agreeing_comm equal]
          exact hash_eq_hashFloat_iff equal.symm other
      | true =>
          obtain ⟨y, rfl⟩ := exists_eq_float other
          exact iff_of_true (hash_eq_of_floats equal) (.inl rfl)

end Scalar

/-! ### Tuples of numbers -/

/-- A number, or a tuple of numbers and of such tuples. -/
inductive Numeric
  | number (value : Scalar)
  | tuple (items : List Numeric)

namespace Numeric

variable {r s : Scalar → Scalar → Prop} {a b : Numeric}

def parts : Numeric → List Numeric
  | number _ => []
  | tuple items => items

theorem sizeOf_lt_of_mem_parts {whole part : Numeric} (among : part ∈ whole.parts) :
    sizeOf part < sizeOf whole := by
  cases whole with
  | number value => cases among
  | tuple items =>
      have smaller : sizeOf part < sizeOf items := List.sizeOf_lt_of_mem among
      rw [tuple.sizeOf_spec]
      omega

/-- What holds of a value if it holds of its parts holds of every value. -/
theorem induct_parts {p : Numeric → Prop}
    (step : ∀ whole, (∀ part ∈ whole.parts, p part) → p whole) (whole : Numeric) : p whole :=
  step whole fun part _ => induct_parts step part
termination_by sizeOf whole
decreasing_by exact sizeOf_lt_of_mem_parts ‹_›

/-- Two values are of one shape, and their numbers are related position by position. -/
inductive Componentwise (r : Scalar → Scalar → Prop) : Numeric → Numeric → Prop
  | number {a b : Scalar} (related : r a b) : Componentwise r (.number a) (.number b)
  | tuple {items others : List Numeric} (each : List.Forall₂ (Componentwise r) items others) :
    Componentwise r (.tuple items) (.tuple others)

def hash : Numeric → Int64
  | number value => value.hash
  | tuple items => combineHashes (items.map hash)
termination_by whole => sizeOf whole
decreasing_by exact @sizeOf_lt_of_mem_parts (tuple items) _ ‹_›

theorem hash_eq_of_componentwise (same : ∀ a b, r a b → a.hash = b.hash)
    (related : a.Componentwise r b) : a.hash = b.hash := by
  induction b using induct_parts generalizing a with
  | step b ih =>
      cases related with
      | number related =>
          rw [hash, hash]
          exact same _ _ related
      | tuple each =>
          rw [hash, hash, map_eq_map_of_forall₂ each fun part among _ => ih part among]

end Numeric

namespace Heap

variable {heap other : Heap κ} {h k : Handle} {value : Numeric}

/-- What a handle stands for is a number or a tuple of such values. -/
inductive HoldsNumeric (heap : Heap κ) : Handle → Numeric → Prop
  | number {h : Handle} {value : Scalar} (found : heap.kind? h = some value.kind) :
    HoldsNumeric heap h (.number value)
  | tuple {h : Handle} {items : List Handle} {values : List Numeric}
    (found : heap.kind? h = some (.tuple items))
    (each : List.Forall₂ (HoldsNumeric heap) items values) :
    HoldsNumeric heap h (.tuple values)

namespace HoldsNumeric

theorem address_lt (holds : heap.HoldsNumeric h value) : h.address < heap.cells.size := by
  cases holds with
  | number found | tuple found =>
      obtain ⟨_, present⟩ := cell?_of_kind? found
      exact (Array.getElem?_eq_some_iff.mp present).1

theorem unique {value likewise : Numeric} (holds : heap.HoldsNumeric h value)
    (also : heap.HoldsNumeric h likewise) : value = likewise := by
  induction value using Numeric.induct_parts generalizing h likewise with
  | step value ih =>
      cases holds with
      | number found =>
          cases also with
          | number found' =>
              rw [Scalar.kind_injective (Option.some.inj (found.symm.trans found'))]
          | tuple found' =>
              exact absurd (Option.some.inj (found.symm.trans found')) (Scalar.kind_ne_tuple _ _)
      | tuple found each =>
          cases also with
          | number found' =>
              exact absurd (Option.some.inj (found'.symm.trans found)) (Scalar.kind_ne_tuple _ _)
          | tuple found' each' =>
              cases found.symm.trans found'
              exact congrArg Numeric.tuple
                (eq_of_forall₂ each each' fun part among _ _ holds => ih part among holds)

theorem unfolds (heap : Heap κ) : heap.Unfolds Numeric.parts heap.HoldsNumeric where
  smaller := Numeric.sizeOf_lt_of_mem_parts
  unique := unique
  address_lt := address_lt
  exists_part := by
    intro h value part holds among
    cases holds with
    | number found => cases among
    | tuple found each => exact exists_of_forall₂_of_mem each among

end HoldsNumeric

theorem hashAt_number {value : Scalar} (found : heap.kind? h = some value.kind) (depth : Nat) :
    heap.hashAt (depth + 1) h = .ok value.hash := by
  obtain ⟨_, present⟩ := cell?_of_kind? found
  rw [hashAt, present]
  cases value <;> rfl

theorem hashAt_tuple {items : List Handle} (found : heap.kind? h = some (.tuple items))
    (depth : Nat) : heap.hashAt (depth + 1) h =
      (do return combineHashes (← items.mapM (heap.hashAt depth))) := by
  obtain ⟨_, present⟩ := cell?_of_kind? found
  rw [hashAt, present]

theorem mapM_eq_ok_of_forall₂ {α β γ ε : Type} {r : α → β → Prop} {f : α → Except ε γ} {g : β → γ}
    {as : List α} {bs : List β} (related : List.Forall₂ r as bs)
    (each : ∀ b ∈ bs, ∀ a, r a b → f a = .ok (g b)) : as.mapM f = .ok (bs.map g) := by
  induction related with
  | nil => rfl
  | @cons a b as bs first _ ih =>
      rw [List.mapM_cons, each b List.mem_cons_self a first,
        ih fun part among => each part (List.mem_cons_of_mem b among)]
      rfl

/-- A number or a tuple of numbers has a hash, however deep it is. -/
theorem hash_of_holds (holds : heap.HoldsNumeric h value) : heap.hash h = .ok value.hash := by
  have below : ∀ h, heap.HoldsNumeric h value →
      heap.hashAt (heap.cells.size + 1) h = .ok value.hash := by
    refine (HoldsNumeric.unfolds heap).holds (p := fun depth value =>
      ∀ h, heap.HoldsNumeric h value →
      heap.hashAt depth h = .ok value.hash) ?_ holds
    intro depth whole inside h holds
    cases holds with
    | number found => rw [hashAt_number found, Numeric.hash]
    | tuple found each =>
        rw [hashAt_tuple found, mapM_eq_ok_of_forall₂ each inside, Numeric.hash]
        rfl
  exact below h holds

/-- Equal numbers that are hashed by one rule have one hash, and so have tuples of such numbers.
Equal numbers that are not have different hashes. A float that is a word has the hash of that word
up to a bound. -/
theorem hash_of_equal :
    (∀ (heap other : Heap κ) (h k : Handle) (a b : Numeric), heap.HoldsNumeric h a →
      other.HoldsNumeric k b →
      a.Componentwise (fun x y => x.Equal y ∧ x.Agreeing y) b →
      ∃ hash, heap.hash h = .ok hash ∧ other.hash k = .ok hash) ∧
    (∀ (heap other : Heap κ) (h k : Handle) (a b : Scalar), heap.kind? h = some a.kind →
      other.kind? k = some b.kind → a.Equal b →
      (heap.hash h = other.hash k ↔ a.Agreeing b)) ∧
    (∀ (heap : Heap κ) (h : Handle) (x : Binary64) (i : Int), heap.kind? h = some (.float x) →
      x.isFinite = true → x.value = i → FitsWord i →
      (heap.hash h = .ok (Int64.ofInt i) ↔ i.natAbs < 9200000000000000000)) := by
  refine ⟨?_, ?_, ?_⟩
  · intro heap other h k a b one another related
    have same := Numeric.hash_eq_of_componentwise
      (fun x y both => (Scalar.hash_eq_iff both.1).mpr both.2) related
    exact ⟨a.hash, hash_of_holds one, same ▸ hash_of_holds another⟩
  · intro heap other h k a b one another equal
    rw [hash_of_holds (.number one), hash_of_holds (.number another), Except.ok.injEq,
      Numeric.hash, Numeric.hash]
    exact Scalar.hash_eq_iff equal
  · intro heap h x i found finite whole fits
    have holds : heap.HoldsNumeric h (.number (.float x)) := .number found
    rw [hash_of_holds holds, Except.ok.injEq, Numeric.hash]
    exact hashFloat_eq_ofInt_iff finite whole fits

/-- A heap with the boolean and the float that are one, and a tuple of each. -/
def heapOfOnes : Heap Unit := ⟨#[.object ⟨.bool true, .empty⟩,
  .object ⟨.float ⟨0x3ff0000000000000⟩, .empty⟩, .object ⟨.tuple [⟨0⟩], .empty⟩,
  .object ⟨.tuple [⟨1⟩], .empty⟩]⟩

theorem true_equal_one : (Scalar.bool true).Equal (.float ⟨0x3ff0000000000000⟩) :=
  ⟨.finite (1 : Int), by simp [Scalar.meaning?], ExactNumber.ofFloat?_of_toInt?_eq_some (by decide)⟩

theorem true_agreeing_one : (Scalar.bool true).Agreeing (.float ⟨0x3ff0000000000000⟩) :=
  .inr ⟨1, rfl, by norm_num⟩

theorem hash_of_true_and_one :
    (∃ hash, heapOfOnes.hash ⟨2⟩ = .ok hash ∧ heapOfOnes.hash ⟨3⟩ = .ok hash) ∧
      heapOfOnes.hash ⟨0⟩ = heapOfOnes.hash ⟨1⟩ ∧
      heapOfOnes.hash ⟨1⟩ = .ok (Int64.ofInt 1) :=
  ⟨hash_of_equal.1 heapOfOnes heapOfOnes ⟨2⟩ ⟨3⟩
      (.tuple [.number (.bool true)]) (.tuple [.number (.float ⟨0x3ff0000000000000⟩)])
      (.tuple rfl (.cons (.number rfl) .nil)) (.tuple rfl (.cons (.number rfl) .nil))
      (.tuple (.cons (.number ⟨true_equal_one, true_agreeing_one⟩) .nil)),
    (hash_of_equal.2.1 heapOfOnes heapOfOnes ⟨0⟩ ⟨1⟩ (.bool true) (.float ⟨0x3ff0000000000000⟩)
      rfl rfl true_equal_one).mpr true_agreeing_one,
    (hash_of_equal.2.2 heapOfOnes ⟨1⟩ ⟨0x3ff0000000000000⟩ 1 rfl rfl
      (Binary64.toInt?_eq_some_iff.mp (by decide)).2 (by decide)).mpr (by decide)⟩

/-- A heap with a large integer and the float that is equal to it. -/
def heapOfLarge : Heap Unit := ⟨#[.object ⟨.int 9200000000000000000, .empty⟩,
  .object ⟨.float ⟨0x43dfeb3dd0676600⟩, .empty⟩]⟩

/-- Numbers that are equal need not have one hash, and a float that is a word need not have the hash
of the word. -/
theorem not_hash_eq_of_equal :
    ¬ (∀ (heap : Heap Unit) (h k : Handle) (a b : Scalar), heap.kind? h = some a.kind →
        heap.kind? k = some b.kind → a.Equal b → heap.hash h = heap.hash k) ∧
    ¬ (∀ (heap : Heap Unit) (h : Handle) (x : Binary64) (i : Int),
        heap.kind? h = some (.float x) → x.isFinite = true → x.value = i → FitsWord i →
        heap.hash h = .ok (Int64.ofInt i)) := by
  have read : (⟨0x43dfeb3dd0676600⟩ : Binary64).toInt? = some 9200000000000000000 := by decide
  have word : heapOfLarge.hash ⟨0⟩ = .ok 9200000000000000000 := by rfl
  have bits : heapOfLarge.hash ⟨1⟩ = .ok 0x43dfeb3dd0676600 := by rfl
  constructor
  · intro alike
    have same := alike heapOfLarge ⟨0⟩ ⟨1⟩ (.int 9200000000000000000) (.float _) rfl rfl
      ⟨_, rfl, ExactNumber.ofFloat?_of_toInt?_eq_some read⟩
    rw [word, bits] at same
    cases same
  · intro asWord
    have same := asWord heapOfLarge ⟨1⟩ _ 9200000000000000000 rfl rfl
      (Binary64.toInt?_eq_some_iff.mp read).2 (by decide)
    rw [bits] at same
    cases same

end Heap
end Interop
