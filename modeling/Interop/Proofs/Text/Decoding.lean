import Interop.Text.Utf8
import Mathlib.Algebra.Group.Nat.Defs
import Mathlib.Order.Basic
import Mathlib.Tactic.ByContra
/-!
Bytes are decoded to a text exactly if they are its encoding.

A character of more than one byte is told by its code point: every byte after the first holds six of
its bits, and the first byte bounds the second so that the code point is a character and is not
encoded longer than it has to be.
-/

set_option autoImplicit false

namespace Interop.Text

/-- The last bytes of the encoding of a code point. -/
def tailBytes (v : Nat) : Nat → List UInt8
  | 0 => []
  | k + 1 => UInt8.ofNat (v / 64 ^ k % 64 + 128) :: tailBytes v k

/-- A character that has begun may become the one with a code point, by `k + 1` bytes. -/
structure PartialChar.Becomes (p : PartialChar) (k v : Nat) : Prop where
  bits : p.bits = v / 64 ^ (k + 1)
  owed : p.owed = k + 1
  least : p.least.toNat ≤ v / 64 ^ k % 64 + 128
  greatest : v / 64 ^ k % 64 + 128 ≤ p.greatest.toNat

theorem toNat_tailByte (n : Nat) : (UInt8.ofNat (n % 64 + 128)).toNat = n % 64 + 128 := by
  rw [UInt8.toNat_ofNat']
  omega

theorem bits_succ (v k : Nat) : v / 64 ^ (k + 1) * 64 + v / 64 ^ k % 64 = v / 64 ^ k := by
  rw [Nat.pow_succ, ← Nat.div_div_eq_div_mul]
  omega

section Decode

variable {p : PartialChar} {k v : Nat} {b : UInt8} {bytes : List UInt8}

theorem nextByte_of_becomes (becomes : p.Becomes k v) :
    nextByte p (UInt8.ofNat (v / 64 ^ k % 64 + 128)) =
      if k = 0 then ([some (Char.ofNat v)], none)
      else ([], some ⟨v / 64 ^ k, k, 0x80, 0xBF⟩) := by
  have inside : p.least ≤ UInt8.ofNat (v / 64 ^ k % 64 + 128) ∧
      UInt8.ofNat (v / 64 ^ k % 64 + 128) ≤ p.greatest := by
    rw [UInt8.le_iff_toNat_le, UInt8.le_iff_toNat_le, toNat_tailByte]
    exact ⟨becomes.least, becomes.greatest⟩
  have bits : p.bits * 64 + (UInt8.ofNat (v / 64 ^ k % 64 + 128)).toNat % 64 = v / 64 ^ k := by
    rw [toNat_tailByte, becomes.bits, ← bits_succ v k]
    omega
  unfold nextByte
  rw [if_pos inside]
  dsimp only
  rw [bits, becomes.owed]
  cases k with
  | zero => simp
  | succ k => simp

theorem decodeFrom_tailBytes (becomes : p.Becomes k v) (rest : List UInt8) :
    decodeFrom (some p) (tailBytes v (k + 1) ++ rest) =
      some (Char.ofNat v) :: decodeFrom none rest := by
  induction k generalizing p with
  | zero =>
      rw [tailBytes, List.cons_append, decodeFrom]
      dsimp only
      rw [nextByte_of_becomes becomes]
      rfl
  | succ k ih =>
      rw [tailBytes, List.cons_append, decodeFrom]
      dsimp only
      rw [nextByte_of_becomes becomes, if_neg (Nat.succ_ne_zero k)]
      refine ih ⟨rfl, rfl, ?_, ?_⟩
      · exact Nat.le_add_left _ _
      · change v / 64 ^ k % 64 + 128 ≤ 191
        omega

theorem inside_of_proper (proper : none ∉ decodeFrom (some p) (b :: bytes)) :
    p.least.toNat ≤ b.toNat ∧ b.toNat ≤ p.greatest.toNat := by
  by_contra outside
  rw [← UInt8.le_iff_toNat_le, ← UInt8.le_iff_toNat_le] at outside
  apply proper
  rw [decodeFrom]
  dsimp only
  rw [nextByte, if_neg outside]
  exact List.mem_append_left _ List.mem_cons_self

theorem eq_tailByte {n : Nat} (low : n % 64 = b.toNat % 64) (least : 0x80 ≤ b.toNat)
    (greatest : b.toNat ≤ 0xBF) : b = UInt8.ofNat (n % 64 + 128) := by
  apply UInt8.toNat_inj.mp
  rw [toNat_tailByte]
  omega

/-- The bytes that a character owes are there if there is no mistake. -/
theorem exists_becomes (owed : p.owed = k + 1) (least : 0x80 ≤ p.least.toNat)
    (greatest : p.greatest.toNat ≤ 0xBF) (proper : none ∉ decodeFrom (some p) bytes) :
    ∃ v rest, bytes = tailBytes v (k + 1) ++ rest ∧ p.Becomes k v := by
  induction k generalizing p bytes with
  | zero =>
      cases bytes with
      | nil => exact absurd List.mem_cons_self proper
      | cons b bytes =>
          obtain ⟨above, below⟩ := inside_of_proper proper
          have same : b = UInt8.ofNat ((p.bits * 64 + b.toNat % 64) / 64 ^ 0 % 64 + 128) :=
            eq_tailByte (by omega) (by omega) (by omega)
          refine ⟨p.bits * 64 + b.toNat % 64, bytes, ?_, ?_, owed, ?_, ?_⟩
          · rw [tailBytes, ← same]
            rfl
          · omega
          · omega
          · omega
  | succ k ih =>
      cases bytes with
      | nil => exact absurd List.mem_cons_self proper
      | cons b bytes =>
          obtain ⟨above, below⟩ := inside_of_proper proper
          have goesOn : decodeFrom (some p) (b :: bytes) =
              decodeFrom (some ⟨p.bits * 64 + b.toNat % 64, k + 1, 0x80, 0xBF⟩) bytes := by
            rw [decodeFrom]
            dsimp only
            rw [nextByte, if_pos ⟨UInt8.le_iff_toNat_le.mpr above, UInt8.le_iff_toNat_le.mpr below⟩,
              owed]
            rfl
          rw [goesOn] at proper
          obtain ⟨v, rest, rfl, becomes⟩ := ih rfl (Nat.le_refl _) (Nat.le_refl _) proper
          have bits : p.bits * 64 + b.toNat % 64 = v / 64 ^ (k + 1) := becomes.bits
          have split := bits_succ v (k + 1)
          have same : b = UInt8.ofNat (v / 64 ^ (k + 1) % 64 + 128) :=
            eq_tailByte (by omega) (by omega) (by omega)
          refine ⟨v, rest, congrArg (· :: (tailBytes v (k + 1) ++ rest)) same, ?_, owed, ?_, ?_⟩
          · omega
          · omega
          · omega

end Decode

/-! ### Leading bytes -/

/-- The first bytes of characters of two, three and four bytes. The second byte is bounded further
where the code point would be encoded with fewer bytes, is a surrogate or is too large. -/
inductive Leads : UInt8 → PartialChar → Prop
  | two {n : Nat} (least : 2 ≤ n) (greatest : n < 32) :
      Leads (UInt8.ofNat (n + 0xC0)) ⟨n, 1, 0x80, 0xBF⟩
  | three {n : Nat} (greatest : n < 16) :
      Leads (UInt8.ofNat (n + 0xE0))
        ⟨n, 2, if n = 0 then 0xA0 else 0x80, if n = 13 then 0x9F else 0xBF⟩
  | four {n : Nat} (greatest : n < 5) :
      Leads (UInt8.ofNat (n + 0xF0))
        ⟨n, 3, if n = 0 then 0x90 else 0x80, if n = 4 then 0x8F else 0xBF⟩

theorem leadByte_of_leads {b : UInt8} {p : PartialChar} (leads : Leads b p) :
    leadByte b = ([], some p) := by
  have two : ∀ n < 32, 2 ≤ n →
      leadByte (UInt8.ofNat (n + 0xC0)) = ([], some ⟨n, 1, 0x80, 0xBF⟩) := by decide
  have three : ∀ n < 16, leadByte (UInt8.ofNat (n + 0xE0)) = ([], some
      ⟨n, 2, if n = 0 then 0xA0 else 0x80, if n = 13 then 0x9F else 0xBF⟩) := by decide
  have four : ∀ n < 5, leadByte (UInt8.ofNat (n + 0xF0)) = ([], some
      ⟨n, 3, if n = 0 then 0x90 else 0x80, if n = 4 then 0x8F else 0xBF⟩) := by decide
  cases leads with
  | two least greatest => exact two _ greatest least
  | three greatest => exact three _ greatest
  | four greatest => exact four _ greatest

theorem eq_ofNat_of_le {b : UInt8} {offset : Nat} (least : offset ≤ b.toNat) :
    b = UInt8.ofNat (b.toNat - offset + offset) := by
  rw [Nat.sub_add_cancel least, UInt8.ofNat_toNat]

/-- A byte is a character of ASCII, begins another or is a mistake. -/
theorem leadByte_cases (b : UInt8) :
    b.toNat ≤ 0x7F ∨ (∃ p, Leads b p) ∨ leadByte b = ([none], none) := by
  by_cases ascii : b.toNat ≤ 0x7F
  · exact .inl ascii
  right
  by_cases two : 0xC2 ≤ b.toNat ∧ b.toNat ≤ 0xDF
  · rw [eq_ofNat_of_le (by omega : 0xC0 ≤ b.toNat)]
    exact .inl ⟨_, .two (by omega) (by omega)⟩
  by_cases three : 0xE0 ≤ b.toNat ∧ b.toNat ≤ 0xEF
  · rw [eq_ofNat_of_le three.1]
    exact .inl ⟨_, .three (by omega)⟩
  by_cases four : 0xF0 ≤ b.toNat ∧ b.toNat ≤ 0xF4
  · rw [eq_ofNat_of_le four.1]
    exact .inl ⟨_, .four (by omega)⟩
  · right
    simp only [leadByte, UInt8.le_iff_toNat_le, ← UInt8.toNat_inj, UInt8.reduceToNat]
    rw [if_neg ascii, if_neg two, if_neg (by omega), if_neg (by omega), if_neg (by omega),
      if_neg (by omega), if_neg (by omega), if_neg (by omega)]

/-- The encoding of a character that is not of ASCII. -/
theorem utf8EncodeChar_eq {c : Char} (long : 0x80 ≤ c.toNat) : String.utf8EncodeChar c =
    if c.toNat ≤ 0x7FF then UInt8.ofNat (c.toNat / 64 ^ 1 + 0xC0) :: tailBytes c.toNat 1
    else if c.toNat ≤ 0xFFFF then UInt8.ofNat (c.toNat / 64 ^ 2 + 0xE0) :: tailBytes c.toNat 2
    else UInt8.ofNat (c.toNat / 64 ^ 3 + 0xF0) :: tailBytes c.toNat 3 := by
  have valid : c.toNat.isValidChar := c.valid
  unfold Nat.isValidChar at valid
  have same : c.val.toNat = c.toNat := rfl
  simp only [String.utf8EncodeChar, tailBytes, same, Nat.reducePow, Nat.div_one]
  rw [if_neg (by omega)]
  split
  · rw [Nat.mod_eq_of_lt (by omega : c.toNat / 64 < 32)]
  · split
    · rw [Nat.mod_eq_of_lt (by omega : c.toNat / 4096 < 16)]
    · rw [Nat.mod_eq_of_lt (by omega : c.toNat / 262144 < 8)]

/-- The leading byte tells the first bits of the code point and how many bytes are owed. -/
theorem exists_leads {c : Char} (long : 0x80 ≤ c.toNat) :
    ∃ b p k, String.utf8EncodeChar c = b :: tailBytes c.toNat (k + 1) ∧
      Leads b p ∧ p.Becomes k c.toNat := by
  have valid : c.toNat.isValidChar := c.valid
  unfold Nat.isValidChar at valid
  rw [utf8EncodeChar_eq long]
  split
  · refine ⟨_, _, 0, rfl, .two (by omega) (by omega), rfl, rfl, ?_, ?_⟩
    · exact Nat.le_add_left _ _
    · change c.toNat / 64 ^ 0 % 64 + 128 ≤ 191
      omega
  · split
    · refine ⟨_, _, 1, rfl, .three (by omega), rfl, rfl, ?_, ?_⟩
      · dsimp only
        split <;> simp only [UInt8.reduceToNat] <;> omega
      · dsimp only
        split <;> simp only [UInt8.reduceToNat] <;> omega
    · refine ⟨_, _, 2, rfl, .four (by omega), rfl, rfl, ?_, ?_⟩
      · dsimp only
        split <;> simp only [UInt8.reduceToNat] <;> omega
      · dsimp only
        split <;> simp only [UInt8.reduceToNat] <;> omega

theorem exists_char {v : Nat} (valid : v < 0xD800 ∨ 0xDFFF < v ∧ v < 0x110000) :
    ∃ c : Char, c.toNat = v := by
  refine ⟨Char.ofNat v, ?_⟩
  rw [Char.ofNat, dif_pos valid]
  rfl

/-- A leading byte bounds the next byte so that what it becomes is encoded with it. -/
theorem encode_of_leads {b : UInt8} {p : PartialChar} (leads : Leads b p) :
    ∃ k, p.owed = k + 1 ∧ 0x80 ≤ p.least.toNat ∧ p.greatest.toNat ≤ 0xBF ∧
      ∀ v, p.Becomes k v → ∃ c : Char, c.toNat = v ∧
        String.utf8EncodeChar c = b :: tailBytes v (k + 1) := by
  cases leads with
  | @two n least greatest =>
      refine ⟨0, rfl, Nat.le_refl _, Nat.le_refl _, ?_⟩
      rintro v ⟨rfl, -, -, -⟩
      obtain ⟨c, rfl⟩ := exists_char (v := v) (.inl (by omega))
      refine ⟨c, rfl, ?_⟩
      rw [utf8EncodeChar_eq (by omega), if_pos (by omega)]
  | @three n greatest =>
      refine ⟨1, rfl, ?_, ?_, ?_⟩
      · dsimp only
        split <;> decide
      · dsimp only
        split <;> decide
      rintro v ⟨rfl, -, above, below⟩
      dsimp only at above below
      have long : 0x800 ≤ v := by
        split at above <;> simp only [UInt8.reduceToNat] at above <;> omega
      have proper : v < 0xD800 ∨ 0xDFFF < v := by
        split at below <;> simp only [UInt8.reduceToNat] at below <;> omega
      obtain ⟨c, rfl⟩ := exists_char (v := v) (by omega)
      refine ⟨c, rfl, ?_⟩
      rw [utf8EncodeChar_eq (by omega), if_neg (by omega), if_pos (by omega)]
  | @four n greatest =>
      refine ⟨2, rfl, ?_, ?_, ?_⟩
      · dsimp only
        split <;> decide
      · dsimp only
        split <;> decide
      rintro v ⟨rfl, -, above, below⟩
      dsimp only at above below
      have long : 0x10000 ≤ v := by
        split at above <;> simp only [UInt8.reduceToNat] at above <;> omega
      have small : v < 0x110000 := by
        split at below <;> simp only [UInt8.reduceToNat] at below <;> omega
      obtain ⟨c, rfl⟩ := exists_char (v := v) (by omega)
      refine ⟨c, rfl, ?_⟩
      rw [utf8EncodeChar_eq (by omega), if_neg (by omega), if_neg (by omega)]

/-! ### Texts -/

theorem utf8EncodeChar_of_ascii {c : Char} (ascii : c.toNat ≤ 0x7F) :
    String.utf8EncodeChar c = [UInt8.ofNat c.toNat] := if_pos ascii

theorem leadByte_of_ascii {b : UInt8} (ascii : b.toNat ≤ 0x7F) :
    leadByte b = ([some (Char.ofNat b.toNat)], none) := if_pos (UInt8.le_iff_toNat_le.mpr ascii)

/-- The encoding of a character is decoded to it, whatever comes behind. -/
theorem decodeFrom_encode (c : Char) (rest : List UInt8) :
    decodeFrom none (String.utf8EncodeChar c ++ rest) = some c :: decodeFrom none rest := by
  by_cases ascii : c.toNat ≤ 0x7F
  · have byte : (UInt8.ofNat c.toNat).toNat = c.toNat := by
      rw [UInt8.toNat_ofNat']
      omega
    rw [utf8EncodeChar_of_ascii ascii, List.singleton_append, decodeFrom]
    dsimp only
    rw [leadByte_of_ascii (byte.trans_le ascii), byte, Char.ofNat_toNat]
    rfl
  · obtain ⟨b, p, k, encoded, leads, becomes⟩ := exists_leads (Nat.lt_of_not_le ascii)
    rw [encoded, List.cons_append, decodeFrom]
    dsimp only
    rw [leadByte_of_leads leads, decodeFrom_tailBytes becomes, Char.ofNat_toNat]
    rfl

/-- If there is no mistake, bytes begin with the encoding of a character. -/
theorem exists_encoded {b : UInt8} {bytes : List UInt8}
    (proper : none ∉ decodeFrom none (b :: bytes)) :
    ∃ c rest, b :: bytes = String.utf8EncodeChar c ++ rest := by
  rw [decodeFrom] at proper
  dsimp only at proper
  rcases leadByte_cases b with ascii | ⟨p, leads⟩ | mistake
  · obtain ⟨c, same⟩ := exists_char (v := b.toNat) (by omega)
    refine ⟨c, bytes, ?_⟩
    rw [utf8EncodeChar_of_ascii (same ▸ ascii), same, UInt8.ofNat_toNat]
    rfl
  · rw [leadByte_of_leads leads] at proper
    obtain ⟨k, owed, least, greatest, encodes⟩ := encode_of_leads leads
    obtain ⟨v, rest, rfl, becomes⟩ := exists_becomes owed least greatest proper
    obtain ⟨c, -, encoded⟩ := encodes v becomes
    exact ⟨c, rest, by rw [encoded, List.cons_append]⟩
  · rw [mistake] at proper
    exact absurd List.mem_cons_self proper

theorem decodeFrom_eq_iff {bytes : List UInt8} {chars : List Char} :
    decodeFrom none bytes = chars.map some ↔ bytes = chars.flatMap String.utf8EncodeChar := by
  constructor
  · intro decoded
    have proper : none ∉ decodeFrom none bytes := by
      rw [decoded]
      simp
    induction chars generalizing bytes with
    | nil =>
        cases bytes with
        | nil => rfl
        | cons b bytes =>
            obtain ⟨c, rest, split⟩ := exists_encoded proper
            rw [split, decodeFrom_encode] at decoded
            cases decoded
    | cons first chars ih =>
        cases bytes with
        | nil => cases decoded
        | cons b bytes =>
            obtain ⟨c, rest, split⟩ := exists_encoded proper
            rw [split, decodeFrom_encode] at decoded proper
            obtain ⟨same, more⟩ := List.cons.inj decoded
            obtain rfl := Option.some.inj same
            rw [split, List.flatMap_cons, ← ih more (mt (List.mem_cons_of_mem _) proper)]
  · rintro rfl
    induction chars with
    | nil => rfl
    | cons c chars ih => rw [List.flatMap_cons, decodeFrom_encode, ih, List.map_cons]

theorem mapM_id_eq_some_iff {α : Type} {list : List (Option α)} {all : List α} :
    list.mapM id = some all ↔ list = all.map some := by
  induction list generalizing all with
  | nil => cases all <;> simp
  | cons first rest ih =>
      rw [List.mapM_cons]
      constructor
      · intro found
        obtain ⟨a, present, found⟩ := Option.bind_eq_some_iff.mp found
        obtain ⟨more, others, same⟩ := Option.bind_eq_some_iff.mp found
        cases same
        rw [ih.mp others, List.map_cons]
        exact congrArg (· :: _) present
      · intro same
        cases all with
        | nil => cases same
        | cons a more =>
            obtain ⟨rfl, others⟩ := List.cons.inj same
            rw [ih.mpr others]
            rfl

/-- Bytes are decoded to a text if they are its encoding in UTF-8, and to nothing if they are the
encoding of no text. -/
theorem decode?_eq_some_iff {bytes : List UInt8} {text : String} :
    decode? bytes = some text ↔ bytes = text.toUTF8.data.toList := by
  have encoded : text.toUTF8.data.toList = text.toList.flatMap String.utf8EncodeChar := by
    have whole : text.toUTF8 = text.toList.utf8Encode := by
      rw [← String.toByteArray_ofList, String.ofList_toList]
      rfl
    rw [whole, List.utf8Encode, List.data_toByteArray]
  rw [encoded, ← decodeFrom_eq_iff, ← mapM_id_eq_some_iff, decode?, Option.map_eq_some_iff]
  constructor
  · rintro ⟨chars, decoded, rfl⟩
    rw [String.toList_ofList]
    exact decoded
  · intro decoded
    exact ⟨text.toList, decoded, String.ofList_toList⟩

end Interop.Text
