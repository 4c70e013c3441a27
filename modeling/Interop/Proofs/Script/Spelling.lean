import Interop.Script.Token
import Mathlib.Logic.Basic
/-!
How tokens are written: one space stands between two tokens of a line, and strings stand in single
quotes. The brackets of the tokens of a source nest, and no line ends inside of them.
-/

set_option autoImplicit false

namespace Interop.Script

/-! ### Writing -/

/-- A character of a string as it stands between single quotes. -/
def escaped : Char → List Char
  | '\\' => ['\\', '\\']
  | '\'' => ['\\', '\'']
  | '\n' => ['\\', 'n']
  | c => [c]

def Token.written : Token → List Char
  | .int value => (toString value.toInt).toList
  | .float value => (Decimal.Layout.description.write value).toList
  | .string text => '\'' :: (text.toList.flatMap escaped ++ ['\''])
  | .name text => text.toList
  | .op symbol => [symbol]
  | .newline => ['\n']

/-- What stands between a token and the tokens after it. -/
def separator : Token → List Token → List Char
  | .newline, _ => []
  | _, [] => []
  | _, .newline :: _ => []
  | _, _ => [' ']

def write : List Token → List Char
  | [] => []
  | token :: rest => token.written ++ separator token rest ++ write rest

/-! ### What can be written -/

/-- A letter or an underscore, and then letters, numerals and underscores. -/
def IsWord : List Char → Prop
  | [] => False
  | first :: rest => isNameStart first = true ∧ ∀ c ∈ rest, isNameChar c = true

instance decidableIsWord : DecidablePred IsWord
  | [] => inferInstanceAs (Decidable False)
  | first :: rest =>
    have spelled : (isNameStart first = true ∧ rest.all isNameChar = true) ↔
        IsWord (first :: rest) := and_congr_right fun _ => List.all_eq_true
    decidable_of_decidable_of_iff spelled

/-- The characters that are tokens by themselves. -/
def symbols : List Char := operators ++ openingBrackets ++ closingBrackets

/-- Whether a token stands for a text that is one: no float, and no integer with a sign. -/
def Token.IsPlain : Token → Prop
  | .int value => 0 ≤ value.toInt
  | .float _ => False
  | .string _ => True
  | .name text => IsWord text.toList
  | .op symbol => symbol ∈ symbols
  | .newline => True

instance decidableIsPlain : DecidablePred Token.IsPlain
  | .int value => inferInstanceAs (Decidable (0 ≤ value.toInt))
  | .float _ => inferInstanceAs (Decidable False)
  | .string _ => inferInstanceAs (Decidable True)
  | .name text => inferInstanceAs (Decidable (IsWord text.toList))
  | .op symbol => inferInstanceAs (Decidable (symbol ∈ symbols))
  | .newline => inferInstanceAs (Decidable True)

def Token.opens : Token → Int
  | .op symbol =>
    if symbol ∈ openingBrackets then 1 else if symbol ∈ closingBrackets then -1 else 0
  | _ => 0

/-- How many more brackets are opened than closed. -/
def depth : List Token → Int
  | [] => 0
  | token :: rest => token.opens + depth rest

/-- The brackets of some tokens nest if a number of brackets is open already: never more are closed
than are open, all are closed in the end, and lines end outside of brackets only. -/
structure Nested (opened : Nat) (tokens : List Token) : Prop where
  neverNegative : ∀ before after, tokens = before ++ after → 0 ≤ opened + depth before
  closed : opened + depth tokens = 0
  linesOutside : ∀ before after, tokens = before ++ .newline :: after → opened + depth before = 0

theorem nested_nil_iff {opened : Nat} : Nested opened [] ↔ opened = 0 := by
  constructor
  · intro nested
    have closed := nested.closed
    simp only [depth] at closed
    omega
  · rintro rfl
    refine ⟨?_, rfl, ?_⟩
    · intro before after same
      simp [depth, (List.nil_eq_append_iff.mp same).1]
    · intro before after same
      simp at same

/-- Brackets nest if they do so after the first token. -/
theorem nested_cons_iff {opened : Nat} {token : Token} {rest : List Token} :
    Nested opened (token :: rest) ↔
      (token = .newline → opened = 0) ∧
        ∃ now : Nat, (now : Int) = opened + token.opens ∧ Nested now rest := by
  constructor
  · intro nested
    constructor
    · rintro rfl
      have outside := nested.linesOutside [] rest rfl
      simp only [depth] at outside
      omega
    · have atLeast := nested.neverNegative [token] rest rfl
      have closed := nested.closed
      simp only [depth] at atLeast closed
      refine ⟨(opened + token.opens).toNat, by omega, ?_, by omega, ?_⟩
      · intro before after same
        have known := nested.neverNegative (token :: before) after (by rw [same, List.cons_append])
        rw [depth] at known
        omega
      · intro before after same
        have known := nested.linesOutside (token :: before) after (by rw [same, List.cons_append])
        rw [depth] at known
        omega
  · rintro ⟨outside, now, counted, nested⟩
    refine ⟨?_, ?_, ?_⟩
    · intro before after same
      cases before with
      | nil => simp [depth]
      | cons first before =>
          obtain ⟨rfl, tail⟩ := List.cons.inj same
          have known := nested.neverNegative before after tail
          rw [depth]
          omega
    · have closed := nested.closed
      rw [depth]
      omega
    · intro before after same
      cases before with
      | nil =>
          obtain ⟨rfl, _⟩ := List.cons.inj same
          simp [depth, outside rfl]
      | cons first before =>
          obtain ⟨rfl, tail⟩ := List.cons.inj same
          have known := nested.linesOutside before after tail
          rw [depth]
          omega

theorem nested_cons_iff_toNat {opened : Nat} {token : Token} {rest : List Token} :
    Nested opened (token :: rest) ↔
      (token = .newline → opened = 0) ∧ 0 ≤ opened + token.opens ∧
        Nested (opened + token.opens).toNat rest := by
  rw [nested_cons_iff]
  apply and_congr_right
  intro outside
  constructor
  · rintro ⟨now, counted, nested⟩
    rw [← counted, Int.toNat_natCast]
    exact ⟨by omega, nested⟩
  · intro ⟨natural, nested⟩
    exact ⟨(opened + token.opens).toNat, by omega, nested⟩

instance decidableNested : ∀ (opened : Nat) (tokens : List Token), Decidable (Nested opened tokens)
  | opened, [] => decidable_of_iff (opened = 0) nested_nil_iff.symm
  | opened, token :: rest =>
    have := decidableNested (opened + token.opens).toNat rest
    decidable_of_iff
      ((token = .newline → opened = 0) ∧ 0 ≤ opened + token.opens ∧
        Nested (opened + token.opens).toNat rest)
      nested_cons_iff_toNat.symm

end Interop.Script
