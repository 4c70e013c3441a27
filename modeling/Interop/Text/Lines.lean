import Interop.Text.Blank
/-!
Lines of a text. A line ends before a line feed, or before a carriage return that a line feed
follows; the last line may be left open, and an empty rest after the last line feed is no line.
-/

set_option autoImplicit false

namespace Interop.Text

/-- The lines of a text, without their ends. -/
def lines : List Char → List (List Char)
  | [] => []
  | '\r' :: '\n' :: rest => [] :: lines rest
  | '\n' :: rest => [] :: lines rest
  | c :: rest =>
    match lines rest with
    | [] => [[c]]
    | line :: more => (c :: line) :: more

def isBlankLine (line : List Char) : Bool := line.all isBlank

/-- The number of blank characters that a line starts with. -/
def indentation (line : List Char) : Nat := (line.takeWhile isBlank).length

/-- Lines put together again, with a line feed between each two. -/
def joinLines : List (List Char) → List Char
  | [] => []
  | [line] => line
  | line :: more => line ++ '\n' :: joinLines more

/-! ### Laws -/

theorem lines_eq_nil_iff {text : List Char} : lines text = [] ↔ text = [] := by
  fun_cases lines text <;> simp_all

theorem indentation_le_length (line : List Char) : indentation line ≤ line.length :=
  (List.takeWhile_sublist _).length_le

end Interop.Text
