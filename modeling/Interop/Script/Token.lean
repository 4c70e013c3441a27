import Interop.Handle
import Interop.Text.Blank
import Interop.Text.Letter
/-!
The tokens of the script language, and how a source text is divided into them.

Line feeds separate statements except inside brackets; semicolons do so outside of them only. A line
may not start with a space or a tab unless it is blank or a comment. Errors name the line on which
they were found.
-/

set_option autoImplicit false

namespace Interop.Script

/-- A token of the script language. -/
inductive Token
  | int (value : Int64)
  | float (value : Binary64)
  | string (value : String)
  | name (name : String)
  | op (symbol : Char)
  | newline
  deriving DecidableEq

/-- A token as it is shown in error texts. -/
def Token.describe : Token → String
  | int value => "Int(" ++ toString value.toInt ++ ")"
  | float value => "Float(" ++ Decimal.Layout.description.write value ++ ")"
  | string value => "Str(" ++ Text.quoted value ++ ")"
  | name text => "Name(" ++ Text.quoted text ++ ")"
  | op symbol => "Op('" ++ String.singleton symbol ++ "')"
  | newline => "Newline"

/-- What a parser was looking for. -/
inductive Expected
  | symbol (symbol : Char)
  | expression
  deriving DecidableEq

/-- Why a text is no script. -/
inductive SourceFault
  | unexpectedIndent (line : Nat)
  | unterminatedString (line : Nat)
  | invalidNumber (text : String)
  | unmatchedBracket (bracket : Char) (line : Nat)
  | invalidCharacter (character : Char) (line : Nat)
  | unclosedBracket
  | unexpected (expected : Expected) (found : Option Token)
  | afterStatement (found : Token)
  | invalidTarget
  | missingAttributeName
  | positionalAfterKeyword
  | invalidDictKey
  deriving DecidableEq

/-- The kind of exception that a malformed source raises. -/
def SourceFault.kind : SourceFault → String
  | unexpectedIndent _ => "IndentationError"
  | _ => "SyntaxError"

def SourceFault.message : SourceFault → String
  | unexpectedIndent line => "unexpected indent (line " ++ toString line ++ ")"
  | unterminatedString line => "unterminated string literal (line " ++ toString line ++ ")"
  | invalidNumber text => "invalid number literal '" ++ text ++ "'"
  | unmatchedBracket bracket line =>
    "unmatched '" ++ String.singleton bracket ++ "' (line " ++ toString line ++ ")"
  | invalidCharacter character line =>
    "invalid character '" ++ String.singleton character ++ "' (line " ++ toString line ++ ")"
  | unclosedBracket => "unexpected EOF while parsing"
  | unexpected expected found =>
    let what :=
      match expected with
      | .symbol symbol => "expected '" ++ String.singleton symbol ++ "'"
      | .expression => "expected an expression"
    let place :=
      match found with
      | some token => token.describe
      | none => "end of input"
    what ++ ", found " ++ place
  | afterStatement found => "unexpected " ++ found.describe ++ " after statement"
  | invalidTarget => "cannot assign to expression"
  | missingAttributeName => "expected attribute name after '.'"
  | positionalAfterKeyword => "positional argument follows keyword argument"
  | invalidDictKey => "dict keys must be string literals"

/-! ### Parts of a token -/

/-- The text of a string literal after its opening quote, and what follows its closing quote.
A backslash gives the next character another meaning; at the very end of the source it also ends
the literal. A literal may not run over the end of a line. -/
def scanString (quote : Char) : List Char → Option (List Char × List Char)
  | [] => none
  | '\\' :: 'n' :: rest => (scanString quote rest).map fun r => ('\n' :: r.1, r.2)
  | '\\' :: 't' :: rest => (scanString quote rest).map fun r => ('\t' :: r.1, r.2)
  | '\\' :: c :: rest => (scanString quote rest).map fun r => (c :: r.1, r.2)
  | ['\\'] => some ([], [])
  | c :: rest =>
    if c = quote then some ([], rest)
    else if c = '\n' then none
    else (scanString quote rest).map fun r => (c :: r.1, r.2)

/-- Whether a character can stand inside a number. -/
def isNumberChar (c : Char) : Bool := c.isDigit || c == '.' || c == '_'

/-- Whether a character can start a name. -/
def isNameStart (c : Char) : Bool := Text.isLetter c || c == '_'

/-- Whether a character can stand inside a name. -/
def isNameChar (c : Char) : Bool := Text.isLetter c || Text.isNumeral c || c == '_'

def decimalValue (digits : List Char) : Nat :=
  digits.foldl (fun value digit => 10 * value + (digit.toNat - '0'.toNat)) 0

/-- The token of a number's characters, underscores left out. -/
def numberToken (text : List Char) : Option Token :=
  match text.span (· ≠ '.') with
  | (whole, []) => (word? (decimalValue whole)).map .int
  | (whole, _ :: fraction) =>
    if fraction.contains '.' then none
    else some (.float (.ofDecimal (decimalValue (whole ++ fraction)) (-(fraction.length : Int))))

/-- Whether a line that starts here is indented, and neither blank nor a comment. -/
def isIndented (text : List Char) : Bool :=
  match text with
  | c :: _ =>
    (c == ' ' || c == '\t') &&
      match Text.trim (text.takeWhile (· ≠ '\n')) with
      | [] => false
      | first :: _ => first != '#'
  | [] => false

/-- Operators that are no brackets. -/
def operators : List Char := ['=', '+', '-', '*', '.', ',', ':']

def openingBrackets : List Char := ['(', '[', '{']

def closingBrackets : List Char := [')', ']', '}']

/-! ### The source as a whole -/

theorem length_scanString {quote : Char} {text : List Char} {r : List Char × List Char}
    (h : scanString quote text = some r) : r.2.length ≤ text.length := by
  fun_induction scanString quote text generalizing r <;>
    simp only [Option.map_eq_some_iff, Option.some.injEq, reduceCtorEq] at h <;> grind

theorem length_dropWhile_le {α : Type} (p : α → Bool) (l : List α) :
    (l.dropWhile p).length ≤ l.length := (List.dropWhile_sublist p).length_le

/-- The tokens from a place inside a source on. `depth` is the number of open brackets, `line` the
number of the line, and `fresh` tells whether a line outside of brackets starts here. -/
def scan (depth line : Nat) (fresh : Bool) (text : List Char) : Except SourceFault (List Token) :=
  match text with
  | [] => if depth = 0 then .ok [] else .error .unclosedBracket
  | c :: rest =>
    if fresh && isIndented (c :: rest) then .error (.unexpectedIndent line)
    else if c = '\n' then
      if depth = 0 then (Token.newline :: ·) <$> scan depth (line + 1) true rest
      else scan depth (line + 1) false rest
    else if c = ';' ∧ depth = 0 then (Token.newline :: ·) <$> scan depth line false rest
    else if Text.isBlank c then scan depth line false rest
    else if c = '#' then scan depth line false (rest.dropWhile (· ≠ '\n'))
    else if c = '\'' ∨ c = '"' then
      match _h : scanString c rest with
      | none => .error (.unterminatedString line)
      | some (content, after) =>
        (Token.string (String.ofList content) :: ·) <$> scan depth line false after
    else if c.isDigit then
      let number := (c :: rest.takeWhile isNumberChar).filter (· ≠ '_')
      match numberToken number with
      | none => .error (.invalidNumber (String.ofList number))
      | some token => (token :: ·) <$> scan depth line false (rest.dropWhile isNumberChar)
    else if isNameStart c then
      (Token.name (String.ofList (c :: rest.takeWhile isNameChar)) :: ·) <$>
        scan depth line false (rest.dropWhile isNameChar)
    else if c ∈ openingBrackets then (Token.op c :: ·) <$> scan (depth + 1) line false rest
    else if c ∈ closingBrackets then
      match depth with
      | 0 => .error (.unmatchedBracket c line)
      | depth + 1 => (Token.op c :: ·) <$> scan depth line false rest
    else if c ∈ operators then (Token.op c :: ·) <$> scan depth line false rest
    else .error (.invalidCharacter c line)
termination_by text.length
decreasing_by
  all_goals simp only [List.length_cons]
  all_goals first
    | omega
    | exact Nat.lt_succ_of_le (length_dropWhile_le _ _)
    | exact Nat.lt_succ_of_le (length_scanString _h)

def tokenize (source : String) : Except SourceFault (List Token) := scan 0 1 true source.toList

end Interop.Script
