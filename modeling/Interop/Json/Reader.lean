import Interop.Json.Value
/-!
Reading JSON text.

A reader gives a value and the text that it left, or refuses. Two things are checked only where a
value is kept: that the two halves of a surrogate pair belong together, and that a number is not too
large. A value that is merely skipped needs neither.

Decimal numbers are read by gathering digits in a word of 64 bits, as many as fit, and scaling that
word by a power of ten in floating point, with a rounding at each step.
-/

set_option autoImplicit false

namespace Interop.Json

/-- How far a reader goes. -/
structure Limits where
  /-- Whether the value is kept. -/
  keeps : Bool := true
  /-- How deep arrays and objects may be nested. -/
  depth : Nat := 127

/-- Whether a character is blank between tokens. -/
def isSpace (c : Char) : Bool := c == ' ' || c == '\n' || c == '\t' || c == '\r'

def skipSpace (text : List Char) : List Char := text.dropWhile isSpace

/-! ### Strings -/

def hexDigit? (c : Char) : Option Nat :=
  if '0' ≤ c ∧ c ≤ '9' then some (c.toNat - '0'.toNat)
  else if 'a' ≤ c ∧ c ≤ 'f' then some (c.toNat - 'a'.toNat + 10)
  else if 'A' ≤ c ∧ c ≤ 'F' then some (c.toNat - 'A'.toNat + 10)
  else none

def hexUnit? (a b c d : Char) : Option Nat := do
  return (((← hexDigit? a) * 16 + (← hexDigit? b)) * 16 + (← hexDigit? c)) * 16 + (← hexDigit? d)

/-- The character that a letter after a backslash stands for. -/
def escapedChar? : Char → Option Char
  | '"' => some '"'
  | '\\' => some '\\'
  | '/' => some '/'
  | 'b' => some '\x08'
  | 'f' => some '\x0c'
  | 'n' => some '\n'
  | 'r' => some '\r'
  | 't' => some '\t'
  | _ => none

def isHighSurrogate (unit : Nat) : Bool := 0xD800 ≤ unit && unit < 0xDC00

def isLowSurrogate (unit : Nat) : Bool := 0xDC00 ≤ unit && unit < 0xE000

/-- The character of a unit, or of a pair of them. -/
def unitChar? (unit : Nat) (follower : Option Nat) : Option Char :=
  if isLowSurrogate unit then none
  else if isHighSurrogate unit then
    match follower with
    | some low =>
      if isLowSurrogate low then
        some (Char.ofNat ((unit - 0xD800) * 0x400 + (low - 0xDC00) + 0x10000))
      else none
    | none => none
  else some (Char.ofNat unit)

/-- The text of a string after its opening quote, and what follows its closing quote. -/
def readString (keeps : Bool) : List Char → Option (List Char × List Char)
  | [] => none
  | '"' :: rest => some ([], rest)
  | '\\' :: 'u' :: a :: b :: c :: d :: '\\' :: 'u' :: a' :: b' :: c' :: d' :: rest => do
    let unit ← hexUnit? a b c d
    if isHighSurrogate unit then
      let low ← hexUnit? a' b' c' d'
      match unitChar? unit (some low), keeps with
      | some character, _ =>
        let (text, after) ← readString keeps rest
        return (character :: text, after)
      | none, true => none
      | none, false =>
        let (text, after) ← readString keeps rest
        return (text, after)
    else
      match unitChar? unit none, keeps with
      | some character, _ =>
        let (text, after) ← readString keeps ('\\' :: 'u' :: a' :: b' :: c' :: d' :: rest)
        return (character :: text, after)
      | none, true => none
      | none, false => readString keeps ('\\' :: 'u' :: a' :: b' :: c' :: d' :: rest)
  | '\\' :: 'u' :: a :: b :: c :: d :: rest => do
    let unit ← hexUnit? a b c d
    match unitChar? unit none, keeps with
    | some character, _ =>
      let (text, after) ← readString keeps rest
      return (character :: text, after)
    | none, true => none
    | none, false => readString keeps rest
  | '\\' :: c :: rest => do
    let character ← escapedChar? c
    let (text, after) ← readString keeps rest
    return (character :: text, after)
  | c :: rest =>
    if c.toNat < 0x20 || c == '\\' then none
    else do
      let (text, after) ← readString keeps rest
      return (c :: text, after)

/-- The key of an entry and the text after its colon. -/
def readKey (limits : Limits) (text : List Char) : Option (String × List Char) := do
  match skipSpace text with
  | '"' :: rest =>
    let (key, after) ← readString limits.keeps rest
    match skipSpace after with
    | ':' :: rest => return (String.ofList key, rest)
    | _ => none
  | _ => none

/-! ### Numbers -/

def maxWord : Nat := Nat.pow 2 64 - 1

/-- A word with further decimal digits put behind it, as long as it stays a word, and the digits
left over. -/
def absorb : Nat → List Char → Nat × List Char
  | word, [] => (word, [])
  | word, digit :: rest =>
    let next := word * 10 + (digit.toNat - '0'.toNat)
    if next ≤ maxWord then absorb next rest else (word, digit :: rest)

/-- A float scaled by a power of ten: one multiplication or division, after divisions by `1e308` if
the power is too small for one. Refuses infinity. -/
def scale (x : Binary64) : (fuel : Nat) → (exponent : Int) → Option Binary64
  | 0, _ => some x
  | fuel + 1, exponent =>
    if exponent.natAbs ≤ 308 then
      let power := Binary64.ofDecimal 1 exponent.natAbs
      if 0 ≤ exponent then
        let scaled := x.mul power
        if scaled.isInfinite then none else some scaled
      else some (x.div power)
    else if x.isZero then some x
    else if 0 ≤ exponent then none
    else scale (x.div (Binary64.ofDecimal 1 308)) fuel (exponent + 308)

/-- The exponent that decimal digits stand for, if it is a word of 32 bits. -/
def readExponent? : Nat → List Char → Option Nat
  | value, [] => some value
  | value, digit :: rest =>
    let next := value * 10 + (digit.toNat - '0'.toNat)
    if next < Nat.pow 2 31 then readExponent? next rest else none

/-- The parts of a number as it is written. -/
structure Literal where
  isNegative : Bool
  /-- The digits before the point. -/
  whole : List Char
  /-- The digits behind the point, if there is one. -/
  fraction : Option (List Char)
  /-- Sign and digits of the exponent, if there is one. -/
  exponent : Option (Bool × List Char)

/-- The value of a number with a point or an exponent, or with more digits than a word holds. -/
def Literal.float? (literal : Literal) : Option Binary64 :=
  let (word, dropped) := absorb 0 literal.whole
  let digits := literal.fraction.getD []
  let (word, ignored) := absorb word digits
  let start : Int := (dropped.length : Int) - ((digits.length : Int) - ignored.length)
  let magnitude :=
    match literal.exponent with
    | none => scale (.ofInt word) 4 start
    | some (isNegative, digits) =>
      match readExponent? 0 digits with
      | some exponent =>
        scale (.ofInt word) 4 (if isNegative then start - exponent else start + exponent)
      | none => if word ≠ 0 && !isNegative then none else some .zero
  magnitude.map fun x => if literal.isNegative then x.neg else x

def Literal.value? (literal : Literal) : Option Number :=
  let (word, dropped) := absorb 0 literal.whole
  match literal.fraction, literal.exponent, dropped with
  | none, none, [] =>
    if !literal.isNegative then some (.int word)
    else if word = 0 || Nat.pow 2 63 < word then some (.float (Binary64.ofInt word).neg)
    else some (.int (-(word : Int)))
  | _, _, _ => literal.float?.map .float

/-- The digits that a text starts with, and the rest. -/
def spanDigits (text : List Char) : List Char × List Char :=
  (text.takeWhile Char.isDigit, text.dropWhile Char.isDigit)

/-- The digits behind a point, if a point comes next; there has to be one. -/
def readFraction : (text : List Char) → Option (Option (List Char) × List Char)
  | '.' :: rest =>
    match spanDigits rest with
    | ([], _) => none
    | (digits, after) => some (some digits, after)
  | text => some (none, text)

/-- Sign and digits of an exponent, if one comes next; there has to be a digit. -/
def readExponent (text : List Char) : Option (Option (Bool × List Char) × List Char) :=
  match text with
  | 'e' :: rest => signed rest
  | 'E' :: rest => signed rest
  | _ => some (none, text)
where
  /-- The part behind the mark. -/
  signed (text : List Char) : Option (Option (Bool × List Char) × List Char) :=
    let (isNegative, digits) :=
      match text with
      | '+' :: rest => (false, rest)
      | '-' :: rest => (true, rest)
      | _ => (false, text)
    match spanDigits digits with
    | ([], _) => none
    | (digits, after) => some (some (isNegative, digits), after)

/-- The number that a text starts with. -/
def readLiteral (text : List Char) : Option (Literal × List Char) := do
  let (isNegative, digits) :=
    match text with
    | '-' :: rest => (true, rest)
    | _ => (false, text)
  let (whole, rest) ←
    match digits with
    | '0' :: rest =>
      match rest with
      | c :: _ => if c.isDigit then none else some (['0'], rest)
      | [] => some (['0'], [])
    | c :: _ => if c.isDigit then some (spanDigits digits) else none
    | [] => none
  let (fraction, rest) ← readFraction rest
  let (exponent, rest) ← readExponent rest
  return (⟨isNegative, whole, fraction, exponent⟩, rest)

/-! ### Values

The readers of nested values call each other; `fuel` bounds how often. -/

mutual

/-- The value that a text starts with, after blanks. -/
def readValue (limits : Limits) : (fuel : Nat) → List Char → Option (Value × List Char)
  | 0, _ => none
  | fuel + 1, text => do
    let inner := { limits with depth := limits.depth - 1 }
    match skipSpace text with
    | 'n' :: 'u' :: 'l' :: 'l' :: rest => return (.null, rest)
    | 't' :: 'r' :: 'u' :: 'e' :: rest => return (.bool true, rest)
    | 'f' :: 'a' :: 'l' :: 's' :: 'e' :: rest => return (.bool false, rest)
    | '"' :: rest =>
      let (content, after) ← readString limits.keeps rest
      return (.string (String.ofList content), after)
    | '[' :: rest =>
      if limits.keeps && limits.depth = 0 then none
      else
        let (items, after) ← readItems inner fuel rest
        return (.array items, after)
    | '\x7b' :: rest =>
      if limits.keeps && limits.depth = 0 then none
      else
        let (entries, after) ← readEntries inner fuel rest
        return (.object (Entries.normalize entries), after)
    | start =>
      let (literal, after) ← readLiteral start
      match literal.value?, limits.keeps with
      | some number, _ => return (.number number, after)
      | none, true => none
      | none, false => return (.null, after)

/-- The items of an array after its opening bracket, and the text after the closing one. -/
def readItems (limits : Limits) : (fuel : Nat) → List Char → Option (List Value × List Char)
  | 0, _ => none
  | fuel + 1, text => do
    match skipSpace text with
    | ']' :: rest => return ([], rest)
    | start =>
      let (item, after) ← readValue limits fuel start
      let (items, rest) ← readMoreItems limits fuel after
      return (item :: items, rest)

/-- The rest of the items after one of them. -/
def readMoreItems (limits : Limits) : (fuel : Nat) → List Char → Option (List Value × List Char)
  | 0, _ => none
  | fuel + 1, text => do
    match skipSpace text with
    | ']' :: rest => return ([], rest)
    | ',' :: rest =>
      let (item, after) ← readValue limits fuel rest
      let (items, rest) ← readMoreItems limits fuel after
      return (item :: items, rest)
    | _ => none

/-- The entries of an object after its opening bracket, and the text after the closing one. A key
may be repeated. -/
def readEntries (limits : Limits) :
    (fuel : Nat) → List Char → Option (List (String × Value) × List Char)
  | 0, _ => none
  | fuel + 1, text => do
    match skipSpace text with
    | '\x7d' :: rest => return ([], rest)
    | start =>
      let (key, after) ← readKey limits start
      let (value, after) ← readValue limits fuel after
      let (entries, rest) ← readMoreEntries limits fuel after
      return ((key, value) :: entries, rest)

/-- The rest of the entries after one of them. -/
def readMoreEntries (limits : Limits) :
    (fuel : Nat) → List Char → Option (List (String × Value) × List Char)
  | 0, _ => none
  | fuel + 1, text => do
    match skipSpace text with
    | '\x7d' :: rest => return ([], rest)
    | ',' :: rest =>
      let (key, after) ← readKey limits rest
      let (value, after) ← readValue limits fuel after
      let (entries, rest) ← readMoreEntries limits fuel after
      return ((key, value) :: entries, rest)
    | _ => none

end

/-- Enough fuel to read any text: no reader is called more than three times at one place. -/
def fuelFor (text : List Char) : Nat := 4 * text.length + 4

/-- The value that a text starts with, and the rest. -/
def readPart (limits : Limits) (text : List Char) : Option (Value × List Char) :=
  readValue limits (fuelFor text) text

/-- The value that a whole text stands for. -/
def readWith (limits : Limits) (text : String) : Option Value := do
  let (value, rest) ← readPart limits text.toList
  if (skipSpace rest).isEmpty then some value else none

/-- The value that a whole text stands for, nested at most as deep as usual. -/
def read (text : String) : Option Value := readWith {} text

end Interop.Json
