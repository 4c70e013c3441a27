import Interop.Json.Reader
/-!
Formats: what a format without arguments writes. Every conversion then converts zero or the empty
text, so only its flags, its width, its precision and its letter matter.
-/

set_option autoImplicit false

namespace Interop.Worker

def bytesOf (text : String) : List UInt8 := text.toUTF8.data.toList

def digitsIn (base : Nat) (digits : List Char) : Nat :=
  digits.foldl (fun value c => base * value + (Json.hexDigit? c).getD 0) 0

namespace Format

/-! ### Conversions -/

/-- A conversion: how one argument is written. -/
structure Conversion where
  flags : List Char
  width : Nat
  precision : Option Nat
  letter : Char
  deriving DecidableEq

def isFlag (c : Char) : Bool := "-+ #0'I".toList.contains c

/-- Whether a letter tells the size of an argument. -/
def isSizeMark (c : Char) : Bool := "hlLjtz".toList.contains c

/-- The number that a text starts with, and the rest. A star asks for an argument, and is zero
without one. -/
def readCount : List Char → Nat × List Char
  | '*' :: rest => (0, rest)
  | text => (digitsIn 10 (text.takeWhile Char.isDigit), text.dropWhile Char.isDigit)

/-- The precision that a text starts with, and the rest. -/
def readPrecision : List Char → Option Nat × List Char
  | '.' :: rest => (some (readCount rest).1, (readCount rest).2)
  | text => (none, text)

/-- The conversion that a text starts with, and the rest. -/
def Conversion.read? (text : List Char) : Option (Conversion × List Char) :=
  let (width, afterWidth) := readCount (text.dropWhile isFlag)
  let (precision, afterPrecision) := readPrecision afterWidth
  match afterPrecision.dropWhile isSizeMark with
  | [] => none
  | letter :: rest => some (⟨text.takeWhile isFlag, width, precision, letter⟩, rest)

theorem length_readCount_le (text : List Char) : (readCount text).2.length ≤ text.length := by
  fun_cases readCount text with
  | case1 rest => simp
  | case2 text => exact (List.dropWhile_sublist _).length_le

theorem length_readPrecision_le (text : List Char) :
    (readPrecision text).2.length ≤ text.length := by
  fun_cases readPrecision text with
  | case1 rest => exact Nat.le_succ_of_le (length_readCount_le rest)
  | case2 text => exact Nat.le_refl _

theorem Conversion.length_read?_lt {text rest : List Char} {conversion : Conversion}
    (h : read? text = some (conversion, rest)) : rest.length < text.length := by
  have flags : (text.dropWhile isFlag).length ≤ text.length :=
    (List.dropWhile_sublist _).length_le
  have width := length_readCount_le (text.dropWhile isFlag)
  have precision := length_readPrecision_le (readCount (text.dropWhile isFlag)).2
  have marks :=
    (List.dropWhile_sublist (l := (readPrecision (readCount (text.dropWhile isFlag)).2).2)
      isSizeMark).length_le
  rw [read?] at h
  cases same : (readPrecision (readCount (text.dropWhile isFlag)).2).2.dropWhile isSizeMark with
  | nil => simp [same] at h
  | cons letter after =>
    simp only [same, Option.some.injEq, Prod.mk.injEq] at h
    rw [same, List.length_cons] at marks
    rw [← h.2]
    omega

namespace Conversion

def has (conversion : Conversion) (flag : Char) : Bool := conversion.flags.contains flag

/-- Whether the letter is one of those in a text. -/
def isOneOf (conversion : Conversion) (letters : String) : Bool :=
  letters.toList.contains conversion.letter

/-- Whether the letter is known and goes with the flags and the precision. -/
def isWellFormed (conversion : Conversion) : Bool :=
  conversion.isOneOf "aAcdeEfFgGiosuxX" &&
    !((conversion.has '\'' || conversion.has 'I') && conversion.isOneOf "aAceEosxX") &&
    !(conversion.has '#' && conversion.isOneOf "cdisu") &&
    !(conversion.has '0' && conversion.isOneOf "cs") &&
    !(conversion.precision.isSome && conversion.letter == 'c')

def isInteger (conversion : Conversion) : Bool := conversion.isOneOf "diouxX"

/-- The sign before zero; numbers without sign have none. -/
def sign (conversion : Conversion) : List Char :=
  if conversion.isOneOf "diaAeEfFgG" then
    if conversion.has '+' then ['+'] else if conversion.has ' ' then [' '] else []
  else []

/-- A point and so many zeros; without zeros the point stands only where the flags ask for it. -/
def fraction (conversion : Conversion) (zeros : Nat) : List Char :=
  if zeros = 0 && !conversion.has '#' then [] else '.' :: List.replicate zeros '0'

/-- What stands between the sign and the zeros that fill the width. -/
def lead (conversion : Conversion) : List Char :=
  if conversion.letter == 'a' then ['0', 'x']
  else if conversion.letter == 'A' then ['0', 'X']
  else []

/-- The digits of zero, or the empty text. -/
def digits (conversion : Conversion) : List Char :=
  let places := conversion.precision.getD 6
  match conversion.letter with
  | 's' => []
  | 'c' => ['\x00']
  | 'f' | 'F' => '0' :: conversion.fraction places
  | 'e' => '0' :: conversion.fraction places ++ "e+00".toList
  | 'E' => '0' :: conversion.fraction places ++ "E+00".toList
  | 'g' | 'G' => '0' :: if conversion.has '#' then conversion.fraction (places - 1) else []
  | 'a' => '0' :: conversion.fraction (conversion.precision.getD 0) ++ "p+0".toList
  | 'A' => '0' :: conversion.fraction (conversion.precision.getD 0) ++ "P+0".toList
  | 'o' =>
    if conversion.has '#' then List.replicate (max 1 (conversion.precision.getD 1)) '0'
    else List.replicate (conversion.precision.getD 1) '0'
  | _ => List.replicate (conversion.precision.getD 1) '0'

/-- What a conversion writes of zero or the empty text. -/
def write (conversion : Conversion) : List Char :=
  let start := conversion.sign ++ conversion.lead
  let missing := conversion.width - (start ++ conversion.digits).length
  if conversion.has '-' then start ++ conversion.digits ++ List.replicate missing ' '
  else if conversion.has '0' && !(conversion.isInteger && conversion.precision.isSome) then
    start ++ List.replicate missing '0' ++ conversion.digits
  else List.replicate missing ' ' ++ start ++ conversion.digits

end Conversion

/-! ### Escapes -/

/-- The byte that a letter after a backslash stands for. -/
def escapedByte? : Char → Option UInt8
  | '"' => some 0x22
  | '\\' => some 0x5C
  | 'a' => some 0x07
  | 'b' => some 0x08
  | 'e' => some 0x1B
  | 'f' => some 0x0C
  | 'n' => some 0x0A
  | 'r' => some 0x0D
  | 't' => some 0x09
  | 'v' => some 0x0B
  | _ => none

def isOctal (c : Char) : Bool := '0' ≤ c && c ≤ '7'

def isHexadecimal (c : Char) : Bool := (Json.hexDigit? c).isSome

/-- How many digits a code point has after this letter. -/
def codePointDigits? : Char → Option Nat
  | 'u' => some 4
  | 'U' => some 8
  | _ => none

/-- A number in upper-case hexadecimal digits, at least `least` of them. -/
def hexadecimal (least n : Nat) : String :=
  let digits := (Nat.toDigits 16 n).map Char.toUpper
  String.ofList (List.replicate (least - digits.length) '0' ++ digits)

/-- A code point: a character of ASCII, or an escape that names it. Surrogates are refused. -/
def codePoint? (code : Nat) : Option (List UInt8) :=
  if 0xD800 ≤ code && code ≤ 0xDFFF then none
  else if code < 0x80 then some [UInt8.ofNat code]
  else if code < 0x10000 then some (bytesOf ("\\u" ++ hexadecimal 4 code))
  else some (bytesOf ("\\U" ++ hexadecimal 8 code))

/-! ### Whole formats -/

def andThen (bytes : List UInt8) (rest : List UInt8 × Nat) : List UInt8 × Nat :=
  (bytes ++ rest.1, rest.2)

/-- What a format without arguments writes, and the code that the process exits with. -/
def write (format : List Char) : List UInt8 × Nat :=
  match format with
  | [] => ([], 0)
  | '%' :: '%' :: rest => andThen [0x25] (write rest)
  | '%' :: 'b' :: rest => write rest
  | '%' :: 'q' :: rest => write rest
  | '%' :: text =>
    match _h : Conversion.read? text with
    | none => ([], 1)
    | some (conversion, rest) =>
      if conversion.isWellFormed then
        andThen (bytesOf (String.ofList conversion.write)) (write rest)
      else ([], 1)
  | '\\' :: 'c' :: _ => ([], 0)
  | '\\' :: 'x' :: rest =>
    let digits := (rest.takeWhile isHexadecimal).take 2
    if digits.isEmpty then ([], 1)
    else andThen [UInt8.ofNat (digitsIn 16 digits)] (write (rest.drop digits.length))
  | '\\' :: c :: rest =>
    match codePointDigits? c with
    | some count =>
      let digits := (rest.takeWhile isHexadecimal).take count
      if digits.length < count then ([], 1)
      else
        match codePoint? (digitsIn 16 digits) with
        | some bytes => andThen bytes (write (rest.drop count))
        | none => ([], 1)
    | none =>
      match escapedByte? c with
      | some byte => andThen [byte] (write rest)
      | none =>
        let digits := ((c :: rest).takeWhile isOctal).take 3
        if digits.isEmpty then andThen (bytesOf (String.ofList ['\\', c])) (write rest)
        else andThen [UInt8.ofNat (digitsIn 8 digits)] (write (rest.drop (digits.length - 1)))
  | c :: rest => andThen (bytesOf (String.singleton c)) (write rest)
termination_by format.length
decreasing_by
  all_goals simp only [List.length_cons, List.length_drop]
  all_goals first
    | omega
    | exact Nat.lt_succ_of_lt (Conversion.length_read?_lt _h)

end Format
end Interop.Worker
