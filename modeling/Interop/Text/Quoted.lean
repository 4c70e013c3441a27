import Interop.Text.Visible
/-!
Quoted text: how a text is shown inside a description of a value. Double quotes surround it; a
character that is not visible by itself is written as an escape.
-/

set_option autoImplicit false

namespace Interop.Text

/-- A number in lower-case hexadecimal digits, without leading zeros. -/
def hexadecimal (n : Nat) : String := String.ofList (Nat.toDigits 16 n)

def hexadecimalByte (byte : UInt8) : String :=
  String.ofList [Nat.digitChar (byte.toNat / 16), Nat.digitChar (byte.toNat % 16)]

/-- A character as it stands in a quoted text. -/
def escaped (c : Char) : String :=
  match c with
  | '\x00' => "\\0"
  | '\t' => "\\t"
  | '\r' => "\\r"
  | '\n' => "\\n"
  | '"' => "\\\""
  | '\\' => "\\\\"
  | c =>
    if isExtending c || !isPrintable c then "\\u\x7b" ++ hexadecimal c.toNat ++ "\x7d"
    else String.singleton c

def quoted (text : String) : String :=
  "\"" ++ String.join (text.toList.map escaped) ++ "\""

def commaSeparated (items : List String) : String := ", ".intercalate items

end Interop.Text
