import Interop.Decimal.Layout
import Interop.Json.Value
import Interop.Text.Quoted
/-!
JSON values as compact text.
-/

set_option autoImplicit false

namespace Interop.Json

/-- A character as it stands in a JSON string. -/
def writeChar (c : Char) : String :=
  match c with
  | '"' => "\\\""
  | '\\' => "\\\\"
  | '\x08' => "\\b"
  | '\x0c' => "\\f"
  | '\n' => "\\n"
  | '\r' => "\\r"
  | '\t' => "\\t"
  | c =>
    if c.toNat < 0x20 then "\\u00" ++ Text.hexadecimalByte (UInt8.ofNat c.toNat)
    else String.singleton c

def writeString (text : String) : String :=
  "\"" ++ String.join (text.toList.map writeChar) ++ "\""

/-- A number; a float that JSON cannot write is null. -/
def writeNumber : Number → String
  | .int value => toString value
  | .float value => if value.isFinite then Decimal.Layout.json.write value else "null"

mutual

def write : Value → String
  | .null => "null"
  | .bool value => if value then "true" else "false"
  | .number number => writeNumber number
  | .string value => writeString value
  | .array items => "[" ++ ",".intercalate (writeItems items) ++ "]"
  | .object entries => "\x7b" ++ ",".intercalate (writeEntries entries) ++ "\x7d"

def writeItems : List Value → List String
  | [] => []
  | item :: rest => write item :: writeItems rest

def writeEntries : List (String × Value) → List String
  | [] => []
  | (key, value) :: rest => (writeString key ++ ":" ++ write value) :: writeEntries rest

end

end Interop.Json
