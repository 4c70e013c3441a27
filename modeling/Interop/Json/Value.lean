import Interop.Binary64
import Interop.OrderedMap
/-!
JSON values. Numbers are integers, if they are written as such and fit in a word with or without
sign, or floats; objects keep the order of their keys.
-/

set_option autoImplicit false

namespace Interop.Json

/-- A number. -/
inductive Number
  | int (value : Int)
  | float (value : Binary64)
  deriving DecidableEq

/-- A JSON value. -/
inductive Value
  | null
  | bool (value : Bool)
  | number (number : Number)
  | string (value : String)
  | array (items : List Value)
  | object (entries : List (String × Value))

instance : Inhabited Value := ⟨.null⟩

namespace Value

def int (value : Int) : Value := number (.int value)

def ofOptionalString : Option String → Value
  | some text => string text
  | none => null

def kindName : Value → String
  | null => "null"
  | bool _ => "boolean"
  | number _ => "number"
  | string _ => "string"
  | array _ => "array"
  | object _ => "object"

def field? : Value → String → Option Value
  | object entries, key => Entries.get? entries key
  | _, _ => none

end Value
end Interop.Json
