import Interop.Binary64
import Interop.Decimal.Layout
import Interop.Text.Quoted
/-!
What the host holds of the foreign side: references to foreign values, the outcome of a mutation,
the primitive reading of a value, and the identity of a value's type.
-/

set_option autoImplicit false

namespace Interop

/-- A reference to a foreign value. Two handles are the same exactly if they refer to one value. -/
structure Handle where
  address : Nat
  deriving DecidableEq, Inhabited

/-- What a foreign mutation answers: `-1` is failure, any other code success. -/
structure Status where
  code : Int
  deriving DecidableEq

namespace Status

def ok : Status := ⟨0⟩

def failure : Status := ⟨-1⟩

def ofBool (accepted : Bool) : Status := if accepted then ok else failure

def isOk (status : Status) : Bool := status != failure

/-- The status as it is shown in a description. -/
def describe (status : Status) : String := "Status(" ++ toString status.code ++ ")"

end Status

/-- The host reading of a value that has one. -/
inductive Primitive
  | bool (value : Bool)
  | int (value : Int64)
  /-- An integer that need not fit in 64 bits. -/
  | big (value : Int)
  | float (value : Binary64)
  | string (value : String)
  deriving DecidableEq

/-- A primitive as it is shown in a description. -/
def Primitive.describe : Primitive → String
  | .bool value => "Bool(" ++ (if value then "true" else "false") ++ ")"
  | .int value => "Int(" ++ toString value.toInt ++ ")"
  | .big value => "BigInt(" ++ toString value ++ ")"
  | .float value => "Float(" ++ Decimal.Layout.description.write value ++ ")"
  | .string value => "Str(" ++ Text.quoted value ++ ")"

/-- The integers that a signed word of 64 bits holds. -/
def FitsWord (i : Int) : Prop := -Int.pow 2 63 ≤ i ∧ i < Int.pow 2 63

instance (i : Int) : Decidable (FitsWord i) := inferInstanceAs (Decidable (_ ∧ _))

/-- An integer as a signed word, if it is one. -/
def word? (i : Int) : Option Int64 := if FitsWord i then some (Int64.ofInt i) else none

theorem toInt_of_word? {i : Int} {value : Int64} (small : word? i = some value) :
    value.toInt = i := by
  unfold word? at small
  split at small
  · rename_i fits
    cases small
    exact Int64.toInt_ofInt_of_le fits.1 fits.2
  · cases small

/-- The module and the name that a foreign type reports about itself. -/
structure TypeInfo where
  module : String
  name : String
  deriving DecidableEq

namespace TypeInfo

/-- The names of the types whose values are read as primitives. -/
def primitiveNames : List String := ["int", "int64", "float", "float64", "bool", "str"]

def isNone (info : TypeInfo) : Bool := info.name == "NoneType"

def isPrimitive (info : TypeInfo) : Bool := primitiveNames.contains info.name

def display (info : TypeInfo) : String := info.module ++ "." ++ info.name

/-- Order by module, then by name. -/
def compare (a b : TypeInfo) : Ordering :=
  (Ord.compare a.module b.module).then (Ord.compare a.name b.name)

end TypeInfo
end Interop
