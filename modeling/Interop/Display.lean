import Interop.Call
/-!
Texts for objects and marshalled values: what a reader sees, and the longer descriptions that show
how a value is built.
-/

set_option autoImplicit false

namespace Interop

variable {κ σ : Type}

def Object.display : Object κ → Program κ σ String
  | none => return "None"
  | bool value => return if value then "True" else "False"
  | int value => return toString value.toInt
  | big value => return toString value
  | float value => return Decimal.Layout.text.write value
  | string value => return value
  | proxy p => p.display
  | method m => return "<bound method " ++ m.name ++ ">"
  | handle h => do return "<handle " ++ (← h.describe) ++ ">"

def Proxy.describe (p : Proxy κ) : Program κ σ String := do
  return "Proxy(" ++ p.typeInfo.display ++ ": " ++ (← p.display) ++ ")"

def BoundMethod.describe (m : BoundMethod κ) : Program κ σ String := do
  let kind :=
    match m with
    | .member _ method => "Member(Method(" ++ method.name ++ "))"
    | .capability _ c => "Capability(" ++ c.describe ++ ")"
  return "BoundMethod \x7b receiver: " ++ (← m.receiver.describe) ++ ", kind: " ++ kind ++ " \x7d"

def Object.describe : Object κ → Program κ σ String
  | none => return "None"
  | bool value => return (Primitive.bool value).describe
  | int value => return (Primitive.int value).describe
  | big value => return (Primitive.big value).describe
  | float value => return (Primitive.float value).describe
  | string value => return "String(" ++ Text.quoted value ++ ")"
  | proxy p => do return "Proxy(" ++ (← p.describe) ++ ")"
  | method m => do return "Method(" ++ (← m.describe) ++ ")"
  | handle h => do return "Handle(" ++ (← h.describe) ++ ")"

mutual

/-- A marshalled value with its kind, where handles are shown by a given function. -/
def Arg.describeWith (shown : Handle → String) : Arg κ → String
  | .none => "None"
  | .bool value => (Primitive.bool value).describe
  | .int value => (Primitive.int value).describe
  | .big value => (Primitive.big value).describe
  | .float value => (Primitive.float value).describe
  | .string value => (Primitive.string value).describe
  | .list items => "List([" ++ Text.commaSeparated (Arg.describeItems shown items) ++ "])"
  | .dict entries =>
    "Dict(\x7b" ++ Text.commaSeparated (Arg.describeEntries shown entries) ++ "\x7d)"
  | .handle h => "Handle(" ++ shown h ++ ")"
  | .bytes data =>
    "Bytes([" ++ Text.commaSeparated (data.map fun byte => toString byte.toNat) ++ "])"
  | .keywords entries =>
    "Kwargs(\x7b" ++ Text.commaSeparated (Arg.describeEntries shown entries) ++ "\x7d)"
  | .callback function => "Callback(<host function " ++ function.name ++ ">)"

def Arg.describeItems (shown : Handle → String) : List (Arg κ) → List String
  | [] => []
  | item :: rest => Arg.describeWith shown item :: Arg.describeItems shown rest

def Arg.describeEntries (shown : Handle → String) : List (String × Arg κ) → List String
  | [] => []
  | (key, value) :: rest =>
    (Text.quoted key ++ ": " ++ Arg.describeWith shown value) :: Arg.describeEntries shown rest

end

end Interop
