import Interop.Capability
import Interop.Failure
import Interop.OrderedMap
/-!
Foreign values as the host sees them, and host values on their way to the foreign side.

`Object` is what wrapping a handle gives: a plain host value, or a proxy with the members that a
delegator added to it. `Arg` is a host value marshalled for a foreign call. Host code itself never
stands in these values: they hold names of host code, drawn from a type `κ`, and the machine that
runs them knows what the names mean.
-/

set_option autoImplicit false

namespace Interop

/-- What a method of the host runs. -/
inductive MethodCode (κ : Type)
  /-- The length of the receiver. -/
  | length
  /-- The keys of the receiver, which is a mapping. -/
  | keys
  | host (code : κ)
  deriving DecidableEq

/-- A named host function that runs with a proxy as its receiver. -/
structure Method (κ : Type) where
  name : String
  code : MethodCode κ
  deriving DecidableEq

mutual

/-- A foreign value as the host sees it. -/
inductive Object (κ : Type)
  | none
  | bool (value : Bool)
  | int (value : Int64)
  /-- An integer that need not fit in 64 bits. -/
  | big (value : Int)
  | float (value : Binary64)
  | string (value : String)
  | proxy (proxy : Proxy κ)
  | method (method : BoundMethod κ)
  /-- A handle left unwrapped. -/
  | handle (handle : Handle)

/-- The host's view of one foreign value: its handle, the identity of its type, and the members that
a delegator added. -/
inductive Proxy (κ : Type)
  | mk (handle : Handle) (typeInfo : TypeInfo) (members : List (String × Member κ))

/-- A member that a delegator adds to a proxy. -/
inductive Member (κ : Type)
  | value (object : Object κ)
  | method (method : Method κ)

/-- A method together with the proxy that it was read from. -/
inductive BoundMethod (κ : Type)
  | member (receiver : Proxy κ) (method : Method κ)
  | capability (receiver : Proxy κ) (operation : Capability)

end

/-- What a host function that foreign code can call runs. -/
inductive CallbackCode (κ : Type)
  | host (code : κ)
  /-- A method whose receiver is the first argument. -/
  | onReceiver (method : Method κ)
  | bound (method : BoundMethod κ)

/-- A named host function that foreign code can call. -/
structure Callback (κ : Type) where
  name : String
  code : CallbackCode κ

/-- A host value marshalled for a foreign call. -/
inductive Arg (κ : Type)
  | none
  | bool (value : Bool)
  | int (value : Int64)
  | big (value : Int)
  | float (value : Binary64)
  | string (value : String)
  | list (items : List (Arg κ))
  /-- A mapping, passed as one positional argument. -/
  | dict (entries : List (String × Arg κ))
  /-- A foreign value, passed through untouched. -/
  | handle (handle : Handle)
  | bytes (data : List UInt8)
  /-- A mapping that is spread as keyword arguments of the call that it stands in. -/
  | keywords (entries : List (String × Arg κ))
  | callback (callback : Callback κ)

variable {κ : Type}

instance : Inhabited (Object κ) := ⟨.none⟩
instance : Inhabited (Arg κ) := ⟨.none⟩

namespace Proxy

def handle : Proxy κ → Handle
  | mk handle _ _ => handle

def typeInfo : Proxy κ → TypeInfo
  | mk _ typeInfo _ => typeInfo

def members : Proxy κ → Entries (Member κ)
  | mk _ _ members => members

end Proxy

namespace BoundMethod

def receiver : BoundMethod κ → Proxy κ
  | member receiver _ => receiver
  | capability receiver _ => receiver

def name : BoundMethod κ → String
  | member _ method => method.name
  | capability _ operation => operation.name

/-- The capability that the method stands for, if it is one. -/
def capability? : BoundMethod κ → Option Capability
  | member _ _ => none
  | capability _ operation => some operation

/-- The method as a function that foreign code can call. -/
def toCallback (method : BoundMethod κ) : Callback κ := ⟨method.name, .bound method⟩

end BoundMethod

/-- The method as a function that foreign code calls with the receiver in front. -/
def Method.toReceiverCallback (method : Method κ) : Callback κ := ⟨method.name, .onReceiver method⟩

namespace Object

def ofPrimitive : Primitive → Object κ
  | .bool value => bool value
  | .int value => int value
  | .big value => big value
  | .float value => float value
  | .string value => string value

def isNone : Object κ → Bool
  | none => true
  | _ => false

/-- The truth value: that of the value for primitives, true for all that is not one. -/
def isTruthy : Object κ → Bool
  | none => false
  | bool value => value
  | int value => value != 0
  | big value => value != 0
  | float value => !value.isZero
  | string value => value != ""
  | proxy _ => true
  | method _ => true
  | handle _ => true

def int? : Object κ → Option Int64
  | int value => some value
  | _ => Option.none

def string? : Object κ → Option String
  | string value => some value
  | _ => Option.none

def proxy? : Object κ → Option (Proxy κ)
  | proxy p => some p
  | _ => Option.none

/-- The handle behind a proxy or a raw handle. -/
def handle? : Object κ → Option Handle
  | proxy p => some p.handle
  | handle h => some h
  | _ => Option.none

def typeName : Object κ → String
  | none => "None"
  | bool _ => "bool"
  | int _ => "int"
  | big _ => "int"
  | float _ => "float"
  | string _ => "str"
  | proxy _ => "proxy"
  | method _ => "method"
  | handle _ => "handle"

/-- Equality: primitives by value, proxies and handles by identity; a method equals nothing. -/
def equals : Object κ → Object κ → Bool
  | none, none => true
  | bool a, bool b => a == b
  | int a, int b => a == b
  | big a, big b => a == b
  | float a, float b => a.equals b
  | string a, string b => a == b
  | proxy a, proxy b => a.handle == b.handle
  | handle a, handle b => a == b
  | _, _ => false

def toArg : Object κ → Arg κ
  | none => .none
  | bool value => .bool value
  | int value => .int value
  | big value => .big value
  | float value => .float value
  | string value => .string value
  | proxy p => .handle p.handle
  | handle h => .handle h
  | method m => .callback m.toCallback

end Object

namespace Arg

def ofPrimitive : Primitive → Arg κ
  | .bool value => bool value
  | .int value => int value
  | .big value => big value
  | .float value => float value
  | .string value => string value

/-- An integer: a word if it fits, else a big integer. -/
def ofInt (i : Int) : Arg κ :=
  match word? i with
  | some value => int value
  | Option.none => big i

def handle? : Arg κ → Option Handle
  | handle h => some h
  | _ => Option.none

/-- The entries of a group of keyword arguments; a positional argument has none. -/
def keywordEntries : Arg κ → Entries (Arg κ)
  | keywords entries => entries
  | _ => []

def isPositional : Arg κ → Bool
  | keywords _ => false
  | _ => true

/-- Positional arguments in order, and all keyword arguments as one map in which later entries
override earlier ones. -/
def splitKeywords (args : List (Arg κ)) : List (Arg κ) × Entries (Arg κ) :=
  (args.filter isPositional, Entries.normalize (args.flatMap keywordEntries))

end Arg
end Interop
