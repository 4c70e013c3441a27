import Interop.Object
/-!
What can be put on the heap from outside: blueprints of the runtime's own objects, and stubs, which
stand for values of some other runtime and answer from fixed tables.
-/

set_option autoImplicit false

namespace Interop

/-- One answer of a stub that is iterated. -/
inductive StubStep
  | item (handle : Handle)
  | fail (kind message : String)

/-- A value of another runtime: what it answers to each primitive operation. -/
structure Stub (κ : Type) where
  name : String
  typeObject : Handle
  primitive : Option Primitive := none
  text : Option String := none
  /-- What invoking the value runs. -/
  body : Option κ := none
  isCallable : Bool := false
  isIterator : Bool := false
  isSequence : Bool := false
  /-- The answers that iteration has still to give. -/
  script : List StubStep := []
  hash : Option Int64 := none
  attributes : OrderedMap Handle := .empty
  items : List Handle := []
  /-- What every attempt to change the value answers. -/
  status : Status := .ok

/-- A new foreign value. -/
inductive Blueprint (κ : Type)
  | none
  | bool (value : Bool)
  | int (value : Int64)
  | float (value : Binary64)
  | string (value : String)
  | bytes (data : List UInt8)
  | list (items : List Handle)
  | tuple (items : List Handle)
  | dict (entries : Entries Handle)
  /-- An iterator that gives each item once. -/
  | iterator (items : List Handle)
  | function (name : String) (code : κ)
  /-- A class; functions among its attributes become methods of its instances. -/
  | type (info : TypeInfo) (attributes : Entries Handle)
  | module (name : String) (attributes : Entries Handle)
  | stub (stub : Stub κ)

/-- What the runtime tells about an object of its own. -/
structure Inspection where
  typeName : String
  /-- The number of elements; an object without elements reports an error. -/
  length : Except Error Nat

end Interop
