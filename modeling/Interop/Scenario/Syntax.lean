import Interop.Json.Value
import Interop.Registry
import Interop.Settings
import Interop.Capability
/-!
Scenarios: what a host does with a bridge, step by step, written as data.

A scenario describes foreign values, arguments and objects by specifications, which make new values
each time they are evaluated, and describes the host's own functions by behaviours, so that a whole
exchange between the two sides can be stated, kept and run again.
-/

set_option autoImplicit false

namespace Interop.Scenario

mutual

/-- A foreign value to be made or found. -/
inductive ValueSpec
  | none
  | bool (value : Bool)
  | int (value : Int64)
  | string (value : String)
  | float (value : Binary64)
  | bytes (data : List UInt8)
  | list (items : List ValueSpec)
  | tuple (items : List ValueSpec)
  /-- An iterator that gives each item once. -/
  | iterator (items : List ValueSpec)
  | dict (entries : List (String × ValueSpec))
  /-- A native function. -/
  | function (name : String) (body : Behaviour)
  | type (info : TypeInfo) (attributes : List (String × ValueSpec))
  | module (name : String) (attributes : List (String × ValueSpec))
  /-- What invoking a value without arguments gives. -/
  | made (factory : ValueSpec)
  | marshalled (arg : ArgSpec)
  | builtin (name : String)
  | variable (name : String)
  | stub (stub : StubSpec)

/-- A value of another runtime. -/
inductive StubSpec
  | mk (name module : String) (typeObject : Option ValueSpec) (primitive : Option ObjectSpec)
    (text : Option String) (body : Option Behaviour) (isCallable isIterator isSequence : Bool)
    (script : List StubStepSpec) (hash : Option Int64) (attributes : List (String × ValueSpec))
    (items : List ValueSpec) (status : Status)

/-- One answer of a stub that is iterated. -/
inductive StubStepSpec
  | item (value : ValueSpec)
  | fail (kind message : String)

/-- An argument to be marshalled. -/
inductive ArgSpec
  | none
  | bool (value : Bool)
  /-- An integer, as a word if it fits. -/
  | int (value : Int)
  /-- An integer that is kept as a big one. -/
  | big (value : Int)
  | float (value : Binary64)
  | string (value : String)
  | bytes (data : List UInt8)
  | list (items : List ArgSpec)
  | dict (entries : List (String × ArgSpec))
  | keywords (entries : List (String × ArgSpec))
  | json (value : Json.Value)
  /-- Keyword arguments from a JSON object. -/
  | jsonKeywords (value : Json.Value)
  /-- A function of the host that answers an object. -/
  | callback (name : String) (body : Behaviour)
  /-- A function of the host that answers an argument. -/
  | answering (name : String) (answer : ArgSpec)
  | handle (value : ValueSpec)
  /-- The primitive that a value reads as. -/
  | primitive (value : ValueSpec)
  | variable (name : String)

/-- An object of the host. -/
inductive ObjectSpec
  | none
  | bool (value : Bool)
  | int (value : Int64)
  | big (value : Int)
  | float (value : Binary64)
  | string (value : String)
  /-- A handle left unwrapped. -/
  | handle (value : ValueSpec)
  | wrapped (value : ValueSpec)
  | variable (name : String)

/-- What a function of the host does with its arguments. -/
inductive Behaviour
  | give (value : ObjectSpec)
  /-- Answers an argument. -/
  | arg (index : Nat)
  /-- Answers a foreign list of the arguments. -/
  | args
  /-- Answers a foreign dict of the keyword arguments. -/
  | keywords
  /-- Answers the texts of all arguments. -/
  | describe
  /-- Answers the kinds of all arguments. -/
  | kinds
  | raise (kind message : String)
  | typeError (message : String)
  /-- Invokes the first argument with the others. -/
  | invoke
  /-- Sets an attribute of the first argument to another argument. -/
  | store (name : String) (index : Nat)
  /-- Reads an attribute of the first argument, unwrapped. -/
  | attr (name : String)
  /-- Reads a member of the first argument. -/
  | get (name : String)
  /-- Counts how often a counter was read, this time included. -/
  | count (name : String)
  | eval (source : String)
  /-- Writes the texts of all arguments to the log. -/
  | log (text : String)
  /-- Writes to the log and goes on. -/
  | logThen (text : String) (next : Behaviour)

end

/-- A member that a delegator adds. -/
inductive MemberSpec
  | value (object : ObjectSpec)
  | method (body : Behaviour)

/-- What a delegator of the scenario does for a value. -/
inductive DelegatorSpec
  | members (members : List (String × MemberSpec))
  /-- Fails as a behaviour fails. -/
  | failing (body : Behaviour)

/-- The host code of a scenario. -/
inductive Code
  | behaviour (body : Behaviour)
  | answer (arg : ArgSpec)
  | delegator (delegator : DelegatorSpec)

/-! ### Steps -/

/-- A source to be evaluated. -/
inductive SourceSpec
  | plain (text : String)
  | template (parts : List String) (values : List ArgSpec)

/-- How the body of a scope is given. -/
inductive ScopeBody
  | behaviour (body : Behaviour)
  | object (callback : ObjectSpec)

/-- A class of the host with its methods. -/
structure ClassSpec where
  name : String
  methods : List (String × Behaviour)

/-- One thing that a scenario does. -/
inductive Action
  -- values
  | object (value : ObjectSpec)
  | handle (value : ValueSpec)
  | wrap (value : ValueSpec)
  | wrapOptional (value : Option ValueSpec)
  | wrapAll (values : List ValueSpec)
  | typeInfo (target : ObjectSpec)
  | info (target : ObjectSpec)
  | equal (a b : ObjectSpec)
  | drop (name : String)
  | arg (value : ArgSpec)
  | marshal (value : ArgSpec)
  | splitKeywords (args : List ArgSpec)
  | bytesArg (text : String)
  -- the foreign runtime
  | importModule (name : String)
  | builtin (name : String)
  | globals
  | ownGlobal (name : String)
  | eval (source : SourceSpec)
  | materialize (body : Behaviour)
  | bind (target : ObjectSpec) (name : String) (code : Code)
  | errorInfo (body : Behaviour)
  | status (value : Status)
  | exception (kind message : String)
  | log
  -- the registry
  | registry (types : List TypeInfo)
  | buildMembers (key : DelegatorKey) (target : ObjectSpec)
  | delegator (key : DelegatorKey)
  | capability (name : String)
  -- proxies
  | get (target : ObjectSpec) (name : String)
  | set (target : ObjectSpec) (name : String) (value : ArgSpec)
  | call (target : ObjectSpec) (args : List ArgSpec)
  | callObject (target : ObjectSpec) (args : List ObjectSpec)
  | callMember (target : ObjectSpec) (name : String) (args : List ObjectSpec)
  | callMethod (target : ObjectSpec) (name : String) (args : List ArgSpec)
  | construct (target : ObjectSpec) (cls : ClassSpec)
  | dispatch (target : ObjectSpec) (values : List ValueSpec) (body : Behaviour)
  | toStr (target : ObjectSpec)
  | slice (target : ObjectSpec) (start stop step : Option Int64)
  | length (target : ObjectSpec)
  | isEmpty (target : ObjectSpec)
  -- handles
  | invoke (target : ObjectSpec) (args : List ArgSpec)
  | hash (target : ObjectSpec)
  | hasAttr (target : ObjectSpec) (name : String)
  | getAttr (target : ObjectSpec) (name : String)
  | setAttr (target : ObjectSpec) (name : String) (value : ArgSpec)
  | getItem (target : ObjectSpec) (key : ArgSpec)
  | setItem (target : ObjectSpec) (key value : ArgSpec)
  | next (target : ObjectSpec)
  | primitive (target : ObjectSpec)
  | probe (target : ObjectSpec)
  -- iteration
  | iterate (target : ObjectSpec) (name : String) (lenient : Bool)
  | iterateNext (name : String)
  | iterateAll (target : ObjectSpec) (lenient : Bool) (limit : Nat)
  -- scopes
  | scope (target : ObjectSpec) (body : ScopeBody)
  | guardNew (target : ObjectSpec) (name : String)
  | guardEnter (name : String)
  | guardFinish (name : String) (body : Behaviour)
  | guardDrop (name : String)

/-- An action, and the name under which its object is kept. -/
structure Step where
  action : Action
  keptAs : Option String := none

/-! ### Set-up -/

/-- The registry that a scenario's bridge loads. -/
structure RegistrySpec where
  /-- Whether the standard delegators come first. -/
  standard : Bool := true
  types : List (TypeInfo × DelegatorSpec) := []
  callee : Option DelegatorSpec := none
  default : Option DelegatorSpec := none

/-- The ways in which the runtime of a scenario departs from the usual one. -/
structure RuntimeSpec where
  /-- Values that take the place of builtins, except in evaluated code. -/
  builtins : List (String × ValueSpec) := []
  globals : Option ValueSpec := none
  /-- The value that every binding of a method answers. -/
  bound : Option ValueSpec := none
  /-- Whether methods are left unbound. -/
  leavesUnbound : Bool := false
  /-- Whether running a source answers the source itself. -/
  echoes : Bool := false
  /-- Whether foreign errors have no exception. -/
  refusesForeign : Bool := false
  /-- Whether type errors have no exception. -/
  refusesType : Bool := false

/-- What stands before the steps of a scenario. -/
structure Setup where
  settings : Settings := {}
  modules : List (String × ValueSpec) := []
  registry : RegistrySpec := {}
  runtime : RuntimeSpec := {}

end Interop.Scenario

namespace Interop

/-- A whole scenario. -/
structure Scenario where
  setup : Scenario.Setup := {}
  steps : List Scenario.Step

end Interop
