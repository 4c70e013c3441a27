import Interop.Json.Codec
import Interop.Scenario.Session
import Interop.Template
/-!
Evaluation of the specifications of a scenario: foreign values, arguments and objects.
-/

set_option autoImplicit false

namespace Interop.Scenario

/-- The foreign value behind an object, which is marshalled if it has none. -/
def handleOf (object : Object Code) : HostProgram Handle :=
  match object.handle? with
  | some h => return h
  | none => Program.marshal object.toArg

/-- The primitive that an object is, if it is one. -/
def primitiveOf? : Object Code → Option Primitive
  | .bool value => some (.bool value)
  | .int value => some (.int value)
  | .big value => some (.big value)
  | .float value => some (.float value)
  | .string value => some (.string value)
  | _ => none

def make (blueprint : Blueprint Code) : Performance Handle := .ofProgram (Program.create blueprint)

mutual

def ValueSpec.eval : ValueSpec → Performance Handle
  | .none => make .none
  | .bool value => make (.bool value)
  | .int value => make (.int value)
  | .string value => make (.string value)
  | .float value => make (.float value)
  | .bytes data => make (.bytes data)
  | .list items => do
    let handles ← ValueSpec.evalAll items
    make (.list handles)
  | .tuple items => do
    let handles ← ValueSpec.evalAll items
    make (.tuple handles)
  | .iterator items => do
    let handles ← ValueSpec.evalAll items
    make (.iterator handles)
  | .dict entries => do
    let handles ← ValueSpec.evalEntries entries
    make (.dict handles)
  | .function name body => make (.function name (.behaviour body))
  | .type info attributes => do
    let handles ← ValueSpec.evalEntries attributes
    make (.type info handles)
  | .module name attributes => do
    let handles ← ValueSpec.evalEntries attributes
    make (.module name handles)
  | .made factory => do
    let h ← factory.eval
    .ofProgram (h.invoke [])
  | .marshalled arg => do
    let value ← arg.eval
    .ofProgram (Program.marshal value)
  | .builtin name => .ofProgram (Program.builtin name)
  | .variable name => do
    let object ← Performance.kept name
    .ofProgram (handleOf object)
  | .stub spec => spec.eval

def ValueSpec.evalAll : List ValueSpec → Performance (List Handle)
  | [] => return []
  | spec :: rest => do
    let h ← spec.eval
    let handles ← ValueSpec.evalAll rest
    return h :: handles

/-- Makes or finds the values of entries, in order. -/
def ValueSpec.evalEntries : List (String × ValueSpec) → Performance (Entries Handle)
  | [] => return []
  | (key, spec) :: rest => do
    let h ← spec.eval
    let handles ← ValueSpec.evalEntries rest
    return (key, h) :: handles

/-- Makes or finds a value that may be left out. -/
def ValueSpec.evalOptional : Option ValueSpec → Performance (Option Handle)
  | .none => return none
  | .some spec => do
    let h ← spec.eval
    return some h

/-- Makes a stub. Without a type object it gets a class of its own. -/
def StubSpec.eval : StubSpec → Performance Handle
  | .mk name module typeObject primitive text body isCallable isIterator isSequence script hash
      attributes items status => do
    let given ← ValueSpec.evalOptional typeObject
    let type ←
      match given with
      | some h => pure h
      | none => make (.type ⟨module, name⟩ [])
    let reading ← ObjectSpec.evalOptional primitive
    let steps ← StubStepSpec.evalAll script
    let attributes ← ValueSpec.evalEntries attributes
    let items ← ValueSpec.evalAll items
    make <| .stub
      { name := name
        typeObject := type
        primitive := reading.bind primitiveOf?
        text := text
        body := body.map Code.behaviour
        isCallable := isCallable
        isIterator := isIterator
        isSequence := isSequence
        script := steps
        hash := hash
        attributes := .ofEntries attributes
        items := items
        status := status }

/-- The answers of a stub that is iterated, in order. -/
def StubStepSpec.evalAll : List StubStepSpec → Performance (List StubStep)
  | [] => return []
  | .item spec :: rest => do
    let h ← spec.eval
    let steps ← StubStepSpec.evalAll rest
    return .item h :: steps
  | .fail kind message :: rest => do
    let steps ← StubStepSpec.evalAll rest
    return .fail kind message :: steps

def ArgSpec.eval : ArgSpec → Performance (Arg Code)
  | .none => return .none
  | .bool value => return .bool value
  | .int value => return .ofInt value
  | .big value => return .big value
  | .float value => return .float value
  | .string value => return .string value
  | .bytes data => return .bytes data
  | .list items => do
    let args ← ArgSpec.evalAll items
    return .list args
  | .dict entries => do
    let args ← ArgSpec.evalEntries entries
    return .dict (Entries.normalize args)
  | .keywords entries => do
    let args ← ArgSpec.evalEntries entries
    return .keywords (Entries.normalize args)
  | .json value => return .ofJson value
  | .jsonKeywords value =>
    match Arg.keywordsOfJson value with
    | .ok arg => return arg
    | .error fault => throw (.bridge (.type fault))
  | .callback name body => return .callback ⟨name, .host (.behaviour body)⟩
  | .answering name answer => return .callback ⟨name, .host (.answer answer)⟩
  | .handle spec => do
    let h ← spec.eval
    return .handle h
  | .primitive spec => do
    let h ← spec.eval
    let value ← Performance.ofProgram h.primitive
    return .ofPrimitive value
  | .variable name => do
    let object ← Performance.kept name
    return object.toArg

def ArgSpec.evalAll : List ArgSpec → Performance (List (Arg Code))
  | [] => return []
  | spec :: rest => do
    let arg ← spec.eval
    let args ← ArgSpec.evalAll rest
    return arg :: args

def ArgSpec.evalEntries : List (String × ArgSpec) → Performance (Entries (Arg Code))
  | [] => return []
  | (key, spec) :: rest => do
    let arg ← spec.eval
    let args ← ArgSpec.evalEntries rest
    return (key, arg) :: args

def ObjectSpec.eval : ObjectSpec → Performance (Object Code)
  | .none => return .none
  | .bool value => return .bool value
  | .int value => return .int value
  | .big value => return .big value
  | .float value => return .float value
  | .string value => return .string value
  | .handle spec => do
    let h ← spec.eval
    return .handle h
  | .wrapped spec => do
    let h ← spec.eval
    .ofProgram (Bridge.wrap h)
  | .variable name => Performance.kept name

/-- The object of a specification that may be left out. -/
def ObjectSpec.evalOptional : Option ObjectSpec → Performance (Option (Object Code))
  | .none => return none
  | .some spec => do
    let object ← spec.eval
    return some object

end

def ObjectSpec.evalAll : List ObjectSpec → Performance (List (Object Code))
  | [] => return []
  | spec :: rest => do
    let object ← spec.eval
    let objects ← ObjectSpec.evalAll rest
    return object :: objects

/-! ### Targets of steps -/

def ObjectSpec.evalProxy (target : ObjectSpec) : Performance (Proxy Code) := do
  let object ← target.eval
  Performance.require (.targetNotProxy object.typeName) object.proxy?

/-- The handle behind the proxy or the raw handle that a specification describes. -/
def ObjectSpec.evalHandle (target : ObjectSpec) : Performance Handle := do
  let object ← target.eval
  Performance.require .targetNotHandle object.handle?

def SourceSpec.eval : SourceSpec → Performance (Source Code)
  | .plain text => return .plain text
  | .template parts values => do
    let args ← ArgSpec.evalAll values
    return .template parts args

end Interop.Scenario
