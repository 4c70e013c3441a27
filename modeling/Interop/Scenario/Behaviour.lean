import Interop.Display
import Interop.Machine
import Interop.Scenario.Evaluation
/-!
What the functions of a scenario's host do, and with that the meaning of its host code.
-/

set_option autoImplicit false

namespace Interop.Scenario

/-! ### Arguments -/

/-- The text of an argument: a raw handle's own, else the object in words. -/
def textOf : Object Code → HostProgram String
  | .handle h => h.text
  | other => other.display

def textsOf : List (Object Code) → HostProgram (List String)
  | [] => return []
  | arg :: rest => do
    let text ← textOf arg
    let texts ← textsOf rest
    return text :: texts

def keywordTexts : Entries Handle → HostProgram (List String)
  | [] => return []
  | (key, value) :: rest => do
    let text ← value.text
    let texts ← keywordTexts rest
    return (key ++ "=" ++ text) :: texts

def argumentTexts (args : List (Object Code)) (keywords : OrderedMap Handle) :
    HostProgram (List String) := do
  let texts ← textsOf args
  let named ← keywordTexts keywords.entries
  return texts ++ named

/-- The argument at an index; a missing one raises an exception. -/
def argument (args : List (Object Code)) (index : Nat) : HostProgram (Object Code) :=
  match args[index]? with
  | some arg => return arg
  | none => Program.raise "IndexError" ("missing argument " ++ toString index)

def firstHandle (args : List (Object Code)) : Performance Handle := do
  let first ← Performance.ofProgram (argument args 0)
  Performance.require .argumentNotHandle first.handle?

def handlesOf : List (Object Code) → HostProgram (List Handle)
  | [] => return []
  | object :: rest => do
    let h ← Program.marshal object.toArg
    let handles ← handlesOf rest
    return h :: handles

/-! ### Behaviours -/

def writeLog (text : String) (args : List (Object Code)) (keywords : OrderedMap Handle) :
    Performance Unit := do
  let texts ← Performance.ofProgram (argumentTexts args keywords)
  Performance.change fun session =>
    { session with log := session.log ++ [text ++ "(" ++ " | ".intercalate texts ++ ")"] }

def Behaviour.perform (args : List (Object Code)) (keywords : OrderedMap Handle) :
    Behaviour → Performance (Object Code)
  | .give value => value.eval
  | .arg index => .ofProgram (argument args index)
  | .args => do
    let handles ← Performance.ofProgram (handlesOf args)
    return .handle (← make (.list handles))
  | .keywords => do return .handle (← make (.dict keywords.entries))
  | .describe => do
    let texts ← Performance.ofProgram (argumentTexts args keywords)
    return .string (", ".intercalate texts)
  | .kinds => return .string (",".intercalate (args.map Object.typeName))
  | .raise kind message => .ofProgram (Program.raise kind message)
  | .typeError message => .ofProgram (Program.fault (.stated message))
  | .invoke => do
    let h ← firstHandle args
    let named : List (Arg Code) :=
      if keywords.isEmpty then []
      else [.keywords (keywords.entries.map fun entry => (entry.1, .handle entry.2))]
    return .handle (← Performance.ofProgram (h.invoke ((args.drop 1).map Object.toArg ++ named)))
  | .store name index => do
    let h ← firstHandle args
    let value ← Performance.ofProgram (argument args index)
    let status ← Performance.ofProgram (h.setAttr name value.toArg)
    if status.isOk then return .none
    else .ofProgram (Program.fault (.stated "store failed"))
  | .attr name => do
    let h ← firstHandle args
    return .handle (← Performance.ofProgram (h.getAttr name))
  | .get name => do
    let first ← Performance.ofProgram (argument args 0)
    let p ← Performance.require .argumentNotProxy first.proxy?
    return (← Performance.ofProgram (p.get name)).getD .none
  | .count name => do
    let count := ((← Performance.session).counters.get? name).getD 0 + 1
    Performance.change fun session =>
      { session with counters := session.counters.insert name count }
    return .int (Int64.ofNat count)
  | .eval source => .ofProgram (Bridge.evaluate (.plain source))
  | .log text => do
    writeLog text args keywords
    return .none
  | .logThen text next => do
    writeLog text args keywords
    next.perform args keywords

def Behaviour.run (body : Behaviour) (args : List (Object Code))
    (keywords : OrderedMap Handle := .empty) : HostProgram (Object Code) :=
  (body.perform args keywords).toProgram

/-- The error that a behaviour without arguments fails with. -/
def Behaviour.failure (body : Behaviour) : Performance Error := do
  let result ← Performance.ofProgram (body.run []).attempt
  match result with
  | .error error => return error
  | .ok _ => Performance.refuse .bodySucceeded

/-! ### Host code -/

def MemberSpec.eval (name : String) : MemberSpec → Performance (Member Code)
  | .value spec => do return .value (← spec.eval)
  | .method body => return .method ⟨name, .host (.behaviour body)⟩

def MemberSpec.evalAll : List (String × MemberSpec) → Performance (Entries (Member Code))
  | [] => return []
  | (name, spec) :: rest => do
    let member ← spec.eval name
    let members ← MemberSpec.evalAll rest
    return (name, member) :: members

def DelegatorSpec.run : DelegatorSpec → HostProgram (Entries (Member Code))
  | .members specs => do return Entries.normalize (← (MemberSpec.evalAll specs).toProgram)
  | .failing body => do
    let error ← body.failure.toProgram
    throw error

/-- The answer of host code to a call. Code of another kind answers nothing. -/
def Code.run (code : Code) (args : List (Object Code)) (keywords : OrderedMap Handle) :
    HostProgram (Arg Code) :=
  match code with
  | .behaviour body => do return (← body.run args keywords).toArg
  | .answer spec => spec.eval.toProgram
  | .delegator _ => return .none

def host : Host Code Session where
  function code args keywords := do Program.marshal (← code.run (args.map .handle) keywords)
  callback code args := code.run (args.map .handle) .empty
  method code receiver args :=
    match code with
    | .behaviour body => body.run (.proxy receiver :: args)
    | _ => return .none
  members code _ :=
    match code with
    | .delegator spec => spec.run
    | _ => return []

end Interop.Scenario
