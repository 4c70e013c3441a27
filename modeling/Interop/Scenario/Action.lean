import Interop.Construct
import Interop.Scenario.Report
/-!
What each action of a scenario does and reports.
-/

set_option autoImplicit false

namespace Interop.Scenario

open Json (Value)
open Performance (ofProgram)

/-- The result of an action: its report, and the object that can be kept. -/
structure Outcome where
  report : Value
  object : Option (Object Code) := none

namespace Outcome

/-- The outcome of an action that answers an object. -/
def ofObject (object : Object Code) : Performance Outcome := do
  let report ← ofProgram (reportObject object)
  return ⟨report, some object⟩

/-- The outcome of an action that answers a raw handle. -/
def ofHandle (h : Handle) : Performance Outcome := ofObject (.handle h)

/-- The outcome of an action that may have no answer. -/
def ofOptional (missing : Value) : Option (Object Code) → Performance Outcome
  | some object => ofObject object
  | none => return ⟨missing, none⟩

/-- The outcome of an action that answers no object. -/
def ofValue (report : Value) : Performance Outcome := return ⟨report, none⟩

/-- The outcome of an action that answers a single field. -/
def ofField (name : String) (value : Value) : Performance Outcome :=
  ofValue (.object [(name, value)])

def ofStatus (status : Status) : Performance Outcome :=
  ofValue (.object [("status", .int status.code), ("ok", .bool status.isOk)])

end Outcome

/-! ### Objects -/

def callMember (p : Proxy Code) (name : String) (args : List (Object Code)) :
    HostProgram (Option (Object Code)) := do
  match ← p.get name with
  | none => return none
  | some member => return some (← member.call args)

def ClassSpec.toHostClass (cls : ClassSpec) : HostClass Code :=
  ⟨cls.name, cls.methods.map fun (name, body) => ⟨name, .host (.behaviour body)⟩⟩

/-! ### Iteration -/

/-- Begins an iteration. A lenient one begins in any case, and its first item may be an error. -/
def beginIteration (p : Proxy Code) (lenient : Bool) : HostProgram Iteration :=
  if lenient then Iteration.start p else Iteration.start? p

def reportCursor (iteration : Iteration) : Value := optionalNumber iteration.cursor?

/-- The reports of the items of an iteration, at most `limit` of them. Each item is reported before
the next one is asked for. -/
def reportItems : Nat → Iteration → HostProgram (List Value)
  | 0, _ => return []
  | limit + 1, iteration => do
    match ← ExceptT.lift iteration.next with
    | (none, _) => return []
    | (some item, rest) =>
      let report ← reportResult item
      let reports ← reportItems limit rest
      return report :: reports

def stepIteration (name : String) : Performance Outcome := do
  let current ← Performance.session
  let iteration ← Performance.require (.noIterator name) (current.iterations.get? name)
  let (item, after) ← ofProgram (ExceptT.lift iteration.next)
  Performance.change fun session =>
    { session with iterations := session.iterations.insert name after }
  let report ←
    match item with
    | none => pure finished
    | some result => ofProgram (reportResult result)
  let object :=
    match item with
    | some (.ok object) => some object
    | _ => none
  return ⟨.object [("item", report), ("cursor", reportCursor after)], object⟩

/-! ### Scopes -/

def runScope (context : Proxy Code) : ScopeBody → Performance (ScopeOutcome (Object Code))
  | .behaviour body => ofProgram (withScope context fun value => body.run [value])
  | .object callback => do
    let object ← callback.eval
    ofProgram (withScopeObject context object)

def guardNamed (name : String) : Performance (ScopeGuard Code) := do
  let current ← Performance.session
  Performance.require (.noGuard name) (current.guards.get? name)

def forgetGuard (name : String) : Performance Unit :=
  Performance.change fun session => { session with guards := session.guards.erase name }

/-- Arms a guard; one of the same name ends its life. -/
def armGuard (context : Proxy Code) (name : String) : Performance Unit := do
  let guard ← ofProgram (ScopeGuard.arm context)
  let former := (← Performance.session).guards.get? name
  Performance.change fun session => { session with guards := session.guards.insert name guard }
  match former with
  | some guard => ofProgram (ExceptT.lift guard.release)
  | none => return ()

/-! ### Actions -/

def Action.perform : Action → Performance Outcome
  | .object value => do Outcome.ofObject (← value.eval)
  | .handle value => do Outcome.ofHandle (← value.eval)
  | .wrap value => do
    let h ← value.eval
    Outcome.ofObject (← ofProgram (Bridge.wrap h))
  | .wrapOptional value => do
    let h ← ValueSpec.evalOptional value
    Outcome.ofObject (← ofProgram (Bridge.wrapOptional h))
  | .wrapAll values => do
    let handles ← ValueSpec.evalAll values
    let objects ← ofProgram (Bridge.wrapAll handles)
    Outcome.ofField "list" (.array (← ofProgram (reportObjects objects)))
  | .typeInfo target => do
    let h ← target.evalHandle
    Outcome.ofValue (reportTypeInfo (← ofProgram h.typeInfo))
  | .info target => do
    let object ← target.eval
    Outcome.ofValue (← ofProgram (reportInfo object))
  | .equal a b => do
    let left ← a.eval
    let right ← b.eval
    Outcome.ofField "equal" (.bool (left.equals right))
  | .drop name => do
    let existed := (← Performance.session).objects.contains name
    Performance.change fun session => { session with objects := session.objects.erase name }
    Outcome.ofField "dropped" (.bool existed)
  | .arg value => do
    let arg ← value.eval
    let description ← ofProgram (describeArg arg)
    Outcome.ofValue
      (.object [("debug", .string description), ("is_handle", .bool arg.handle?.isSome)])
  | .marshal value => do
    let arg ← value.eval
    Outcome.ofHandle (← ofProgram (Program.marshal arg))
  | .splitKeywords args => do
    let (positional, keywords) := Arg.splitKeywords (← ArgSpec.evalAll args)
    Outcome.ofValue (← ofProgram (reportSplit positional keywords))
  | .bytesArg text => do
    Outcome.ofField "debug" (.string (← ofProgram (describeArg (Arg.bytesOf text))))
  | .importModule name => do Outcome.ofObject (← ofProgram (Bridge.importModule name))
  | .builtin name => do Outcome.ofObject (← ofProgram (Bridge.builtin name))
  | .globals => do Outcome.ofObject (← ofProgram Bridge.globals)
  | .ownGlobal name => do
    let value ← ofProgram (Program.ask (.ownGlobal name))
    Outcome.ofOptional absent (value.map .handle)
  | .eval source => do
    let source ← source.eval
    Outcome.ofObject (← ofProgram (Bridge.evaluate source))
  | .materialize body => do
    let error ← body.failure
    let exception ← ofProgram (Program.materialize error)
    Outcome.ofValue (← ofProgram (reportError (.foreign exception)))
  | .bind target name code => do
    let h ← target.evalHandle
    let bound ← ofProgram (Program.bindMethod ⟨name, .host code⟩ h)
    Outcome.ofHandle bound
  | .errorInfo body => do
    let error ← body.failure
    Outcome.ofValue (← ofProgram (reportErrorInfo error))
  | .status value => Outcome.ofValue (reportStatus value)
  | .exception kind message => do
    let exception ← ofProgram (Program.ask (.exception kind message))
    let report ← ofProgram (reportError (.foreign exception))
    return ⟨report, some (.handle exception.value)⟩
  | .log => do
    Outcome.ofField "log" (.array ((← Performance.session).log.map .string))
  | .registry types => do
    let registry ← ofProgram Program.registry
    let has (key : DelegatorKey) : Value := .bool (registry.get? key).isSome
    Outcome.ofValue <| .object
      [("len", .int registry.size), ("is_empty", .bool (registry.size == 0)),
        ("callee", has .callee), ("default", has .default),
        ("types", .array (types.map fun info => has (.type info)))]
  | .buildMembers key target => do
    let registry ← ofProgram Program.registry
    match registry.get? key with
    | none => Outcome.ofValue absent
    | some source =>
      let h ← target.evalHandle
      let members ← ofProgram (source.members h)
      Outcome.ofField "members" (.array (← ofProgram (reportMembers members)))
  | .delegator key => do
    let registry ← ofProgram Program.registry
    let shown := (registry.get? key).map fun _ => "Delegator(..)"
    Outcome.ofField "debug" (Value.ofOptionalString shown)
  | .capability name =>
    Outcome.ofField "capability" <|
      match Capability.ofMemberName? name with
      | some c =>
        .array [.string c.describe, .string c.name, .string c.memberName, .string c.name]
      | none => .null
  | .get target name => do
    let p ← target.evalProxy
    Outcome.ofOptional absent (← ofProgram (p.get name))
  | .set target name value => do
    let p ← target.evalProxy
    let arg ← value.eval
    Outcome.ofField "set" (.bool (← ofProgram (p.set name arg)))
  | .call target args => do
    let p ← target.evalProxy
    let args ← ArgSpec.evalAll args
    Outcome.ofObject (← ofProgram (p.call args))
  | .callObject target args => do
    let object ← target.eval
    let args ← ObjectSpec.evalAll args
    Outcome.ofObject (← ofProgram (object.call args))
  | .callMember target name args => do
    let p ← target.evalProxy
    let args ← ObjectSpec.evalAll args
    Outcome.ofOptional absent (← ofProgram (Scenario.callMember p name args))
  | .callMethod target name args => do
    let p ← target.evalProxy
    let args ← ArgSpec.evalAll args
    Outcome.ofObject (← ofProgram (p.callMethod name args))
  | .construct target cls => do
    let p ← target.evalProxy
    Outcome.ofObject (← ofProgram (p.construct cls.toHostClass))
  | .dispatch target values body => do
    let _ ← target.evalProxy
    let handles ← ValueSpec.evalAll values
    Outcome.ofObject (← ofProgram (Proxy.dispatch (fun args => body.run args) handles))
  | .toStr target => do
    let p ← target.evalProxy
    Outcome.ofField "str" (.string (← ofProgram p.handle.text))
  | .slice target start stop step => do
    let p ← target.evalProxy
    Outcome.ofObject (← ofProgram (p.slice start stop step))
  | .length target => do
    let p ← target.evalProxy
    Outcome.ofField "len" (.int (← ofProgram p.length))
  | .isEmpty target => do
    let p ← target.evalProxy
    Outcome.ofField "is_empty" (.bool (← ofProgram p.isEmpty))
  | .invoke target args => do
    let h ← target.evalHandle
    let args ← ArgSpec.evalAll args
    Outcome.ofHandle (← ofProgram (h.invoke args))
  | .hash target => do
    let h ← target.evalHandle
    let value ← ofProgram h.hash
    Outcome.ofField "hash" (.string (toString value.toInt))
  | .hasAttr target name => do
    let h ← target.evalHandle
    Outcome.ofField "has" (.bool (← ofProgram (h.hasAttr name)))
  | .getAttr target name => do
    let h ← target.evalHandle
    Outcome.ofHandle (← ofProgram (h.getAttr name))
  | .setAttr target name value => do
    let h ← target.evalHandle
    let arg ← value.eval
    Outcome.ofStatus (← ofProgram (h.setAttr name arg))
  | .getItem target key => do
    let h ← target.evalHandle
    let k ← key.eval
    Outcome.ofHandle (← ofProgram (h.getItem k))
  | .setItem target key value => do
    let h ← target.evalHandle
    let k ← key.eval
    let arg ← value.eval
    Outcome.ofStatus (← ofProgram (h.setItem k arg))
  | .next target => do
    let h ← target.evalHandle
    Outcome.ofOptional finished ((← ofProgram h.next).map .handle)
  | .primitive target => do
    let h ← target.evalHandle
    let value ← ofProgram h.primitive
    Outcome.ofValue (← ofProgram (reportObject (.ofPrimitive value)))
  | .probe target => do
    let h ← target.evalHandle
    Outcome.ofValue (← ofProgram (reportProbe h))
  | .iterate target name lenient => do
    let p ← target.evalProxy
    let iteration ← ofProgram (beginIteration p lenient)
    Performance.change fun session =>
      { session with iterations := session.iterations.insert name iteration }
    Outcome.ofField "cursor" (reportCursor iteration)
  | .iterateNext name => stepIteration name
  | .iterateAll target lenient limit => do
    let p ← target.evalProxy
    let iteration ← ofProgram (beginIteration p lenient)
    Outcome.ofField "items" (.array (← ofProgram (reportItems limit iteration)))
  | .scope target body => do
    let p ← target.evalProxy
    let outcome ← runScope p body
    Outcome.ofValue (← ofProgram (reportOutcome outcome))
  | .guardNew target name => do
    let p ← target.evalProxy
    armGuard p name
    Outcome.ofField "armed" (.bool true)
  | .guardEnter name => do
    let guard ← guardNamed name
    Outcome.ofObject (← ofProgram guard.enter)
  | .guardFinish name body => do
    let guard ← guardNamed name
    forgetGuard name
    let result ← ofProgram (body.run []).attempt
    let outcome ← ofProgram (guard.finish result)
    Outcome.ofValue (← ofProgram (reportOutcome outcome))
  | .guardDrop name => do
    let guard ← guardNamed name
    forgetGuard name
    ofProgram (ExceptT.lift guard.release)
    Outcome.ofField "dropped" (.bool true)

def keep (name : String) (object : Object Code) : Performance Unit :=
  Performance.change fun session =>
    { session with objects := session.objects.insert name object }

/-- Performs a step, keeps its object, and gives its report. -/
def Step.perform (step : Step) : Performance Value := do
  let outcome ← step.action.perform
  match step.keptAs, outcome.object with
  | some name, some object => keep name object
  | _, _ => pure ()
  return outcome.report

/-- Performs a step and gives its report, which tells the failure if there is one. -/
def Step.report (step : Step) : HostProgram Value :=
  ExceptT.mk do
    match ← step.perform.run with
    | .ok report => return .ok report
    | .error failure => (reportFailure failure).run

/-- The reports of steps, in order; a failed step does not stop the others. -/
def reportSteps : List Step → HostProgram (List Value)
  | [] => return []
  | step :: rest => do
    let report ← step.report
    let reports ← reportSteps rest
    return report :: reports

end Interop.Scenario
