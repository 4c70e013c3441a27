import Interop.Call
/-!
Scopes: host code that runs between the `__enter__` and the `__exit__` of a foreign context manager.

A guard stands for the exit that is still owed. Whichever way a guard's life ends, `__exit__` is
called once; how the host code finished, and whether the exit suppressed its error, is told by the
outcome instead of being raised again.
-/

set_option autoImplicit false

namespace Interop

variable {κ σ α : Type}

/-- How the host code of a scope finished. -/
inductive ScopeOutcome (α : Type)
  | completed (value : α)
  /-- The code failed and the exit suppressed the error. -/
  | handled (error : Error)
  /-- The code failed and the exit did not suppress the error. -/
  | unhandled (error : Error)

namespace ScopeOutcome

/-- The outcome as a result: an unhandled error is raised again, a handled one is gone. -/
def toExcept : ScopeOutcome α → Except Error (Option α)
  | completed value => .ok (some value)
  | handled _ => .ok none
  | unhandled error => .error error

def isCompleted : ScopeOutcome α → Bool
  | completed _ => true
  | _ => false

def isHandled : ScopeOutcome α → Bool
  | handled _ => true
  | _ => false

def isUnhandled : ScopeOutcome α → Bool
  | unhandled _ => true
  | _ => false

end ScopeOutcome

/-- The exit owed to a context manager. -/
structure ScopeGuard (κ : Type) where
  context : Proxy κ
  /-- Whether the exit has been called. -/
  exited : Bool

namespace ScopeGuard

/-- A guard for a proxy whose value has both methods of a context manager. -/
def arm (context : Proxy κ) : Program κ σ (ScopeGuard κ) := do
  if ← context.handle.hasAttr "__enter__" then
    if ← context.handle.hasAttr "__exit__" then
      return ⟨context, false⟩
  Program.fault (.noContextManager context.typeInfo.name)

def enter (guard : ScopeGuard κ) : Program κ σ (Object κ) :=
  guard.context.callMethod "__enter__" []

/-- The arguments of an exit without an error. -/
def quietExit : List (Arg κ) := [.none, .none, .none]

def exitWith (exception : ForeignException) : List (Arg κ) :=
  [.handle exception.excType, .handle exception.value,
    match exception.traceback with
    | some traceback => .handle traceback
    | none => .none]

/-- Calls the exit. From then on it is no longer owed, even if it failed. -/
def exit (guard : ScopeGuard κ) (triple : List (Arg κ)) :
    Interaction κ σ (Except Error (Object κ) × ScopeGuard κ) := do
  let result ← (guard.context.callMethod "__exit__" triple).run
  return (result, { guard with exited := true })

/-- The end of a guard's life: an exit still owed is called, and its failure ignored. -/
def release (guard : ScopeGuard κ) : Interaction κ σ Unit :=
  if guard.exited then return ()
  else do
    let _ ← guard.exit quietExit
    return ()

/-- The exception that stands for an error at the exit: the error's own, else that of a type error
with the same words, else none. -/
def exceptionFor (error : Error) : Program κ σ (Option ForeignException) := do
  match ← (Program.materialize error).attempt with
  | .ok exception => return some exception
  | .error _ =>
    match ← (Program.materialize (.type (.stated error.message))).attempt with
    | .ok exception => return some exception
    | .error _ => return none

/-- Exits with the result of the scoped code and tells the outcome. -/
def conclude (guard : ScopeGuard κ) (result : Except Error α) :
    Interaction κ σ (Except Error (ScopeOutcome α) × ScopeGuard κ) := do
  match result with
  | .ok value =>
    match ← guard.exit quietExit with
    | (.ok _, guard) => return (.ok (.completed value), guard)
    | (.error failure, guard) => return (.error failure, guard)
  | .error error =>
    match ← (exceptionFor error).run with
    | .error failure => return (.error failure, guard)
    | .ok none =>
      match ← guard.exit quietExit with
      | (.ok _, guard) => return (.ok (.unhandled error), guard)
      | (.error failure, guard) => return (.error failure, guard)
    | .ok (some exception) =>
      match ← guard.exit (exitWith exception) with
      | (.ok answer, guard) =>
        return (.ok (if answer.isTruthy then .handled error else .unhandled error), guard)
      | (.error failure, guard) => return (.error failure, guard)

/-- Ends the scope with the result of its code. -/
def finish (guard : ScopeGuard κ) (result : Except Error α) : Program κ σ (ScopeOutcome α) :=
  ExceptT.mk do
    let (outcome, guard) ← guard.conclude result
    guard.release
    return outcome

end ScopeGuard

/-- Runs host code inside a context manager. It fails only if there is no context manager or if the
exit itself fails. -/
def withScope (context : Proxy κ) (body : Object κ → Program κ σ α) :
    Program κ σ (ScopeOutcome α) := do
  let guard ← ScopeGuard.arm context
  let result ← Program.attempt do body (← guard.enter)
  guard.finish result

/-- Runs a callable object inside a context manager. For one that is not callable the exit is still
called before the type error. -/
def withScopeObject (context : Proxy κ) (callback : Object κ) :
    Program κ σ (ScopeOutcome (Object κ)) := do
  let guard ← ScopeGuard.arm context
  if ← callback.isCallable then
    let result ← Program.attempt do callback.call [← guard.enter]
    guard.finish result
  else
    ExceptT.mk do
      let (answer, guard) ← guard.exit ScopeGuard.quietExit
      guard.release
      match answer with
      | .ok _ => return .error (.type (.scopeCallback callback.typeName))
      | .error failure => return .error failure

end Interop
