import Interop.Iteration
import Interop.Scenario.Syntax
import Interop.Scope
/-!
The state of a running scenario, and how its requests fail.

A step may fail because the bridge reports an error, or because the scenario asks for something that
is not there. Inside a host function the second kind becomes a type error of the host, so that the
foreign side can see it.
-/

set_option autoImplicit false

namespace Interop.Scenario

/-- The ways in which the runtime departs from the usual one, with their values made. -/
structure Overrides where
  builtins : OrderedMap Handle := .empty
  globals : Option Handle := none
  /-- The value that every binding of a method answers. -/
  bound : Option Handle := none
  /-- Whether methods are left unbound. -/
  leavesUnbound : Bool := false
  /-- Whether running a source answers the source itself. -/
  echoes : Bool := false
  /-- Whether foreign errors have no exception. -/
  refusesForeign : Bool := false
  /-- Whether type errors have no exception. -/
  refusesType : Bool := false

/-- The state that a scenario shares between its steps and its host code. -/
structure Session where
  objects : OrderedMap (Object Code) := .empty
  counters : OrderedMap Nat := .empty
  /-- What was logged, first things first. -/
  log : List String := []
  iterations : OrderedMap Iteration := .empty
  guards : OrderedMap (ScopeGuard Code) := .empty
  overrides : Overrides := {}

/-- What a scenario asks for in vain. -/
inductive RequestFault
  | noVariable (name : String)
  | noIterator (name : String)
  | noGuard (name : String)
  | targetNotProxy (typeName : String)
  | targetNotHandle
  | argumentNotHandle
  | argumentNotProxy
  | bodySucceeded

def RequestFault.message : RequestFault → String
  | noVariable name => "no variable " ++ name
  | noIterator name => "no iterator " ++ name
  | noGuard name => "no guard " ++ name
  | targetNotProxy typeName => "target is a " ++ typeName ++ ", not a proxy"
  | targetNotHandle => "target is not a handle"
  | argumentNotHandle => "argument 0 is not a handle"
  | argumentNotProxy => "argument 0 is not a proxy"
  | bodySucceeded => "body did not fail"

/-- Why a step failed. -/
inductive Failure
  | request (fault : RequestFault)
  | bridge (error : Error)

def Failure.toError : Failure → Error
  | request fault => .type (.stated ("driver: " ++ fault.message))
  | bridge error => error

abbrev HostProgram := Program Code Session

/-- What a scenario performs: a program that may also ask in vain. -/
abbrev Performance := ExceptT Failure (Interaction Code Session)

namespace Performance

variable {α : Type}

def ofProgram (program : HostProgram α) : Performance α :=
  ExceptT.mk do return (← program.run).mapError Failure.bridge

instance : MonadLift HostProgram Performance := ⟨ofProgram⟩

def toProgram (performance : Performance α) : HostProgram α :=
  ExceptT.mk do return (← performance.run).mapError Failure.toError

def refuse (fault : RequestFault) : Performance α := throw (.request fault)

def require (fault : RequestFault) : Option α → Performance α
  | some value => return value
  | none => refuse fault

def session : Performance Session := ExceptT.lift (Interaction.ask .readState)

def change (f : Session → Session) : Performance Unit := do
  let current ← session
  ExceptT.lift (Interaction.ask (.writeState (f current)))

def kept (name : String) : Performance (Object Code) := do
  require (.noVariable name) ((← session).objects.get? name)

end Performance
end Interop.Scenario
