import Interop.Scenario.Action
/-!
Running a scenario: the runtime with its overrides, the set-up in its order, and the steps.
-/

set_option autoImplicit false

namespace Interop.Scenario

open Json (Value)

/-! ### The runtime -/

/-- Answers requests as the overrides want it, and all others as usual. -/
def overridden (usual : Handler Code Session) : Handler Code Session
  | .builtin name => do
    match (← get).state.overrides.builtins.get? name with
    | some h => return .ok h
    | none => usual (.builtin name)
  | .globals => do
    match (← get).state.overrides.globals with
    | some h => return h
    | none => usual .globals
  | .exec source globals locals => do
    if (← get).state.overrides.echoes then
      return .ok (← Run.onHeap (·.create (.string source)))
    else usual (.exec source globals locals)
  | .bindMethod function receiver => do
    let overrides := (← get).state.overrides
    match overrides.bound with
    | some h => return .ok h
    | none =>
      if overrides.leavesUnbound then usual (.marshal (.callback function))
      else usual (.bindMethod function receiver)
  | .materialize error => do
    let overrides := (← get).state.overrides
    let refused := if error.isTypeError then overrides.refusesType else overrides.refusesForeign
    if refused then return .error (.type (.stated "cannot materialize"))
    else usual (.materialize error)
  | request => usual request

/-- How deep calls between the two sides may be nested. A run that nests them deeper has no
result. -/
def callDepth : Nat := 1000000

/-- The machine that a scenario runs on. -/
def answer : Handler Code Session :=
  Machine.tower (fun below => overridden (Machine.layer host below)) callDepth

def runProgram {α : Type} (program : HostProgram α) : Exec Code Session α :=
  Machine.runProgram answer program

/-! ### Set-up -/

def RegistrySpec.toRegistry (spec : RegistrySpec) : Registry Code :=
  let start : Registry Code := if spec.standard then .standard else .empty
  let typed := spec.types.foldl
    (fun registry (info, delegator) => registry.register info (.host (.delegator delegator))) start
  let own : DelegatorSpec → Delegator Code := fun delegator => .host (.delegator delegator)
  { typed with
    callee := (spec.callee.map own) <|> typed.callee
    default := (spec.default.map own) <|> typed.default }

def RuntimeSpec.flags (spec : RuntimeSpec) : Overrides :=
  { leavesUnbound := spec.leavesUnbound
    echoes := spec.echoes
    refusesForeign := spec.refusesForeign
    refusesType := spec.refusesType }

def override (f : Overrides → Overrides) : Performance Unit :=
  Performance.change fun session => { session with overrides := f session.overrides }

def overrideBuiltins : List (String × ValueSpec) → Performance Unit
  | [] => return ()
  | (name, spec) :: rest => do
    let h ← spec.eval
    override fun overrides => { overrides with builtins := overrides.builtins.insert name h }
    overrideBuiltins rest

/-- Makes the values of the overrides, and gives those of the modules. -/
def Setup.perform (setup : Setup) : Performance (Entries Handle) := do
  overrideBuiltins setup.runtime.builtins
  let globals ← ValueSpec.evalOptional setup.runtime.globals
  override fun overrides => { overrides with globals := globals }
  let bound ← ValueSpec.evalOptional setup.runtime.bound
  override fun overrides => { overrides with bound := bound }
  ValueSpec.evalEntries setup.modules

def registerModules (modules : Entries Handle) : Run Code Session Unit :=
  modify fun world => { world with modules := world.modules.merge modules }

/-- The result of a program whose failure is told as a report. -/
def reported {α : Type} (performance : Performance α) : Run Code Session (Except Value α) := do
  match ← performance.run.run answer with
  | .ok value => return .ok value
  | .error failure =>
    match ← (runProgram (reportFailure failure)).run with
    | .ok report => return .error report
    | .error _ => return .error .null

def start (setup : Setup) : World Code Session :=
  World.start setup.settings setup.registry.toRegistry { overrides := setup.runtime.flags }

end Scenario

/-! ### Scenarios -/

/-- What a scenario reports. -/
structure Scenario.Account where
  /-- The report of each step. -/
  steps : List Json.Value
  log : List String
  /-- How many times the registry was loaded. -/
  registryLoads : Nat

namespace Scenario

open Json (Value)

/-- Sets up and performs all steps; a failure of the set-up is told instead of them. -/
def performAll (scenario : Scenario) : Run Code Session (Except Value (List Value)) := do
  match ← reported scenario.setup.perform with
  | .error report => return .error report
  | .ok modules =>
    registerModules modules
    match ← (runProgram (reportSteps scenario.steps)).run with
    | .ok reports => return .ok reports
    | .error _ => return .ok []

/-- Runs a scenario. It has no result if calls are nested too deep. -/
def run (scenario : Scenario) : Option (Except Value Account) := do
  let (result, world) ← scenario.performAll (start scenario.setup)
  return result.map fun reports => ⟨reports, world.state.log, world.registryLoads⟩

end Scenario
end Interop
