import Interop.Overview
import Interop.Scenario.Run
/-!
A trial: modules are registered and imported, sources are evaluated, and the bridge is described
before and after.
-/

set_option autoImplicit false

namespace Interop

/-- Modules to register, names to import and sources to evaluate. -/
structure Trial where
  /-- The settings of the bridge; none if they were refused. -/
  settings : Option Settings := some {}
  modules : List (String × Scenario.ValueSpec) := []
  imports : List String := []
  sources : List String := []

namespace Trial

open Json (Value)
open Scenario

def importSteps (trial : Trial) : List Step :=
  trial.imports.map fun name => ⟨.importModule name, none⟩

def evalSteps (trial : Trial) : List Step :=
  trial.sources.map fun text => ⟨.eval (.plain text), none⟩

def reportsOf (steps : List Step) : Run Code Session (List Value) := do
  match ← (runProgram (reportSteps steps)).run with
  | .ok reports => return reports
  | .error _ => return []

def performSteps (trial : Trial) : Run Code Session Value := do
  let before := (← get).describe
  let imports ← reportsOf trial.importSteps
  let answers ← reportsOf trial.evalSteps
  let world ← get
  return .object
    [("before", .string before), ("after", .string world.describe),
      ("imports", .array imports), ("answers", .array answers),
      ("prefix", .string world.settings.interpolationPrefix),
      ("dedent", .bool world.settings.dedent)]

/-- Performs a trial and reports it. The modules are made before the settings are looked at. -/
def perform (trial : Trial) : Run Code Session Value := do
  match ← reported (ValueSpec.evalEntries trial.modules), trial.settings with
  | .error report, _ => return report
  | .ok _, none => return refusedReport
  | .ok modules, some _ =>
    registerModules modules
    trial.performSteps

/-- Runs a trial. It has no result if calls are nested too deep. -/
def run (trial : Trial) : Option Value := do
  let (report, _) ← trial.perform (start { settings := trial.settings.getD {} })
  return report

end Trial
end Interop
