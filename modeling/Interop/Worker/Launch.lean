import Interop.Json.Writer
import Interop.Worker.Settings
import Interop.Worker.System
/-!
Starting a worker on an artifact, and making sure that a package is installed.
-/

set_option autoImplicit false

namespace Interop.Worker

/-- The error of a program that is not there. -/
def programMissing : Failure := .io "No such file or directory (os error 2)"

/-- A worker and the process behind it. -/
structure Launched where
  ready : Ready
  execution : Execution

/-- Starts a worker on an artifact, with a payload on its input. There is no result as long as the
worker tells no status. -/
def launch (artifact : String) (payload : Json.Value) (settings : Settings) :
    Option (Except Failure Launched) :=
  let (program, args) :=
    match settings.program with
    | some program => (program, [artifact])
    | none => (artifact, [])
  match execute? program args (bytesOf (Json.write payload)) with
  | none => some (.error programMissing)
  | some execution =>
    (start settings.successSignal .written execution.output).map fun start =>
      start.result.map fun ready => ⟨ready, execution⟩

/-- Makes sure that a package is installed, and tells whether the package manager ran for it. -/
def ensurePackage (name : String) (settings : Settings) : Except Failure Bool :=
  if settings.siteDir.any fun directory => pathExists (joinPath directory name) then .ok false
  else
    match settings.packageManager with
    | [] => .error (.settings .noPackageManager)
    | program :: args =>
      match execute? program (args ++ [name]) [] with
      | none => .error programMissing
      | some execution =>
        match execution.ending with
        | .exited 0 => .ok true
        | .exited code => .error (.install name (some code))
        | .signalled | .running => .error (.install name none)

end Interop.Worker
