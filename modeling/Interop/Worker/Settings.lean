import Interop.Json.Record
import Interop.Json.Writer
/-!
The settings for starting workers and installing packages.
-/

set_option autoImplicit false

namespace Interop.Worker

/-- The settings for starting workers and installing packages. -/
structure Settings where
  /-- What runs the artifact; without it the artifact is run itself. -/
  program : Option String := none
  /-- The status by which a worker tells that it is ready. -/
  successSignal : Int64 := 0
  /-- The command that installs a package, whose name comes behind it. -/
  packageManager : List String := ["pip", "install"]
  /-- Where installed packages are. -/
  siteDir : Option String := none
  deriving DecidableEq

namespace Settings

/-- The settings that a JSON text gives; missing ones are the usual ones. -/
def ofJson? (text : String) : Option Settings := do
  let fields ←
    Json.readRecord ["program", "success_signal", "package_manager", "site_dir"] text
  let usual : Settings := {}
  return {
    program := ← Json.fieldOr usual.program Json.Value.optionalString? fields "program"
    successSignal := ← Json.fieldOr usual.successSignal Json.Value.word? fields "success_signal"
    packageManager :=
      ← Json.fieldOr usual.packageManager Json.Value.strings? fields "package_manager"
    siteDir := ← Json.fieldOr usual.siteDir Json.Value.optionalString? fields "site_dir" }

def toJson (settings : Settings) : Json.Value :=
  .object
    [("program", Json.Value.ofOptionalString settings.program),
      ("success_signal", .int settings.successSignal.toInt),
      ("package_manager", .array (settings.packageManager.map .string)),
      ("site_dir", Json.Value.ofOptionalString settings.siteDir)]

end Settings
end Interop.Worker
