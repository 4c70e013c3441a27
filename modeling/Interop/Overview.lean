import Interop.World
/-!
A bridge and its runtime as one text: the shared namespace, the builtins, the registered modules,
the settings, and whether the registry has been loaded.
-/

set_option autoImplicit false

namespace Interop

variable {κ σ : Type}

/-- A mapping from names to values as it is shown in a description. -/
def Heap.describeEntries (heap : Heap κ) (entries : Entries Handle) : String :=
  "\x7b" ++ Text.commaSeparated
    (entries.map fun entry => Text.quoted entry.1 ++ ": " ++ heap.describe entry.2) ++ "\x7d"

/-- The runtime as it is shown in a description. -/
def World.describeRuntime (world : World κ σ) : String :=
  "MemoryRuntime \x7b globals: " ++ world.heap.describe world.globals ++
    ", builtins: " ++ world.heap.describeEntries world.builtins.entries ++
    ", modules: RefCell \x7b value: " ++ world.heap.describeEntries world.modules.entries ++
    " \x7d \x7d"

def Settings.describe (settings : Settings) : String :=
  "BridgeOptions \x7b interpolation_prefix: " ++ Text.quoted settings.interpolationPrefix ++
    ", dedent: " ++ (if settings.dedent then "true" else "false") ++ " \x7d"

/-- The bridge as it is shown in a description. -/
def World.describe (world : World κ σ) : String :=
  "Bridge \x7b runtime: " ++ world.describeRuntime ++ ", options: " ++ world.settings.describe ++
    ", registry_loaded: " ++ (if 0 < world.registryLoads then "true" else "false") ++ " \x7d"

end Interop
