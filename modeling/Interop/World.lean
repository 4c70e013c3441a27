import Interop.Heap.Native
import Interop.Heap.Attribute
import Interop.Heap.Hash
import Interop.Interaction
/-!
The state that a bridge runs in, and computations over it.

A computation may fail with an error of the bridge, and keeps the state that it reached; and it may
not finish at all, because host code and foreign code can call each other without end.
-/

set_option autoImplicit false

namespace Interop

/-- The state that a bridge runs in: the foreign runtime, the bridge's own, and what host code
shares. -/
structure World (κ σ : Type) where
  heap : Heap κ
  /-- The shared global namespace. -/
  globals : Handle
  builtins : OrderedMap Handle
  modules : OrderedMap Handle
  settings : Settings
  /-- What the registry is when it is loaded. -/
  loader : Registry κ
  /-- How many times the registry was loaded. -/
  registryLoads : Nat
  state : σ

/-- A computation that always succeeds if it finishes. -/
abbrev Run (κ σ : Type) := StateT (World κ σ) Option

/-- A computation that may fail with an error of the bridge. -/
abbrev Exec (κ σ : Type) := ExceptT Error (Run κ σ)

variable {κ σ α : Type}

namespace Run

def diverge : Run κ σ α := fun _ => none

def onHeap (f : Heap κ → α × Heap κ) : Run κ σ α := fun world =>
  let (a, heap) := f world.heap
  some (a, { world with heap := heap })

def readHeap (f : Heap κ → α) : Run κ σ α := fun world => some (f world.heap, world)

def raise (fault : Fault) : Run κ σ Error := onHeap (·.raise fault)

/-- The result of an operation on the heap; a fault is raised. -/
def attempt (op : Heap.Op κ α) : Run κ σ (Except Error α) := fun world =>
  match op.run world.heap with
  | .ok (a, heap) => some (.ok a, { world with heap := heap })
  | .error fault =>
    let (error, heap) := world.heap.raise fault
    some (.error error, { world with heap := heap })

/-- The result of a check of the heap; a fault is raised. -/
def check (f : Heap κ → Except Fault α) : Run κ σ (Except Error α) := attempt (Heap.Op.check f)

end Run

namespace Exec

def ofOp (op : Heap.Op κ α) : Exec κ σ α := ExceptT.mk (Run.attempt op)

def readHeap (f : Heap κ → α) : Exec κ σ α := ExceptT.lift (Run.readHeap f)

def fault (f : Fault) : Exec κ σ α := ofOp (throw f)

end Exec

namespace World

/-- A world with a fresh runtime: empty globals and modules, and the builtins that evaluated code
finds by name. -/
def start (settings : Settings) (loader : Registry κ) (state : σ) : World κ σ :=
  let (globals, heap) := (Heap.empty : Heap κ).add (.dict .empty)
  let functions : List Builtin := [.len, .slice, .type, .iter, .str]
  let (builtins, heap) := functions.foldl
    (fun (done : OrderedMap Handle × Heap κ) builtin =>
      let (h, heap) := done.2.add (.function builtin.name (.builtin builtin))
      (done.1.insert builtin.name h, heap))
    (OrderedMap.empty, heap)
  let (object, heap) := heap.add (.type ⟨"builtins", "object"⟩)
  { heap := heap
    globals := globals
    builtins := builtins.insert "object" object
    modules := .empty
    settings := settings
    loader := loader
    registryLoads := 0
    state := state }

/-- The value that a name is bound to in the runtime's own global namespace. -/
def global? (world : World κ σ) (name : String) : Option Handle :=
  match world.heap.item world.globals (.string name) with
  | .ok (.object value) => some value
  | _ => none

end World
end Interop
