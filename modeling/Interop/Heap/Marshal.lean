import Interop.Heap.Basic
/-!
Marshalling: how an argument from the host becomes a foreign value, and how a foreign value is read
as a primitive. Only integers beyond 64 bits cannot be marshalled.
-/

set_option autoImplicit false

namespace Interop

variable {κ : Type}

namespace Heap

mutual

/-- The foreign value of an argument. A handle stands for itself; everything else is made anew. -/
def marshal : Arg κ → Op κ Handle
  | .none => Op.alloc .none
  | .bool value => Op.alloc (.bool value)
  | .int value => Op.alloc (.int value)
  | .big value =>
    match word? value with
    | some value => Op.alloc (.int value)
    | none => throw (.integerTooLarge value)
  | .float value => Op.alloc (.float value)
  | .string value => Op.alloc (.string value)
  | .list items => do Op.alloc (.list (← marshalAll items))
  | .dict entries => do Op.alloc (.dict (.ofEntries (← marshalEntries entries)))
  | .keywords entries => do Op.alloc (.dict (.ofEntries (← marshalEntries entries)))
  | .handle h => return h
  | .bytes data => Op.alloc (.bytes data)
  | .callback function => Op.alloc (.callback function)

def marshalAll : List (Arg κ) → Op κ (List Handle)
  | [] => return []
  | arg :: rest => do
    let h ← marshal arg
    let handles ← marshalAll rest
    return h :: handles

def marshalEntries : List (String × Arg κ) → Op κ (Entries Handle)
  | [] => return []
  | (key, arg) :: rest => do
    let h ← marshal arg
    let handles ← marshalEntries rest
    return (key, h) :: handles

end

def primitive (heap : Heap κ) (h : Handle) : Except Fault Primitive :=
  match heap.cell? h with
  | none => .error .released
  | some (.stub stub) =>
    match stub.primitive with
    | some primitive => .ok primitive
    | none => .error .stubPrimitive
  | some (.object object) =>
    match object.kind with
    | .bool value => .ok (.bool value)
    | .int value => .ok (.int value)
    | .float value => .ok (.float value)
    | .string value => .ok (.string value)
    | kind => .error (.noPrimitive (heap.typeName kind))

/-- The type object of a value: the class of an instance, else a new builtin type. -/
def typeOf (h : Handle) : Op κ Handle := do
  let heap ← get
  match heap.cell? h with
  | none => throw .released
  | some (.stub stub) => return stub.typeObject
  | some (.object object) =>
    match object.kind with
    | .instanceOf cls => return cls
    | kind => Op.alloc (.type ⟨"builtins", heap.typeName kind⟩)

/-- The value that a blueprint describes, put on the heap. -/
def create (heap : Heap κ) : Blueprint κ → Handle × Heap κ
  | .none => heap.add .none
  | .bool value => heap.add (.bool value)
  | .int value => heap.add (.int value)
  | .float value => heap.add (.float value)
  | .string value => heap.add (.string value)
  | .bytes data => heap.add (.bytes data)
  | .list items => heap.add (.list items)
  | .tuple items => heap.add (.tuple items)
  | .dict entries => heap.add (.dict (.ofEntries entries))
  | .iterator items => heap.add (.iterator items)
  | .function name code => heap.add (.function name (.host code))
  | .type info attributes => heap.add (.type info) (.ofEntries attributes)
  | .module name attributes => heap.add (.module name) (.ofEntries attributes)
  | .stub stub => (heap.fresh, heap.push (.stub stub))

end Heap
end Interop
