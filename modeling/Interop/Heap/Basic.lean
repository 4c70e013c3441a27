import Interop.Blueprint
import Interop.Heap.Fault
/-!
The heap of the foreign runtime: its objects, the cells that hold them, and the two ways in which a
heap changes, by a new cell at the end and by a new content of a cell.
-/

set_option autoImplicit false

namespace Interop

/-- A function of the runtime itself that evaluated code finds by name. -/
inductive Builtin
  | len
  | slice
  | type
  | iter
  | str
  deriving DecidableEq

def Builtin.name : Builtin → String
  | len => "len"
  | slice => "slice"
  | type => "type"
  | iter => "iter"
  | str => "str"

/-- A method that lists or dicts have of their own. -/
inductive ContainerMethod
  | copy
  | keys
  | values
  | items
  | get
  | append
  | pop
  deriving DecidableEq

namespace ContainerMethod

def name : ContainerMethod → String
  | copy => "copy"
  | keys => "keys"
  | values => "values"
  | items => "items"
  | get => "get"
  | append => "append"
  | pop => "pop"

def ofDict? (name : String) : Option ContainerMethod :=
  [copy, keys, values, items, get].find? (·.name == name)

def ofList? (name : String) : Option ContainerMethod :=
  [append, copy, pop].find? (·.name == name)

end ContainerMethod

/-- What a native function runs. -/
inductive NativeCode (κ : Type)
  | builtin (builtin : Builtin)
  | container (method : ContainerMethod)
  /-- The initializer that an instance has if its class defines none. -/
  | initializer
  | host (code : κ)

/-- What an object of the runtime is. -/
inductive Kind (κ : Type)
  | none
  | bool (value : Bool)
  | int (value : Int64)
  | float (value : Binary64)
  | string (value : String)
  | bytes (data : List UInt8)
  | list (items : List Handle)
  | tuple (items : List Handle)
  | dict (entries : OrderedMap Handle)
  /-- The items that are still to come. -/
  | iterator (items : List Handle)
  | slice (start stop step : Option Int64)
  | type (info : TypeInfo)
  | instanceOf (cls : Handle)
  | function (name : String) (code : NativeCode κ)
  | boundMethod (receiver : Handle) (name : String) (code : NativeCode κ)
  | callback (function : Callback κ)
  /-- A host function bound to a receiver. -/
  | hostMethod (receiver : Handle) (function : Callback κ)
  | module (name : String)

/-- An object of the runtime: what it is, and the attributes that were set on it. -/
structure HeapObject (κ : Type) where
  kind : Kind κ
  attributes : OrderedMap Handle := .empty

/-- The content of a cell: an object of the runtime, or a stub. -/
inductive Cell (κ : Type)
  | object (object : HeapObject κ)
  | stub (stub : Stub κ)

/-- The cells of all values, each at its address. -/
structure Heap (κ : Type) where
  cells : Array (Cell κ)

namespace Heap

variable {κ α β : Type}

def empty : Heap κ := ⟨#[]⟩

def cell? (heap : Heap κ) (h : Handle) : Option (Cell κ) := heap.cells[h.address]?

/-- The object of the runtime behind a handle, if it is one. -/
def object? (heap : Heap κ) (h : Handle) : Option (HeapObject κ) :=
  match heap.cell? h with
  | some (.object object) => some object
  | _ => none

/-- What the object behind a handle is, if it is one of the runtime. -/
def kind? (heap : Heap κ) (h : Handle) : Option (Kind κ) := (heap.object? h).map (·.kind)

def fresh (heap : Heap κ) : Handle := ⟨heap.cells.size⟩

def push (heap : Heap κ) (cell : Cell κ) : Heap κ := ⟨heap.cells.push cell⟩

/-- The heap with a new content in an existing cell. -/
def write (heap : Heap κ) (h : Handle) (cell : Cell κ) : Heap κ :=
  ⟨heap.cells.setIfInBounds h.address cell⟩

/-! ### Reads after changes -/

theorem cell?_push (heap : Heap κ) (cell : Cell κ) (h : Handle) :
    (heap.push cell).cell? h = if h = heap.fresh then some cell else heap.cell? h := by
  cases h
  simp [cell?, push, fresh, Array.getElem?_push]

theorem cell?_write (heap : Heap κ) (h k : Handle) (cell : Cell κ) :
    (heap.write h cell).cell? k =
      if k = h then (heap.cell? h).map fun _ => cell else heap.cell? k := by
  cases h; cases k
  simp only [cell?, write, Array.getElem?_setIfInBounds, Handle.mk.injEq]
  split <;> grind

/-! ### Operations

An operation reads and changes a heap, or is refused with a fault; a refused operation changes
nothing. -/

/-- An operation on a heap. -/
abbrev Op (κ : Type) := StateT (Heap κ) (Except Fault)

namespace Op

/-- Puts a new object without attributes on the heap. -/
def alloc (kind : Kind κ) : Op κ Handle := fun heap =>
  .ok (heap.fresh, heap.push (.object ⟨kind, .empty⟩))

def read (f : Heap κ → α) : Op κ α := fun heap => .ok (f heap, heap)

def check (f : Heap κ → Except Fault α) : Op κ α := fun heap => (f heap).map (·, heap)

end Op

def typeName (heap : Heap κ) : Kind κ → String
  | .none => "NoneType"
  | .bool _ => "bool"
  | .int _ => "int"
  | .float _ => "float"
  | .string _ => "str"
  | .bytes _ => "bytes"
  | .list _ => "list"
  | .tuple _ => "tuple"
  | .dict _ => "dict"
  | .iterator _ => "list_iterator"
  | .slice .. => "slice"
  | .type _ => "type"
  | .instanceOf cls =>
    match heap.kind? cls with
    | some (.type info) => info.name
    | _ => "object"
  | .function .. => "function"
  | .boundMethod .. => "method"
  | .callback _ => "host_function"
  | .hostMethod .. => "method"
  | .module _ => "module"

/-- A new object at the end of the heap. -/
def add (heap : Heap κ) (kind : Kind κ) (attributes : OrderedMap Handle := .empty) :
    Handle × Heap κ :=
  (heap.fresh, heap.push (.object ⟨kind, attributes⟩))

/-- A new exception of a builtin type, with its type and its instance on the heap. -/
def addException (heap : Heap κ) (kind message : String) : ForeignException × Heap κ :=
  let (excType, heap) := heap.add (.type ⟨"builtins", kind⟩)
  let (text, heap) := heap.add (.string message)
  let (args, heap) := heap.add (.tuple [text])
  let (value, heap) := heap.add (.instanceOf excType) (OrderedMap.ofEntries [("args", args)])
  (⟨excType, value, none, if message = "" then kind else kind ++ ": " ++ message⟩, heap)

/-- The error that a fault becomes, and the heap that holds its exception. -/
def raise (heap : Heap κ) (fault : Fault) : Error × Heap κ :=
  match fault.report with
  | .typeError message => (.type (.stated message), heap)
  | .exception kind message =>
    let (exception, heap) := heap.addException kind message
    (.foreign exception, heap)

end Heap
end Interop
