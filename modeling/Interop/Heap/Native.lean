import Interop.Heap.Item
/-!
The runtime's own functions: its builtins, the methods of lists and dicts, and the initializer that
every instance has.
-/

set_option autoImplicit false

namespace Interop

variable {κ : Type}

namespace Heap

/-- The number of elements of a kind of object that has elements. -/
def length (heap : Heap κ) : Kind κ → Except Fault Nat
  | .list items => .ok items.length
  | .tuple items => .ok items.length
  | .dict entries => .ok entries.size
  | .string value => .ok value.length
  | .bytes data => .ok data.length
  | kind => .error (.noLength (heap.typeName kind))

/-- The only argument of a builtin that takes one. -/
def onlyArgument (function : String) : List Handle → Except Fault Handle
  | [arg] => .ok arg
  | args => .error (.argumentCount function args.length)

/-- A bound of a slice as evaluated code gives it. -/
def sliceBound (heap : Heap κ) (h : Handle) : Except Fault (Option Int64) :=
  match heap.kind? h with
  | some .none => .ok none
  | some (.int value) => .ok (some value)
  | _ => .error .sliceBound

def allocStrings : List String → Op κ (List Handle)
  | [] => return []
  | text :: rest => do
    let h ← Op.alloc (.string text)
    let handles ← allocStrings rest
    return h :: handles

/-- New pairs of a key and its value, in order. -/
def allocPairs : Entries Handle → Op κ (List Handle)
  | [] => return []
  | (key, value) :: rest => do
    let text ← Op.alloc (.string key)
    let pair ← Op.alloc (.tuple [text, value])
    let pairs ← allocPairs rest
    return pair :: pairs

def builtinLen (args : List Handle) : Op κ Handle := do
  let arg ← onlyArgument "len" args
  let heap ← get
  match heap.kind? arg with
  | none => throw .foreignLength
  | some kind =>
    let length ← heap.length kind
    Op.alloc (.int (Int64.ofInt length))

/-- A slice of one to three bounds. -/
def builtinSlice (args : List Handle) : Op κ Handle := do
  let heap ← get
  match args with
  | [stop] => Op.alloc (.slice none (← heap.sliceBound stop) none)
  | [start, stop] => Op.alloc (.slice (← heap.sliceBound start) (← heap.sliceBound stop) none)
  | [start, stop, step] =>
    Op.alloc (.slice (← heap.sliceBound start) (← heap.sliceBound stop) (← heap.sliceBound step))
  | args => throw (.sliceArguments args.length)

/-- An iterator over what the only argument holds; an iterator is its own. -/
def builtinIter (args : List Handle) : Op κ Handle := do
  let arg ← onlyArgument "iter" args
  let heap ← get
  match heap.kind? arg with
  | none => throw .foreignIteration
  | some (.iterator _) => return arg
  | some (.list items) => Op.alloc (.iterator items)
  | some (.tuple items) => Op.alloc (.iterator items)
  | some (.dict entries) => do Op.alloc (.iterator (← allocStrings entries.keys))
  | some (.string value) => do
    Op.alloc (.iterator (← allocStrings (value.toList.map String.singleton)))
  | some kind => throw (.notIterable (heap.typeName kind))

def callBuiltin (builtin : Builtin) (args : List Handle) : Op κ Handle :=
  match builtin with
  | .len => builtinLen args
  | .slice => builtinSlice args
  | .type => do typeOf (← onlyArgument "type" args)
  | .iter => builtinIter args
  | .str => do
    let arg ← onlyArgument "str" args
    let text ← (← get).text arg
    Op.alloc (.string text)

/-- Gives an object a new kind and keeps its attributes. -/
def replaceKind (h : Handle) (object : HeapObject κ) (kind : Kind κ) : Op κ Unit :=
  modify (·.write h (.object { object with kind := kind }))

/-- Runs a method of a container on its receiver. -/
def callContainer (method : ContainerMethod) (receiver : Handle) (args : List Handle) :
    Op κ Handle := do
  let heap ← get
  match heap.object? receiver with
  | none => throw .released
  | some object =>
    match object.kind, method with
    | .dict entries, .copy => Op.alloc (.dict entries)
    | .dict entries, .keys => do Op.alloc (.list (← allocStrings entries.keys))
    | .dict entries, .values => Op.alloc (.list entries.values)
    | .dict entries, .items => do Op.alloc (.list (← allocPairs entries.entries))
    | .dict entries, .get => do
      match args with
      | [] => throw .getWithoutKey
      | key :: defaults =>
        let found :=
          match heap.kind? key with
          | some (.string key) => entries.get? key
          | _ => none
        match found, defaults with
        | some value, _ => return value
        | none, default :: _ => return default
        | none, [] => Op.alloc .none
    | .list items, .append => do
      match args with
      | [] => throw .appendWithoutItem
      | item :: _ =>
        replaceKind receiver object (.list (items ++ [item]))
        Op.alloc .none
    | .list items, .copy => Op.alloc (.list items)
    | .list items, .pop => do
      match items.getLast? with
      | none => throw .popFromEmpty
      | some last =>
        replaceKind receiver object (.list items.dropLast)
        return last
    | kind, method => throw (.noAttribute (heap.typeName kind) method.name)

/-- Initializes an instance whose class has no initializer: there is nothing to do. -/
def callInitializer (args : List Handle) (keywords : OrderedMap Handle) : Op κ Handle :=
  if 1 < args.length || !keywords.isEmpty then throw .initializerArguments
  else Op.alloc .none

end Heap
end Interop
