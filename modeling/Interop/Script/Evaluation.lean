import Interop.Script.Parser
import Interop.World
/-!
Evaluation of scripts in two namespaces. Names are looked up in the local namespace, then in the
global one, then among the builtins; assignments write to the local one. Integers are exact or
refused; a float on either side makes the operation one of floats.
-/

set_option autoImplicit false

namespace Interop.Script

variable {κ σ : Type}

/-- What evaluation needs from outside: the namespaces, and how a value is invoked. -/
structure Scope (κ σ : Type) where
  globals : Handle
  locals : Handle
  invoke : Handle → List (Arg κ) → Exec κ σ Handle

def Operator.onInts : Operator → Int → Int → Int
  | add, a, b => a + b
  | sub, a, b => a - b
  | mul, a, b => a * b

def Operator.onFloats : Operator → Binary64 → Binary64 → Binary64
  | add, a, b => a.add b
  | sub, a, b => a.sub b
  | mul, a, b => a.mul b

def asFloat? : Kind κ → Option Binary64
  | .int value => some (.ofInt value.toInt)
  | .float value => some value
  | _ => none

/-- A new integer, if it is a signed word. -/
def checkedInt (i : Int) : Except Fault (Kind κ) :=
  match word? i with
  | some value => .ok (.int value)
  | none => .error .integerOverflow

/-- The result of an operation on two objects of the runtime. -/
def combine (heap : Heap κ) (operator : Operator) (left right : Kind κ) : Except Fault (Kind κ) :=
  match left, operator, right with
  | .int a, operator, .int b => checkedInt (operator.onInts a.toInt b.toInt)
  | .string a, .add, .string b => .ok (.string (a ++ b))
  | .list a, .add, .list b => .ok (.list (a ++ b))
  | left, operator, right =>
    match asFloat? left, asFloat? right with
    | some a, some b => .ok (.float (operator.onFloats a b))
    | _, _ =>
      .error (.operands operator.symbol (heap.typeName left) (heap.typeName right))

def applyOperator (operator : Operator) (left right : Handle) : Heap.Op κ Handle := do
  let heap ← get
  match heap.kind? left, heap.kind? right with
  | some l, some r => Heap.Op.alloc (← combine heap operator l r)
  | _, _ => throw .foreignOperand

def negate (operand : Handle) : Heap.Op κ Handle := do
  match (← get).kind? operand with
  | some (.int value) => Heap.Op.alloc (← checkedInt (-value.toInt))
  | some (.float value) => Heap.Op.alloc (.float value.neg)
  | _ => throw .negation

def Scope.lookup (scope : Scope κ σ) (name : String) : Exec κ σ Handle := do
  let world ← get
  let bound (mapping : Handle) : Exec κ σ Handle :=
    Exec.ofOp (Heap.getItem mapping (.string name))
  tryCatch (bound scope.locals) fun _ => tryCatch (bound scope.globals) fun _ =>
    match world.builtins.get? name with
    | some value => return value
    | none => Exec.fault (.undefinedName name)

mutual

def Scope.eval (scope : Scope κ σ) : Expr → Exec κ σ Handle
  | .int value => Exec.ofOp (Heap.Op.alloc (.int value))
  | .float value => Exec.ofOp (Heap.Op.alloc (.float value))
  | .string value => Exec.ofOp (Heap.Op.alloc (.string value))
  | .none => Exec.ofOp (Heap.Op.alloc .none)
  | .bool value => Exec.ofOp (Heap.Op.alloc (.bool value))
  | .name name => scope.lookup name
  | .list items => do
    let values ← scope.evalAll items
    Exec.ofOp (Heap.Op.alloc (.list values))
  | .dict entries => do
    let values ← scope.evalEntries entries
    Exec.ofOp (Heap.Op.alloc (.dict (.ofEntries values)))
  | .neg operand => do
    let value ← scope.eval operand
    Exec.ofOp (negate value)
  | .binary left operator right => do
    let l ← scope.eval left
    let r ← scope.eval right
    Exec.ofOp (applyOperator operator l r)
  | .call function args keywords => do
    let callee ← scope.eval function
    let positional ← scope.evalAll args
    let named ← scope.evalEntries keywords
    let spread : List (Arg κ) :=
      if named.isEmpty then []
      else [.keywords ((Entries.normalize named).map fun entry => (entry.1, .handle entry.2))]
    scope.invoke callee (positional.map Arg.handle ++ spread)
  | .attr target name => do
    let value ← scope.eval target
    Exec.ofOp (Heap.getAttr value name)
  | .item target key => do
    let value ← scope.eval target
    let k ← scope.eval key
    Exec.ofOp (Heap.getItem value (.handle k))

def Scope.evalAll (scope : Scope κ σ) : List Expr → Exec κ σ (List Handle)
  | [] => return []
  | expr :: rest => do
    let value ← scope.eval expr
    let values ← scope.evalAll rest
    return value :: values

/-- The entries with the values of their expressions, in order. -/
def Scope.evalEntries (scope : Scope κ σ) : List (String × Expr) → Exec κ σ (Entries Handle)
  | [] => return []
  | (key, expr) :: rest => do
    let value ← scope.eval expr
    let values ← scope.evalEntries rest
    return (key, value) :: values

end

def accepted (target : String) (status : Status) : Exec κ σ Unit :=
  if status.isOk then return () else Exec.fault (.assignment target)

def Scope.assign (scope : Scope κ σ) (target : Expr) (value : Handle) : Exec κ σ Unit := do
  match target with
  | .name name =>
    let status ← ExceptT.lift (Run.onHeap (·.setItem scope.locals (.string name) (.handle value)))
    accepted name status
  | .attr target name =>
    let object ← scope.eval target
    let status ← ExceptT.lift (Run.onHeap (·.setAttr object name (.handle value)))
    accepted ("." ++ name) status
  | .item target key =>
    let object ← scope.eval target
    let k ← scope.eval key
    let status ← ExceptT.lift (Run.onHeap (·.setItem object (.handle k) (.handle value)))
    accepted "item" status
  | _ => Exec.fault (.source .invalidTarget)

/-- Runs a statement. Its value is that of the expression; an assignment has none. -/
def Scope.step (scope : Scope κ σ) : Statement → Exec κ σ (Option Handle)
  | .expr expr => do return some (← scope.eval expr)
  | .assign target expr => do
    let value ← scope.eval expr
    scope.assign target value
    return none

/-- Runs statements in order and gives the value of the last one, if it has one. -/
def Scope.steps (scope : Scope κ σ) : Option Handle → List Statement → Exec κ σ (Option Handle)
  | last, [] => return last
  | _, statement :: rest => do scope.steps (← scope.step statement) rest

/-- Runs a source. Its value is that of its last statement, or the runtime's none. -/
def Scope.exec (scope : Scope κ σ) (source : String) : Exec κ σ Handle := do
  match parseSource source with
  | .error fault => Exec.fault (.source fault)
  | .ok statements =>
    match ← scope.steps none statements with
    | some value => return value
    | none => Exec.ofOp (Heap.Op.alloc .none)

end Interop.Script
