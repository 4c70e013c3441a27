import Interop.Call
import Interop.Script.Evaluation
/-!
The machine: how the foreign runtime answers the requests of host code.

Foreign code and host code call each other, so the machine is built in layers. One layer answers a
request by itself, except where a value is invoked or host code runs; there it hands on to the layer
below. With no layer left a request has no answer.
-/

set_option autoImplicit false

namespace Interop

/-- How requests are answered. -/
abbrev Handler (κ σ : Type) := (request : Request κ σ) → Run κ σ request.Reply

/-- What the codes of host code mean. -/
structure Host (κ σ : Type) where
  /-- A native function, given its positional and its keyword arguments. -/
  function : κ → List Handle → OrderedMap Handle → Program κ σ Handle
  /-- A function that foreign code calls back. -/
  callback : κ → List Handle → Program κ σ (Arg κ)
  /-- A method, given its receiver. -/
  method : κ → Proxy κ → List (Object κ) → Program κ σ (Object κ)
  /-- The members that a delegator adds for a value. -/
  members : κ → Handle → Program κ σ (Entries (Member κ))

variable {κ σ α : Type}

namespace Machine

/-- Runs host code with requests answered by a handler. -/
def runProgram (below : Handler κ σ) (program : Program κ σ α) : Exec κ σ α :=
  ExceptT.mk (Interaction.run below program.run)

def callNative (host : Host κ σ) (below : Handler κ σ) (code : NativeCode κ) (args : List Handle)
    (keywords : OrderedMap Handle) : Exec κ σ Handle :=
  match code with
  | .builtin builtin => Exec.ofOp (Heap.callBuiltin builtin args)
  | .container method =>
    match args with
    | [] => Exec.fault .released
    | receiver :: rest => Exec.ofOp (Heap.callContainer method receiver rest)
  | .initializer => Exec.ofOp (Heap.callInitializer args keywords)
  | .host code => runProgram below (host.function code args keywords)

def callCallback (host : Host κ σ) (below : Handler κ σ) (function : Callback κ)
    (args : List Handle) : Exec κ σ (Arg κ) :=
  runProgram below <|
    match function.code with
    | .host code => host.callback code args
    | .onReceiver method => method.callRaw args
    | .bound method => method.callRaw args

/-- Calls a host function, which takes no keyword arguments, and marshals its answer. -/
def invokeCallback (host : Host κ σ) (below : Handler κ σ) (function : Callback κ)
    (args : List Handle) (keywords : OrderedMap Handle) : Exec κ σ Handle := do
  if keywords.isEmpty then
    let answer ← callCallback host below function args
    Exec.ofOp (Heap.marshal answer)
  else
    Exec.fault (.keywordsRefused function.name)

/-- A new instance of a class, initialized with the given arguments. -/
def instantiate (below : Handler κ σ) (cls : Handle) (args : List (Arg κ)) : Exec κ σ Handle := do
  let made ← Exec.ofOp (Heap.Op.alloc (.instanceOf cls))
  let initializer ← Exec.ofOp (Heap.getAttr made "__init__")
  let _ ← ExceptT.mk (below (.invoke initializer args))
  return made

def invoke (host : Host κ σ) (below : Handler κ σ) (h : Handle) (args : List (Arg κ)) :
    Exec κ σ Handle := do
  match ← Exec.readHeap (·.cell? h) with
  | none => Exec.fault .released
  | some (.object ⟨.type _, _⟩) => instantiate below h args
  | some cell =>
    let (positional, keywords) := Arg.splitKeywords args
    let handles ← Exec.ofOp (Heap.marshalAll positional)
    let named ← Exec.ofOp (Heap.marshalEntries keywords)
    let named := OrderedMap.ofEntries named
    match cell with
    | .stub stub =>
      match stub.body with
      | some code => runProgram below (host.function code handles named)
      | none => Exec.fault .stubNotCallable
    | .object object =>
      match object.kind with
      | .function _ code => callNative host below code handles named
      | .boundMethod receiver _ code => callNative host below code (receiver :: handles) named
      | .callback function => invokeCallback host below function handles named
      | .hostMethod receiver function =>
        invokeCallback host below function (receiver :: handles) named
      | kind => do Exec.fault (.notCallable (← Exec.readHeap (·.typeName kind)))

def isCallable (heap : Heap κ) (h : Handle) : Bool :=
  match heap.cell? h with
  | none => false
  | some (.stub stub) => stub.isCallable
  | some (.object object) =>
    match object.kind with
    | .type _ | .function .. | .boundMethod .. | .callback _ | .hostMethod .. => true
    | _ => false

/-- Whether a value can be asked for its next item. -/
def isIterator (heap : Heap κ) (h : Handle) : Bool :=
  match heap.cell? h with
  | none => false
  | some (.stub stub) => stub.isIterator
  | some (.object object) =>
    match object.kind with
    | .iterator _ => true
    | _ => false

def isSequence (heap : Heap κ) (h : Handle) : Bool :=
  match heap.cell? h with
  | none => false
  | some (.stub stub) => stub.isSequence
  | some (.object object) =>
    match object.kind with
    | .list _ | .tuple _ | .bytes _ => true
    | _ => false

def next (h : Handle) : Run κ σ (Except Error (Option Handle)) := do
  match ← Run.onHeap (·.next h) with
  | .ok item => return .ok item
  | .error fault => return .error (← Run.raise fault)

/-- What the runtime tells about one of its own objects. -/
def inspect (h : Handle) : Run κ σ (Option Inspection) := do
  match ← Run.readHeap (·.kind? h) with
  | none => return none
  | some kind =>
    let typeName ← Run.readHeap (·.typeName kind)
    let length ← Run.check (·.length kind)
    return some ⟨typeName, length⟩

/-- Binds a host function to an object of the runtime. -/
def bindMethod (function : Callback κ) (receiver : Handle) : Exec κ σ Handle := do
  match ← Exec.readHeap (·.object? receiver) with
  | none => Exec.fault .foreignReceiver
  | some _ => Exec.ofOp (Heap.Op.alloc (.hostMethod receiver function))

/-- The exception that stands for an error: a foreign error's own, a new one for a type error. -/
def materialize : Error → Run κ σ (Except Error ForeignException)
  | .foreign exception => return .ok exception
  | .type fault => do return .ok (← Run.onHeap (·.addException "TypeError" fault.message))

/-- The registry, loaded on first use. -/
def registry : Run κ σ (Registry κ) := do
  modify fun world =>
    if world.registryLoads = 0 then { world with registryLoads := 1 } else world
  return (← get).loader

/-- The members that a delegator adds for a value. -/
def members (host : Host κ σ) (below : Handler κ σ) (delegator : Delegator κ) (h : Handle) :
    Exec κ σ (Entries (Member κ)) :=
  runProgram below <|
    match delegator with
    | .host code => host.members code h
    | own => own.standardMembers h

/-- One layer of the machine. -/
def layer (host : Host κ σ) (below : Handler κ σ) : Handler κ σ
  | .typeOf h => Run.attempt (Heap.typeOf h)
  | .primitive h => Run.check (·.primitive h)
  | .invoke h args => (invoke host below h args).run
  | .text h => Run.check (·.text h)
  | .describe h => Run.readHeap (·.describe h)
  | .isCallable h => Run.readHeap (isCallable · h)
  | .isIterator h => Run.readHeap (isIterator · h)
  | .isSequence h => Run.readHeap (isSequence · h)
  | .next h => next h
  | .hash h => Run.check (·.hash h)
  | .hasAttr h name => Run.readHeap (·.hasAttr h name)
  | .getAttr h name => Run.attempt (Heap.getAttr h name)
  | .setAttr h name value => Run.onHeap (·.setAttr h name value)
  | .getItem h key => Run.attempt (Heap.getItem h key)
  | .setItem h key value => Run.onHeap (·.setItem h key value)
  | .builtin name => do
    match (← get).builtins.get? name with
    | some h => return .ok h
    | none => return .error (← Run.raise (.undefinedName name))
  | .globals => do return (← get).globals
  | .ownGlobal name => do return (← get).global? name
  | .importModule name => do
    match (← get).modules.get? name with
    | some h => return .ok h
    | none => return .error (← Run.raise (.missingModule name))
  | .exec source globals locals =>
    let scope : Script.Scope κ σ :=
      { globals := globals
        locals := locals
        invoke := fun h args => ExceptT.mk (below (.invoke h args)) }
    (scope.exec source).run
  | .bindMethod function receiver => (bindMethod function receiver).run
  | .materialize error => materialize error
  | .create blueprint => Run.onHeap (·.create blueprint)
  | .marshal arg => Run.attempt (Heap.marshal arg)
  | .exception kind message => Run.onHeap (·.addException kind message)
  | .inspect h => inspect h
  | .registry => registry
  | .settings => do return (← get).settings
  | .members delegator h => (members host below delegator h).run
  | .runMethod code receiver args => (runProgram below (host.method code receiver args)).run
  | .readState => do return (← get).state
  | .writeState state => modify fun world => { world with state := state }

/-- Layers put on top of each other, above a bottom without answers. -/
def tower (layer : Handler κ σ → Handler κ σ) : Nat → Handler κ σ
  | 0 => fun _ => Run.diverge
  | n + 1 => layer (tower layer n)

/-- The machine with a given number of layers. -/
def answer (host : Host κ σ) (layers : Nat) : Handler κ σ := tower (layer host) layers

end Machine
end Interop
