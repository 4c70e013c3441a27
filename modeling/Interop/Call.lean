import Interop.Proxy
/-!
Calling: methods of the host, capabilities, and the functions that the host hands to foreign code.
-/

set_option autoImplicit false

namespace Interop

variable {κ σ : Type}

def Method.call (method : Method κ) (receiver : Proxy κ) (args : List (Object κ)) :
    Program κ σ (Object κ) :=
  match method.code with
  | .length => do return .ofPrimitive (lengthPrimitive (← receiver.length))
  | .keys => receiver.callMethod "keys" []
  | .host code => ExceptT.mk (Interaction.ask (.runMethod code receiver args))
where
  /-- A length as an integer: a word if it fits. -/
  lengthPrimitive (n : Nat) : Primitive :=
    match word? n with
    | some value => .int value
    | none => .big n

/-! ### Arguments of capabilities -/

namespace Capability

def required (c : Capability) : List (Object κ) → Program κ σ (Object κ × List (Object κ))
  | [] => Program.fault (.missingArgument c.memberName)
  | first :: rest => return (first, rest)

/-- The first argument, which must be a text, and the rest. -/
def requiredName (c : Capability) (args : List (Object κ)) :
    Program κ σ (String × List (Object κ)) := do
  match ← c.required args with
  | (.string name, rest) => return (name, rest)
  | (other, _) => Program.fault (.nameNotString c.memberName other.typeName)

/-- The first argument, an integer or none, and the rest; a missing one counts as none. -/
def optionalInt (c : Capability) : List (Object κ) → Program κ σ (Option Int64 × List (Object κ))
  | [] => return (none, [])
  | .none :: rest => return (none, rest)
  | .int i :: rest => return (some i, rest)
  | other :: _ => Program.fault (.boundNotInteger c.memberName other.typeName)

end Capability

/-- The arguments with every raw handle wrapped; as many as before. -/
def wrapRaw : (args : List (Object κ)) →
    Program κ σ { out : List (Object κ) // out.length = args.length }
  | [] => return ⟨[], rfl⟩
  | arg :: rest => do
    let object ←
      match arg with
      | .handle h => Bridge.wrap h
      | other => pure other
    let ⟨objects, same⟩ ← wrapRaw rest
    return ⟨object :: objects, by simp [same]⟩

/-- Runs a capability other than `dispatch`, which calls an object. -/
def Proxy.perform (p : Proxy κ) (c : Capability) (args : List (Object κ)) :
    Program κ σ (Object κ) :=
  match c with
  | .handle | .dispatch => return .handle p.handle
  | .invoke => do return .handle (← p.handle.invoke (args.map Object.toArg))
  | .toStr => do return .string (← p.handle.text)
  | .slice => do
    let (start, args) ← c.optionalInt args
    let (stop, args) ← c.optionalInt args
    let (step, _) ← c.optionalInt args
    p.slice start stop step
  | .hash => do return .int (← p.handle.hash)
  | .hasAttr => do
    let (name, _) ← c.requiredName args
    return .bool (← p.handle.hasAttr name)
  | .getAttr => do
    let (name, _) ← c.requiredName args
    return .handle (← p.handle.getAttr name)
  | .getItem => do
    let (key, _) ← c.required args
    return .handle (← p.handle.getItem key.toArg)
  | .setAttr => do
    let (name, args) ← c.requiredName args
    let (value, _) ← c.required args
    return .int (Int64.ofInt (← p.handle.setAttr name value.toArg).code)
  | .setItem => do
    let (key, args) ← c.required args
    let (value, _) ← c.required args
    return .int (Int64.ofInt (← p.handle.setItem key.toArg value.toArg).code)

def Object.call (object : Object κ) (args : List (Object κ)) : Program κ σ (Object κ) :=
  match object with
  | .method (.member receiver m) => m.call receiver args
  | .method (.capability _ .dispatch) =>
    match args with
    | [] => Program.fault (.missingArgument Capability.dispatch.memberName)
    | callee :: rest => do
      let ⟨wrapped, _⟩ ← wrapRaw rest
      callee.call wrapped
  | .method (.capability receiver c) => receiver.perform c args
  | .proxy p => p.call (args.map Object.toArg)
  | other => Program.fault (.notCallable other.typeName)
termination_by args.length
decreasing_by simp_all

def Object.isCallable (object : Object κ) : Program κ σ Bool :=
  match object with
  | .method _ => return true
  | .proxy p => p.handle.isCallable
  | .handle h => h.isCallable
  | _ => return false

/-! ### Functions for foreign code -/

/-- Runs a method on the first of some raw arguments. -/
def Method.callRaw (method : Method κ) : List Handle → Program κ σ (Arg κ)
  | [] => Program.fault (.missingReceiver method.name)
  | first :: rest => do
    match ← Bridge.wrap first with
    | .proxy receiver => return (← method.call receiver (← Bridge.wrapAll rest)).toArg
    | _ => Program.fault (.receiverNotObject method.name)

def BoundMethod.callRaw (method : BoundMethod κ) (args : List Handle) : Program κ σ (Arg κ) := do
  return (← (Object.method method).call (← Bridge.wrapAll args)).toArg

/-! ### Delegators of the library -/

/-- The members that a delegator of the library adds. -/
def Delegator.standardMembers (h : Handle) : Delegator κ → Program κ σ (Entries (Member κ))
  | .sized => return [("len", .method ⟨"len", .length⟩)]
  | .mapping => return [("len", .method ⟨"len", .length⟩), ("keys", .method ⟨"keys", .keys⟩)]
  | .callee => do
    if ← h.hasAttr "__name__" then
      return [("name", .value (← Bridge.wrap (← h.getAttr "__name__")))]
    else
      return []
  | .bare | .host _ => return []

end Interop
