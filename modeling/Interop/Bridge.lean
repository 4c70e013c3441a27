import Interop.Program
/-!
Wrapping: how a foreign value becomes an object of the host.

The foreign none and the primitives become plain host values; everything else becomes a proxy with
the members that the registry's delegator adds. The type's name decides, and nothing else.
-/

set_option autoImplicit false

namespace Interop

variable {κ σ : Type}

namespace Bridge

def wrap (h : Handle) : Program κ σ (Object κ) := do
  let info ← h.typeInfo
  if info.isNone then
    return .none
  else if info.isPrimitive then
    return .ofPrimitive (← h.primitive)
  else
    let registry ← Program.registry
    let callable ← h.isCallable
    match registry.delegatorFor callable info with
    | some delegator => return .proxy (.mk h info (← delegator.members h))
    | none => return .proxy (.mk h info [])

/-- The host's view of a value that may be missing. -/
def wrapOptional : Option Handle → Program κ σ (Object κ)
  | none => return .none
  | some h => wrap h

def wrapAll : List Handle → Program κ σ (List (Object κ))
  | [] => return []
  | h :: rest => do
    let object ← wrap h
    let objects ← wrapAll rest
    return object :: objects

def importModule (name : String) : Program κ σ (Object κ) := do
  wrap (← Program.importModule name)

def builtin (name : String) : Program κ σ (Object κ) := do
  wrap (← Program.builtin name)

def globals : Program κ σ (Object κ) := do
  wrap (← Program.globals)

/-- The length of a value, as the runtime's builtin `len` tells it. -/
def lengthOf (h : Handle) : Program κ σ Nat := do
  let len ← Program.builtin "len"
  let result ← len.invoke [.handle h]
  match ← result.primitive with
  | .int n => if n < 0 then Program.fault (.negativeLength n) else return n.toInt.toNat
  | other => Program.fault (.lengthNotInteger other)

end Bridge
end Interop
