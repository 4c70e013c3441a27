import Interop.Object
/-!
The registry of delegators. A delegator names the members that a freshly wrapped value gets; it is
found by the identity of the value's type, with one entry for callables and one for all the rest.
-/

set_option autoImplicit false

namespace Interop

/-- A source of members for proxies. -/
inductive Delegator (κ : Type)
  /-- Adds the method `len`. -/
  | sized
  /-- Adds the methods `len` and `keys`. -/
  | mapping
  /-- Adds the value `name`, if the callable has one. -/
  | callee
  /-- Adds nothing. -/
  | bare
  | host (code : κ)
  deriving DecidableEq

/-- What a delegator is looked up by. -/
inductive DelegatorKey
  | type (info : TypeInfo)
  | callee
  | default
  deriving DecidableEq

/-- Delegators by type, and the two for callables and for everything else. -/
structure Registry (κ : Type) where
  byType : List (TypeInfo × Delegator κ) := []
  callee : Option (Delegator κ) := none
  default : Option (Delegator κ) := none

namespace Registry

variable {κ : Type}

def empty : Registry κ := {}

/-- The registry with a delegator for a type, in place of any that it had. -/
def register (registry : Registry κ) (info : TypeInfo) (delegator : Delegator κ) : Registry κ :=
  { registry with byType := (registry.byType.filter (·.1 ≠ info)) ++ [(info, delegator)] }

/-- The registry that a bridge starts with. -/
def standard : Registry κ :=
  { byType :=
      [(⟨"builtins", "list"⟩, .sized), (⟨"builtins", "tuple"⟩, .sized),
       (⟨"builtins", "dict"⟩, .mapping)]
    callee := some .callee
    default := some .bare }

def get? (registry : Registry κ) : DelegatorKey → Option (Delegator κ)
  | .type info => registry.byType.lookup info
  | .callee => registry.callee
  | .default => registry.default

/-- The number of types with a delegator of their own. -/
def size (registry : Registry κ) : Nat := registry.byType.length

/-- The delegator for a value: for a callable the one for callables, else the one of its type, else
the one for everything. -/
def delegatorFor (registry : Registry κ) (callable : Bool) (info : TypeInfo) :
    Option (Delegator κ) :=
  (if callable then registry.get? .callee else none) <|> registry.get? (.type info)
    <|> registry.get? .default

end Registry
end Interop
