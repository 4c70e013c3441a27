import Interop.Bridge
/-!
Proxies: access to the members of a foreign value by name.

Reading a name tries the delegator's members, then the capabilities, then the position if the name
is a number, then the attribute, and last the item; only a missing item makes a member absent.
Writing tries position, attribute and item, and falls back to the attribute.
-/

set_option autoImplicit false

namespace Interop

variable {κ σ : Type}

/-- The position that a name of ASCII digits stands for, if it is a signed word. -/
def position? (name : String) : Option Int64 :=
  if name ≠ "" && name.toList.all Char.isDigit then
    word? (name.toList.foldl (fun value digit => 10 * value + (digit.toNat - '0'.toNat : Nat)) 0)
  else none

namespace Proxy

/-- The member of a given name; `none` if the value has none. -/
def get (p : Proxy κ) (name : String) : Program κ σ (Option (Object κ)) := do
  match p.members.get? name with
  | some (.value object) => return some object
  | some (.method method) => return some (.method (.member p method))
  | none =>
    match Capability.ofMemberName? name with
    | some capability => return some (.method (.capability p capability))
    | none =>
      match position? name with
      | some position => return some (← Bridge.wrap (← p.handle.getItem (.int position)))
      | none =>
        if ← p.handle.hasAttr name then
          return some (← Bridge.wrap (← p.handle.getAttr name))
        else
          match ← (p.handle.getItem (.string name)).attempt with
          | .ok item => return some (← Bridge.wrap item)
          | .error _ => return none

/-- Writes the member of a given name and tells whether the foreign side accepted. -/
def set (p : Proxy κ) (name : String) (value : Arg κ) : Program κ σ Bool := do
  match position? name with
  | some position => return (← p.handle.setItem (.int position) value).isOk
  | none =>
    if ← p.handle.hasAttr name then
      return (← p.handle.setAttr name value).isOk
    else if (← p.handle.setItem (.string name) value).isOk then
      return true
    else
      return (← p.handle.setAttr name value).isOk

def call (p : Proxy κ) (args : List (Arg κ)) : Program κ σ (Object κ) := do
  Bridge.wrap (← p.handle.invoke args)

def callMethod (p : Proxy κ) (name : String) (args : List (Arg κ)) : Program κ σ (Object κ) := do
  let method ← p.handle.getAttr name
  Bridge.wrap (← method.invoke args)

/-- The section between two bounds, taken through the runtime's builtin `slice`. -/
def slice (p : Proxy κ) (start stop step : Option Int64) : Program κ σ (Object κ) := do
  let slice ← Program.builtin "slice"
  let bound : Option Int64 → Arg κ
    | none => .none
    | some i => .int i
  let cut ← slice.invoke [bound start, bound stop, bound step]
  Bridge.wrap (← p.handle.getItem (.handle cut))

def length (p : Proxy κ) : Program κ σ Nat := Bridge.lengthOf p.handle

def isEmpty (p : Proxy κ) : Program κ σ Bool := do
  return (← p.length) == 0

/-- The value's own text, or a text that names its type if it has none. -/
def display (p : Proxy κ) : Program κ σ String := do
  match ← p.handle.text.attempt with
  | .ok text => return text
  | .error _ => return "<" ++ p.typeInfo.display ++ " object>"

/-- Wraps raw handles and applies a host function to them. -/
def dispatch {α : Type} (function : List (Object κ) → Program κ σ α) (args : List Handle) :
    Program κ σ α := do
  function (← Bridge.wrapAll args)

end Proxy
end Interop
