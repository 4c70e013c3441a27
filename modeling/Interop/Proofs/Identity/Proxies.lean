import Interop.Proofs.Bridge.Wrapping
import Mathlib.Data.Set.Basic
/-!
Where proxies are held: in objects and arguments, in functions of the host, in requests and their
replies.
-/

set_option autoImplicit false

namespace Interop

variable {κ σ α : Type}

/-! ### The proxies in values -/

mutual

def Object.proxies : Object κ → Set (Proxy κ)
  | .proxy p => p.proxies
  | .method m => m.proxies
  | _ => ∅

/-- The proxy itself and those in its members. -/
def Proxy.proxies : Proxy κ → Set (Proxy κ)
  | .mk handle typeInfo members =>
    {Proxy.mk handle typeInfo members} ∪ Member.proxiesAll members

def Member.proxies : Member κ → Set (Proxy κ)
  | .value object => object.proxies
  | .method _ => ∅

def Member.proxiesAll : List (String × Member κ) → Set (Proxy κ)
  | [] => ∅
  | (_, member) :: rest => member.proxies ∪ Member.proxiesAll rest

def BoundMethod.proxies : BoundMethod κ → Set (Proxy κ)
  | .member receiver _ => receiver.proxies
  | .capability receiver _ => receiver.proxies

end

def Object.proxiesAll : List (Object κ) → Set (Proxy κ)
  | [] => ∅
  | object :: rest => object.proxies ∪ proxiesAll rest

/-- The proxies that a function of the host has to itself. -/
def Callback.proxies (function : Callback κ) : Set (Proxy κ) :=
  match function.code with
  | .bound method => method.proxies
  | _ => ∅

mutual

def Arg.proxies : Arg κ → Set (Proxy κ)
  | .list items => proxiesAll items
  | .dict entries => proxiesEntries entries
  | .keywords entries => proxiesEntries entries
  | .callback function => function.proxies
  | _ => ∅

def Arg.proxiesAll : List (Arg κ) → Set (Proxy κ)
  | [] => ∅
  | arg :: rest => arg.proxies ∪ proxiesAll rest

def Arg.proxiesEntries : List (String × Arg κ) → Set (Proxy κ)
  | [] => ∅
  | (_, arg) :: rest => arg.proxies ∪ proxiesEntries rest

end

def ofResult (gives : α → Set (Proxy κ)) : Except Error α → Set (Proxy κ)
  | .ok a => gives a
  | .error _ => ∅

namespace Request

/-- The proxies that a request hands over; `held` tells those in the host's state. -/
def proxies (held : σ → Set (Proxy κ)) : Request κ σ → Set (Proxy κ)
  | .invoke _ args => Arg.proxiesAll args
  | .setAttr _ _ value => value.proxies
  | .setItem _ _ value => value.proxies
  | .bindMethod function _ => function.proxies
  | .marshal arg => arg.proxies
  | .runMethod _ receiver args => receiver.proxies ∪ Object.proxiesAll args
  | .writeState state => held state
  | _ => ∅

/-- The proxies that the reply to a request brings. -/
def replied (held : σ → Set (Proxy κ)) : (request : Request κ σ) → request.Reply → Set (Proxy κ)
  | .members _ _ => ofResult Member.proxiesAll
  | .runMethod _ _ _ => ofResult Object.proxies
  | .readState => held
  | _ => fun _ => ∅

end Request

theorem Proxy.mem_proxies (p : Proxy κ) : p ∈ p.proxies := by
  cases p with
  | mk handle typeInfo members =>
      rw [Proxy.proxies]
      exact Set.mem_union_left _ rfl

theorem Member.proxies_of_get? {members : Entries (Member κ)} {name : String} {member : Member κ}
    (found : members.get? name = some member) : member.proxies ⊆ Member.proxiesAll members := by
  induction members with
  | nil => cases found
  | cons entry rest ih =>
      obtain ⟨own, first⟩ := entry
      rw [Member.proxiesAll]
      rw [Entries.get?] at found
      split at found
      · cases found
        exact Set.subset_union_left
      · exact (ih found).trans Set.subset_union_right

theorem Proxy.members_proxies (p : Proxy κ) : Member.proxiesAll p.members ⊆ p.proxies := by
  cases p with
  | mk handle typeInfo members =>
      rw [Proxy.proxies]
      exact Set.subset_union_right

theorem Object.proxies_toArg (object : Object κ) : object.toArg.proxies ⊆ object.proxies := by
  cases object with
  | method m => exact subset_rfl
  | _ => exact Set.empty_subset _

theorem Arg.proxies_map_toArg (objects : List (Object κ)) :
    Arg.proxiesAll (objects.map Object.toArg) ⊆ Object.proxiesAll objects := by
  induction objects with
  | nil => exact subset_rfl
  | cons object rest ih => exact Set.union_subset_union object.proxies_toArg ih

theorem Object.proxies_ofPrimitive (primitive : Primitive) :
    (Object.ofPrimitive primitive : Object κ).proxies = ∅ := by
  cases primitive <;> rfl

end Interop
