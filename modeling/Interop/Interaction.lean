import Interop.Blueprint
import Interop.Registry
import Interop.Settings
/-!
Host code as interaction trees.

Everything that the host does to the foreign side is a `Request`: the primitive operations of one
value, the services of the runtime, the bridge's own registry and settings, host code named by a
code of type `κ`, and the state of type `σ` that host code shares. `Program` is a tree of requests,
so that a law can be proved for every program by induction, and for every foreign side by leaving
open how requests are answered.
-/

set_option autoImplicit false

namespace Interop

/-- Something that host code asks for. -/
inductive Request (κ σ : Type)
  -- one foreign value
  | typeOf (h : Handle)
  | primitive (h : Handle)
  | invoke (h : Handle) (args : List (Arg κ))
  | text (h : Handle)
  | describe (h : Handle)
  | isCallable (h : Handle)
  | isIterator (h : Handle)
  | isSequence (h : Handle)
  | next (h : Handle)
  | hash (h : Handle)
  | hasAttr (h : Handle) (name : String)
  | getAttr (h : Handle) (name : String)
  | setAttr (h : Handle) (name : String) (value : Arg κ)
  | getItem (h : Handle) (key : Arg κ)
  | setItem (h : Handle) (key value : Arg κ)
  -- the foreign runtime
  | builtin (name : String)
  | globals
  /-- A binding of the runtime's own global namespace. -/
  | ownGlobal (name : String)
  | importModule (name : String)
  | exec (source : String) (globals locals : Handle)
  | bindMethod (function : Callback κ) (receiver : Handle)
  | materialize (error : Error)
  -- making foreign values
  | create (blueprint : Blueprint κ)
  | marshal (arg : Arg κ)
  | exception (kind message : String)
  | inspect (h : Handle)
  -- the bridge
  | registry
  | settings
  | members (delegator : Delegator κ) (h : Handle)
  | runMethod (code : κ) (receiver : Proxy κ) (args : List (Object κ))
  -- the host's shared state
  | readState
  | writeState (state : σ)

variable {κ σ α β : Type}

/-- What a request is answered with. -/
abbrev Request.Reply : Request κ σ → Type
  | typeOf _ => Except Error Handle
  | primitive _ => Except Error Primitive
  | invoke _ _ => Except Error Handle
  | text _ => Except Error String
  | describe _ => String
  | isCallable _ => Bool
  | isIterator _ => Bool
  | isSequence _ => Bool
  | next _ => Except Error (Option Handle)
  | hash _ => Except Error Int64
  | hasAttr _ _ => Bool
  | getAttr _ _ => Except Error Handle
  | setAttr _ _ _ => Status
  | getItem _ _ => Except Error Handle
  | setItem _ _ _ => Status
  | builtin _ => Except Error Handle
  | globals => Handle
  | ownGlobal _ => Option Handle
  | importModule _ => Except Error Handle
  | exec _ _ _ => Except Error Handle
  | bindMethod _ _ => Except Error Handle
  | materialize _ => Except Error ForeignException
  | create _ => Handle
  | marshal _ => Except Error Handle
  | exception _ _ => ForeignException
  | inspect _ => Option Inspection
  | registry => Registry κ
  | settings => Settings
  | members _ _ => Except Error (List (String × Member κ))
  | runMethod _ _ _ => Except Error (Object κ)
  | readState => σ
  | writeState _ => Unit

/-- Host code that asks for things and finally answers. -/
inductive Interaction (κ σ α : Type)
  | done (answer : α)
  | perform (request : Request κ σ) (resume : request.Reply → Interaction κ σ α)

namespace Interaction

/-- One tree followed by another that depends on its answer. -/
protected def bind : Interaction κ σ α → (α → Interaction κ σ β) → Interaction κ σ β
  | done a, f => f a
  | perform request resume, f => perform request fun reply => (resume reply).bind f

instance : Monad (Interaction κ σ) where
  pure := done
  bind := Interaction.bind

instance : LawfulMonad (Interaction κ σ) := LawfulMonad.mk' _
  (by
    intro α x
    induction x with
    | done a => rfl
    | perform request resume ih => exact congrArg (perform request) (funext ih))
  (fun _ _ => rfl)
  (by
    intro α β γ x f g
    induction x with
    | done a => rfl
    | perform request resume ih => exact congrArg (perform request) (funext ih))

def ask (request : Request κ σ) : Interaction κ σ request.Reply := perform request done

/-- The meaning of a tree where requests are answered by effects of a monad. -/
def run {m : Type → Type} [Monad m] (answer : (request : Request κ σ) → m request.Reply) :
    Interaction κ σ α → m α
  | done a => pure a
  | perform request resume => do
    let reply ← answer request
    (resume reply).run answer

theorem run_pure {m : Type → Type} [Monad m] (answer : (request : Request κ σ) → m request.Reply)
    (a : α) : (pure a : Interaction κ σ α).run answer = pure a := rfl

theorem run_bind {m : Type → Type} [Monad m] [LawfulMonad m]
    (answer : (request : Request κ σ) → m request.Reply) (x : Interaction κ σ α)
    (f : α → Interaction κ σ β) :
    (x >>= f).run answer = x.run answer >>= fun a => (f a).run answer := by
  induction x with
  | done a => exact (pure_bind a fun a => (f a).run answer).symm
  | perform request resume ih =>
    change (answer request >>= fun reply => ((resume reply) >>= f).run answer) = _
    simp only [ih, run, bind_assoc]

theorem run_ask {m : Type → Type} [Monad m] [LawfulMonad m]
    (answer : (request : Request κ σ) → m request.Reply) (request : Request κ σ) :
    (ask request).run answer = answer request := bind_pure (answer request)

end Interaction

/-- Host code that may fail with an error of the bridge. -/
abbrev Program (κ σ : Type) := ExceptT Error (Interaction κ σ)

namespace Program

def ask (request : Request κ σ) : Program κ σ request.Reply :=
  ExceptT.lift (Interaction.ask request)

def fault (cause : TypeFault) : Program κ σ α := throw (.type cause)

def raise (kind message : String) : Program κ σ α := do
  let exception ← ask (.exception kind message)
  throw (.foreign exception)

/-- The program with its failure as part of the answer. -/
def attempt (program : Program κ σ α) : Program κ σ (Except Error α) := ExceptT.lift program.run

end Program
end Interop
