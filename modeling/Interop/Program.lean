import Interop.Interaction
/-!
Requests under the names that programs use: the primitive operations of a handle, the services of
the foreign runtime, and the making of foreign values.
-/

set_option autoImplicit false

namespace Interop

variable {κ σ : Type}

/-! ### One foreign value -/

namespace Handle

def typeOf (h : Handle) : Program κ σ Handle := ExceptT.mk (Interaction.ask (.typeOf h))

def primitive (h : Handle) : Program κ σ Primitive := ExceptT.mk (Interaction.ask (.primitive h))

/-- Invokes the value; keyword mappings among the arguments are spread. -/
def invoke (h : Handle) (args : List (Arg κ)) : Program κ σ Handle :=
  ExceptT.mk (Interaction.ask (.invoke h args))

def text (h : Handle) : Program κ σ String := ExceptT.mk (Interaction.ask (.text h))

/-- The value as it is shown in a description. -/
def describe (h : Handle) : Program κ σ String := Program.ask (.describe h)

def isCallable (h : Handle) : Program κ σ Bool := Program.ask (.isCallable h)

def isIterator (h : Handle) : Program κ σ Bool := Program.ask (.isIterator h)

def isSequence (h : Handle) : Program κ σ Bool := Program.ask (.isSequence h)

/-- The next item of an iterator; no item once it is exhausted. -/
def next (h : Handle) : Program κ σ (Option Handle) := ExceptT.mk (Interaction.ask (.next h))

def hash (h : Handle) : Program κ σ Int64 := ExceptT.mk (Interaction.ask (.hash h))

def hasAttr (h : Handle) (name : String) : Program κ σ Bool := Program.ask (.hasAttr h name)

def getAttr (h : Handle) (name : String) : Program κ σ Handle :=
  ExceptT.mk (Interaction.ask (.getAttr h name))

def setAttr (h : Handle) (name : String) (value : Arg κ) : Program κ σ Status :=
  Program.ask (.setAttr h name value)

def getItem (h : Handle) (key : Arg κ) : Program κ σ Handle :=
  ExceptT.mk (Interaction.ask (.getItem h key))

def setItem (h : Handle) (key value : Arg κ) : Program κ σ Status :=
  Program.ask (.setItem h key value)

/-- An attribute that must be a text. -/
def stringAttr (h : Handle) (name : String) : Program κ σ String := do
  match ← (← h.getAttr name).primitive with
  | .string value => return value
  | other => Program.fault (.typeAttribute name other)

def typeInfo (h : Handle) : Program κ σ TypeInfo := do
  let type ← h.typeOf
  let module ← type.stringAttr "__module__"
  let name ← type.stringAttr "__name__"
  return ⟨module, name⟩

end Handle

/-! ### The foreign runtime -/

namespace Program

def builtin (name : String) : Program κ σ Handle := ExceptT.mk (Interaction.ask (.builtin name))

def globals : Program κ σ Handle := ask .globals

def importModule (name : String) : Program κ σ Handle :=
  ExceptT.mk (Interaction.ask (.importModule name))

/-- Runs a source in two namespaces and gives the value of its last statement. -/
def exec (source : String) (globals locals : Handle) : Program κ σ Handle :=
  ExceptT.mk (Interaction.ask (.exec source globals locals))

/-- Binds a host function to a receiver as the foreign side binds methods. -/
def bindMethod (function : Callback κ) (receiver : Handle) : Program κ σ Handle :=
  ExceptT.mk (Interaction.ask (.bindMethod function receiver))

/-- The exception that stands for an error on the foreign side. -/
def materialize (error : Error) : Program κ σ ForeignException :=
  ExceptT.mk (Interaction.ask (.materialize error))

/-! ### Foreign values -/

def create (blueprint : Blueprint κ) : Program κ σ Handle := ask (.create blueprint)

def marshal (arg : Arg κ) : Program κ σ Handle := ExceptT.mk (Interaction.ask (.marshal arg))

/-! ### The bridge -/

def registry : Program κ σ (Registry κ) := ask .registry

def settings : Program κ σ Settings := ask .settings

end Program

/-- The members that a delegator adds for a value. -/
def Delegator.members (delegator : Delegator κ) (h : Handle) : Program κ σ (Entries (Member κ)) :=
  ExceptT.mk (Interaction.ask (.members delegator h))

end Interop
