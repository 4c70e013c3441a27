import Interop.Proofs.Heap.Sheltering
/-!
Which foreign values are mentioned where: in the host's objects and arguments, in cells of the heap,
in errors, in requests and in their replies. To avoid a value is to mention it nowhere.
-/

set_option autoImplicit false

namespace Interop

variable {κ σ α : Type} {g : Handle}

/-! ### Values of the host -/

mutual

def Object.Avoids (g : Handle) : Object κ → Prop
  | .proxy p => p.Avoids g
  | .method m => m.Avoids g
  | .handle h => h ≠ g
  | _ => True

def Proxy.Avoids (g : Handle) : Proxy κ → Prop
  | .mk handle _ members => handle ≠ g ∧ Member.AllAvoid g members

def Member.Avoids (g : Handle) : Member κ → Prop
  | .value object => object.Avoids g
  | .method _ => True

def Member.AllAvoid (g : Handle) : List (String × Member κ) → Prop
  | [] => True
  | (_, member) :: rest => member.Avoids g ∧ Member.AllAvoid g rest

def BoundMethod.Avoids (g : Handle) : BoundMethod κ → Prop
  | .member receiver _ => receiver.Avoids g
  | .capability receiver _ => receiver.Avoids g

end

def Object.AllAvoid (g : Handle) (objects : List (Object κ)) : Prop :=
  ∀ object ∈ objects, object.Avoids g

/-- A function of the host mentions what the method mentions that it is made of. -/
def Callback.Avoids (g : Handle) (function : Callback κ) : Prop :=
  match function.code with
  | .bound method => method.Avoids g
  | _ => True

mutual

def Arg.Avoids (g : Handle) : Arg κ → Prop
  | .list items => Arg.AllAvoid g items
  | .dict entries => Arg.EntriesAvoid g entries
  | .keywords entries => Arg.EntriesAvoid g entries
  | .handle h => h ≠ g
  | .callback function => function.Avoids g
  | _ => True

def Arg.AllAvoid (g : Handle) : List (Arg κ) → Prop
  | [] => True
  | arg :: rest => arg.Avoids g ∧ Arg.AllAvoid g rest

def Arg.EntriesAvoid (g : Handle) : List (String × Arg κ) → Prop
  | [] => True
  | (_, arg) :: rest => arg.Avoids g ∧ Arg.EntriesAvoid g rest

end

def ForeignException.Avoids (g : Handle) (exception : ForeignException) : Prop :=
  exception.excType ≠ g ∧ exception.value ≠ g ∧ g ∉ exception.traceback.toList

def Error.Avoids (g : Handle) : Error → Prop
  | .foreign exception => exception.Avoids g
  | .type _ => True

/-- A result avoids a value if it is an error that does, or something good. -/
def Outcome (g : Handle) (good : α → Prop) : Except Error α → Prop
  | .ok a => good a
  | .error error => error.Avoids g

/-! ### Cells -/

/-- The function of the host that an object is, with or without a receiver. -/
def Kind.hostFunction? : Kind κ → Option (Callback κ)
  | .callback code => some code
  | .hostMethod _ code => some code
  | _ => Option.none

structure Kind.Avoids (g : Handle) (kind : Kind κ) : Prop where
  handles : g ∉ kind.handles
  code : ∀ code, kind.hostFunction? = some code → code.Avoids g

def Cell.Avoids (g : Handle) : Cell κ → Prop
  | .object content => content.kind.Avoids g ∧ g ∉ content.attributes.values
  | .stub content => g ∉ (Cell.stub content).handles

theorem Kind.avoids_of_not_mem {kind : Kind κ} (own : kind.hostFunction? = Option.none)
    (handles : g ∉ kind.handles) : kind.Avoids g where
  handles := handles
  code code same := by cases own.symm.trans same

theorem Cell.avoids_of_kind {kind : Kind κ} (avoids : kind.Avoids g) :
    (Cell.object ⟨kind, .empty⟩).Avoids g :=
  ⟨avoids, List.not_mem_nil⟩

theorem Cell.Avoids.handles {cell : Cell κ} (avoids : cell.Avoids g) : g ∉ cell.handles := by
  cases cell with
  | object content =>
      intro member
      rcases List.mem_append.mp member with member | member
      · exact avoids.1.handles member
      · exact avoids.2 member
  | stub content => exact avoids

/-! ### Requests -/

/-- What is put on the heap from outside mentions what its cell will. -/
def Blueprint.Avoids (g : Handle) : Blueprint κ → Prop
  | .list items => g ∉ items
  | .tuple items => g ∉ items
  | .dict entries => g ∉ entries.map Prod.snd
  | .iterator items => g ∉ items
  | .type _ attributes => g ∉ attributes.map Prod.snd
  | .module _ attributes => g ∉ attributes.map Prod.snd
  | .stub content => (Cell.stub content).Avoids g
  | _ => True

namespace Request

/-- A request mentions no value; `held` tells those in the host's state. -/
def Avoids (held : σ → Set Handle) (g : Handle) : Request κ σ → Prop
  | .typeOf h | .primitive h | .text h | .describe h | .isCallable h | .isIterator h
  | .isSequence h | .next h | .hash h | .hasAttr h _ | .getAttr h _ | .inspect h => h ≠ g
  | .invoke h args => h ≠ g ∧ Arg.AllAvoid g args
  | .setAttr h _ value => h ≠ g ∧ value.Avoids g
  | .getItem h key => h ≠ g ∧ key.Avoids g
  | .setItem h key value => h ≠ g ∧ key.Avoids g ∧ value.Avoids g
  | .exec _ outer inner => outer ≠ g ∧ inner ≠ g
  | .bindMethod function receiver => function.Avoids g ∧ receiver ≠ g
  | .materialize error => error.Avoids g
  | .create blueprint => blueprint.Avoids g
  | .marshal arg => arg.Avoids g
  | .members _ h => h ≠ g
  | .runMethod _ receiver args => receiver.Avoids g ∧ Object.AllAvoid g args
  | .writeState state => g ∉ held state
  | .builtin _ | .globals | .ownGlobal _ | .importModule _ | .exception _ _ | .registry | .settings
  | .readState => True

/-- The reply to a request mentions no value. -/
def ReplyAvoids (held : σ → Set Handle) (g : Handle) :
    (request : Request κ σ) → request.Reply → Prop
  | .typeOf _ | .invoke _ _ | .getAttr _ _ | .getItem _ _ | .builtin _ | .importModule _
  | .exec _ _ _ | .bindMethod _ _ | .marshal _ => Outcome g (· ≠ g)
  | .primitive _ | .text _ | .hash _ => Outcome g fun _ => True
  | .next _ => Outcome g fun item => g ∉ item.toList
  | .globals | .create _ => (· ≠ g)
  | .ownGlobal _ => fun value => g ∉ value.toList
  | .materialize _ => Outcome g (ForeignException.Avoids g)
  | .exception _ _ => ForeignException.Avoids g
  | .inspect _ => fun inspection => ∀ told ∈ inspection, Outcome g (fun _ => True) told.length
  | .members _ _ => Outcome g (Member.AllAvoid g)
  | .runMethod _ _ _ => Outcome g (Object.Avoids g)
  | .readState => fun state => g ∉ held state
  | .describe _ | .isCallable _ | .isIterator _ | .isSequence _ | .hasAttr _ _ | .setAttr _ _ _
  | .setItem _ _ _ | .registry | .settings | .writeState _ => fun _ => True

end Request

/-! ### Parts of what avoids a value -/

theorem Proxy.Avoids.handle {p : Proxy κ} (avoids : p.Avoids g) : p.handle ≠ g := by
  cases p with
  | mk handle info members =>
      rw [Proxy.Avoids] at avoids
      exact avoids.1

theorem Object.Avoids.toArg {object : Object κ} (avoids : object.Avoids g) :
    object.toArg.Avoids g := by
  cases object with
  | proxy p =>
      rw [Object.Avoids] at avoids
      exact avoids.handle
  | _ => exact avoids

theorem Object.avoids_ofPrimitive (primitive : Primitive) :
    (Object.ofPrimitive primitive : Object κ).Avoids g := by
  cases primitive <;> trivial

theorem Arg.allAvoid_iff {args : List (Arg κ)} :
    Arg.AllAvoid g args ↔ ∀ arg ∈ args, arg.Avoids g := by
  induction args with
  | nil => simp [Arg.AllAvoid]
  | cons arg rest ih => simp [Arg.AllAvoid, ih]

theorem Arg.entriesAvoid_iff {entries : List (String × Arg κ)} :
    Arg.EntriesAvoid g entries ↔ ∀ entry ∈ entries, entry.2.Avoids g := by
  induction entries with
  | nil => simp [Arg.EntriesAvoid]
  | cons entry rest ih => simp [Arg.EntriesAvoid, ih]

theorem Object.AllAvoid.toArgs {objects : List (Object κ)} (avoid : Object.AllAvoid g objects) :
    Arg.AllAvoid g (objects.map Object.toArg) := by
  apply Arg.allAvoid_iff.mpr
  intro arg member
  obtain ⟨object, among, rfl⟩ := List.mem_map.mp member
  exact (avoid object among).toArg

/-- Arguments that are handles mention these only. -/
theorem Arg.allAvoid_handles {handles : List Handle} (avoid : g ∉ handles) :
    Arg.AllAvoid g (handles.map (Arg.handle : Handle → Arg κ)) := by
  apply Arg.allAvoid_iff.mpr
  intro arg member
  obtain ⟨h, among, rfl⟩ := List.mem_map.mp member
  exact ne_of_mem_of_not_mem among avoid

end Interop
