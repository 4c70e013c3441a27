import Interop.Proofs.Execution
import Mathlib.Logic.Relation
/-!
How a heap evolves. `Step` lists all that can happen to a heap; every operation of the runtime is a
chain of such steps, and most of them only add cells.
-/

set_option autoImplicit false

namespace Interop

variable {κ α : Type}

/-- What an object can turn into: other contents of the same sort. -/
inductive Kind.Becomes : Kind κ → Kind κ → Prop
  | list (before after : List Handle) : Becomes (.list before) (.list after)
  | dict (entries : OrderedMap Handle) (key : String) (value : Handle) :
      Becomes (.dict entries) (.dict (entries.insert key value))
  | iterator (item : Handle) (rest : List Handle) :
      Becomes (.iterator (item :: rest)) (.iterator rest)

theorem Kind.Becomes.fixedAttribute? {kind changed : Kind κ} (becomes : kind.Becomes changed)
    (name : String) : changed.fixedAttribute? name = kind.fixedAttribute? name := by
  cases becomes <;> rfl

/-- Whether an object is an instance, and so needs its class. -/
def Kind.isInstance : Kind κ → Bool
  | .instanceOf _ => true
  | _ => false

/-- Whether an object is a function of the host that foreign code can call. -/
def Kind.isHostFunction : Kind κ → Bool
  | .callback _ => true
  | .hostMethod _ _ => true
  | _ => false

/-- Whether an object neither needs a class nor is a function of the host. -/
def Kind.isPlain (kind : Kind κ) : Bool := !kind.isInstance && !kind.isHostFunction

namespace Heap

/-- Whether a value is a class. -/
def IsType (heap : Heap κ) (h : Handle) : Prop := ∃ info, heap.kind? h = some (.type info)

/-- Whether a cell can be new in a heap: the class of a new instance is there already. -/
def Admits (heap : Heap κ) : Cell κ → Prop
  | .object ⟨.instanceOf cls, _⟩ => heap.IsType cls
  | _ => True

/-- Whether a cell has attributes set on it only if its kind of object accepts them. -/
def NamesAccepted : Cell κ → Prop
  | .object object => object.kind.acceptsAttributes = false → object.attributes = .empty
  | .stub _ => True

/-- Whether a cell holds a function of the host. -/
def HoldsHostFunction : Cell κ → Prop
  | .object object => object.kind.isHostFunction = true
  | .stub _ => False

/-- One thing that happens to a heap. -/
inductive Step : Heap κ → Heap κ → Prop
  | push {heap : Heap κ} {cell : Cell κ} (admitted : heap.Admits cell) :
      Step heap (heap.push cell)
  /-- An object takes other contents. -/
  | content {heap : Heap κ} {h : Handle} {object : HeapObject κ} {kind : Kind κ}
      (found : heap.cell? h = some (.object object)) (becomes : object.kind.Becomes kind) :
      Step heap (heap.write h (.object { object with kind := kind }))
  /-- An attribute is set on an object. -/
  | named {heap : Heap κ} {h : Handle} {object : HeapObject κ} (name : String) (value : Handle)
      (found : heap.cell? h = some (.object object))
      (accepts : object.kind.acceptsAttributes = true) :
      Step heap
        (heap.write h (.object { object with attributes := object.attributes.insert name value }))
  /-- A stub has given some of its answers. -/
  | answered {heap : Heap κ} {h : Handle} {stub : Stub κ} (script : List StubStep)
      (found : heap.cell? h = some (.stub stub)) :
      Step heap (heap.write h (.stub { stub with script := script }))

/-- A heap and one that it can become. -/
def Evolves : Heap κ → Heap κ → Prop := Relation.ReflTransGen Step

/-- Every cell keeps its content. -/
def Extends (heap after : Heap κ) : Prop :=
  ∀ h cell, heap.cell? h = some cell → after.cell? h = some cell

/-- A relation that holds wherever a cell is added that holds no function of the host. -/
class Allocating (along : Heap κ → Heap κ → Prop) : Prop extends IsPreorder (Heap κ) along where
  allocate : ∀ (heap : Heap κ) (cell : Cell κ), heap.Admits cell → NamesAccepted cell →
    ¬ HoldsHostFunction cell → along heap (heap.push cell)

/-- A relation that moreover holds wherever a cell takes another content. -/
class Altering (along : Heap κ → Heap κ → Prop) : Prop extends Allocating along where
  content : ∀ {heap : Heap κ} {h : Handle} {object : HeapObject κ} {kind : Kind κ},
    heap.cell? h = some (.object object) → object.kind.Becomes kind →
      along heap (heap.write h (.object { object with kind := kind }))
  answered : ∀ {heap : Heap κ} {h : Handle} {stub : Stub κ} (script : List StubStep),
    heap.cell? h = some (.stub stub) →
      along heap (heap.write h (.stub { stub with script := script }))

/-- A relation that moreover holds wherever an attribute is set. -/
class Shifting (along : Heap κ → Heap κ → Prop) : Prop extends Altering along where
  named : ∀ {heap : Heap κ} {h : Handle} {object : HeapObject κ} (name : String) (value : Handle),
    heap.cell? h = some (.object object) → object.kind.acceptsAttributes = true →
      along heap
        (heap.write h (.object { object with attributes := object.attributes.insert name value }))

/-- A relation that holds wherever a cell is added. -/
class Growing (along : Heap κ → Heap κ → Prop) : Prop extends IsPreorder (Heap κ) along where
  push : ∀ (heap : Heap κ) (cell : Cell κ), heap.Admits cell → NamesAccepted cell →
    along heap (heap.push cell)

/-- A relation that holds wherever a cell is added or takes another content. -/
class Renewing (along : Heap κ → Heap κ → Prop) : Prop extends Growing along where
  content : ∀ {heap : Heap κ} {h : Handle} {object : HeapObject κ} {kind : Kind κ},
    heap.cell? h = some (.object object) → object.kind.Becomes kind →
      along heap (heap.write h (.object { object with kind := kind }))
  answered : ∀ {heap : Heap κ} {h : Handle} {stub : Stub κ} (script : List StubStep),
    heap.cell? h = some (.stub stub) →
      along heap (heap.write h (.stub { stub with script := script }))

/-- A relation that holds wherever a cell is added, takes another content or another attribute. -/
class Evolving (along : Heap κ → Heap κ → Prop) : Prop extends Renewing along where
  named : ∀ {heap : Heap κ} {h : Handle} {object : HeapObject κ} (name : String) (value : Handle),
    heap.cell? h = some (.object object) → object.kind.acceptsAttributes = true →
      along heap
        (heap.write h (.object { object with attributes := object.attributes.insert name value }))

instance (along : Heap κ → Heap κ → Prop) [Growing along] : Allocating along where
  allocate heap cell admitted accepted _ := Growing.push heap cell admitted accepted

instance (along : Heap κ → Heap κ → Prop) [Renewing along] : Altering along where
  content := Renewing.content
  answered := Renewing.answered

instance (along : Heap κ → Heap κ → Prop) [Evolving along] : Shifting along where
  named := Evolving.named

instance : IsPreorder (Heap κ) Evolves :=
  inferInstanceAs (IsPreorder (Heap κ) (Relation.ReflTransGen Step))

instance : Evolving (Evolves : Heap κ → Heap κ → Prop) where
  push _ _ admitted _ := .single (.push admitted)
  content found becomes := .single (.content found becomes)
  named name value found accepts := .single (.named name value found accepts)
  answered script found := .single (.answered script found)

theorem cell?_fresh (heap : Heap κ) : heap.cell? heap.fresh = none := by
  simp [cell?, fresh]

theorem ne_fresh_of_cell? {heap : Heap κ} {h : Handle} {cell : Cell κ}
    (found : heap.cell? h = some cell) : h ≠ heap.fresh := by
  rintro rfl
  rw [cell?_fresh] at found
  cases found

theorem cell?_push_of_found {heap : Heap κ} {h : Handle} {cell : Cell κ}
    (found : heap.cell? h = some cell) (new : Cell κ) : (heap.push new).cell? h = some cell := by
  rw [cell?_push, if_neg (ne_fresh_of_cell? found)]
  exact found

instance : Growing (Extends : Heap κ → Heap κ → Prop) where
  refl _ _ _ found := found
  trans _ _ _ early late h cell found := late h cell (early h cell found)
  push _ cell _ _ _ _ found := cell?_push_of_found found cell

theorem cell?_of_object? {heap : Heap κ} {h : Handle} {object : HeapObject κ}
    (found : heap.object? h = some object) : heap.cell? h = some (.object object) := by
  unfold Heap.object? at found
  split at found
  · rename_i other content
    cases found
    exact content
  · cases found

theorem object?_of_cell? {heap : Heap κ} {h : Handle} {object : HeapObject κ}
    (found : heap.cell? h = some (.object object)) : heap.object? h = some object := by
  unfold Heap.object?
  rw [found]

theorem kind?_of_cell? {heap : Heap κ} {h : Handle} {object : HeapObject κ}
    (found : heap.cell? h = some (.object object)) :
    heap.kind? h = some object.kind := by
  unfold kind?
  rw [object?_of_cell? found]
  rfl

theorem cell?_of_kind? {heap : Heap κ} {h : Handle} {kind : Kind κ}
    (found : heap.kind? h = some kind) :
    ∃ attributes, heap.cell? h = some (.object ⟨kind, attributes⟩) := by
  obtain ⟨object, present, rfl⟩ := Option.map_eq_some_iff.mp found
  exact ⟨object.attributes, cell?_of_object? present⟩

theorem Extends.object? {heap after : Heap κ} (extends_ : heap.Extends after) {h : Handle}
    {object : HeapObject κ} (found : heap.object? h = some object) :
    after.object? h = some object := by
  exact object?_of_cell? (extends_ h _ (cell?_of_object? found))

/-! ### Operations that only add cells -/

section Growing

variable {along : Heap κ → Heap κ → Prop} [Growing along]

theorem Op.moves_alloc {kind : Kind κ} (classless : kind.isInstance = false) :
    (alloc kind).Moves along := by
  intro heap h after finished
  cases finished
  refine Growing.push heap _ ?_ fun _ => rfl
  cases kind with
  | instanceOf cls => cases classless
  | _ => trivial

mutual

theorem moves_marshal : (arg : Arg κ) → (marshal arg).Moves along
  | .none => Op.moves_alloc rfl
  | .bool _ => Op.moves_alloc rfl
  | .int _ => Op.moves_alloc rfl
  | .big value => by
      rw [marshal]
      cases word? value with
      | some small => exact Op.moves_alloc rfl
      | none => exact Op.moves_throw _
  | .float _ => Op.moves_alloc rfl
  | .string _ => Op.moves_alloc rfl
  | .list items => by
      rw [marshal]
      exact Op.moves_bind (moves_marshalAll items) fun _ => Op.moves_alloc rfl
  | .dict entries => by
      rw [marshal]
      exact Op.moves_bind (moves_marshalEntries entries) fun _ => Op.moves_alloc rfl
  | .keywords entries => by
      rw [marshal]
      exact Op.moves_bind (moves_marshalEntries entries) fun _ => Op.moves_alloc rfl
  | .handle h => Op.moves_pure h
  | .bytes _ => Op.moves_alloc rfl
  | .callback _ => Op.moves_alloc rfl

theorem moves_marshalAll : (args : List (Arg κ)) → (marshalAll args).Moves along
  | [] => Op.moves_pure []
  | arg :: rest => by
      rw [marshalAll]
      exact Op.moves_bind (moves_marshal arg) fun _ =>
        Op.moves_bind (moves_marshalAll rest) fun _ => Op.moves_pure _

theorem moves_marshalEntries : (entries : List (String × Arg κ)) →
    (marshalEntries entries).Moves along
  | [] => Op.moves_pure []
  | (_, arg) :: rest => by
      rw [marshalEntries]
      exact Op.moves_bind (moves_marshal arg) fun _ =>
        Op.moves_bind (moves_marshalEntries rest) fun _ => Op.moves_pure _

end

end Growing

section Allocating

variable {along : Heap κ → Heap κ → Prop} [Allocating along]

theorem Op.moves_allocPlain {kind : Kind κ} (plain : kind.isPlain = true) :
    (alloc kind).Moves along := by
  intro heap h after finished
  cases finished
  obtain ⟨classless, own⟩ := Bool.and_eq_true_iff.mp plain
  refine Allocating.allocate heap _ ?_ (fun _ => rfl) ?_
  · cases kind with
    | instanceOf cls => cases classless
    | _ => trivial
  · intro isFunction
    rw [show kind.isHostFunction = true from isFunction] at own
    cases own

theorem moves_typeOf (h : Handle) : (typeOf h : Op κ Handle).Moves along := by
  refine Op.moves_bind Op.moves_get ?_
  intro heap
  split
  · exact Op.moves_throw _
  · exact Op.moves_pure _
  · split
    · exact Op.moves_pure _
    · exact Op.moves_allocPlain rfl

theorem moves_getAttr (h : Handle) (name : String) :
    (getAttr h name : Op κ Handle).Moves along := by
  refine Op.moves_bind Op.moves_get ?_
  intro heap
  split
  · exact Op.moves_allocPlain rfl
  · exact Op.moves_pure _
  · exact Op.moves_allocPlain rfl
  · exact Op.moves_throw _

theorem moves_getItem (h : Handle) (key : Arg κ) : (getItem h key).Moves along := by
  refine Op.moves_bind Op.moves_get ?_
  intro heap
  split
  · exact Op.moves_throw _
  · exact Op.moves_pure _
  · exact Op.moves_allocPlain rfl
  · exact Op.moves_allocPlain rfl
  · exact Op.moves_allocPlain rfl

theorem moves_allocStrings : (texts : List String) → (allocStrings texts : Op κ _).Moves along
  | [] => Op.moves_pure []
  | _ :: rest =>
      Op.moves_bind (Op.moves_allocPlain rfl) fun _ =>
        Op.moves_bind (moves_allocStrings rest) fun _ => Op.moves_pure _

theorem moves_allocPairs : (entries : Entries Handle) → (allocPairs entries : Op κ _).Moves along
  | [] => Op.moves_pure []
  | (_, _) :: rest =>
      Op.moves_bind (Op.moves_allocPlain rfl) fun _ =>
        Op.moves_bind (Op.moves_allocPlain rfl) fun _ =>
          Op.moves_bind (moves_allocPairs rest) fun _ => Op.moves_pure _

theorem moves_builtinLen (args : List Handle) : (builtinLen args : Op κ Handle).Moves along := by
  refine Op.moves_bind (Op.moves_liftExcept _) fun arg => Op.moves_bind Op.moves_get fun heap => ?_
  split
  · exact Op.moves_throw _
  · exact Op.moves_bind (Op.moves_liftExcept _) fun _ => Op.moves_allocPlain rfl

theorem moves_builtinSlice (args : List Handle) :
    (builtinSlice args : Op κ Handle).Moves along := by
  refine Op.moves_bind Op.moves_get ?_
  intro heap
  split
  · exact Op.moves_bind (Op.moves_liftExcept _) fun _ => Op.moves_allocPlain rfl
  · exact Op.moves_bind (Op.moves_liftExcept _) fun _ =>
      Op.moves_bind (Op.moves_liftExcept _) fun _ => Op.moves_allocPlain rfl
  · exact Op.moves_bind (Op.moves_liftExcept _) fun _ =>
      Op.moves_bind (Op.moves_liftExcept _) fun _ =>
        Op.moves_bind (Op.moves_liftExcept _) fun _ => Op.moves_allocPlain rfl
  · exact Op.moves_throw _

theorem moves_builtinIter (args : List Handle) : (builtinIter args : Op κ Handle).Moves along := by
  refine Op.moves_bind (Op.moves_liftExcept _) fun arg => Op.moves_bind Op.moves_get fun heap => ?_
  split
  · exact Op.moves_throw _
  · exact Op.moves_pure _
  · exact Op.moves_allocPlain rfl
  · exact Op.moves_allocPlain rfl
  · exact Op.moves_bind (moves_allocStrings _) fun _ => Op.moves_allocPlain rfl
  · exact Op.moves_bind (moves_allocStrings _) fun _ => Op.moves_allocPlain rfl
  · exact Op.moves_throw _

theorem moves_callBuiltin (builtin : Builtin) (args : List Handle) :
    (callBuiltin builtin args : Op κ Handle).Moves along := by
  cases builtin with
  | len => exact moves_builtinLen args
  | slice => exact moves_builtinSlice args
  | type => exact Op.moves_bind (Op.moves_liftExcept _) fun arg => moves_typeOf arg
  | iter => exact moves_builtinIter args
  | str =>
      exact Op.moves_bind (Op.moves_liftExcept _) fun arg => Op.moves_bind Op.moves_get fun heap =>
        Op.moves_bind (Op.moves_liftExcept _) fun _ => Op.moves_allocPlain rfl

theorem moves_callInitializer (args : List Handle) (keywords : OrderedMap Handle) :
    (callInitializer args keywords : Op κ Handle).Moves along := by
  unfold callInitializer
  split
  · exact Op.moves_throw _
  · exact Op.moves_allocPlain rfl

/-- An exception comes as four cells: its type is still there when the instance is made. -/
theorem along_addException (heap : Heap κ) (kind message : String) :
    along heap (heap.addException kind message).2 := by
  have typed : ∀ text args : Cell κ,
      (((heap.push (.object ⟨.type ⟨"builtins", kind⟩, .empty⟩)).push text).push args).IsType
        heap.fresh := by
    intro text args
    have found : (heap.push (.object ⟨.type ⟨"builtins", kind⟩, .empty⟩)).cell? heap.fresh =
        some (.object ⟨.type ⟨"builtins", kind⟩, .empty⟩) := by
      rw [cell?_push, if_pos rfl]
    refine ⟨⟨"builtins", kind⟩, ?_⟩
    unfold kind? object?
    rw [cell?_push_of_found (cell?_push_of_found found text) args]
    rfl
  refine IsTrans.trans _ _ _ (Allocating.allocate heap (.object ⟨.type ⟨"builtins", kind⟩, .empty⟩)
    trivial (fun _ => rfl) nofun) ?_
  refine IsTrans.trans _ _ _
    (Allocating.allocate _ (.object ⟨.string message, .empty⟩) trivial (fun _ => rfl) nofun) ?_
  refine IsTrans.trans _ _ _
    (Allocating.allocate _ (.object ⟨.tuple [⟨heap.cells.size + 1⟩], .empty⟩) trivial
      (fun _ => rfl) nofun) ?_
  have last : along _ _ := Allocating.allocate _ (.object ⟨.instanceOf heap.fresh,
    OrderedMap.ofEntries [("args", ⟨heap.cells.size + 1 + 1⟩)]⟩)
    (typed (.object ⟨.string message, .empty⟩)
      (.object ⟨.tuple [⟨heap.cells.size + 1⟩], .empty⟩)) nofun nofun
  simpa only [addException, add, fresh, push, Array.size_push] using last

theorem along_raise (heap : Heap κ) (fault : Fault) : along heap (heap.raise fault).2 := by
  unfold raise
  cases fault.report with
  | exception kind message => exact along_addException heap kind message
  | typeError message => exact Std.Refl.refl heap

theorem along_create (heap : Heap κ) (blueprint : Blueprint κ) :
    along heap (heap.create blueprint).2 := by
  cases blueprint with
  | type info attributes => exact Allocating.allocate heap _ trivial nofun nofun
  | module name attributes => exact Allocating.allocate heap _ trivial nofun nofun
  | stub stub => exact Allocating.allocate heap _ trivial trivial nofun
  | _ => exact Allocating.allocate heap _ trivial (fun _ => rfl) nofun

end Allocating

/-! ### Operations that also write -/

/-- Setting an attribute moves the heap along a relation that holds where this attribute is set. -/
theorem along_setAttr {along : Heap κ → Heap κ → Prop} [IsPreorder (Heap κ) along] {value : Arg κ}
    (marshals : (marshal value).Moves along) {h : Handle} {name : String}
    (named : ∀ {heap : Heap κ} {object : HeapObject κ} (stored : Handle),
      heap.cell? h = some (.object object) → object.kind.acceptsAttributes = true →
        along heap (heap.write h
          (.object { object with attributes := object.attributes.insert name stored })))
    (heap : Heap κ) : along heap (heap.setAttr h name value).2 := by
  unfold setAttr
  split
  · exact Std.Refl.refl heap
  · exact Std.Refl.refl heap
  · rename_i object found
    split
    · rename_i accepts
      split
      · rename_i stored after marshalled
        have grown : along heap after := marshals heap stored after marshalled
        have kept : heap.Extends after := moves_marshal value heap stored after marshalled
        exact IsTrans.trans _ _ _ grown (named stored (kept h _ found) accepts)
      · exact Std.Refl.refl heap
    · exact Std.Refl.refl heap

theorem moves_setAttr {along : Heap κ → Heap κ → Prop} [Shifting along] {value : Arg κ}
    (marshals : (marshal value).Moves along) (heap : Heap κ) (h : Handle) (name : String) :
    along heap (heap.setAttr h name value).2 :=
  along_setAttr marshals (Shifting.named name) heap

section Altering

variable {along : Heap κ → Heap κ → Prop} [Altering along]

theorem becomes_of_storing {kind changed : Kind κ} {key : Arg κ}
    {stored : Handle} (stores : kind.storing key stored = some changed) : kind.Becomes changed := by
  unfold Kind.storing at stores
  split at stores
  · rw [Option.map_eq_some_iff] at stores
    obtain ⟨position, _, rfl⟩ := stores
    exact .list _ _
  · cases stores
    exact .dict _ _ _
  · cases stores

theorem moves_setItem {value : Arg κ} (marshals : (marshal value).Moves along) (heap : Heap κ)
    (h : Handle) (key : Arg κ) : along heap (heap.setItem h key value).2 := by
  unfold setItem
  split
  · exact Std.Refl.refl heap
  · exact Std.Refl.refl heap
  · rename_i object found
    split
    · exact Std.Refl.refl heap
    · rename_i stored after marshalled
      split
      · rename_i kind stores
        have grown : along heap after := marshals heap stored after marshalled
        have kept : heap.Extends after := moves_marshal value heap stored after marshalled
        exact IsTrans.trans _ _ _ grown
          (Altering.content (kept h _ found) (becomes_of_storing stores))
      · exact Std.Refl.refl heap

theorem moves_next (heap : Heap κ) (h : Handle) : along heap (heap.next h).2 := by
  unfold next
  split
  · exact Std.Refl.refl heap
  · rename_i stub found
    split
    · exact Std.Refl.refl heap
    · rename_i step rest script
      have answered : along heap (heap.write h (.stub { stub with script := rest })) :=
        Altering.answered rest found
      cases step with
      | item item => exact answered
      | fail kind message => exact answered
  · rename_i object found
    split
    · exact Std.Refl.refl heap
    · rename_i item rest same
      refine Altering.content found ?_
      rw [same]
      exact .iterator item rest
    · exact Std.Refl.refl heap

/-- Giving the object just read a new content, and going on from there. -/
theorem moves_replaceKind {receiver : Handle} {object : HeapObject κ} {kind : Kind κ}
    {rest : Op κ α} {heap : Heap κ} (read : heap.object? receiver = some object)
    (becomes : object.kind.Becomes kind) (moves : rest.Moves along) :
    ∀ a after, (replaceKind receiver object kind >>= fun _ => rest).run heap = .ok (a, after) →
      along heap after := by
  intro a after finished
  obtain ⟨_, mid, write, finished⟩ := Op.bind_eq_ok_iff.mp finished
  cases write
  exact IsTrans.trans _ _ _ (Altering.content (cell?_of_object? read) becomes)
    (moves _ a after finished)

theorem moves_callContainer (method : ContainerMethod) (receiver : Handle) (args : List Handle) :
    (callContainer method receiver args : Op κ Handle).Moves along := by
  intro heap h after called
  obtain ⟨_, _, got, finished⟩ := Op.bind_eq_ok_iff.mp called
  cases got
  clear called
  -- the object that a method changes was read just now
  revert h after
  split
  · exact Op.moves_throw _ heap
  · rename_i object read
    split
    · exact Op.moves_allocPlain (by rfl) heap
    · exact Op.moves_bind (moves_allocStrings _) (fun _ => Op.moves_allocPlain (by rfl)) heap
    · exact Op.moves_allocPlain (by rfl) heap
    · exact Op.moves_bind (moves_allocPairs _) (fun _ => Op.moves_allocPlain (by rfl)) heap
    · split
      · exact Op.moves_throw _ heap
      · dsimp only
        split
        · exact Op.moves_pure _ heap
        · exact Op.moves_pure _ heap
        · exact Op.moves_allocPlain (by rfl) heap
    · rename_i items same
      split
      · exact Op.moves_throw _ heap
      · exact moves_replaceKind read (same ▸ .list _ _) (Op.moves_allocPlain (by rfl))
    · exact Op.moves_allocPlain (by rfl) heap
    · rename_i items same
      split
      · exact Op.moves_throw _ heap
      · exact moves_replaceKind read (same ▸ .list _ _) (Op.moves_pure _)
    · exact Op.moves_throw _ heap

end Altering

theorem evolves_setAttr {along : Heap κ → Heap κ → Prop} [Evolving along] (heap : Heap κ)
    (h : Handle) (name : String) (value : Arg κ) : along heap (heap.setAttr h name value).2 :=
  moves_setAttr (moves_marshal value) heap h name

theorem evolves_setItem {along : Heap κ → Heap κ → Prop} [Renewing along] (heap : Heap κ)
    (h : Handle) (key value : Arg κ) : along heap (heap.setItem h key value).2 :=
  moves_setItem (moves_marshal value) heap h key

/-! ### What evolution keeps -/

/-- A cell after another that kept all attribute names, in the same places: those that its kind
fixes, those set on it, and the class that it takes more from. -/
inductive KeepsNames : Cell κ → Cell κ → Prop
  | stub (stub : Stub κ) (script : List StubStep) :
      KeepsNames (.stub stub) (.stub { stub with script := script })
  | object {before after : HeapObject κ}
      (fixed : ∀ name, (before.kind.fixedAttribute? name).isSome →
        (after.kind.fixedAttribute? name).isSome)
      (set : ∀ name, (before.attributes.get? name).isSome → (after.attributes.get? name).isSome)
      (inherits : ∀ cls, before.kind = .instanceOf cls → after.kind = .instanceOf cls) :
      KeepsNames (.object before) (.object after)

theorem KeepsNames.refl (cell : Cell κ) : KeepsNames cell cell := by
  cases cell with
  | stub stub => exact .stub stub stub.script
  | object object => exact .object (fun _ has => has) (fun _ has => has) (fun _ is => is)

theorem KeepsNames.trans {first second third : Cell κ} (early : KeepsNames first second)
    (late : KeepsNames second third) : KeepsNames first third := by
  cases early with
  | stub stub script =>
      cases late with
      | stub _ script' => exact .stub stub script'
  | object fixed set inherits =>
      cases late with
      | object fixed' set' inherits' =>
          exact .object (fun name has => fixed' name (fixed name has))
            (fun name has => set' name (set name has))
            (fun cls is => inherits' cls (inherits cls is))

theorem KeepsNames.of_becomes {object : HeapObject κ} {kind : Kind κ}
    (becomes : object.kind.Becomes kind) :
    KeepsNames (.object object) (.object { object with kind := kind }) := by
  refine .object ?_ (fun _ has => has) ?_
  · intro name has
    rw [becomes.fixedAttribute?]
    exact has
  · intro cls is
    rw [is] at becomes
    cases becomes

theorem KeepsNames.of_insert (object : HeapObject κ) (name : String) (value : Handle) :
    KeepsNames (.object object)
      (.object { object with attributes := object.attributes.insert name value }) := by
  refine .object (fun _ has => has) ?_ (fun _ is => is)
  intro other has
  rw [OrderedMap.get?_insert]
  split
  · rfl
  · exact has

theorem cell?_write_self {heap : Heap κ} {h : Handle} {cell : Cell κ}
    (found : heap.cell? h = some cell) (new : Cell κ) :
    (heap.write h new).cell? h = some new := by
  rw [cell?_write, if_pos rfl, found]
  rfl

theorem cell?_write_of_ne {heap : Heap κ} {h k : Handle} (different : k ≠ h) (new : Cell κ) :
    (heap.write h new).cell? k = heap.cell? k := by
  rw [cell?_write, if_neg different]

/-- A write keeps the names of every cell if it keeps those of the cell that is written. -/
theorem keepsNames_write {heap : Heap κ} {h k : Handle} {old new cell : Cell κ}
    (present : heap.cell? k = some old) (keeps : KeepsNames old new)
    (found : heap.cell? h = some cell) :
    ∃ cell', (heap.write k new).cell? h = some cell' ∧ KeepsNames cell cell' := by
  by_cases same : h = k
  · subst same
    cases found.symm.trans present
    exact ⟨new, cell?_write_self present new, keeps⟩
  · exact ⟨cell, (cell?_write_of_ne same new).trans found, .refl cell⟩

/-- No cell disappears from an evolving heap, and none loses an attribute name. -/
theorem Step.keepsNames {heap after : Heap κ} (step : Step heap after) {h : Handle} {cell : Cell κ}
    (found : heap.cell? h = some cell) :
    ∃ cell', after.cell? h = some cell' ∧ KeepsNames cell cell' := by
  cases step with
  | push admitted => exact ⟨cell, cell?_push_of_found found _, .refl cell⟩
  | content present becomes => exact keepsNames_write present (.of_becomes becomes) found
  | named name value present accepts => exact keepsNames_write present (.of_insert _ _ _) found
  | answered script present => exact keepsNames_write present (.stub _ script) found

theorem Evolves.keepsNames {heap after : Heap κ} (evolves : heap.Evolves after) {h : Handle}
    {cell : Cell κ} (found : heap.cell? h = some cell) :
    ∃ cell', after.cell? h = some cell' ∧ KeepsNames cell cell' := by
  induction evolves with
  | refl => exact ⟨cell, found, .refl cell⟩
  | tail _ step ih =>
      obtain ⟨mid, present, early⟩ := ih
      obtain ⟨last, present, late⟩ := step.keepsNames present
      exact ⟨last, present, early.trans late⟩

/-- Where the attributes of an object are found. -/
theorem hasAttr_object {heap : Heap κ} {h : Handle} {object : HeapObject κ}
    (found : heap.cell? h = some (.object object)) (name : String) :
    heap.hasAttr h name = true ↔ (object.kind.fixedAttribute? name).isSome = true ∨
      (object.attributes.get? name).isSome = true ∨
      (heap.inheritedAttribute? object.kind name).isSome = true := by
  unfold hasAttr attribute?
  rw [found]
  dsimp only
  cases object.kind.fixedAttribute? name with
  | some fixed => exact iff_of_true rfl (.inl rfl)
  | none =>
      cases object.attributes.get? name with
      | some value => exact iff_of_true rfl (.inr (.inl rfl))
      | none => simp

theorem isSome_inheritedAttribute? (heap : Heap κ) (cls : Handle) (name : String) :
    (heap.inheritedAttribute? (.instanceOf cls) name).isSome = true ↔
      ((heap.object? cls).bind (·.attributes.get? name)).isSome = true ∨ name = "__init__" := by
  unfold inheritedAttribute?
  dsimp only
  split
  · rename_i value read
    rw [read]
    split <;> simp
  · rename_i missing
    rw [missing]
    split <;> simp [*]

section KeepsNames

variable {heap after : Heap κ} (keepsNames : ∀ {h : Handle} {cell : Cell κ},
  heap.cell? h = some cell → ∃ cell', after.cell? h = some cell' ∧ KeepsNames cell cell')

include keepsNames

theorem inheritedAttribute?_of_keepsNames {before later : Kind κ}
    (inherits : ∀ cls, before = .instanceOf cls → later = .instanceOf cls)
    {name : String} (has : (heap.inheritedAttribute? before name).isSome = true) :
    (after.inheritedAttribute? later name).isSome = true := by
  cases before with
  | instanceOf cls =>
      rw [isSome_inheritedAttribute?] at has
      rw [inherits cls rfl, isSome_inheritedAttribute?]
      refine has.imp_left fun has => ?_
      cases read : heap.object? cls with
      | none =>
          rw [read] at has
          cases has
      | some object =>
          rw [read] at has
          obtain ⟨cell, found, keeps⟩ := keepsNames (cell?_of_object? read)
          cases keeps with
          | object _ set _ =>
              rw [object?_of_cell? found]
              exact set name has
  | _ => cases has

/-- Where no cell loses a name, no value loses an attribute: neither its own nor its class's. -/
theorem hasAttr_of_keepsNames {h : Handle} {name : String} (has : heap.hasAttr h name = true) :
    after.hasAttr h name = true := by
  cases found : heap.cell? h with
  | none =>
      unfold Heap.hasAttr attribute? at has
      rw [found] at has
      cases has
  | some cell =>
      obtain ⟨cell', found', keeps⟩ := keepsNames found
      cases cell with
      | stub stub =>
          cases keeps with
          | stub _ script =>
              unfold Heap.hasAttr attribute? at has ⊢
              rw [found] at has
              rw [found']
              exact has
      | object object =>
          cases keeps with
          | @object _ object' fixed set inherits =>
              rw [hasAttr_object found] at has
              rw [hasAttr_object found']
              rcases has with has | has | has
              · exact .inl (fixed name has)
              · exact .inr (.inl (set name has))
              · exact .inr (.inr (inheritedAttribute?_of_keepsNames keepsNames inherits has))

end KeepsNames

/-- An attribute that a value has is never taken away again. -/
theorem Evolves.hasAttr {heap after : Heap κ} (evolves : heap.Evolves after) {h : Handle}
    {name : String} (has : heap.hasAttr h name = true) : after.hasAttr h name = true :=
  hasAttr_of_keepsNames evolves.keepsNames has

end Heap

end Interop
