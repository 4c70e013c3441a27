import Interop.Proofs.Heap.Evolution
/-!
The machine evolves its heap: whatever runs on it, no value disappears, no class changes, and no
attribute is taken away.
-/

set_option autoImplicit false

namespace Interop

variable {κ σ α β : Type}

/-! ### Operations as computations -/

section Allocating

variable {along : Heap κ → Heap κ → Prop} [Heap.Allocating along]

namespace Run

theorem moves_attemptOp {op : Heap.Op κ α} (hOp : op.Moves along) :
    Moves along (attempt op : Run κ σ (Except Error α)) :=
  moves_attempt hOp Heap.along_raise

theorem moves_check (f : Heap κ → Except Fault α) :
    Moves along (check f : Run κ σ (Except Error α)) :=
  moves_attemptOp (Heap.Op.moves_check f)

theorem moves_raise (fault : Fault) : Moves along (raise fault : Run κ σ Error) :=
  moves_onHeap fun heap => Heap.along_raise heap fault

end Run

namespace Exec

theorem moves_ofOp {op : Heap.Op κ α} (hOp : op.Moves along) :
    Run.Moves along (ofOp op : Exec κ σ α).run :=
  Run.moves_attemptOp hOp

theorem moves_fault (f : Fault) : Run.Moves along (fault f : Exec κ σ α).run :=
  moves_ofOp (Heap.Op.moves_throw f)

theorem moves_readHeap (f : Heap κ → α) : Run.Moves along (readHeap f : Exec κ σ α).run :=
  moves_lift (Run.moves_readHeap f)

end Exec

end Allocating

/-! ### Evaluation of scripts -/

namespace Exec

/-- A property of computations that a whole has if its parts have it, and that every operation has
that adds cells and hands out no function of the host. -/
structure Closed (good : (α : Type) → Exec κ σ α → Prop) : Prop where
  pure : ∀ {α : Type} (a : α), good α (pure a)
  bind : ∀ {α β : Type} {x : Exec κ σ α} {f : α → Exec κ σ β}, good α x → (∀ a, good β (f a)) →
    good β (x >>= f)
  tryCatch : ∀ {α : Type} {x : Exec κ σ α} {recover : Error → Exec κ σ α}, good α x →
    (∀ error, good α (recover error)) → good α (tryCatch x recover)
  get : good (World κ σ) get
  ofOp : ∀ {α : Type} {op : Heap.Op κ α},
    (∀ (along : Heap κ → Heap κ → Prop) [Heap.Allocating along], op.Moves along) →
      good α (ofOp op)

/-- A property that moreover every change of contents has. -/
structure ClosedWriting (good : (α : Type) → Exec κ σ α → Prop) : Prop extends Closed good where
  onHeap : ∀ {α : Type} {f : Heap κ → α × Heap κ},
    (∀ (along : Heap κ → Heap κ → Prop) [Heap.Shifting along] (heap : Heap κ),
      along heap (f heap).2) → good α (ExceptT.lift (Run.onHeap f))

theorem closed_moves (along : Heap κ → Heap κ → Prop) [Heap.Allocating along] :
    Closed (κ := κ) (σ := σ) fun _ x => Run.Moves along x.run where
  pure := moves_pure
  bind := moves_bind
  tryCatch := moves_tryCatch
  get := moves_lift Run.moves_get
  ofOp moves := moves_ofOp (moves along)

theorem closedWriting_moves (along : Heap κ → Heap κ → Prop) [Heap.Shifting along] :
    ClosedWriting (κ := κ) (σ := σ) fun _ x => Run.Moves along x.run where
  toClosed := closed_moves along
  onHeap moves := moves_lift (Run.moves_onHeap fun heap => moves along heap)

end Exec

/-- What evaluated code can pass: foreign values, and groups of keywords that stand for them. -/
def Arg.IsForeign : Arg κ → Prop
  | .handle _ => True
  | .keywords entries => ∀ entry ∈ entries, ∃ h, entry.2 = .handle h
  | _ => False

namespace Script

theorem eq_int_of_checkedInt {i : Int} {kind : Kind κ} (checked : checkedInt i = .ok kind) :
    ∃ value, kind = .int value := by
  unfold checkedInt at checked
  split at checked
  · cases checked
    exact ⟨_, rfl⟩
  · cases checked

/-- What an operation on two objects can give: only the sum of two lists holds handles. -/
theorem combine_eq_ok {heap : Heap κ} {operator : Operator} {left right kind : Kind κ}
    (combined : combine heap operator left right = .ok kind) :
    (∃ value, kind = .int value) ∨ (∃ value, kind = .string value) ∨
      (∃ value, kind = .float value) ∨
      ∃ a b, left = .list a ∧ right = .list b ∧ kind = .list (a ++ b) := by
  unfold combine at combined
  split at combined
  · exact .inl (eq_int_of_checkedInt combined)
  · cases combined
    exact .inr (.inl ⟨_, rfl⟩)
  · cases combined
    exact .inr (.inr (.inr ⟨_, _, rfl, rfl, rfl⟩))
  · split at combined
    · cases combined
      exact .inr (.inr (.inl ⟨_, rfl⟩))
    · cases combined

section Allocating

variable {along : Heap κ → Heap κ → Prop} [Heap.Allocating along]

theorem moves_allocChecked {check : Except Fault (Kind κ)}
    (plain : ∀ kind, check = .ok kind → kind.isPlain = true) :
    (liftM check >>= Heap.Op.alloc).Moves along := by
  cases check with
  | error fault => exact Heap.Op.moves_throw fault
  | ok kind => exact Heap.Op.moves_allocPlain (plain kind rfl)

theorem moves_applyOperator (operator : Operator) (left right : Handle) :
    (applyOperator operator left right : Heap.Op κ Handle).Moves along := by
  refine Heap.Op.moves_bind Heap.Op.moves_get fun heap => ?_
  split
  · apply moves_allocChecked
    intro kind combined
    rcases combine_eq_ok combined with ⟨_, rfl⟩ | ⟨_, rfl⟩ | ⟨_, rfl⟩ | ⟨_, _, _, _, rfl⟩ <;> rfl
  · exact Heap.Op.moves_throw _

theorem moves_negate (operand : Handle) : (negate operand : Heap.Op κ Handle).Moves along := by
  refine Heap.Op.moves_bind Heap.Op.moves_get fun heap => ?_
  split
  · apply moves_allocChecked
    intro kind checked
    obtain ⟨_, rfl⟩ := eq_int_of_checkedInt checked
    rfl
  · exact Heap.Op.moves_allocPlain rfl
  · exact Heap.Op.moves_throw _

end Allocating

variable {good : (α : Type) → Exec κ σ α → Prop} {scope : Scope κ σ}

/-- Invocations from a scope move the heap along a relation. -/
def Scope.Moves (along : Heap κ → Heap κ → Prop) (scope : Scope κ σ) : Prop :=
  ∀ h args, Run.Moves along (scope.invoke h args).run

/-- Whatever evaluated code invokes from a scope has a property. -/
def Scope.Invokes (good : (α : Type) → Exec κ σ α → Prop) (scope : Scope κ σ) : Prop :=
  ∀ h args, (∀ arg ∈ args, arg.IsForeign) → good Handle (scope.invoke h args)

theorem good_fault (closed : Exec.Closed good) {α : Type} (fault : Fault) :
    good α (Exec.fault fault) :=
  closed.ofOp fun _ => Heap.Op.moves_throw fault

theorem good_lookup (closed : Exec.Closed good) (scope : Scope κ σ) (name : String) :
    good Handle (scope.lookup name) := by
  have bound : ∀ mapping : Handle, good Handle
      (Exec.ofOp (Heap.getItem mapping (.string name))) :=
    fun mapping => closed.ofOp fun _ => Heap.moves_getItem mapping _
  refine closed.bind closed.get fun world => ?_
  refine closed.tryCatch (bound _) fun _ => closed.tryCatch (bound _) fun _ => ?_
  split
  · exact closed.pure _
  · exact good_fault closed _

theorem isForeign_of_call {positional : List Handle} {named : Entries Handle} :
    ∀ arg ∈ positional.map Arg.handle ++ (if named.isEmpty then [] else
        [.keywords ((Entries.normalize named).map fun entry => (entry.1, .handle entry.2))]),
      (arg : Arg κ).IsForeign := by
  intro arg among
  rcases List.mem_append.mp among with among | among
  · obtain ⟨h, _, rfl⟩ := List.mem_map.mp among
    exact trivial
  · split at among
    · cases among
    · obtain rfl := List.mem_singleton.mp among
      intro entry among
      obtain ⟨own, _, rfl⟩ := List.mem_map.mp among
      exact ⟨own.2, rfl⟩

mutual

theorem good_eval (closed : Exec.Closed good) (invokes : scope.Invokes good) :
    (expr : Expr) → good Handle (scope.eval expr)
  | .int _ | .float _ | .string _ | .none | .bool _ => by
      rw [Scope.eval]
      exact closed.ofOp fun _ => Heap.Op.moves_allocPlain rfl
  | .name name => by
      rw [Scope.eval]
      exact good_lookup closed scope name
  | .list items => by
      rw [Scope.eval]
      exact closed.bind (good_evalAll closed invokes items) fun _ =>
        closed.ofOp fun _ => Heap.Op.moves_allocPlain rfl
  | .dict entries => by
      rw [Scope.eval]
      exact closed.bind (good_evalEntries closed invokes entries) fun _ =>
        closed.ofOp fun _ => Heap.Op.moves_allocPlain rfl
  | .neg operand => by
      rw [Scope.eval]
      exact closed.bind (good_eval closed invokes operand) fun _ =>
        closed.ofOp fun _ => moves_negate _
  | .binary left operator right => by
      rw [Scope.eval]
      exact closed.bind (good_eval closed invokes left) fun _ =>
        closed.bind (good_eval closed invokes right) fun _ =>
          closed.ofOp fun _ => moves_applyOperator _ _ _
  | .call function args keywords => by
      rw [Scope.eval]
      exact closed.bind (good_eval closed invokes function) fun _ =>
        closed.bind (good_evalAll closed invokes args) fun _ =>
          closed.bind (good_evalEntries closed invokes keywords) fun _ =>
            invokes _ _ isForeign_of_call
  | .attr target name => by
      rw [Scope.eval]
      exact closed.bind (good_eval closed invokes target) fun _ =>
        closed.ofOp fun _ => Heap.moves_getAttr _ _
  | .item target key => by
      rw [Scope.eval]
      exact closed.bind (good_eval closed invokes target) fun _ =>
        closed.bind (good_eval closed invokes key) fun _ =>
          closed.ofOp fun _ => Heap.moves_getItem _ _

theorem good_evalAll (closed : Exec.Closed good) (invokes : scope.Invokes good) :
    (exprs : List Expr) → good (List Handle) (scope.evalAll exprs)
  | [] => by
      rw [Scope.evalAll]
      exact closed.pure _
  | expr :: rest => by
      rw [Scope.evalAll]
      exact closed.bind (good_eval closed invokes expr) fun _ =>
        closed.bind (good_evalAll closed invokes rest) fun _ => closed.pure _

theorem good_evalEntries (closed : Exec.Closed good) (invokes : scope.Invokes good) :
    (entries : List (String × Expr)) → good (Entries Handle) (scope.evalEntries entries)
  | [] => by
      rw [Scope.evalEntries]
      exact closed.pure _
  | (_, expr) :: rest => by
      rw [Scope.evalEntries]
      exact closed.bind (good_eval closed invokes expr) fun _ =>
        closed.bind (good_evalEntries closed invokes rest) fun _ => closed.pure _

end

theorem good_accepted (closed : Exec.Closed good) (target : String) (status : Status) :
    good Unit (accepted target status) := by
  unfold accepted
  split
  · exact closed.pure _
  · exact good_fault closed _

section Execution

variable (closed : Exec.ClosedWriting good) (invokes : scope.Invokes good)

include closed

theorem good_setItem (h : Handle) (key : Arg κ) (value : Handle) :
    good Status (ExceptT.lift (Run.onHeap (·.setItem h key (.handle value)))) :=
  closed.onHeap fun _ _ heap => Heap.moves_setItem (Heap.Op.moves_pure value) heap h key

include invokes

/-- What evaluated code assigns is there already, so that no cell is made for it. -/
theorem good_assign (target : Expr) (value : Handle) : good Unit (scope.assign target value) := by
  have evaluated := good_eval closed.toClosed invokes
  cases target with
  | name name =>
      exact closed.bind (good_setItem closed _ _ _) fun status =>
        good_accepted closed.toClosed _ status
  | attr target name =>
      refine closed.bind (evaluated target) fun object => closed.bind ?_ fun status =>
        good_accepted closed.toClosed _ status
      exact closed.onHeap fun _ _ heap =>
        Heap.moves_setAttr (Heap.Op.moves_pure value) heap object name
  | item target key =>
      exact closed.bind (evaluated target) fun object => closed.bind (evaluated key) fun k =>
        closed.bind (good_setItem closed _ _ _) fun status => good_accepted closed.toClosed _ status
  | _ => exact good_fault closed.toClosed _

theorem good_step (statement : Statement) : good (Option Handle) (scope.step statement) := by
  have evaluated := good_eval closed.toClosed invokes
  cases statement with
  | expr expr => exact closed.bind (evaluated expr) fun _ => closed.pure _
  | assign target expr =>
      exact closed.bind (evaluated expr) fun value =>
        closed.bind (good_assign closed invokes target value) fun _ => closed.pure _

theorem good_steps (last : Option Handle) (statements : List Statement) :
    good (Option Handle) (scope.steps last statements) := by
  induction statements generalizing last with
  | nil => exact closed.pure _
  | cons statement rest ih =>
      exact closed.bind (good_step closed invokes statement) fun next => ih next

theorem good_exec (source : String) : good Handle (scope.exec source) := by
  unfold Scope.exec
  split
  · exact good_fault closed.toClosed _
  · refine closed.bind (good_steps closed invokes none _) fun value => ?_
    split
    · exact closed.pure _
    · exact closed.ofOp fun _ => Heap.Op.moves_allocPlain rfl

end Execution

end Script

/-! ### The machine -/

/-- Whether answering a request can itself set an attribute. -/
def Request.canSetAttributes : Request κ σ → Bool
  | .setAttr _ _ _ => true
  | .exec _ _ _ => true
  | _ => false

namespace Machine

theorem moves_registry {along : Heap κ → Heap κ → Prop} [IsPreorder (Heap κ) along] :
    Run.Moves along (registry : Run κ σ (Registry κ)) := by
  intro world answer after finished
  cases finished
  dsimp only
  split
  · exact ⟨Std.Refl.refl world.heap, rfl, rfl, rfl, rfl, rfl⟩
  · exact World.Moves.refl world

section Renewing

variable {host : Host κ σ} {below : Handler κ σ} {along : Heap κ → Heap κ → Prop}
  [Heap.Renewing along]

theorem evolves_runProgram (answers : ∀ request, Run.Moves along (below request))
    (program : Program κ σ α) : Run.Moves along (runProgram below program).run :=
  Interaction.moves_run answers program.run

theorem evolves_callNative (answers : ∀ request, Run.Moves along (below request))
    (code : NativeCode κ) (args : List Handle) (keywords : OrderedMap Handle) :
    Run.Moves along (callNative host below code args keywords).run := by
  cases code with
  | builtin builtin => exact Exec.moves_ofOp (Heap.moves_callBuiltin builtin args)
  | container method =>
      cases args with
      | nil => exact Exec.moves_fault _
      | cons receiver rest => exact Exec.moves_ofOp (Heap.moves_callContainer method receiver rest)
  | initializer => exact Exec.moves_ofOp (Heap.moves_callInitializer args keywords)
  | host code => exact evolves_runProgram answers _

theorem evolves_invokeCallback (answers : ∀ request, Run.Moves along (below request))
    (function : Callback κ) (args : List Handle) (keywords : OrderedMap Handle) :
    Run.Moves along (invokeCallback host below function args keywords).run := by
  unfold invokeCallback
  split
  · exact Exec.moves_bind (evolves_runProgram answers _) fun answer =>
      Exec.moves_ofOp (Heap.moves_marshal answer)
  · exact Exec.moves_fault _

/-- An instance is made of a class that is there. -/
theorem evolves_instantiate (answers : ∀ request, Run.Moves along (below request))
    {world after : World κ σ} {cls : Handle} {args : List (Arg κ)} {result : Except Error Handle}
    (isType : world.heap.IsType cls)
    (finished : (instantiate below cls args).run world = some (result, after)) :
    world.Moves along after := by
  unfold instantiate at finished
  rcases Exec.run_bind_eq_some_iff.mp finished with ⟨made, mid, alloc, finished⟩ | ⟨_, alloc, _⟩
  · cases alloc
    -- only the first step needs the class, which later ones could not take away anyway
    have rest : Run.Moves along (ExceptT.run (do
        let initializer ← Exec.ofOp (Heap.getAttr world.heap.fresh "__init__")
        let _ ← ExceptT.mk (below (.invoke initializer args))
        return world.heap.fresh : Exec κ σ Handle)) :=
      Exec.moves_bind (Exec.moves_ofOp (Heap.moves_getAttr _ _)) fun initializer =>
        Exec.moves_bind (answers _) fun _ => Exec.moves_pure _
    have pushed : world.Moves along
        { world with heap := world.heap.push (.object ⟨.instanceOf cls, .empty⟩) } :=
      .ofHeap (Heap.Growing.push _ _ isType nofun)
    exact pushed.trans (rest _ result after finished)
  · cases alloc

theorem evolves_invoke (answers : ∀ request, Run.Moves along (below request)) (h : Handle)
    (args : List (Arg κ)) : Run.Moves along (invoke host below h args).run := by
  intro world result after finished
  rcases Exec.run_bind_eq_some_iff.mp finished with ⟨_, _, read, finished⟩ | ⟨_, impossible, _⟩
  case inr => cases impossible
  cases read
  split at finished
  · exact Exec.moves_fault _ world result after finished
  · rename_i info attributes found
    refine evolves_instantiate answers ⟨info, ?_⟩ finished
    unfold Heap.kind?
    rw [Heap.object?_of_cell? found]
    rfl
  · refine Exec.moves_bind (Exec.moves_ofOp (Heap.moves_marshalAll _)) (fun handles => ?_)
      world result after finished
    refine Exec.moves_bind (Exec.moves_ofOp (Heap.moves_marshalEntries _)) fun named => ?_
    split
    · split
      · exact evolves_runProgram answers _
      · exact Exec.moves_fault _
    · split
      · exact evolves_callNative answers _ _ _
      · exact evolves_callNative answers _ _ _
      · exact evolves_invokeCallback answers _ _ _
      · exact evolves_invokeCallback answers _ _ _
      · exact Exec.moves_bind (Exec.moves_readHeap _) fun _ => Exec.moves_fault _

theorem evolves_next (h : Handle) :
    Run.Moves along (next h : Run κ σ (Except Error (Option Handle))) := by
  refine Run.moves_bind (Run.moves_onHeap fun heap => Heap.moves_next heap h) fun item => ?_
  cases item with
  | ok item => exact Run.moves_pure _
  | error fault => exact Run.moves_bind (Run.moves_raise fault) fun _ => Run.moves_pure _

theorem evolves_inspect (h : Handle) :
    Run.Moves along (inspect h : Run κ σ (Option Inspection)) := by
  refine Run.moves_bind (Run.moves_readHeap _) fun kind => ?_
  cases kind with
  | none => exact Run.moves_pure _
  | some kind =>
      exact Run.moves_bind (Run.moves_readHeap _) fun _ =>
        Run.moves_bind (Run.moves_check _) fun _ => Run.moves_pure _

theorem evolves_bindMethod (function : Callback κ) (receiver : Handle) :
    Run.Moves along (bindMethod function receiver : Exec κ σ Handle).run := by
  refine Exec.moves_bind (Exec.moves_readHeap _) fun object => ?_
  cases object with
  | none => exact Exec.moves_fault _
  | some object => exact Exec.moves_ofOp (Heap.Op.moves_alloc rfl)

theorem evolves_materialize (error : Error) :
    Run.Moves along (materialize error : Run κ σ (Except Error ForeignException)) := by
  cases error with
  | foreign exception => exact Run.moves_pure _
  | type fault =>
      exact Run.moves_bind
        (Run.moves_onHeap fun heap => Heap.along_addException heap "TypeError" fault.message)
        fun _ => Run.moves_pure _

/-- A request that sets no attribute only adds cells and changes contents. -/
theorem renews_layer (answers : ∀ request, Run.Moves along (below request))
    {request : Request κ σ} (sparing : request.canSetAttributes = false) :
    Run.Moves along (layer host below request) := by
  cases request with
  | typeOf h => exact Run.moves_attemptOp (Heap.moves_typeOf h)
  | primitive h => exact Run.moves_check _
  | invoke h args => exact evolves_invoke answers h args
  | text h => exact Run.moves_check _
  | describe h => exact Run.moves_readHeap (·.describe h)
  | isCallable h => exact Run.moves_readHeap (isCallable · h)
  | isIterator h => exact Run.moves_readHeap (isIterator · h)
  | isSequence h => exact Run.moves_readHeap (isSequence · h)
  | next h => exact evolves_next h
  | hash h => exact Run.moves_check _
  | hasAttr h name => exact Run.moves_readHeap (·.hasAttr h name)
  | getAttr h name => exact Run.moves_attemptOp (Heap.moves_getAttr h name)
  | setAttr h name value => cases sparing
  | getItem h key => exact Run.moves_attemptOp (Heap.moves_getItem h key)
  | setItem h key value =>
      exact Run.moves_onHeap fun heap => Heap.evolves_setItem heap h key value
  | builtin name =>
      refine Run.moves_bind Run.moves_get fun world => ?_
      split
      · exact Run.moves_pure _
      · exact Run.moves_bind (Run.moves_raise _) fun _ => Run.moves_pure _
  | globals => exact Run.moves_bind Run.moves_get fun world => Run.moves_pure _
  | ownGlobal name => exact Run.moves_bind Run.moves_get fun world => Run.moves_pure _
  | importModule name =>
      refine Run.moves_bind Run.moves_get fun world => ?_
      split
      · exact Run.moves_pure _
      · exact Run.moves_bind (Run.moves_raise _) fun _ => Run.moves_pure _
  | exec source globals locals => cases sparing
  | bindMethod function receiver => exact evolves_bindMethod function receiver
  | materialize error => exact evolves_materialize error
  | create blueprint => exact Run.moves_onHeap fun heap => Heap.along_create heap blueprint
  | marshal arg => exact Run.moves_attemptOp (Heap.moves_marshal arg)
  | exception kind message =>
      exact Run.moves_onHeap fun heap => Heap.along_addException heap kind message
  | inspect h => exact evolves_inspect h
  | registry => exact moves_registry
  | settings => exact Run.moves_bind Run.moves_get fun world => Run.moves_pure _
  | members delegator h => exact evolves_runProgram answers _
  | runMethod code receiver args => exact evolves_runProgram answers _
  | readState => exact Run.moves_bind Run.moves_get fun world => Run.moves_pure _
  | writeState state =>
      intro world answer after finished
      cases finished
      exact ⟨Std.Refl.refl world.heap, rfl, rfl, rfl, rfl, rfl⟩

end Renewing

variable {along : Heap κ → Heap κ → Prop} [Heap.Evolving along]

/-- Whatever is asked of the machine, its heap evolves. -/
theorem evolves_layer {host : Host κ σ} {below : Handler κ σ}
    (answers : ∀ request, Run.Moves along (below request)) :
    ∀ request, Run.Moves along (layer host below request) := by
  intro request
  cases request with
  | setAttr h name value =>
      exact Run.moves_onHeap fun heap => Heap.evolves_setAttr heap h name value
  | exec source globals locals =>
      let scope : Script.Scope κ σ := ⟨globals, locals, fun h args => .mk (below (.invoke h args))⟩
      have moves : scope.Moves along := fun h args => answers (.invoke h args)
      have invokes : scope.Invokes fun _ x => Run.Moves along x.run := fun h args _ => moves h args
      exact Script.good_exec (Exec.closedWriting_moves along) invokes source
  | _ => exact renews_layer answers rfl

theorem evolves_answer (host : Host κ σ) (layers : Nat) :
    ∀ request, Run.Moves along (answer host layers request) :=
  moves_tower (fun _ answers => evolves_layer answers) layers

end Machine

end Interop
