import Interop.Proofs.Machine.Evolution
/-!
Families of computations: one and the same code on several machines, one machine for each index. A
property of families that a whole has if its parts have it holds of all that a layer answers, as
soon as it holds of what the layers below it answer.
-/

set_option autoImplicit false

namespace Interop

variable {κ σ ι α β : Type}

/-- A property of families that a single computation has if it only evolves the heap or makes an
object, and that a whole has if its parts have it. -/
structure Run.Compositional (good : (α : Type) → (ι → Run κ σ α) → Prop) : Prop where
  own : ∀ {α : Type} {x : Run κ σ α}, Moves Heap.Evolves x → good α fun _ => x
  make : ∀ kind : Kind κ, good _ fun _ => (Exec.ofOp (Heap.Op.alloc kind) : Exec κ σ Handle).run
  bind : ∀ {α β : Type} {x : ι → Run κ σ α} {f : ι → α → Run κ σ β}, good α x →
    (∀ a, good β fun i => f i a) → good β fun i => x i >>= f i

variable {good : (α : Type) → (ι → Run κ σ α) → Prop}

namespace Run.Compositional

variable (closed : Run.Compositional good)

include closed

theorem fault (f : Fault) : good _ fun _ => (Exec.fault f : Exec κ σ α).run :=
  closed.own (Exec.moves_fault f)

theorem bindExec {x : ι → Exec κ σ α} {f : ι → α → Exec κ σ β} (first : good _ fun i => (x i).run)
    (rest : ∀ a, good _ fun i => (f i a).run) : good _ fun i => (x i >>= f i).run := by
  simp only [ExceptT.run_bind]
  refine closed.bind first fun result => ?_
  cases result with
  | ok a => exact rest a
  | error error => exact closed.own (Run.moves_pure (Except.error error))

/-- What comes after the members of a family may be the same for all. -/
theorem bindOwn {x : ι → Exec κ σ α} {f : α → Exec κ σ β} (first : good _ fun i => (x i).run)
    (moves : ∀ a, Moves Heap.Evolves (f a).run) : good _ fun i => (x i >>= f).run :=
  closed.bindExec first fun a => closed.own (moves a)

/-- And so may what comes before them. -/
theorem ownBind {x : Exec κ σ α} {f : ι → α → Exec κ σ β} (moves : Moves Heap.Evolves x.run)
    (rest : ∀ a, good _ fun i => (f i a).run) : good _ fun i => (x >>= f i).run :=
  closed.bindExec (closed.own moves) rest

end Run.Compositional

/-! ### Scripts -/

namespace Script

/-- The scope with other invocations. -/
def Scope.withInvoke (scope : Scope κ σ) (invoke : Handle → List (Arg κ) → Exec κ σ Handle) :
    Scope κ σ :=
  { scope with invoke := invoke }

variable {invoke : ι → Handle → List (Arg κ) → Exec κ σ Handle} {scope : Scope κ σ}

/-- A family of scopes that only differ in what they invoke. -/
def Scope.InvokesAll (good : (α : Type) → (ι → Run κ σ α) → Prop)
    (invoke : ι → Handle → List (Arg κ) → Exec κ σ Handle) : Prop :=
  ∀ h args, good _ fun i => (invoke i h args).run

mutual

theorem family_eval (closed : Run.Compositional good) (invokes : Scope.InvokesAll good invoke) :
    (expr : Expr) → good _ fun i => ((scope.withInvoke (invoke i)).eval expr).run
  | .int _ | .float _ | .string _ | .none | .bool _ => by
      simp only [Scope.eval]
      exact closed.own (Exec.moves_ofOp (Heap.Op.moves_allocPlain rfl))
  | .name name => by
      simp only [Scope.eval]
      exact closed.own (good_lookup (Exec.closed_moves _) scope name)
  | .list items => by
      simp only [Scope.eval]
      exact closed.bindOwn (family_evalAll closed invokes items) fun _ =>
        Exec.moves_ofOp (Heap.Op.moves_allocPlain rfl)
  | .dict entries => by
      simp only [Scope.eval]
      exact closed.bindOwn (family_evalEntries closed invokes entries) fun _ =>
        Exec.moves_ofOp (Heap.Op.moves_allocPlain rfl)
  | .neg operand => by
      simp only [Scope.eval]
      exact closed.bindOwn (family_eval closed invokes operand) fun _ =>
        Exec.moves_ofOp (moves_negate _)
  | .binary left operator right => by
      simp only [Scope.eval]
      exact closed.bindExec (family_eval closed invokes left) fun _ =>
        closed.bindOwn (family_eval closed invokes right) fun _ =>
          Exec.moves_ofOp (moves_applyOperator _ _ _)
  | .call function args keywords => by
      simp only [Scope.eval]
      exact closed.bindExec (family_eval closed invokes function) fun _ =>
        closed.bindExec (family_evalAll closed invokes args) fun _ =>
          closed.bindExec (family_evalEntries closed invokes keywords) fun _ => invokes _ _
  | .attr target name => by
      simp only [Scope.eval]
      exact closed.bindOwn (family_eval closed invokes target) fun _ =>
        Exec.moves_ofOp (Heap.moves_getAttr _ _)
  | .item target key => by
      simp only [Scope.eval]
      exact closed.bindExec (family_eval closed invokes target) fun _ =>
        closed.bindOwn (family_eval closed invokes key) fun _ =>
          Exec.moves_ofOp (Heap.moves_getItem _ _)

theorem family_evalAll (closed : Run.Compositional good) (invokes : Scope.InvokesAll good invoke) :
    (exprs : List Expr) → good _ fun i => ((scope.withInvoke (invoke i)).evalAll exprs).run
  | [] => by
      simp only [Scope.evalAll]
      exact closed.own (Exec.moves_pure _)
  | expr :: rest => by
      simp only [Scope.evalAll]
      exact closed.bindExec (family_eval closed invokes expr) fun _ =>
        closed.bindOwn (family_evalAll closed invokes rest) fun _ => Exec.moves_pure _

theorem family_evalEntries (closed : Run.Compositional good)
    (invokes : Scope.InvokesAll good invoke) : (entries : List (String × Expr)) →
    good _ fun i => ((scope.withInvoke (invoke i)).evalEntries entries).run
  | [] => by
      simp only [Scope.evalEntries]
      exact closed.own (Exec.moves_pure _)
  | (_, expr) :: rest => by
      simp only [Scope.evalEntries]
      exact closed.bindExec (family_eval closed invokes expr) fun _ =>
        closed.bindOwn (family_evalEntries closed invokes rest) fun _ => Exec.moves_pure _

end

variable (closed : Run.Compositional good) (invokes : Scope.InvokesAll good invoke)

include closed invokes

theorem family_assign (target : Expr) (value : Handle) :
    good _ fun i => ((scope.withInvoke (invoke i)).assign target value).run := by
  have writing := Exec.closedWriting_moves (κ := κ) (σ := σ) Heap.Evolves
  have judged := good_accepted writing.toClosed
  cases target with
  | name name =>
      exact closed.own (writing.bind (good_setItem writing _ _ _) fun status => judged _ status)
  | attr target name =>
      refine closed.bindOwn (family_eval closed invokes target) fun object =>
        writing.bind ?_ fun status => judged _ status
      exact Exec.moves_lift (Run.moves_onHeap fun heap => Heap.evolves_setAttr heap object name _)
  | item target key =>
      exact closed.bindExec (family_eval closed invokes target) fun object =>
        closed.bindOwn (family_eval closed invokes key) fun k =>
          writing.bind (good_setItem writing _ _ _) fun status => judged _ status
  | _ => exact closed.fault _

theorem family_step (statement : Statement) :
    good _ fun i => ((scope.withInvoke (invoke i)).step statement).run := by
  cases statement with
  | expr expr => exact closed.bindOwn (family_eval closed invokes expr) fun _ => Exec.moves_pure _
  | assign target expr =>
      exact closed.bindExec (family_eval closed invokes expr) fun value =>
        closed.bindOwn (family_assign closed invokes target value) fun _ => Exec.moves_pure _

theorem family_steps (last : Option Handle) (statements : List Statement) :
    good _ fun i => ((scope.withInvoke (invoke i)).steps last statements).run := by
  induction statements generalizing last with
  | nil => exact closed.own (Exec.moves_pure last)
  | cons statement rest ih =>
      exact closed.bindExec (family_step closed invokes statement) fun next => ih next

theorem family_exec (source : String) :
    good _ fun i => ((scope.withInvoke (invoke i)).exec source).run := by
  unfold Scope.exec
  cases parseSource source with
  | error fault => exact closed.fault _
  | ok statements =>
      refine closed.bindOwn (family_steps closed invokes none statements) fun value => ?_
      cases value with
      | none => exact Exec.moves_ofOp (Heap.Op.moves_allocPlain rfl)
      | some value => exact Exec.moves_pure value

end Script

/-! ### Layers -/

namespace Machine

/-- A layer without any below it evolves the heap. -/
theorem evolves_layer_diverge (host : Host κ σ) (request : Request κ σ) :
    Run.Moves Heap.Evolves (layer host (fun _ => Run.diverge) request) :=
  evolves_layer (fun _ => Run.moves_diverge) request

variable {host : Host κ σ} {below : ι → Handler κ σ} (closed : Run.Compositional good)
  (answers : ∀ request, good _ fun i => below i request)

include closed answers

theorem family_run (tree : Interaction κ σ α) : good _ fun i => tree.run (below i) := by
  induction tree with
  | done a => exact closed.own (Run.moves_pure a)
  | perform request resume ih => exact closed.bind (answers request) ih

theorem family_runProgram (program : Program κ σ α) :
    good _ fun i => (runProgram (below i) program).run :=
  family_run closed answers program.run

theorem family_callNative (code : NativeCode κ) (args : List Handle)
    (keywords : OrderedMap Handle) :
    good _ fun i => (callNative host (below i) code args keywords).run := by
  cases code with
  | host code => exact family_runProgram closed answers _
  | container method =>
      cases args with
      | nil => exact closed.fault _
      | cons receiver rest =>
          exact closed.own (Exec.moves_ofOp (Heap.moves_callContainer method receiver rest))
  | builtin builtin => exact closed.own (Exec.moves_ofOp (Heap.moves_callBuiltin builtin args))
  | initializer => exact closed.own (Exec.moves_ofOp (Heap.moves_callInitializer args keywords))

theorem family_invokeCallback (function : Callback κ) (args : List Handle)
    (keywords : OrderedMap Handle) :
    good _ fun i => (invokeCallback host (below i) function args keywords).run := by
  unfold invokeCallback
  cases keywords.isEmpty with
  | true =>
      exact closed.bindOwn (family_runProgram closed answers _) fun answer =>
        Exec.moves_ofOp (Heap.moves_marshal answer)
  | false => exact closed.fault _

theorem family_instantiate (cls : Handle) (args : List (Arg κ)) :
    good _ fun i => (instantiate (below i) cls args).run :=
  closed.bindExec (closed.make _) fun made =>
    closed.ownBind (Exec.moves_ofOp (Heap.moves_getAttr made "__init__")) fun initializer =>
      closed.bindOwn (answers (.invoke initializer args)) fun _ => Exec.moves_pure made

theorem family_invoke (h : Handle) (args : List (Arg κ)) :
    good _ fun i => (invoke host (below i) h args).run := by
  -- all but a class has its arguments marshalled first
  have marshalled : ∀ {f : ι → List Handle → Entries Handle → Exec κ σ Handle},
      (∀ handles named, good _ fun i => (f i handles named).run) →
      good _ fun i => (do
        let handles ← Exec.ofOp (Heap.marshalAll (Arg.splitKeywords args).1)
        let named ← Exec.ofOp (Heap.marshalEntries (Arg.splitKeywords args).2)
        f i handles named : Exec κ σ Handle).run := fun rest =>
    closed.ownBind (Exec.moves_ofOp (Heap.moves_marshalAll _)) fun handles =>
      closed.ownBind (Exec.moves_ofOp (Heap.moves_marshalEntries _)) fun named =>
        rest handles named
  refine closed.ownBind (Exec.moves_readHeap _) fun cell => ?_
  match cell with
  | none => exact closed.fault _
  | some (.stub stub) =>
      refine marshalled fun handles named => ?_
      dsimp only
      cases stub.body with
      | some code => exact family_runProgram closed answers _
      | none => exact closed.fault _
  | some (.object ⟨kind, attributes⟩) =>
      cases kind with
      | type info => exact family_instantiate closed answers h args
      | function name code =>
          exact marshalled fun handles named => family_callNative closed answers _ _ _
      | boundMethod receiver name code =>
          exact marshalled fun handles named => family_callNative closed answers _ _ _
      | callback function =>
          exact marshalled fun handles named => family_invokeCallback closed answers _ _ _
      | hostMethod receiver function =>
          exact marshalled fun handles named => family_invokeCallback closed answers _ _ _
      | _ =>
          exact marshalled fun handles named =>
            closed.ownBind (Exec.moves_readHeap _) fun _ => closed.fault _

theorem family_layer (request : Request κ σ) :
    good _ fun i => layer host (below i) request := by
  cases request with
  | invoke h args => exact family_invoke closed answers h args
  | exec source globals locals =>
      let scope : Script.Scope κ σ := ⟨globals, locals, fun _ _ => ExceptT.mk Run.diverge⟩
      have whole : good _ fun i => ((scope.withInvoke fun h args =>
          ExceptT.mk (below i (.invoke h args))).exec source).run :=
        Script.family_exec closed (fun h args => answers (.invoke h args)) source
      exact whole
  | members delegator h => exact family_runProgram closed answers _
  | runMethod code receiver args => exact family_runProgram closed answers _
  -- all others do without the layers below
  | _ => exact closed.own (evolves_layer_diverge host _)

end Machine

end Interop
