import Interop.Proofs.Machine.Sheltering
import Interop.Proofs.Privacy.Heap
import Interop.Proofs.Privacy.Programs
/-!
The machine keeps a private value private. Whatever foreign code and host code do, as long as
neither of them is told the value, no cell comes to mention it, and its own cell stays as it is.
-/

set_option autoImplicit false

namespace Interop

variable {κ σ α β : Type} {held : σ → Set Handle} {g : Handle}

/-- Nothing in a world mentions a value; `held` tells what the host's state mentions. -/
structure World.Avoids (held : σ → Set Handle) (g : Handle) (world : World κ σ) : Prop where
  cells : world.heap.Avoids g
  globals : world.globals ≠ g
  builtins : g ∉ world.builtins.values
  modules : g ∉ world.modules.values
  state : g ∉ held world.state

/-- A value is there, and nothing in a world mentions it. -/
structure World.Hides (held : σ → Set Handle) (g : Handle) (world : World κ σ) : Prop
    extends world.Avoids held g where
  present : (world.heap.cell? g).isSome = true

theorem World.Hides.heap {world : World κ σ} (hides : world.Hides held g) : world.heap.Hides g :=
  ⟨hides.present, hides.cells⟩

theorem World.Hides.after {world after : World κ σ} (hides : world.Hides held g)
    (moves : world.Moves (Heap.Conceals g) after) (state : g ∉ held after.state) :
    after.Hides held g where
  cells := (moves.heap hides.heap).1.cells
  present := (moves.heap hides.heap).1.present
  globals := by rw [moves.globals]; exact hides.globals
  builtins := by rw [moves.builtins]; exact hides.builtins
  modules := by rw [moves.modules]; exact hides.modules
  state := state

/-- What the global namespace binds a name to is held by its cell. -/
theorem World.Hides.not_mem_global? {world : World κ σ} (hides : world.Hides held g)
    (name : String) : g ∉ (world.global? name).toList := by
  unfold World.global?
  split
  · rename_i value stands
    have points := Heap.points_of_item stands value List.mem_cons_self
    exact List.not_mem_cons_of_ne_of_not_mem (hides.heap.points_ne points).symm List.not_mem_nil
  · exact List.not_mem_nil

/-- From any world that hides a value on, a computation keeps it hidden and gives something good. -/
def Run.Conceals (held : σ → Set Handle) (g : Handle) (good : α → Prop) (x : Run κ σ α) : Prop :=
  ∀ world a after, world.Hides held g → x world = some (a, after) →
    world.Moves (Heap.Conceals g) after ∧ g ∉ held after.state ∧ good a

def Exec.Conceals (held : σ → Set Handle) (g : Handle) (good : α → Prop) (x : Exec κ σ α) : Prop :=
  x.run.Conceals held g (Outcome g good)

namespace Run

variable {good : α → Prop} {later : β → Prop}

theorem conceals_diverge : (diverge : Run κ σ α).Conceals held g good := by
  intro world a after _ finished
  cases finished

theorem conceals_pure {a : α} (holds : good a) : Conceals held g good (pure a : Run κ σ α) := by
  intro world b after hides finished
  cases finished
  exact ⟨World.Moves.refl world, hides.state, holds⟩

theorem conceals_bind {x : Run κ σ α} {f : α → Run κ σ β} (first : x.Conceals held g good)
    (rest : ∀ a, good a → (f a).Conceals held g later) : (x >>= f).Conceals held g later := by
  intro world b after hides finished
  obtain ⟨a, mid, early, late⟩ := bind_eq_some_iff.mp finished
  obtain ⟨moves, state, holds⟩ := first world a mid hides early
  obtain ⟨moves', state', holds'⟩ := rest a holds mid b after (hides.after moves state) late
  exact ⟨moves.trans moves', state', holds'⟩

theorem conceals_get_bind {f : World κ σ → Run κ σ β}
    (rest : ∀ world, world.Hides held g → (f world).Conceals held g later) :
    (get >>= f).Conceals held g later :=
  fun world b after hides finished => rest world hides world b after hides finished

theorem conceals_onHeap {f : Heap κ → α × Heap κ}
    (conceals : ∀ heap, heap.Hides g → heap.Conceals g (f heap).2 ∧ good (f heap).1) :
    (onHeap f : Run κ σ α).Conceals held g good := by
  intro world a after hides finished
  cases finished
  obtain ⟨moved, holds⟩ := conceals world.heap hides.heap
  exact ⟨.ofHeap moved, hides.state, holds⟩

theorem conceals_readHeap (f : Heap κ → α) :
    (readHeap f : Run κ σ α).Conceals held g fun _ => True := by
  intro world a after hides finished
  cases finished
  exact ⟨World.Moves.refl world, hides.state, trivial⟩

theorem conceals_raise (fault : Fault) :
    (raise fault : Run κ σ _).Conceals held g (Error.Avoids g) :=
  conceals_onHeap fun _ hides => Heap.conceals_raise hides fault

theorem conceals_attempt {op : Heap.Op κ α} (conceals : op.Conceals g good) :
    (attempt op : Run κ σ _).Conceals held g (Outcome g good) := by
  intro world result after hides finished
  rcases attempt_eq_some finished with ⟨a, heap, success, rfl, rfl⟩ | ⟨fault, _, rfl, rfl⟩
  · obtain ⟨moved, holds⟩ := conceals world.heap a heap hides.heap success
    exact ⟨.ofHeap moved, hides.state, holds⟩
  · obtain ⟨moved, avoids⟩ := Heap.conceals_raise hides.heap fault
    exact ⟨.ofHeap moved, hides.state, avoids⟩

theorem conceals_check {f : Heap κ → Except Fault α} :
    (check f : Run κ σ _).Conceals held g (Outcome g fun _ => True) :=
  conceals_attempt Heap.Op.conceals_check

end Run

namespace Exec

variable {good : α → Prop} {later : β → Prop}

theorem conceals_pure {a : α} (holds : good a) : Conceals held g good (pure a : Exec κ σ α) := by
  have outcome : Outcome g good (.ok a) := holds
  exact Run.conceals_pure outcome

theorem conceals_bind {x : Exec κ σ α} {f : α → Exec κ σ β} (first : x.Conceals held g good)
    (rest : ∀ a, good a → (f a).Conceals held g later) : (x >>= f).Conceals held g later := by
  unfold Conceals
  rw [ExceptT.run_bind]
  refine Run.conceals_bind first fun result outcome => ?_
  cases result with
  | ok a => exact rest a outcome
  | error error =>
      have failed : Outcome g later (.error error) := outcome
      exact Run.conceals_pure failed

theorem conceals_tryCatch {x : Exec κ σ α} {recover : Error → Exec κ σ α}
    (first : x.Conceals held g good) (rest : ∀ error, (recover error).Conceals held g good) :
    (tryCatch x recover).Conceals held g good := by
  unfold Conceals
  rw [ExceptT.run_tryCatch]
  refine Run.conceals_bind first fun result outcome => ?_
  cases result with
  | ok a => exact Run.conceals_pure outcome
  | error error => exact rest error

theorem conceals_ofOp {op : Heap.Op κ α} (conceals : op.Conceals g good) :
    (ofOp op : Exec κ σ α).Conceals held g good :=
  Run.conceals_attempt conceals

theorem conceals_fault (f : Fault) : (fault f : Exec κ σ α).Conceals held g good :=
  conceals_ofOp (Heap.Op.conceals_throw f)

theorem conceals_readHeap_bind {f : Heap κ → α} {rest : α → Exec κ σ β}
    (conceals : ∀ heap, heap.Hides g → (rest (f heap)).Conceals held g later) :
    (readHeap f >>= rest).Conceals held g later :=
  fun world b after hides finished =>
    conceals world.heap hides.heap world b after hides finished

theorem conceals_onHeap {f : Heap κ → α × Heap κ}
    (conceals : ∀ heap : Heap κ, heap.Hides g → heap.Conceals g (f heap).2) :
    Conceals held g (fun _ => True) (ExceptT.lift (Run.onHeap f) : Exec κ σ α) := by
  intro world result after hides finished
  cases finished
  exact ⟨.ofHeap (conceals world.heap hides.heap), hides.state, trivial⟩

end Exec

/-! ### Evaluation of scripts -/

namespace Script

theorem conceals_applyOperator (operator : Operator) (left right : Handle) :
    (applyOperator operator left right : Heap.Op κ Handle).Conceals g (· ≠ g) := by
  refine Heap.Op.conceals_get_bind fun heap hides => ?_
  split
  · rename_i l r readLeft readRight
    refine Heap.Op.conceals_liftExcept_bind fun kind combined => ?_
    rcases combine_eq_ok combined with
      ⟨_, rfl⟩ | ⟨_, rfl⟩ | ⟨_, rfl⟩ | ⟨a, b, rfl, rfl, rfl⟩
    · exact Heap.Op.conceals_allocPlain rfl rfl
    · exact Heap.Op.conceals_allocPlain rfl rfl
    · exact Heap.Op.conceals_allocPlain rfl rfl
    · refine Heap.Op.conceals_allocHolding rfl fun member => ?_
      rcases List.mem_append.mp member with member | member
      · exact (hides.kind readLeft).handles member
      · exact (hides.kind readRight).handles member
  · exact Heap.Op.conceals_throw _

theorem conceals_negate (operand : Handle) :
    (negate operand : Heap.Op κ Handle).Conceals g (· ≠ g) := by
  refine Heap.Op.conceals_get_bind fun heap hides => ?_
  split
  · refine Heap.Op.conceals_liftExcept_bind fun kind checked => ?_
    obtain ⟨_, rfl⟩ := eq_int_of_checkedInt checked
    exact Heap.Op.conceals_allocPlain rfl rfl
  · exact Heap.Op.conceals_allocPlain rfl rfl
  · exact Heap.Op.conceals_throw _

/-- Invocations keep a value hidden that they are not told. -/
def InvokesConcealing (held : σ → Set Handle) (g : Handle)
    (invoke : Handle → List (Arg κ) → Exec κ σ Handle) : Prop :=
  ∀ h args, h ≠ g → Arg.AllAvoid g args → (invoke h args).Conceals held g (· ≠ g)

variable {scope : Scope κ σ}

/-- A name may be looked up in a hidden namespace: what is bound there is no secret. -/
theorem conceals_lookup (name : String) : (scope.lookup name).Conceals held g (· ≠ g) := by
  have bound : ∀ mapping : Handle,
      (Exec.ofOp (Heap.getItem mapping (.string name)) : Exec κ σ Handle).Conceals held g (· ≠ g) :=
    fun mapping => Exec.conceals_ofOp (Heap.conceals_getItem _)
  intro world result after hides finished
  refine Exec.conceals_tryCatch (bound scope.locals) (fun _ => ?_) world result after hides finished
  refine Exec.conceals_tryCatch (bound scope.globals) fun _ => ?_
  split
  · rename_i value found
    exact Exec.conceals_pure
      (ne_of_mem_of_not_mem (OrderedMap.mem_values_of_get? found) hides.builtins)
  · exact Exec.conceals_fault _

/-- A call passes the values of its expressions only. -/
theorem allAvoid_callArguments {positional : List Handle} {named : Entries Handle}
    (avoid : g ∉ positional) (namedAvoid : g ∉ named.map Prod.snd) :
    Arg.AllAvoid g (positional.map Arg.handle ++ if named.isEmpty then []
      else [(.keywords ((Entries.normalize named).map fun entry => (entry.1, .handle entry.2)) :
        Arg κ)]) := by
  apply Arg.allAvoid_iff.mpr
  intro arg among
  rcases List.mem_append.mp among with among | among
  · exact Arg.allAvoid_iff.mp (Arg.allAvoid_handles avoid) arg among
  · split at among
    · cases among
    · rw [List.mem_singleton.mp among]
      apply Arg.entriesAvoid_iff.mpr
      intro entry inside
      obtain ⟨written, given, rfl⟩ := List.mem_map.mp inside
      have held := OrderedMap.mem_values_normalize (List.mem_map_of_mem given)
      exact ne_of_mem_of_not_mem held namedAvoid

mutual

theorem conceals_eval (invokes : InvokesConcealing held g scope.invoke) : (expr : Expr) →
    (scope.eval expr).Conceals held g (· ≠ g)
  | .int _ | .float _ | .string _ | .none | .bool _ => by
      rw [Scope.eval]
      exact Exec.conceals_ofOp (Heap.Op.conceals_allocPlain rfl rfl)
  | .name name => by
      rw [Scope.eval]
      exact conceals_lookup name
  | .list items => by
      rw [Scope.eval]
      exact Exec.conceals_bind (conceals_evalAll invokes items) fun _ avoid =>
        Exec.conceals_ofOp (Heap.Op.conceals_allocHolding rfl avoid)
  | .dict entries => by
      rw [Scope.eval]
      exact Exec.conceals_bind (conceals_evalEntries invokes entries) fun _ avoid =>
        Exec.conceals_ofOp (Heap.Op.conceals_allocHolding rfl (Heap.not_mem_ofEntries avoid))
  | .neg operand => by
      rw [Scope.eval]
      exact Exec.conceals_bind (conceals_eval invokes operand) fun _ _ =>
        Exec.conceals_ofOp (conceals_negate _)
  | .binary left operator right => by
      rw [Scope.eval]
      exact Exec.conceals_bind (conceals_eval invokes left) fun _ _ =>
        Exec.conceals_bind (conceals_eval invokes right) fun _ _ =>
          Exec.conceals_ofOp (conceals_applyOperator operator _ _)
  | .call function args keywords => by
      rw [Scope.eval]
      refine Exec.conceals_bind (conceals_eval invokes function) fun callee other => ?_
      refine Exec.conceals_bind (conceals_evalAll invokes args) fun positional avoid => ?_
      refine Exec.conceals_bind (conceals_evalEntries invokes keywords) fun named namedAvoid => ?_
      exact invokes callee _ other (allAvoid_callArguments avoid namedAvoid)
  | .attr target name => by
      rw [Scope.eval]
      exact Exec.conceals_bind (conceals_eval invokes target) fun _ other =>
        Exec.conceals_ofOp (Heap.conceals_getAttr name other)
  | .item target key => by
      rw [Scope.eval]
      exact Exec.conceals_bind (conceals_eval invokes target) fun _ _ =>
        Exec.conceals_bind (conceals_eval invokes key) fun _ _ =>
          Exec.conceals_ofOp (Heap.conceals_getItem _)

theorem conceals_evalAll (invokes : InvokesConcealing held g scope.invoke) : (exprs : List Expr) →
    (scope.evalAll exprs).Conceals held g (g ∉ ·)
  | [] => by
      rw [Scope.evalAll]
      exact Exec.conceals_pure List.not_mem_nil
  | expr :: rest => by
      rw [Scope.evalAll]
      refine Exec.conceals_bind (conceals_eval invokes expr) fun value other => ?_
      refine Exec.conceals_bind (conceals_evalAll invokes rest) fun values avoid => ?_
      exact Exec.conceals_pure (List.not_mem_cons_of_ne_of_not_mem other.symm avoid)

theorem conceals_evalEntries (invokes : InvokesConcealing held g scope.invoke) :
    (entries : List (String × Expr)) →
      (scope.evalEntries entries).Conceals held g (g ∉ ·.map Prod.snd)
  | [] => by
      rw [Scope.evalEntries]
      exact Exec.conceals_pure List.not_mem_nil
  | (key, expr) :: rest => by
      rw [Scope.evalEntries]
      refine Exec.conceals_bind (conceals_eval invokes expr) fun value other => ?_
      refine Exec.conceals_bind (conceals_evalEntries invokes rest) fun values avoid => ?_
      exact Exec.conceals_pure (List.not_mem_cons_of_ne_of_not_mem other.symm avoid)

end

theorem conceals_accepted (target : String) (status : Status) :
    (accepted target status : Exec κ σ Unit).Conceals held g fun _ => True := by
  unfold accepted
  split
  · exact Exec.conceals_pure trivial
  · exact Exec.conceals_fault _

section Statements

variable (invokes : InvokesConcealing held g scope.invoke)

include invokes

/-- Assigning to a part of a value, and not to a name. -/
theorem conceals_assign_part {target : Expr} (part : ∀ name, target ≠ .name name) {value : Handle}
    (other : value ≠ g) : (scope.assign target value).Conceals held g fun _ => True := by
  have given : (Arg.handle value : Arg κ).Avoids g := other
  cases target with
  | name name => exact absurd rfl (part name)
  | attr target name =>
      refine Exec.conceals_bind (conceals_eval invokes target) fun object objectOther => ?_
      exact Exec.conceals_bind (Exec.conceals_onHeap fun heap hides =>
        Heap.conceals_setAttr name hides objectOther given) fun _ _ => conceals_accepted _ _
  | item target key =>
      refine Exec.conceals_bind (conceals_eval invokes target) fun object objectOther => ?_
      refine Exec.conceals_bind (conceals_eval invokes key) fun k _ => ?_
      exact Exec.conceals_bind (Exec.conceals_onHeap fun heap hides =>
        Heap.conceals_setItem _ hides objectOther given) fun _ _ => conceals_accepted _ _
  | _ => exact Exec.conceals_fault _

/-- Assigning writes to the local namespace, which is not the hidden one. -/
theorem conceals_assign (locals : scope.locals ≠ g) (target : Expr) {value : Handle}
    (other : value ≠ g) : (scope.assign target value).Conceals held g fun _ => True := by
  by_cases isName : ∃ name, target = .name name
  · obtain ⟨name, rfl⟩ := isName
    have given : (Arg.handle value : Arg κ).Avoids g := other
    exact Exec.conceals_bind (Exec.conceals_onHeap fun heap hides =>
      Heap.conceals_setItem _ hides locals given) fun _ _ => conceals_accepted _ _
  · exact conceals_assign_part invokes (fun name same => isName ⟨name, same⟩) other

theorem conceals_step (locals : scope.locals ≠ g) (statement : Statement) :
    (scope.step statement).Conceals held g fun value => g ∉ value.toList := by
  cases statement with
  | expr expr =>
      refine Exec.conceals_bind (conceals_eval invokes expr) fun value other => ?_
      exact Exec.conceals_pure (List.not_mem_cons_of_ne_of_not_mem other.symm List.not_mem_nil)
  | assign target expr =>
      refine Exec.conceals_bind (conceals_eval invokes expr) fun value other => ?_
      exact Exec.conceals_bind (conceals_assign invokes locals target other) fun _ _ =>
        Exec.conceals_pure List.not_mem_nil

theorem conceals_steps (locals : scope.locals ≠ g) {last : Option Handle}
    (avoid : g ∉ last.toList) (statements : List Statement) :
    (scope.steps last statements).Conceals held g fun value => g ∉ value.toList := by
  induction statements generalizing last with
  | nil => exact Exec.conceals_pure avoid
  | cons statement rest ih =>
      exact Exec.conceals_bind (conceals_step invokes locals statement) fun _ avoid => ih avoid

theorem conceals_exec (locals : scope.locals ≠ g) (source : String) :
    (scope.exec source).Conceals held g (· ≠ g) := by
  unfold Scope.exec
  split
  · exact Exec.conceals_fault _
  · refine Exec.conceals_bind (conceals_steps invokes locals List.not_mem_nil _)
      fun value avoid => ?_
    split
    · exact Exec.conceals_pure (List.ne_of_not_mem_cons avoid).symm
    · exact Exec.conceals_ofOp (Heap.Op.conceals_allocPlain rfl rfl)

end Statements

end Script

/-! ### Host code and layers -/

/-- A handler answers requests that do not mention a value with replies that do not. -/
def Handler.Conceals (held : σ → Set Handle) (g : Handle) (handler : Handler κ σ) : Prop :=
  ∀ request, request.Avoids held g →
    (handler request).Conceals held g (request.ReplyAvoids held g)

namespace Machine

variable {host : Host κ σ} {below : Handler κ σ}

theorem conceals_run (conceals : below.Conceals held g) {good : α → Prop}
    (tree : Interaction κ σ α) (avoids : tree.Avoids held g good) :
    (tree.run below).Conceals held g good := by
  induction tree with
  | done a => exact Run.conceals_pure avoids
  | perform request resume ih =>
      exact Run.conceals_bind (conceals request avoids.1) fun reply told =>
        ih reply (avoids.2 reply told)

theorem conceals_runProgram (conceals : below.Conceals held g) {good : α → Prop}
    {program : Program κ σ α} (avoids : program.Avoids held g good) :
    (runProgram below program).Conceals held g good :=
  conceals_run conceals program.run avoids

theorem splitKeywords_avoid {args : List (Arg κ)} (avoid : Arg.AllAvoid g args) :
    Arg.AllAvoid g (Arg.splitKeywords args).1 ∧ Arg.EntriesAvoid g (Arg.splitKeywords args).2 := by
  have each := Arg.allAvoid_iff.mp avoid
  constructor
  · exact Arg.allAvoid_iff.mpr fun arg among => each arg (List.mem_filter.mp among).1
  · refine Arg.entriesAvoid_iff.mpr fun entry among => ?_
    obtain ⟨group, given, written, inside, same⟩ := Arg.mem_splitKeywords among
    have spread : Arg.EntriesAvoid g group := each (.keywords group) given
    rw [← same]
    exact Arg.entriesAvoid_iff.mp spread written inside

section Layers

variable (hostAvoids : host.Avoids held g) (conceals : below.Conceals held g)

include hostAvoids conceals

theorem conceals_callNative (code : NativeCode κ) {args : List Handle} (avoid : g ∉ args)
    {keywords : OrderedMap Handle} (named : g ∉ keywords.values) :
    (callNative host below code args keywords).Conceals held g (· ≠ g) := by
  cases code with
  | builtin builtin => exact Exec.conceals_ofOp (Heap.conceals_callBuiltin builtin avoid)
  | container method =>
      cases args with
      | nil => exact Exec.conceals_fault _
      | cons receiver rest =>
          exact Exec.conceals_ofOp (Heap.conceals_callContainer method
            (List.ne_of_not_mem_cons avoid).symm (List.not_mem_of_not_mem_cons avoid))
  | initializer => exact Exec.conceals_ofOp (Heap.conceals_callInitializer args keywords)
  | host code =>
      exact conceals_runProgram conceals (hostAvoids.function code args keywords avoid named)

theorem conceals_callCallback {function : Callback κ} (avoids : function.Avoids g)
    {args : List Handle} (avoid : g ∉ args) :
    (callCallback host below function args).Conceals held g (Arg.Avoids g) := by
  refine conceals_runProgram conceals ?_
  unfold Callback.Avoids at avoids
  split
  · exact hostAvoids.callback _ args avoid
  · exact Method.avoids_callRaw _ avoid
  · rename_i method isBound
    rw [isBound] at avoids
    exact BoundMethod.avoids_callRaw avoids avoid

theorem conceals_invokeCallback {function : Callback κ} (avoids : function.Avoids g)
    {args : List Handle} (avoid : g ∉ args) (keywords : OrderedMap Handle) :
    (invokeCallback host below function args keywords).Conceals held g (· ≠ g) := by
  unfold invokeCallback
  split
  · exact Exec.conceals_bind (conceals_callCallback hostAvoids conceals avoids avoid)
      fun answer answerAvoids => Exec.conceals_ofOp (Heap.conceals_marshal answer answerAvoids)
  · exact Exec.conceals_fault _

omit hostAvoids in
theorem invokesConcealing :
    Script.InvokesConcealing held g fun h args => ExceptT.mk (below (.invoke h args)) :=
  fun h args other avoid => conceals (.invoke h args) ⟨other, avoid⟩

omit hostAvoids in
theorem conceals_instantiate {cls : Handle} (other : cls ≠ g) {args : List (Arg κ)}
    (avoid : Arg.AllAvoid g args) : (instantiate below cls args).Conceals held g (· ≠ g) := by
  have holding : g ∉ [cls] := List.not_mem_cons_of_ne_of_not_mem other.symm List.not_mem_nil
  refine Exec.conceals_bind (Exec.conceals_ofOp (Heap.Op.conceals_allocHolding rfl holding))
    fun made madeOther => ?_
  refine Exec.conceals_bind (Exec.conceals_ofOp (Heap.conceals_getAttr "__init__" madeOther))
    fun initializer initializerOther => ?_
  exact Exec.conceals_bind (invokesConcealing conceals initializer args initializerOther avoid)
    fun _ _ => Exec.conceals_pure madeOther

theorem conceals_invoke {h : Handle} (other : h ≠ g) {args : List (Arg κ)}
    (avoid : Arg.AllAvoid g args) : (invoke host below h args).Conceals held g (· ≠ g) := by
  obtain ⟨positional, named⟩ := splitKeywords_avoid avoid
  refine Exec.conceals_readHeap_bind fun heap hides => ?_
  split
  · exact Exec.conceals_fault _
  · exact conceals_instantiate conceals other avoid
  · rename_i cell _ found
    have contents := hides.cells h cell found
    refine Exec.conceals_bind (Exec.conceals_ofOp (Heap.conceals_marshalAll _ positional))
      fun handles handlesAvoid => ?_
    refine Exec.conceals_bind (Exec.conceals_ofOp (Heap.conceals_marshalEntries _ named))
      fun named namedAvoid => ?_
    have keywords := Heap.not_mem_ofEntries namedAvoid
    dsimp only
    split
    · split
      · exact conceals_runProgram conceals
          (hostAvoids.function _ handles _ handlesAvoid keywords)
      · exact Exec.conceals_fault _
    · rename_i object _
      obtain ⟨kindAvoids, _⟩ := contents
      split
      · exact conceals_callNative hostAvoids conceals _ handlesAvoid keywords
      · rename_i receiver _ code isMethod
        rw [isMethod] at kindAvoids
        have receiverOther := List.ne_of_not_mem_cons kindAvoids.handles
        exact conceals_callNative hostAvoids conceals code
          (List.not_mem_cons_of_ne_of_not_mem receiverOther handlesAvoid) keywords
      · rename_i function isCallback
        rw [isCallback] at kindAvoids
        exact conceals_invokeCallback hostAvoids conceals (kindAvoids.code function rfl)
          handlesAvoid _
      · rename_i receiver function isMethod
        rw [isMethod] at kindAvoids
        have receiverOther := List.ne_of_not_mem_cons kindAvoids.handles
        exact conceals_invokeCallback hostAvoids conceals (kindAvoids.code function rfl)
          (List.not_mem_cons_of_ne_of_not_mem receiverOther handlesAvoid) _
      · exact Exec.conceals_readHeap_bind fun _ _ => Exec.conceals_fault _

omit hostAvoids conceals in
theorem conceals_next {h : Handle} (other : h ≠ g) :
    (next h : Run κ σ _).Conceals held g (Outcome g fun item => g ∉ item.toList) := by
  have items : (Run.onHeap (·.next h) : Run κ σ _).Conceals held g
      fun result => ∀ item, result = .ok (some item) → item ≠ g :=
    Run.conceals_onHeap fun heap hides => Heap.conceals_next hides other
  refine Run.conceals_bind items fun result itemOther => ?_
  cases result with
  | error fault =>
      exact Run.conceals_bind (Run.conceals_raise fault) fun _ avoids => Run.conceals_pure avoids
  | ok item =>
      cases item with
      | none => exact Run.conceals_pure List.not_mem_nil
      | some item =>
          exact Run.conceals_pure
            (List.not_mem_cons_of_ne_of_not_mem (itemOther item rfl).symm List.not_mem_nil)

omit hostAvoids conceals in
theorem conceals_inspect (h : Handle) : (inspect h : Run κ σ _).Conceals held g
    fun inspection => ∀ told ∈ inspection, Outcome g (fun _ => True) told.length := by
  refine Run.conceals_bind (Run.conceals_readHeap _) fun kind _ => ?_
  cases kind with
  | none => exact Run.conceals_pure nofun
  | some kind =>
      refine Run.conceals_bind (Run.conceals_readHeap _) fun typeName _ => ?_
      refine Run.conceals_bind Run.conceals_check fun length outcome => ?_
      refine Run.conceals_pure ?_
      rintro _ ⟨⟩
      exact outcome

omit hostAvoids conceals in
theorem conceals_bindMethod {function : Callback κ} (avoids : function.Avoids g)
    {receiver : Handle} (other : receiver ≠ g) :
    (bindMethod function receiver : Exec κ σ Handle).Conceals held g (· ≠ g) := by
  refine Exec.conceals_readHeap_bind fun heap _ => ?_
  split
  · exact Exec.conceals_fault _
  · refine Exec.conceals_ofOp (Heap.Op.conceals_alloc ⟨?_, ?_⟩)
    · exact List.not_mem_cons_of_ne_of_not_mem other.symm List.not_mem_nil
    · rintro _ ⟨⟩
      exact avoids

omit hostAvoids conceals in
theorem conceals_materialize {error : Error} (avoids : error.Avoids g) :
    (materialize error : Run κ σ _).Conceals held g (Outcome g (ForeignException.Avoids g)) := by
  cases error with
  | foreign exception => exact Run.conceals_pure avoids
  | type fault =>
      have made : (Run.onHeap (·.addException "TypeError" fault.message) : Run κ σ _).Conceals
          held g (ForeignException.Avoids g) :=
        Run.conceals_onHeap fun heap hides => Heap.conceals_addException hides _ _
      exact Run.conceals_bind made fun _ exceptionAvoids => Run.conceals_pure exceptionAvoids

theorem conceals_layer : (layer host below).Conceals held g := by
  intro request avoids
  cases request with
  | typeOf h => exact Run.conceals_attempt (Heap.conceals_typeOf h)
  | primitive h => exact Run.conceals_check
  | invoke h args => exact conceals_invoke hostAvoids conceals avoids.1 avoids.2
  | text h => exact Run.conceals_check
  | describe h => exact Run.conceals_readHeap (·.describe h)
  | isCallable h => exact Run.conceals_readHeap (isCallable · h)
  | isIterator h => exact Run.conceals_readHeap (isIterator · h)
  | isSequence h => exact Run.conceals_readHeap (isSequence · h)
  | next h => exact conceals_next avoids
  | hash h => exact Run.conceals_check
  | hasAttr h name => exact Run.conceals_readHeap (·.hasAttr h name)
  | getAttr h name => exact Run.conceals_attempt (Heap.conceals_getAttr name avoids)
  | setAttr h name value =>
      exact Run.conceals_onHeap fun heap hides =>
        ⟨Heap.conceals_setAttr name hides avoids.1 avoids.2, trivial⟩
  | getItem h key => exact Run.conceals_attempt (Heap.conceals_getItem key)
  | setItem h key value =>
      exact Run.conceals_onHeap fun heap hides =>
        ⟨Heap.conceals_setItem key hides avoids.1 avoids.2.2, trivial⟩
  | builtin name =>
      refine Run.conceals_get_bind fun world hides => ?_
      split
      · rename_i value found
        exact Run.conceals_pure
          (ne_of_mem_of_not_mem (OrderedMap.mem_values_of_get? found) hides.builtins)
      · exact Run.conceals_bind (Run.conceals_raise _) fun _ avoids => Run.conceals_pure avoids
  | globals => exact Run.conceals_get_bind fun world hides => Run.conceals_pure hides.globals
  | ownGlobal name =>
      exact Run.conceals_get_bind fun world hides =>
        Run.conceals_pure (hides.not_mem_global? name)
  | importModule name =>
      refine Run.conceals_get_bind fun world hides => ?_
      split
      · rename_i value found
        exact Run.conceals_pure
          (ne_of_mem_of_not_mem (OrderedMap.mem_values_of_get? found) hides.modules)
      · exact Run.conceals_bind (Run.conceals_raise _) fun _ avoids => Run.conceals_pure avoids
  | exec source outer inner =>
      let scope : Script.Scope κ σ := ⟨outer, inner, fun h args => .mk (below (.invoke h args))⟩
      have locals : scope.locals ≠ g := avoids.2
      exact Script.conceals_exec (invokesConcealing conceals) locals source
  | bindMethod function receiver => exact conceals_bindMethod avoids.1 avoids.2
  | materialize error => exact conceals_materialize avoids
  | create blueprint =>
      have made : (Run.onHeap (·.create blueprint) : Run κ σ _).Conceals held g (· ≠ g) :=
        Run.conceals_onHeap fun heap hides => Heap.conceals_create hides avoids
      exact made
  | marshal arg => exact Run.conceals_attempt (Heap.conceals_marshal arg avoids)
  | exception kind message =>
      exact Run.conceals_onHeap fun heap hides => Heap.conceals_addException hides kind message
  | inspect h => exact conceals_inspect h
  | registry =>
      intro world reply after hides finished
      cases finished
      dsimp only
      split
      · exact ⟨⟨Std.Refl.refl _, rfl, rfl, rfl, rfl, rfl⟩, hides.state, trivial⟩
      · exact ⟨World.Moves.refl world, hides.state, trivial⟩
  | settings => exact Run.conceals_get_bind fun _ _ => Run.conceals_pure trivial
  | members delegator h =>
      refine conceals_runProgram conceals ?_
      split
      · exact hostAvoids.members _ h avoids
      · exact delegator.avoids_standardMembers avoids
  | runMethod code receiver args =>
      exact conceals_runProgram conceals (hostAvoids.method code receiver args avoids.1 avoids.2)
  | readState => exact Run.conceals_get_bind fun _ hides => Run.conceals_pure hides.state
  | writeState state =>
      intro world reply after hides finished
      cases finished
      exact ⟨⟨Std.Refl.refl _, rfl, rfl, rfl, rfl, rfl⟩, avoids, trivial⟩

end Layers

theorem conceals_answer {host : Host κ σ} (hostAvoids : host.Avoids held g) (layers : Nat) :
    (answer host layers).Conceals held g := by
  induction layers with
  | zero => exact fun _ _ => Run.conceals_diverge
  | succ layers ih => exact conceals_layer hostAvoids ih

end Machine

end Interop
