import Interop.Proofs.Heap.Sheltering
import Interop.Proofs.Machine.Alone
import Interop.Proofs.Machine.Evolution
/-!
What evaluation gives. Code that starts from values apart from another, and calls no host code, only
ever gets hold of values apart from it, so that it cannot change it.
-/

set_option autoImplicit false

namespace Interop

variable {κ σ α β : Type} {g : Handle}

/-- A value is there, and no builtin leads to it. -/
structure World.Secludes (g : Handle) (world : World κ σ) : Prop where
  present : (world.heap.cell? g).isSome = true
  builtins : world.heap.AllApart g world.builtins.values

theorem World.Moves.apart {world after : World κ σ} (moves : world.Moves (Heap.Shelters g) after)
    (secludes : world.Secludes g) {h : Handle} (apart : world.heap.Apart g h) :
    after.heap.Apart g h :=
  (moves.heap secludes.present).2 h apart

theorem World.Moves.secludes {world after : World κ σ} (moves : world.Moves (Heap.Shelters g) after)
    (secludes : world.Secludes g) : after.Secludes g where
  present := moves.heap.present secludes.present
  builtins := by
    intro h member
    rw [moves.builtins] at member
    exact moves.apart secludes (secludes.builtins h member)

/-- From a world on, a computation shelters `g`, and if it succeeds, it gives something that has a
property. -/
def Exec.Yields (g : Handle) (x : Exec κ σ α) (world : World κ σ)
    (good : Heap κ → α → Prop) : Prop :=
  world.Secludes g → ∀ result after, x.run world = some (result, after) →
    world.Moves (Heap.Shelters g) after ∧ ∀ a, result = .ok a → good after.heap a

namespace Exec

variable {world : World κ σ} {good : Heap κ → α → Prop}

theorem yields_pure {a : α} (holds : good world.heap a) :
    Yields g (pure a : Exec κ σ α) world good := by
  intro secludes result after finished
  cases finished
  refine ⟨World.Moves.refl world, ?_⟩
  rintro _ ⟨⟩
  exact holds

theorem yields_throw (error : Error) : Yields g (throw error : Exec κ σ α) world good := by
  intro _ result after finished
  cases finished
  exact ⟨World.Moves.refl world, fun _ same => by cases same⟩

theorem yields_bind {x : Exec κ σ α} {f : α → Exec κ σ β} {good' : Heap κ → β → Prop}
    (hx : x.Yields g world good)
    (hf : ∀ a mid, (∀ h, world.heap.Apart g h → mid.heap.Apart g h) → good mid.heap a →
      (f a).Yields g mid good') :
    (x >>= f).Yields g world good' := by
  intro secludes result after finished
  rcases run_bind_eq_some_iff.mp finished with ⟨a, mid, first, second⟩ | ⟨error, first, rfl⟩
  · obtain ⟨early, holds⟩ := hx secludes _ mid first
    obtain ⟨late, holds'⟩ := hf a mid (fun h => early.apart secludes) (holds a rfl)
      (early.secludes secludes) result after second
    exact ⟨early.trans late, holds'⟩
  · exact ⟨(hx secludes _ after first).1, fun _ same => by cases same⟩

theorem yields_ofOp {op : Heap.Op κ α} (yields : op.Yields g world.heap good) :
    (ofOp op : Exec κ σ α).Yields g world good := by
  intro secludes result after finished
  rcases Run.attempt_eq_some finished with ⟨a, heap, success, rfl, rfl⟩ | ⟨fault, _, rfl, rfl⟩
  · obtain ⟨shelters, holds⟩ := yields secludes.present a heap success
    refine ⟨⟨shelters, rfl, rfl, rfl, rfl, rfl⟩, ?_⟩
    rintro _ ⟨⟩
    exact holds
  · refine ⟨⟨Heap.along_raise world.heap fault, rfl, rfl, rfl, rfl, rfl⟩, ?_⟩
    intro a same
    cases same

theorem yields_fault (f : Fault) : (fault f : Exec κ σ α).Yields g world good :=
  yields_ofOp (Heap.Op.yields_throw f)

theorem yields_tryCatch {x : Exec κ σ α} {recover : Error → Exec κ σ α}
    (hx : x.Yields g world good)
    (hRecover : ∀ error mid, (∀ h, world.heap.Apart g h → mid.heap.Apart g h) →
      (recover error).Yields g mid good) :
    (tryCatch x recover).Yields g world good := by
  intro secludes result after finished
  rw [ExceptT.run_tryCatch] at finished
  obtain ⟨first, mid, tried, finished⟩ := Run.bind_eq_some_iff.mp finished
  obtain ⟨early, holds⟩ := hx secludes first mid tried
  cases first with
  | ok a =>
      cases finished
      exact ⟨early, holds⟩
  | error error =>
      obtain ⟨late, holds⟩ := hRecover error mid (fun h => early.apart secludes)
        (early.secludes secludes) result after finished
      exact ⟨early.trans late, holds⟩

theorem yields_readHeap_bind {f : Heap κ → α} {rest : α → Exec κ σ β} {good : Heap κ → β → Prop}
    (yields : (rest (f world.heap)).Yields g world good) :
    (readHeap f >>= rest).Yields g world good := yields

/-- A change of the heap that shelters, whatever it answers. -/
theorem yields_onHeap {f : Heap κ → α × Heap κ}
    (shelters : world.heap.Shelters g (f world.heap).2) :
    Yields g (ExceptT.lift (Run.onHeap f) : Exec κ σ α) world fun _ _ => True := by
  intro secludes result after finished
  cases finished
  exact ⟨⟨shelters, rfl, rfl, rfl, rfl, rfl⟩, fun _ _ => trivial⟩

end Exec

/-! ### Evaluation of scripts -/

namespace Script

theorem yields_applyOperator {heap : Heap κ} (operator : Operator) {left right : Handle}
    (leftApart : heap.Apart g left) (rightApart : heap.Apart g right) :
    (applyOperator operator left right : Heap.Op κ Handle).Yields g heap (Heap.Apart g) := by
  apply Heap.Op.yields_get_bind
  split
  · rename_i l r readLeft readRight
    refine Heap.Op.yields_liftExcept_bind fun kind combined => ?_
    rcases combine_eq_ok combined with
      ⟨_, rfl⟩ | ⟨_, rfl⟩ | ⟨_, rfl⟩ | ⟨a, b, rfl, rfl, rfl⟩
    · exact Heap.Op.yields_alloc_plain rfl
    · exact Heap.Op.yields_alloc_plain rfl
    · exact Heap.Op.yields_alloc_plain rfl
    · have joined : heap.AllApart g (Kind.list (a ++ b) : Kind κ).handles :=
        List.forall_mem_append.mpr ⟨leftApart.kind readLeft, rightApart.kind readRight⟩
      exact Heap.Op.yields_alloc joined
  · exact Heap.Op.yields_throw _

theorem yields_negate {heap : Heap κ} (operand : Handle) :
    (negate operand : Heap.Op κ Handle).Yields g heap (Heap.Apart g) := by
  apply Heap.Op.yields_get_bind
  split
  · refine Heap.Op.yields_liftExcept_bind fun kind checked => ?_
    obtain ⟨_, rfl⟩ := eq_int_of_checkedInt checked
    exact Heap.Op.yields_alloc_plain rfl
  · exact Heap.Op.yields_alloc_plain rfl
  · exact Heap.Op.yields_throw _

/-- No namespace of a scope leads to a value. -/
structure Scope.Secluded (g : Handle) (scope : Scope κ σ) (heap : Heap κ) : Prop where
  globals : heap.Apart g scope.globals
  locals : heap.Apart g scope.locals

theorem Scope.Secluded.later {scope : Scope κ σ} {heap after : Heap κ}
    (secluded : scope.Secluded g heap) (kept : ∀ h, heap.Apart g h → after.Apart g h) :
    scope.Secluded g after :=
  ⟨kept _ secluded.globals, kept _ secluded.locals⟩

/-- Invocations that start from values apart from another give such values. -/
def InvokesApart (g : Handle) (invoke : Handle → List (Arg κ) → Exec κ σ Handle) : Prop :=
  ∀ world h args, world.heap.Apart g h → world.heap.AllApart g (Arg.handlesAll args) →
    (invoke h args).Yields g world (Heap.Apart g)

variable {scope : Scope κ σ}

theorem yields_lookup {world : World κ σ} (name : String) (secluded : scope.Secluded g world.heap) :
    (scope.lookup name).Yields g world (Heap.Apart g) := by
  intro secludes
  have bound : ∀ (mapping : Handle) (mid : World κ σ), mid.heap.Apart g mapping →
      (Exec.ofOp (Heap.getItem mapping (.string name))).Yields g mid (Heap.Apart g) :=
    fun mapping mid apart => Exec.yields_ofOp (Heap.yields_getItem _ apart)
  refine Exec.yields_tryCatch (bound scope.locals world secluded.locals) (fun _ mid kept => ?_)
    secludes
  refine Exec.yields_tryCatch (bound scope.globals mid (kept _ secluded.globals))
    fun _ last kept' => ?_
  split
  · rename_i value found
    have member := OrderedMap.mem_values_of_get? found
    exact Exec.yields_pure (kept' value (kept value (secludes.builtins value member)))
  · exact Exec.yields_fault _

/-- The arguments of a call hold the values of their expressions only. -/
theorem mem_of_callArguments {positional : List Handle} {named : Entries Handle} {k : Handle}
    (member : k ∈ Arg.handlesAll (positional.map Arg.handle ++
      if named.isEmpty then []
      else [(.keywords ((Entries.normalize named).map fun entry => (entry.1, .handle entry.2)) :
        Arg κ)])) :
    k ∈ positional ∨ k ∈ named.map Prod.snd := by
  obtain ⟨arg, among, held⟩ := Arg.mem_handlesAll.mp member
  rcases List.mem_append.mp among with among | among
  · obtain ⟨h, given, rfl⟩ := List.mem_map.mp among
    rw [List.mem_singleton.mp held]
    exact .inl given
  · split at among
    · cases among
    · rw [List.mem_singleton.mp among] at held
      obtain ⟨entry, among, held⟩ := Arg.mem_handlesEntries.mp held
      obtain ⟨written, inside, rfl⟩ := List.mem_map.mp among
      rw [List.mem_singleton.mp held]
      exact .inr (OrderedMap.mem_values_normalize (List.mem_map_of_mem inside))

mutual

theorem yields_eval (invokes : InvokesApart g scope.invoke) : (expr : Expr) →
    {world : World κ σ} → scope.Secluded g world.heap →
    (scope.eval expr).Yields g world (Heap.Apart g)
  | .int _, _, _ | .float _, _, _ | .string _, _, _ | .none, _, _ | .bool _, _, _ => by
      rw [Scope.eval]
      exact Exec.yields_ofOp (Heap.Op.yields_alloc_plain rfl)
  | .name name, _, secluded => by
      rw [Scope.eval]
      exact yields_lookup name secluded
  | .list items, _, secluded => by
      rw [Scope.eval]
      exact Exec.yields_bind (yields_evalAll invokes items secluded) fun _ _ _ made =>
        Exec.yields_ofOp (Heap.Op.yields_alloc made)
  | .dict entries, _, secluded => by
      rw [Scope.eval]
      exact Exec.yields_bind (yields_evalEntries invokes entries secluded) fun _ _ _ made =>
        Exec.yields_ofOp (Heap.Op.yields_alloc fun k member =>
          made k (OrderedMap.mem_values_ofEntries member))
  | .neg operand, _, secluded => by
      rw [Scope.eval]
      exact Exec.yields_bind (yields_eval invokes operand secluded) fun _ _ _ _ =>
        Exec.yields_ofOp (yields_negate _)
  | .binary left operator right, _, secluded => by
      rw [Scope.eval]
      refine Exec.yields_bind (yields_eval invokes left secluded) fun l mid kept leftApart => ?_
      refine Exec.yields_bind (yields_eval invokes right (secluded.later kept))
        fun r last kept' rightApart => ?_
      exact Exec.yields_ofOp (yields_applyOperator operator (kept' l leftApart) rightApart)
  | .call function args keywords, _, secluded => by
      rw [Scope.eval]
      refine Exec.yields_bind (yields_eval invokes function secluded)
        fun callee first kept calleeApart => ?_
      refine Exec.yields_bind (yields_evalAll invokes args (secluded.later kept))
        fun positional second kept' positionalApart => ?_
      have secluded' := (secluded.later kept).later kept'
      refine Exec.yields_bind (yields_evalEntries invokes keywords secluded')
        fun named third kept'' namedApart => ?_
      refine invokes third callee _ (kept'' _ (kept' _ calleeApart)) fun k member => ?_
      rcases mem_of_callArguments member with member | member
      · exact kept'' k (positionalApart k member)
      · exact namedApart k member
  | .attr target name, _, secluded => by
      rw [Scope.eval]
      exact Exec.yields_bind (yields_eval invokes target secluded) fun _ _ _ apart =>
        Exec.yields_ofOp (Heap.yields_getAttr name apart)
  | .item target key, _, secluded => by
      rw [Scope.eval]
      refine Exec.yields_bind (yields_eval invokes target secluded) fun value mid kept apart => ?_
      exact Exec.yields_bind (yields_eval invokes key (secluded.later kept)) fun _ _ kept' _ =>
        Exec.yields_ofOp (Heap.yields_getItem _ (kept' value apart))

theorem yields_evalAll (invokes : InvokesApart g scope.invoke) : (exprs : List Expr) →
    {world : World κ σ} → scope.Secluded g world.heap →
    (scope.evalAll exprs).Yields g world (Heap.AllApart g)
  | [], _, _ => by
      rw [Scope.evalAll]
      exact Exec.yields_pure (List.forall_mem_nil _)
  | expr :: rest, _, secluded => by
      rw [Scope.evalAll]
      refine Exec.yields_bind (yields_eval invokes expr secluded) fun value mid kept apart => ?_
      refine Exec.yields_bind (yields_evalAll invokes rest (secluded.later kept))
        fun values last kept' all => ?_
      exact Exec.yields_pure (List.forall_mem_cons.mpr ⟨kept' value apart, all⟩)

theorem yields_evalEntries (invokes : InvokesApart g scope.invoke) :
    (entries : List (String × Expr)) → {world : World κ σ} → scope.Secluded g world.heap →
    (scope.evalEntries entries).Yields g world
      fun heap made => heap.AllApart g (made.map Prod.snd)
  | [], _, _ => by
      rw [Scope.evalEntries]
      exact Exec.yields_pure (List.forall_mem_nil _)
  | (key, expr) :: rest, _, secluded => by
      rw [Scope.evalEntries]
      refine Exec.yields_bind (yields_eval invokes expr secluded) fun value mid kept apart => ?_
      refine Exec.yields_bind (yields_evalEntries invokes rest (secluded.later kept))
        fun values last kept' all => ?_
      exact Exec.yields_pure (List.forall_mem_cons.mpr ⟨kept' value apart, all⟩)

end

theorem yields_accepted (target : String) (status : Status) {world : World κ σ} :
    (accepted target status : Exec κ σ Unit).Yields g world fun _ _ => True := by
  unfold accepted
  split
  · exact Exec.yields_pure trivial
  · exact Exec.yields_fault _

section Statements

variable (invokes : InvokesApart g scope.invoke) {world : World κ σ}

include invokes

theorem yields_assign (target : Expr) {value : Handle} (secluded : scope.Secluded g world.heap)
    (apart : world.heap.Apart g value) :
    (scope.assign target value).Yields g world fun _ _ => True := by
  have given : ∀ {heap : Heap κ}, heap.Apart g value →
      heap.AllApart g (Arg.handle value : Arg κ).handles :=
    List.forall_mem_singleton.mpr
  cases target with
  | name name =>
      exact Exec.yields_bind
        (Exec.yields_onHeap (Heap.shelters_setItem _ secluded.locals (given apart)))
        fun _ _ _ _ => yields_accepted _ _
  | attr target name =>
      refine Exec.yields_bind (yields_eval invokes target secluded) fun object mid kept found => ?_
      exact Exec.yields_bind
        (Exec.yields_onHeap (Heap.shelters_setAttr name found (given (kept value apart))))
        fun _ _ _ _ => yields_accepted _ _
  | item target key =>
      refine Exec.yields_bind (yields_eval invokes target secluded) fun object mid kept found => ?_
      refine Exec.yields_bind (yields_eval invokes key (secluded.later kept))
        fun k last kept' _ => ?_
      exact Exec.yields_bind
        (Exec.yields_onHeap (Heap.shelters_setItem _ (kept' object found)
          (given (kept' value (kept value apart)))))
        fun _ _ _ _ => yields_accepted _ _
  | _ => exact Exec.yields_fault _

theorem yields_step (statement : Statement) (secluded : scope.Secluded g world.heap) :
    (scope.step statement).Yields g world fun heap value => heap.AllApart g value.toList := by
  cases statement with
  | expr expr =>
      refine Exec.yields_bind (yields_eval invokes expr secluded) fun value mid kept apart => ?_
      exact Exec.yields_pure (List.forall_mem_singleton.mpr apart)
  | assign target expr =>
      refine Exec.yields_bind (yields_eval invokes expr secluded) fun value mid kept apart => ?_
      exact Exec.yields_bind (yields_assign invokes target (secluded.later kept) apart)
        fun _ _ _ _ => Exec.yields_pure (List.forall_mem_nil _)

theorem yields_steps {last : Option Handle} (statements : List Statement)
    (secluded : scope.Secluded g world.heap) (apart : world.heap.AllApart g last.toList) :
    (scope.steps last statements).Yields g world
      fun heap value => heap.AllApart g value.toList := by
  induction statements generalizing last world with
  | nil => exact Exec.yields_pure apart
  | cons statement rest ih =>
      exact Exec.yields_bind (yields_step invokes statement secluded) fun next mid kept made =>
        ih (secluded.later kept) made

theorem yields_exec (source : String) (secluded : scope.Secluded g world.heap) :
    (scope.exec source).Yields g world (Heap.Apart g) := by
  unfold Scope.exec
  split
  · exact Exec.yields_fault _
  · refine Exec.yields_bind (yields_steps invokes _ secluded (List.forall_mem_nil _))
      fun value mid kept made => ?_
    split
    · exact Exec.yields_pure (made _ List.mem_cons_self)
    · exact Exec.yields_ofOp (Heap.Op.yields_alloc_plain rfl)

end Statements

end Script

/-! ### The machine -/

/-- Each keyword argument that is split off was given in some group of keywords. -/
theorem Arg.mem_splitKeywords {args : List (Arg κ)} {entry : String × Arg κ}
    (among : entry ∈ (splitKeywords args).2) :
    ∃ group, .keywords group ∈ args ∧ ∃ written ∈ group, written.2 = entry.2 := by
  obtain ⟨written, among, same⟩ :=
    List.mem_map.mp (OrderedMap.mem_values_normalize (List.mem_map_of_mem among))
  obtain ⟨arg, given, among⟩ := List.mem_flatMap.mp among
  cases arg with
  | keywords group => exact ⟨group, given, written, among, same⟩
  | _ => cases among

namespace Machine

/-- Splitting off keyword arguments brings in no new values. -/
theorem mem_of_splitKeywords {args : List (Arg κ)} {k : Handle} :
    (k ∈ Arg.handlesAll (Arg.splitKeywords args).1 → k ∈ Arg.handlesAll args) ∧
      (k ∈ Arg.handlesEntries (Arg.splitKeywords args).2 → k ∈ Arg.handlesAll args) := by
  constructor
  · intro member
    obtain ⟨arg, among, held⟩ := Arg.mem_handlesAll.mp member
    exact Arg.mem_handlesAll.mpr ⟨arg, (List.mem_filter.mp among).1, held⟩
  · intro member
    obtain ⟨entry, among, held⟩ := Arg.mem_handlesEntries.mp member
    obtain ⟨group, given, written, among, same⟩ := Arg.mem_splitKeywords among
    refine Arg.mem_handlesAll.mpr ⟨.keywords group, given, ?_⟩
    refine Arg.mem_handlesEntries.mpr ⟨written, among, ?_⟩
    rw [same]
    exact held

variable {host : Host κ σ} {below : Handler κ σ} {world : World κ σ}

theorem yields_callNative {code : NativeCode κ} {args : List Handle} (keywords : OrderedMap Handle)
    (own : ∀ hostCode, code ≠ .host hostCode) (apart : world.heap.AllApart g args) :
    (callNative host below code args keywords).Yields g world (Heap.Apart g) := by
  cases code with
  | builtin builtin => exact Exec.yields_ofOp (Heap.yields_callBuiltin builtin apart)
  | container method =>
      cases args with
      | nil => exact Exec.yields_fault _
      | cons receiver rest =>
          exact Exec.yields_ofOp (Heap.yields_callContainer method (apart _ List.mem_cons_self)
            fun k member => apart k (List.mem_cons_of_mem _ member))
  | initializer => exact Exec.yields_ofOp (Heap.yields_callInitializer args keywords)
  | host hostCode => exact absurd rfl (own hostCode)

theorem yields_instantiate
    (invokes : Script.InvokesApart g fun h args => ExceptT.mk (below (.invoke h args)))
    {cls : Handle} {args : List (Arg κ)} (apart : world.heap.Apart g cls)
    (argsApart : world.heap.AllApart g (Arg.handlesAll args)) :
    (instantiate below cls args).Yields g world (Heap.Apart g) := by
  have classApart : world.heap.AllApart g (Kind.instanceOf cls : Kind κ).handles :=
    List.forall_mem_singleton.mpr apart
  refine Exec.yields_bind (Exec.yields_ofOp (Heap.Op.yields_alloc classApart))
    fun made mid kept madeApart => ?_
  refine Exec.yields_bind (Exec.yields_ofOp (Heap.yields_getAttr "__init__" madeApart))
    fun initializer second kept' initializerApart => ?_
  refine Exec.yields_bind (invokes second initializer args initializerApart fun k member => ?_)
    fun _ last kept'' _ => ?_
  · exact kept' k (kept k (argsApart k member))
  · exact Exec.yields_pure (kept'' made (kept' made madeApart))

/-- Invoking a value that is not host code gives a value that is apart. -/
theorem yields_invoke
    (invokes : Script.InvokesApart g fun h args => ExceptT.mk (below (.invoke h args)))
    {h : Handle} {args : List (Arg κ)} (own : world.heap.isHostCode h = false)
    (apart : world.heap.Apart g h) (argsApart : world.heap.AllApart g (Arg.handlesAll args)) :
    (invoke host below h args).Yields g world (Heap.Apart g) := by
  apply Exec.yields_readHeap_bind
  unfold Heap.isHostCode at own
  split
  · exact Exec.yields_fault _
  · exact yields_instantiate invokes apart argsApart
  · rename_i cell _ found
    rw [found] at own
    refine Exec.yields_bind (Exec.yields_ofOp (Heap.yields_marshalAll _ fun k member =>
      argsApart k (mem_of_splitKeywords.1 member))) fun handles mid kept handlesApart => ?_
    refine Exec.yields_bind (Exec.yields_ofOp (Heap.yields_marshalEntries _ fun k member =>
      kept k (argsApart k (mem_of_splitKeywords.2 member)))) fun named last kept' _ => ?_
    have positional : last.heap.AllApart g handles := fun k member =>
      kept' k (handlesApart k member)
    dsimp only
    -- the kinds that are host code contradict `own`, the others only pass on what they are given
    split
    · rename_i stub _
      split
      · rename_i code body
        dsimp only at own
        rw [body] at own
        cases own
      · exact Exec.yields_fault _
    · rename_i object _
      have contents : last.heap.AllApart g object.kind.handles := fun k member =>
        kept' k (kept k (apart.handles found k (List.mem_append_left _ member)))
      dsimp only at own
      split
      · rename_i name code isFunction
        rw [isFunction] at own
        exact yields_callNative _ (by rintro hostCode rfl; cases own) positional
      · rename_i receiver name code isMethod
        rw [isMethod] at own contents
        -- the receiver comes before the arguments
        have receiverApart : last.heap.Apart g receiver := contents receiver List.mem_cons_self
        exact yields_callNative _ (by rintro hostCode rfl; cases own)
          (List.forall_mem_cons.mpr ⟨receiverApart, positional⟩)
      · rename_i function isCallback
        rw [isCallback] at own
        cases own
      · rename_i receiver function isHostMethod
        rw [isHostMethod] at own
        cases own
      · exact Exec.yields_readHeap_bind (Exec.yields_fault _)

/-- Invoking a value on the machine alone. -/
theorem invokesApart_answerAlone (host : Host κ σ) (layers : Nat) :
    Script.InvokesApart g fun h args => ExceptT.mk (answerAlone host layers (.invoke h args)) := by
  induction layers with
  | zero =>
      intro world h args _ _ _ result after finished
      cases finished
  | succ layers ih =>
      intro world h args apart argsApart secludes result after finished
      change cutOff _ (.invoke h args) world = _ at finished
      obtain ⟨own, finished⟩ := cutOff_eq_some finished
      exact yields_invoke ih own apart argsApart secludes result after finished

end Machine

end Interop
