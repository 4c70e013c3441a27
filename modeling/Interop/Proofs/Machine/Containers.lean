import Interop.Proofs.Iteration.Live
/-!
Calls of what the runtime has of its own. A method of a list or a dict is read as an attribute,
which binds it anew, and then invoked; a builtin is found by its name.
-/

set_option autoImplicit false

namespace Interop

variable {κ σ : Type}

def Handle.callMethod (h : Handle) (name : String) (args : List (Arg κ)) : Program κ σ Handle := do
  let method ← h.getAttr name
  method.invoke args

theorem Arg.splitKeywords_singleton {arg : Arg κ} (positional : arg.isPositional = true) :
    splitKeywords [arg] = ([arg], []) := by
  cases arg with
  | keywords => cases positional
  | _ => rfl

namespace Heap

/-- The heap after a method was bound to its receiver. -/
def withMethod (heap : Heap κ) (receiver : Handle) (method : ContainerMethod) : Heap κ :=
  heap.push (.object ⟨.boundMethod receiver method.name (.container method), .empty⟩)

def HasMethod (heap : Heap κ) (h : Handle) (method : ContainerMethod) : Prop :=
  heap.attribute? h method.name = some (.method method.name (.container method))

/-- The foreign value of an argument, if it has one. -/
def made? (heap : Heap κ) (value : Arg κ) : Option Handle :=
  ((marshal value).run heap).toOption.map Prod.fst

variable {heap : Heap κ} {h : Handle}

theorem made?_eq_some_iff {value : Arg κ} {item : Handle} :
    heap.made? value = some item ↔ ∃ made, (marshal value).run heap = .ok (item, made) := by
  unfold made?
  cases (marshal value).run heap with
  | error fault => simp [Except.toOption]
  | ok pair => cases pair; simp [Except.toOption]

theorem extends_raise (heap : Heap κ) (fault : Fault) : heap.Extends (heap.raise fault).2 :=
  along_raise heap fault

/-- Only what a key stands for matters to an object. -/
theorem item_congr {key other : Arg κ} {object : HeapObject κ}
    (found : heap.cell? h = some (.object object))
    (same : heap.plainKey key = heap.plainKey other) :
    heap.item h key = heap.item h other := by
  unfold item
  rw [found]
  dsimp only
  rw [same]

theorem setItem_congr {key other : Arg κ} {object : HeapObject κ}
    (found : heap.cell? h = some (.object object)) (same : heap.plainKey key = heap.plainKey other)
    (value : Arg κ) : heap.setItem h key value = heap.setItem h other value := by
  unfold setItem
  rw [found]
  dsimp only
  rw [same]

theorem extends_withMethod (heap : Heap κ) (h : Handle) (method : ContainerMethod) :
    heap.Extends (heap.withMethod h method) := Extends.push heap _

theorem hasMethod_of_fixed {kind : Kind κ} {method : ContainerMethod}
    (found : heap.kind? h = some kind)
    (fixed : kind.fixedAttribute? method.name = some (.method method.name (.container method))) :
    heap.HasMethod h method := by
  obtain ⟨attributes, present⟩ := cell?_of_kind? found
  unfold HasMethod attribute?
  rw [present]
  dsimp only
  rw [fixed]
  rfl

theorem hasMethod_of_list {items : List Handle} (found : heap.kind? h = some (.list items))
    (method : ContainerMethod) (own : ContainerMethod.ofList? method.name = some method) :
    heap.HasMethod h method :=
  hasMethod_of_fixed found (by rw [Kind.fixedAttribute?, own]; rfl)

theorem hasMethod_of_dict {entries : OrderedMap Handle}
    (found : heap.kind? h = some (.dict entries)) (method : ContainerMethod)
    (own : ContainerMethod.ofDict? method.name = some method) : heap.HasMethod h method :=
  hasMethod_of_fixed found (by rw [Kind.fixedAttribute?, own]; rfl)

end Heap

namespace Machine

variable (host : Host κ σ) (below : Handler κ σ) {world : World κ σ} {h : Handle}
  {method : ContainerMethod}

/-- A call marshals its arguments after the method was bound, and then runs the method. -/
theorem run_callMethod (has : world.heap.HasMethod h method) (args : List (Arg κ)) :
    (runProgram (layer host below) (h.callMethod method.name args)).run world =
      (do
        let handles ← Exec.ofOp (Heap.marshalAll (Arg.splitKeywords args).1)
        let _ ← Exec.ofOp (Heap.marshalEntries (Arg.splitKeywords args).2)
        Exec.ofOp (Heap.callContainer method h handles) : Exec κ σ Handle).run
          { world with heap := world.heap.withMethod h method } := by
  have bound : (Heap.getAttr h method.name).run world.heap =
      .ok (world.heap.fresh, world.heap.withMethod h method) := by
    refine Heap.Op.bind_eq_ok_iff.mpr ⟨world.heap, world.heap, rfl, ?_⟩
    rw [show world.heap.attribute? h method.name = _ from has]
    rfl
  have got : (runProgram (layer host below) (h.getAttr method.name)).run world =
      some (.ok world.heap.fresh, { world with heap := world.heap.withMethod h method }) := by
    rw [runProgram_getAttr]
    exact Run.attempt_of_ok bound
  have isMethod : (world.heap.withMethod h method).kind? world.heap.fresh =
      some (.boundMethod h method.name (.container method)) := Heap.kind?_fresh world.heap _
  have hasBody : (Kind.boundMethod h method.name (.container method) : Kind κ).body? =
      some (.native (.container method), [h]) := rfl
  unfold Handle.callMethod
  rw [run_bind_of_ok _ got]
  exact run_invoke_body host below isMethod hasBody args

theorem run_callMethod_nil (has : world.heap.HasMethod h method) :
    (runProgram (layer host below) (h.callMethod method.name [])).run world =
      Run.attempt (Heap.callContainer method h [])
        { world with heap := world.heap.withMethod h method } := by
  rw [run_callMethod host below has]
  rfl

theorem run_callMethod_one (has : world.heap.HasMethod h method) {value : Arg κ} {item : Handle}
    {made : Heap κ} (positional : value.isPositional = true)
    (marshalled : (Heap.marshal value).run (world.heap.withMethod h method) = .ok (item, made)) :
    (runProgram (layer host below) (h.callMethod method.name [value])).run world =
      Run.attempt (Heap.callContainer method h [item]) { world with heap := made } := by
  have all : (Heap.marshalAll [value]).run (world.heap.withMethod h method) =
      .ok ([item], made) :=
    Heap.Op.bind_eq_ok_iff.mpr ⟨item, made, marshalled, rfl⟩
  rw [run_callMethod host below has, Arg.splitKeywords_singleton positional,
    Exec.run_ofOp_bind_of_ok all]
  rfl

theorem run_callBuiltin {builtin : Builtin} {result : Handle} {heap : Heap κ}
    (has : world.HasBuiltin builtin)
    (called : (Heap.callBuiltin builtin [h]).run world.heap = .ok (result, heap)) :
    (runProgram (layer host below) do
      (← Program.builtin builtin.name).invoke [.handle h]).run world =
      some (.ok result, { world with heap := heap }) := by
  obtain ⟨f, bound, isBuiltin⟩ := has
  rw [run_bind_of_ok _ (run_builtin host below bound)]
  exact run_invoke_builtin host below isBuiltin called

end Machine

end Interop
