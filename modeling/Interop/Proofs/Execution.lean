import Interop.Machine
import Mathlib.Order.Defs.Unbundled
/-!
How computations run. The results of composed computations are taken apart into the results of
their parts, and `Moves` says that a computation changes the heap along a given relation only.
-/

set_option autoImplicit false

namespace Interop

variable {κ σ α β : Type}

/-! ### Taking runs apart -/

namespace Heap.Op

theorem bind_eq_ok_iff {x : Op κ α} {f : α → Op κ β} {heap after : Heap κ} {b : β} :
    (x >>= f).run heap = .ok (b, after) ↔
      ∃ a mid, x.run heap = .ok (a, mid) ∧ (f a).run mid = .ok (b, after) := by
  rw [StateT.run_bind]
  constructor
  · intro finished
    cases first : x.run heap with
    | error fault =>
        rw [first] at finished
        cases finished
    | ok pair =>
        rw [first] at finished
        exact ⟨pair.1, pair.2, rfl, finished⟩
  · rintro ⟨a, mid, first, second⟩
    rw [first]
    exact second

theorem run_bind_of_ok {x : Op κ α} {f : α → Op κ β} {heap mid : Heap κ} {a : α}
    (finished : x.run heap = .ok (a, mid)) : (x >>= f).run heap = (f a).run mid := by
  rw [StateT.run_bind, finished]
  rfl

theorem run_bind_of_error {x : Op κ α} {f : α → Op κ β} {heap : Heap κ} {fault : Fault}
    (failed : x.run heap = .error fault) : (x >>= f).run heap = .error fault := by
  rw [StateT.run_bind, failed]
  rfl

theorem run_get_bind (f : Heap κ → Op κ α) (heap : Heap κ) :
    (get >>= f).run heap = (f heap).run heap := rfl

end Heap.Op

namespace Run

theorem bind_eq_some_iff {x : Run κ σ α} {f : α → Run κ σ β} {world after : World κ σ} {b : β} :
    (x >>= f) world = some (b, after) ↔
      ∃ a mid, x world = some (a, mid) ∧ f a mid = some (b, after) := by
  change (x world).bind (fun pair => f pair.1 pair.2) = some (b, after) ↔ _
  rw [Option.bind_eq_some_iff, Prod.exists]

/-- An attempted operation either succeeds or raises its fault. -/
theorem attempt_eq_some {op : Heap.Op κ α} {world after : World κ σ} {result : Except Error α}
    (finished : attempt op world = some (result, after)) :
    (∃ a heap, op.run world.heap = .ok (a, heap) ∧ result = .ok a ∧
      after = { world with heap := heap }) ∨
    (∃ fault, op.run world.heap = .error fault ∧
      result = .error (world.heap.raise fault).1 ∧
      after = { world with heap := (world.heap.raise fault).2 }) := by
  unfold attempt at finished
  cases outcome : op.run world.heap with
  | ok pair =>
      rw [outcome] at finished
      cases finished
      exact .inl ⟨pair.1, pair.2, rfl, rfl, rfl⟩
  | error fault =>
      rw [outcome] at finished
      cases finished
      exact .inr ⟨fault, rfl, rfl, rfl⟩

theorem attempt_of_ok {op : Heap.Op κ α} {world : World κ σ} {a : α} {heap : Heap κ}
    (success : op.run world.heap = .ok (a, heap)) :
    attempt op world = some (.ok a, { world with heap := heap }) := by
  unfold attempt
  rw [success]

theorem attempt_of_error {op : Heap.Op κ α} {world : World κ σ} {fault : Fault}
    (refused : op.run world.heap = .error fault) :
    attempt op world = some (.error (world.heap.raise fault).1,
      { world with heap := (world.heap.raise fault).2 }) := by
  unfold attempt
  rw [refused]

end Run

namespace Exec

theorem run_bind_eq_some_iff {x : Exec κ σ α} {f : α → Exec κ σ β} {world after : World κ σ}
    {result : Except Error β} :
    (x >>= f).run world = some (result, after) ↔
      (∃ a mid, x.run world = some (.ok a, mid) ∧ (f a).run mid = some (result, after)) ∨
      (∃ error, x.run world = some (.error error, after) ∧ result = .error error) := by
  rw [ExceptT.run_bind, Run.bind_eq_some_iff]
  constructor
  · rintro ⟨first, mid, hFirst, hSecond⟩
    cases first with
    | ok a => exact .inl ⟨a, mid, hFirst, hSecond⟩
    | error error =>
        cases hSecond
        exact .inr ⟨error, hFirst, rfl⟩
  · rintro (⟨a, mid, hFirst, hSecond⟩ | ⟨error, hFirst, rfl⟩)
    · exact ⟨.ok a, mid, hFirst, hSecond⟩
    · exact ⟨.error error, after, hFirst, rfl⟩

/-- Once a part has succeeded, the rest goes on from where it ended. -/
theorem run_bind_of_ok {x : Exec κ σ α} {f : α → Exec κ σ β}
    {world mid : World κ σ} {a : α} (finished : x.run world = some (.ok a, mid)) :
    (x >>= f).run world = (f a).run mid := by
  rw [ExceptT.run_bind]
  change (x.run world).bind _ = _
  rw [finished]
  rfl

/-- What comes after a part only depends on how the part ends. -/
theorem run_bind_of_same {x y : Exec κ σ α} {f : α → Exec κ σ β} {world mid : World κ σ}
    (same : x.run world = y.run mid) : (x >>= f).run world = (y >>= f).run mid := by
  rw [ExceptT.run_bind, ExceptT.run_bind]
  change (x.run world).bind _ = (y.run mid).bind _
  rw [same]

/-- Once a part has failed, the rest does not run. -/
theorem run_bind_of_error {x : Exec κ σ α} {f : α → Exec κ σ β}
    {world mid : World κ σ} {error : Error} (failed : x.run world = some (.error error, mid)) :
    (x >>= f).run world = some (.error error, mid) := by
  rw [ExceptT.run_bind]
  change (x.run world).bind _ = _
  rw [failed]
  rfl

theorem run_ofOp_bind_of_ok {op : Heap.Op κ α} {f : α → Exec κ σ β} {world : World κ σ} {a : α}
    {heap : Heap κ} (success : op.run world.heap = .ok (a, heap)) :
    (ofOp op >>= f).run world = (f a).run { world with heap := heap } :=
  run_bind_of_ok (Run.attempt_of_ok success)

theorem run_ofOp_bind_of_error {op : Heap.Op κ α} {f : α → Exec κ σ β} {world : World κ σ}
    {fault : Fault} (refused : op.run world.heap = .error fault) :
    (ofOp op >>= f).run world = some (.error (world.heap.raise fault).1,
      { world with heap := (world.heap.raise fault).2 }) :=
  run_bind_of_error (Run.attempt_of_error refused)

/-- What succeeds is not recovered from. -/
theorem run_tryCatch_of_ok {x : Exec κ σ α} {recover : Error → Exec κ σ α}
    {world mid : World κ σ} {a : α} (finished : x.run world = some (.ok a, mid)) :
    (tryCatch x recover).run world = some (.ok a, mid) := by
  rw [ExceptT.run_tryCatch]
  change (x.run world).bind _ = _
  rw [finished]
  rfl

/-- What fails is recovered from where it ended. -/
theorem run_tryCatch_of_error {x : Exec κ σ α} {recover : Error → Exec κ σ α}
    {world mid : World κ σ} {error : Error} (failed : x.run world = some (.error error, mid)) :
    (tryCatch x recover).run world = (recover error).run mid := by
  rw [ExceptT.run_tryCatch]
  change (x.run world).bind _ = _
  rw [failed]
  rfl

end Exec

namespace Program

theorem run_bind_eq (x : Program κ σ α) (f : α → Program κ σ β) :
    (x >>= f).run = x.run >>= fun
      | .ok a => (f a).run
      | .error error => pure (.error error) := by
  rw [ExceptT.run_bind]
  congr 1
  funext result
  cases result <;> rfl

end Program

namespace Machine

variable (below : Handler κ σ)

theorem runProgram_bind (x : Program κ σ α) (f : α → Program κ σ β) :
    runProgram below (x >>= f) = runProgram below x >>= fun a => runProgram below (f a) := by
  apply ExceptT.ext
  change Interaction.run below (x >>= f).run = _
  rw [Program.run_bind_eq, Interaction.run_bind, ExceptT.run_bind]
  apply congrArg (Interaction.run below x.run >>= ·)
  funext result
  cases result <;> rfl

/-- Once a part of a program has succeeded, the rest goes on from where it ended. -/
theorem run_bind_of_ok {x : Program κ σ α} {f : α → Program κ σ β} {world mid : World κ σ} {a : α}
    (finished : (runProgram below x).run world = some (.ok a, mid)) :
    (runProgram below (x >>= f)).run world = (runProgram below (f a)).run mid := by
  rw [runProgram_bind, ExceptT.run_bind]
  change ((runProgram below x).run world).bind _ = _
  rw [finished]
  rfl

/-- An attempt always succeeds, with the result as its answer. -/
theorem run_attempt {x : Program κ σ α} {world after : World κ σ} {result : Except Error α}
    (finished : (runProgram below x).run world = some (result, after)) :
    (runProgram below x.attempt).run world = some (.ok result, after) := by
  change Interaction.run below (Except.ok <$> x.run) world = _
  rw [map_eq_pure_bind, Interaction.run_bind]
  change (Interaction.run below x.run world).bind _ = _
  rw [show Interaction.run below x.run world = _ from finished]
  rfl

/-- A program that only asks is answered by the handler. -/
theorem runProgram_ask (request : Request κ σ) :
    runProgram below (Program.ask request) = ExceptT.lift (below request) := by
  apply ExceptT.ext
  change Interaction.run below (Except.ok <$> Interaction.ask request) = Except.ok <$> below request
  rw [map_eq_pure_bind, Interaction.run_bind, Interaction.run_ask, map_eq_pure_bind]
  rfl

/-! A request that may fail is answered by the handler. -/

theorem runProgram_getAttr (h : Handle) (name : String) :
    runProgram below (h.getAttr name) = ExceptT.mk (below (.getAttr h name)) :=
  ExceptT.ext (Interaction.run_ask below (.getAttr h name))

theorem runProgram_getItem (h : Handle) (key : Arg κ) :
    runProgram below (h.getItem key) = ExceptT.mk (below (.getItem h key)) :=
  ExceptT.ext (Interaction.run_ask below (.getItem h key))

theorem runProgram_invoke (h : Handle) (args : List (Arg κ)) :
    runProgram below (h.invoke args) = ExceptT.mk (below (.invoke h args)) :=
  ExceptT.ext (Interaction.run_ask below (.invoke h args))

theorem runProgram_exec (source : String) (globals locals : Handle) :
    runProgram below (Program.exec source globals locals) =
      ExceptT.mk (below (.exec source globals locals)) :=
  ExceptT.ext (Interaction.run_ask below (.exec source globals locals))

end Machine

/-- A host whose functions all answer none. -/
def Host.answeringNone : Host Unit Unit where
  function _ _ _ := Program.create .none
  callback _ _ := pure .none
  method _ _ _ := pure .none
  members _ _ := pure []

/-- A world with a context manager: an instance of a class with both methods. -/
def World.withContext : World Unit Unit :=
  { World.start {} .standard () with
    heap := ⟨#[.object ⟨.dict .empty, .empty⟩,
      .object ⟨.function "__enter__" (.host ()), .empty⟩,
      .object ⟨.function "__exit__" (.host ()), .empty⟩,
      .object ⟨.type ⟨"host", "Context"⟩, .ofEntries [("__enter__", ⟨1⟩), ("__exit__", ⟨2⟩)]⟩,
      .object ⟨.instanceOf ⟨3⟩, .empty⟩]⟩ }

/-! ### Computations along a relation -/

/-- The heap moves along a relation; of all the rest, only the number of loads and the host's state
may differ. -/
structure World.Moves (along : Heap κ → Heap κ → Prop) (world after : World κ σ) : Prop where
  heap : along world.heap after.heap
  globals : after.globals = world.globals
  builtins : after.builtins = world.builtins
  modules : after.modules = world.modules
  settings : after.settings = world.settings
  loader : after.loader = world.loader

/-- Whenever the operation succeeds, the heap has moved along a relation. -/
def Heap.Op.Moves (along : Heap κ → Heap κ → Prop) (op : Heap.Op κ α) : Prop :=
  ∀ heap a after, op.run heap = .ok (a, after) → along heap after

/-- Whenever the computation finishes, the heap has moved along a relation. -/
def Run.Moves (along : Heap κ → Heap κ → Prop) (x : Run κ σ α) : Prop :=
  ∀ world a after, x world = some (a, after) → world.Moves along after

section Relation

variable {along : Heap κ → Heap κ → Prop}

theorem World.Moves.ofHeap {world : World κ σ} {heap : Heap κ} (moved : along world.heap heap) :
    world.Moves along { world with heap := heap } :=
  ⟨moved, rfl, rfl, rfl, rfl, rfl⟩

theorem Heap.Op.moves_throw (fault : Fault) : Moves along (throw fault : Op κ α) := by
  intro heap b after finished
  cases finished

namespace Run

theorem moves_diverge : Moves along (diverge : Run κ σ α) := by
  intro world a after finished
  cases finished

theorem moves_onHeap {f : Heap κ → α × Heap κ} (hf : ∀ heap, along heap (f heap).2) :
    Moves along (onHeap f : Run κ σ α) := by
  intro world a after finished
  cases finished
  exact .ofHeap (hf world.heap)

theorem moves_attempt {op : Heap.Op κ α} (hOp : op.Moves along)
    (hRaise : ∀ heap fault, along heap (Heap.raise heap fault).2) :
    Moves along (attempt op : Run κ σ (Except Error α)) := by
  intro world result after finished
  rcases attempt_eq_some finished with ⟨a, heap, success, _, rfl⟩ | ⟨fault, _, _, rfl⟩
  · exact .ofHeap (hOp world.heap a heap success)
  · exact .ofHeap (hRaise world.heap fault)

end Run

/-- Layers keep what each of them keeps over any layer below. -/
theorem Machine.moves_tower {layer : Handler κ σ → Handler κ σ}
    (step : ∀ below : Handler κ σ, (∀ request, Run.Moves along (below request)) →
      ∀ request, Run.Moves along (layer below request)) (layers : Nat) :
    ∀ request, Run.Moves along (Machine.tower layer layers request) := by
  induction layers with
  | zero => exact fun request => Run.moves_diverge
  | succ layers ih => exact step _ ih

end Relation

section Preorder

variable {along : Heap κ → Heap κ → Prop} [IsPreorder (Heap κ) along]

theorem World.Moves.refl (world : World κ σ) : world.Moves along world :=
  ⟨Std.Refl.refl world.heap, rfl, rfl, rfl, rfl, rfl⟩

theorem World.Moves.trans {first second third : World κ σ} (early : first.Moves along second)
    (late : second.Moves along third) : first.Moves along third :=
  ⟨IsTrans.trans _ _ _ early.heap late.heap, late.globals.trans early.globals,
    late.builtins.trans early.builtins, late.modules.trans early.modules,
    late.settings.trans early.settings, late.loader.trans early.loader⟩

namespace Heap.Op

theorem moves_pure (a : α) : Moves along (pure a : Op κ α) := by
  intro heap b after finished
  cases finished
  exact Std.Refl.refl heap

theorem moves_get : Moves along (get : Op κ (Heap κ)) := by
  intro heap b after finished
  cases finished
  exact Std.Refl.refl heap

theorem moves_bind {x : Op κ α} {f : α → Op κ β} (hx : Moves along x)
    (hf : ∀ a, Moves along (f a)) : Moves along (x >>= f) := by
  intro heap b after finished
  obtain ⟨a, mid, first, second⟩ := bind_eq_ok_iff.mp finished
  exact IsTrans.trans _ _ _ (hx heap a mid first) (hf a mid b after second)

theorem moves_check (f : Heap κ → Except Fault α) : Moves along (check f) := by
  intro heap a after finished
  change (f heap).map (fun a => (a, heap)) = .ok (a, after) at finished
  cases outcome : f heap with
  | error fault =>
      rw [outcome] at finished
      cases finished
  | ok value =>
      rw [outcome] at finished
      cases finished
      exact Std.Refl.refl heap

/-- A part that is computed without the heap. -/
theorem moves_liftExcept (x : Except Fault α) : Moves along (liftM x : Op κ α) := by
  intro heap a after finished
  cases x with
  | error fault => cases finished
  | ok value =>
      cases finished
      exact Std.Refl.refl heap

end Heap.Op

namespace Run

theorem moves_pure (a : α) : Moves along (pure a : Run κ σ α) := by
  intro world b after finished
  cases finished
  exact World.Moves.refl world

theorem moves_bind {x : Run κ σ α} {f : α → Run κ σ β} (hx : Moves along x)
    (hf : ∀ a, Moves along (f a)) : Moves along (x >>= f) := by
  intro world b after finished
  obtain ⟨a, mid, first, second⟩ := bind_eq_some_iff.mp finished
  exact (hx world a mid first).trans (hf a mid b after second)

theorem moves_get : Moves along (get : Run κ σ (World κ σ)) := by
  intro world a after finished
  cases finished
  exact World.Moves.refl world

theorem moves_readHeap (f : Heap κ → α) : Moves along (readHeap f : Run κ σ α) := by
  intro world a after finished
  cases finished
  exact World.Moves.refl world

end Run

namespace Exec

theorem moves_pure (a : α) : Run.Moves along (pure a : Exec κ σ α).run := Run.moves_pure _

theorem moves_bind {x : Exec κ σ α} {f : α → Exec κ σ β} (hx : Run.Moves along x.run)
    (hf : ∀ a, Run.Moves along (f a).run) : Run.Moves along (x >>= f).run := by
  intro world result after finished
  rcases run_bind_eq_some_iff.mp finished with ⟨a, mid, first, second⟩ | ⟨error, first, _⟩
  · exact (hx world _ mid first).trans (hf a mid result after second)
  · exact hx world _ after first

theorem moves_tryCatch {x : Exec κ σ α} {recover : Error → Exec κ σ α}
    (hx : Run.Moves along x.run) (hRecover : ∀ error, Run.Moves along (recover error).run) :
    Run.Moves along (tryCatch x recover).run := by
  rw [ExceptT.run_tryCatch]
  apply Run.moves_bind hx
  intro result
  cases result with
  | ok a => exact Run.moves_pure (Except.ok a)
  | error error => exact hRecover error

theorem moves_lift {x : Run κ σ α} (hx : Run.Moves along x) :
    Run.Moves along (ExceptT.lift x : Exec κ σ α).run := by
  rw [ExceptT.run_lift, map_eq_pure_bind]
  exact Run.moves_bind hx fun a => Run.moves_pure (Except.ok a)

end Exec

/-- A tree moves along if all answers do. -/
theorem Interaction.moves_run {below : Handler κ σ}
    (answers : ∀ request, Run.Moves along (below request)) (tree : Interaction κ σ α) :
    Run.Moves along (tree.run below) := by
  induction tree with
  | done a => exact Run.moves_pure a
  | perform request resume ih => exact Run.moves_bind (answers request) ih

end Preorder

end Interop
