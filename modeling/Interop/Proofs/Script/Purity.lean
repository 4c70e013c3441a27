import Interop.Proofs.Machine.Alone
import Interop.Proofs.Machine.Evolution
import Interop.Proofs.Mapping.Refinement
import Interop.Proofs.Script.Visiting
/-!
What a script changes that calls nothing and assigns to names only. Its expressions finish and do no
more than make objects, so that it changes the local namespace alone, by the assignments that come
before its first failure.
-/

set_option autoImplicit false

namespace Interop

variable {κ σ α : Type}

/-- The computation finishes in every world, and does no more than add cells. -/
def Exec.Quiet (x : Exec κ σ α) : Prop :=
  ∀ world, ∃ result after, x.run world = some (result, after) ∧ world.Moves Heap.Extends after

theorem Exec.closed_quiet : Exec.Closed (κ := κ) (σ := σ) fun _ x => x.Quiet where
  pure a world := ⟨.ok a, world, rfl, .refl world⟩
  bind first rest world := by
    obtain ⟨result, mid, finished, early⟩ := first world
    cases result with
    | error error => exact ⟨.error error, mid, run_bind_of_error finished, early⟩
    | ok a =>
        obtain ⟨result, after, finished', late⟩ := rest a mid
        exact ⟨result, after, (run_bind_of_ok finished).trans finished', early.trans late⟩
  tryCatch first recover world := by
    obtain ⟨result, mid, finished, early⟩ := first world
    cases result with
    | ok a => exact ⟨.ok a, mid, run_tryCatch_of_ok finished, early⟩
    | error error =>
        obtain ⟨result, after, finished', late⟩ := recover error mid
        exact ⟨result, after, (run_tryCatch_of_error finished).trans finished', early.trans late⟩
  get world := ⟨.ok world, world, rfl, .refl world⟩
  ofOp {α op} moves world := by
    cases outcome : op.run world.heap with
    | ok pair =>
        exact ⟨_, _, Run.attempt_of_ok outcome, .ofHeap (moves Heap.Extends _ _ _ outcome)⟩
    | error fault =>
        exact ⟨_, _, Run.attempt_of_error outcome, .ofHeap (Heap.along_raise world.heap fault)⟩

namespace Script

/-! ### Expressions without calls -/

def Expr.isCall : Expr → Bool
  | .call .. => true
  | _ => false

/-- No part of the expression is a call. -/
def Expr.CallFree (expr : Expr) : Prop := ∀ part, expr.HasPart part → part.isCall = false

theorem Expr.callFree_iff {expr : Expr} :
    expr.CallFree ↔ expr.isCall = false ∧ ∀ part ∈ expr.parts, part.CallFree := by
  constructor
  · intro callFree
    exact ⟨callFree expr .refl, fun part among inner within => callFree inner (.head among within)⟩
  · rintro ⟨noCall, parts⟩ part within
    obtain rfl | ⟨next, among, within⟩ := within.cases_head
    · exact noCall
    · exact parts next among part within

namespace Scope

variable {scope : Scope κ σ} {expr : Expr}

theorem evalAll_congr {other : Scope κ σ} {exprs : List Expr}
    (same : ∀ expr ∈ exprs, scope.eval expr = other.eval expr) :
    scope.evalAll exprs = other.evalAll exprs := by
  induction exprs with
  | nil => rw [evalAll, evalAll]
  | cons expr rest ih =>
      obtain ⟨first, others⟩ := List.forall_mem_cons.mp same
      rw [evalAll, evalAll, first, ih others]

theorem operate_withInvoke (invoke : Handle → List (Arg κ) → Exec κ σ Handle)
    (noCall : expr.isCall = false) :
    (scope.withInvoke invoke).operate expr = scope.operate expr := by
  funext values
  cases expr with
  | call => cases noCall
  | _ => rcases values with _ | ⟨first, _ | ⟨second, _ | ⟨third, rest⟩⟩⟩ <;> rfl

/-- An expression without calls is evaluated as if invocations were something else. -/
theorem eval_withInvoke (invoke : Handle → List (Arg κ) → Exec κ σ Handle)
    (callFree : expr.CallFree) : (scope.withInvoke invoke).eval expr = scope.eval expr := by
  induction expr using Expr.induct_parts with
  | step expr ih =>
      obtain ⟨noCall, parts⟩ := Expr.callFree_iff.mp callFree
      have same : ∀ part ∈ expr.parts, (scope.withInvoke invoke).eval part = scope.eval part :=
        fun part among => ih part among (parts part among)
      rw [eval_eq, eval_eq, evalAll_congr same, operate_withInvoke invoke noCall]

theorem quiet_eval (scope : Scope κ σ) (callFree : expr.CallFree) : (scope.eval expr).Quiet := by
  -- Invocations may do anything, so they are exchanged for ones that fail, and are not met.
  let refusing : Handle → List (Arg κ) → Exec κ σ Handle := fun _ _ => Exec.fault .released
  have invokes : (scope.withInvoke refusing).Invokes fun _ x => x.Quiet :=
    fun _ _ _ => good_fault Exec.closed_quiet .released
  rw [← eval_withInvoke refusing callFree]
  exact good_eval Exec.closed_quiet invokes expr

end Scope

end Script

/-! ### Rebinding names -/

namespace Heap

/-- Every cell is the same, except perhaps one. -/
def ExtendsBut (d : Handle) (heap after : Heap κ) : Prop :=
  ∀ h cell, h ≠ d → heap.cell? h = some cell → after.cell? h = some cell

instance (d : Handle) : IsPreorder (Heap κ) (ExtendsBut d) where
  refl _ _ _ _ found := found
  trans _ _ _ early late h cell other found := late h cell other (early h cell other found)

theorem Extends.but {heap after : Heap κ} (extends_ : heap.Extends after) (d : Handle) :
    heap.ExtendsBut d after :=
  fun h cell _ found => extends_ h cell found

theorem extendsBut_write (heap : Heap κ) (d : Handle) (cell : Cell κ) :
    heap.ExtendsBut d (heap.write d cell) :=
  fun _ _ other found => (cell?_write_of_ne other cell).trans found

end Heap

theorem OrderedMap.merge_append {α : Type} (m : OrderedMap α) (early late : Entries α) :
    (m.merge early).merge late = m.merge (early ++ late) :=
  ext_entries List.foldl_append.symm

/-- Some names are bound one after the other in a dict, and nothing else is done but adding
cells. -/
structure World.Rebinds (d : Handle) (entries attributes : OrderedMap Handle) (log : Entries Handle)
    (world after : World κ σ) : Prop where
  bound : after.heap.cell? d = some (.object ⟨.dict (entries.merge log), attributes⟩)
  others : world.Moves (Heap.ExtendsBut d) after

namespace World

variable {world mid after : World κ σ} {d : Handle} {entries attributes : OrderedMap Handle}
  {log more : Entries Handle}

theorem Moves.but (moves : world.Moves Heap.Extends after) (d : Handle) :
    world.Moves (Heap.ExtendsBut d) after :=
  { moves with heap := moves.heap.but d }

theorem Rebinds.extends (rebinds : world.Rebinds d entries attributes log mid)
    (moves : mid.Moves Heap.Extends after) : world.Rebinds d entries attributes log after :=
  ⟨moves.heap d _ rebinds.bound, rebinds.others.trans (moves.but d)⟩

theorem Rebinds.none (found : world.heap.cell? d = some (.object ⟨.dict entries, attributes⟩))
    (moves : world.Moves Heap.Extends after) : world.Rebinds d entries attributes [] after :=
  ⟨moves.heap d _ found, moves.but d⟩

theorem Rebinds.append (early : world.Rebinds d entries attributes log mid)
    (late : mid.Rebinds d (entries.merge log) attributes more after) :
    world.Rebinds d entries attributes (log ++ more) after :=
  ⟨OrderedMap.merge_append entries log more ▸ late.bound, early.others.trans late.others⟩

end World

/-! ### Statements without calls -/

namespace Script

/-- The statement calls nothing, and if it assigns, then to a name. -/
def Statement.IsPlain : Statement → Prop
  | .expr evaluated => evaluated.CallFree
  | .assign (.name _) evaluated => evaluated.CallFree
  | .assign _ _ => False

/-- The name that a statement assigns to. -/
def Statement.names : Statement → List String
  | .assign (.name name) _ => [name]
  | _ => []

namespace Scope

/-- Statements run up to the first one that fails, or all of them, and bind the names of a log. What
comes after them adds cells. -/
def StopsAt (scope : Scope κ σ) (statements : List Statement) (world : World κ σ)
    (log : Entries Handle) (result : Except Error Handle) (after : World κ σ) : Prop :=
  ∃ done mid, scope.Logs done world log mid ∧ log.keys = done.flatMap Statement.names ∧
    mid.Moves Heap.Extends after ∧
    ((done = statements ∧ ∃ value, result = .ok value) ∨
      ∃ failing later error, statements = done ++ failing :: later ∧ result = .error error ∧
        (scope.step failing).run mid = some (.error error, after))

variable {scope : Scope κ σ} {world mid after : World κ σ} {entries attributes : OrderedMap Handle}
  {log more : Entries Handle} {statement : Statement} {statements others : List Statement}

theorem Logs.append (early : scope.Logs statements world log mid)
    (late : scope.Logs others mid more after) :
    scope.Logs (statements ++ others) world (log ++ more) after := by
  induction early with
  | nil => exact late
  | expr evaluated _ ih => exact .expr evaluated (ih late)
  | assign evaluated assigned _ ih =>
      rw [List.append_assoc]
      exact .assign evaluated assigned (ih late)

theorem Logs.keys (logs : scope.Logs statements world log after) :
    log.keys = statements.flatMap Statement.names := by
  induction logs with
  | nil => rfl
  | expr _ _ ih => exact ih
  | @assign target _ _ _ _ _ _ _ _ _ _ _ ih =>
      rw [Entries.keys, List.map_append, List.flatMap_cons, ← ih]
      cases target <;> rfl

/-- A plain statement binds the name that it assigns to, or fails and has only added cells. -/
theorem run_step_plain (isPlain : statement.IsPlain)
    (found : world.heap.cell? scope.locals = some (.object ⟨.dict entries, attributes⟩)) :
    (∃ value log mid, (scope.step statement).run world = some (.ok value, mid) ∧
      scope.Logs [statement] world log mid ∧
      world.Rebinds scope.locals entries attributes log mid) ∨
    ∃ error after, (scope.step statement).run world = some (.error error, after) ∧
      world.Moves Heap.Extends after := by
  have evaluates {expr : Expr} (callFree : expr.CallFree) := scope.quiet_eval callFree world
  cases statement with
  | expr expr =>
      obtain ⟨result, mid, finished, moves⟩ := evaluates isPlain
      cases result with
      | error error => exact .inr ⟨error, mid, Exec.run_bind_of_error finished, moves⟩
      | ok value =>
          exact .inl ⟨some value, [], mid, Exec.run_bind_of_ok finished, .expr finished .nil,
            .none found moves⟩
  | assign target expr =>
      cases target with
      | name name =>
          obtain ⟨result, mid, finished, moves⟩ := evaluates isPlain
          cases result with
          | error error => exact .inr ⟨error, mid, Exec.run_bind_of_error finished, moves⟩
          | ok value =>
              let bound : Cell κ := .object ⟨.dict (entries.insert name value), attributes⟩
              have still := moves.heap _ _ found
              have written : mid.heap.setItem scope.locals (.string name) (.handle value) =
                  (.ok, mid.heap.write scope.locals bound) := Heap.setItem_of_dict still rfl rfl
              have assigned := run_assign_name scope name value mid
              rw [written, run_accepted rfl] at assigned
              refine .inl ⟨none, [(name, value)], _, ?_, .assign finished assigned .nil,
                Heap.cell?_write_self still bound, (moves.but _).trans ?_⟩
              · rw [run_step_assign finished, Exec.run_bind_of_ok assigned]
                rfl
              · exact .ofHeap (Heap.extendsBut_write _ _ bound)
      | _ => cases isPlain

/-- Plain statements finish. They bind the names that are assigned to before the first of them that
fails, and that one has only added cells. -/
theorem run_steps_plain (isPlain : ∀ statement ∈ statements, statement.IsPlain)
    (found : world.heap.cell? scope.locals = some (.object ⟨.dict entries, attributes⟩))
    (before : Option Handle) :
    ∃ done log mid, scope.Logs done world log mid ∧
      world.Rebinds scope.locals entries attributes log mid ∧
      ((done = statements ∧ ∃ last,
          (scope.steps before statements).run world = some (.ok last, mid)) ∨
        ∃ failing later error after, statements = done ++ failing :: later ∧
          (scope.step failing).run mid = some (.error error, after) ∧
          mid.Moves Heap.Extends after ∧
          (scope.steps before statements).run world = some (.error error, after)) := by
  -- The invariant is `found`: the locals are a dict with what has been bound so far.
  induction statements generalizing world entries before with
  | nil => exact ⟨[], [], world, .nil, .none found (.refl world), .inl ⟨rfl, before, rfl⟩⟩
  | cons statement rest ih =>
      obtain ⟨first, others⟩ := List.forall_mem_cons.mp isPlain
      rcases run_step_plain first found with
        ⟨value, log, mid, finished, logs, rebinds⟩ | ⟨error, after, failed, moves⟩
      · obtain ⟨done, more, last, logs', rebinds', ends⟩ := ih others rebinds.bound value
        refine ⟨statement :: done, log ++ more, last, logs.append logs', rebinds.append rebinds',
          ?_⟩
        have goesOn : (scope.steps before (statement :: rest)).run world =
            (scope.steps value rest).run mid := Exec.run_bind_of_ok finished
        rw [goesOn]
        rcases ends with ⟨rfl, ended⟩ | ⟨failing, later, error, after, rfl, failed, ended⟩
        · exact .inl ⟨rfl, ended⟩
        · exact .inr ⟨failing, later, error, after, rfl, failed, ended⟩
      · refine ⟨[], [], world, .nil, .none found (.refl world), .inr ?_⟩
        exact ⟨statement, rest, error, after, rfl, failed, moves, Exec.run_bind_of_error failed⟩

/-- A source of plain statements finishes. It binds the names that are assigned to before the first
statement that fails, or all of them. -/
theorem run_exec_plain {source : String} (parsed : parseSource source = .ok statements)
    (isPlain : ∀ statement ∈ statements, statement.IsPlain)
    (found : world.heap.cell? scope.locals = some (.object ⟨.dict entries, attributes⟩)) :
    ∃ log result after, (scope.exec source).run world = some (result, after) ∧
      scope.StopsAt statements world log result after ∧
      world.Rebinds scope.locals entries attributes log after := by
  obtain ⟨done, log, mid, logs, rebinds, ends⟩ := run_steps_plain isPlain found none
  rw [exec_of_parsed parsed]
  rcases ends with ⟨rfl, last, ended⟩ | ⟨failing, later, error, after, split, failed, moves, ended⟩
  · obtain ⟨value, after, answered, moves⟩ : ∃ value after,
        (resultOf last).run mid = some (.ok value, after) ∧ mid.Moves Heap.Extends after := by
      cases last with
      | some value => exact ⟨value, mid, rfl, .refl mid⟩
      | none => exact ⟨_, _, rfl, .ofHeap (.push _ _)⟩
    exact ⟨log, .ok value, after, (Exec.run_bind_of_ok ended).trans answered,
      ⟨done, mid, logs, logs.keys, moves, .inl ⟨rfl, value, rfl⟩⟩, rebinds.extends moves⟩
  · exact ⟨log, .error error, after, Exec.run_bind_of_error ended,
      ⟨done, mid, logs, logs.keys, moves, .inr ⟨failing, later, error, split, rfl, failed⟩⟩,
      rebinds.extends moves⟩

/-- A source that is no code fails and only adds cells. -/
theorem run_exec_of_fault {source : String} {fault : SourceFault}
    (refused : parseSource source = .error fault) (world : World κ σ) :
    ∃ error after, (scope.exec source).run world = some (.error error, after) ∧
      world.Moves Heap.Extends after := by
  have asked : scope.exec source = Exec.fault (.source fault) := by
    unfold exec
    rw [refused]
  rw [asked]
  exact ⟨_, _, rfl, .ofHeap (Heap.along_raise world.heap (.source fault))⟩

end Scope

end Script

end Interop
