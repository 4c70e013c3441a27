import Interop.Proofs.Mapping.Writes
import Interop.Proofs.Script.Composition
/-!
What a run evaluates. Every expression first evaluates its parts in order, so that the evaluations
that happen during a run, and the worlds in which they happen, are found by going down into parts.
Beside them stands the log of the names that the run has assigned to.
-/

set_option autoImplicit false

namespace Interop.Script

variable {κ σ α : Type}

/-- The parts of an expression, in the order in which they are evaluated. -/
def Expr.parts : Expr → List Expr
  | .list items => items
  | .dict entries => entries.map Prod.snd
  | .neg operand => [operand]
  | .binary left _ right => [left, right]
  | .call function args keywords => function :: (args ++ keywords.map Prod.snd)
  | .attr target _ => [target]
  | .item target key => [target, key]
  | _ => []

/-- An expression has itself, its parts, the parts of these, and so on. -/
def Expr.HasPart : Expr → Expr → Prop := Relation.ReflTransGen fun whole part => part ∈ whole.parts

theorem Expr.sizeOf_lt_of_mem_parts {expr part : Expr} (among : part ∈ expr.parts) :
    sizeOf part < sizeOf expr := by
  cases expr with
  | list items =>
      have smaller : sizeOf part < sizeOf items := List.sizeOf_lt_of_mem among
      rw [list.sizeOf_spec]
      omega
  | dict entries =>
      have smaller := Entries.sizeOf_lt_of_mem_values among
      rw [dict.sizeOf_spec]
      omega
  | call function args keywords =>
      rw [call.sizeOf_spec]
      rcases List.mem_cons.mp among with rfl | among
      · omega
      · rcases List.mem_append.mp among with within | within
        · have smaller := List.sizeOf_lt_of_mem within
          omega
        · have smaller := Entries.sizeOf_lt_of_mem_values within
          omega
  | neg operand | attr operand _ =>
      obtain rfl := List.mem_singleton.mp among
      simp only [neg.sizeOf_spec, attr.sizeOf_spec]
      omega
  | binary first _ second | item first second =>
      obtain rfl | rfl : part = first ∨ part = second := by simpa [parts] using among
      all_goals
        simp only [binary.sizeOf_spec, item.sizeOf_spec]
        omega
  | _ => cases among

/-- What holds of an expression if it holds of its parts holds of every expression. -/
theorem Expr.induct_parts {p : Expr → Prop}
    (step : ∀ expr, (∀ part ∈ expr.parts, p part) → p expr) (expr : Expr) : p expr :=
  step expr fun part _ => induct_parts step part
termination_by sizeOf expr
decreasing_by exact sizeOf_lt_of_mem_parts ‹_›

/-- The parts of a target, evaluated when it is assigned to. -/
def Expr.places : Expr → List Expr
  | .attr target _ => [target]
  | .item target key => [target, key]
  | _ => []

/-- The names that an assignment to a target writes. -/
def Expr.writes (value : Handle) : Expr → Entries Handle
  | .name target => [(target, value)]
  | _ => []

def Statement.parts : Statement → List Expr
  | .expr evaluated => [evaluated]
  | .assign target evaluated => evaluated :: target.places

namespace Scope

variable (scope : Scope κ σ)

/-- What an expression does with the values of its parts. -/
def operate : Expr → List Handle → Exec κ σ Handle
  | .int value, _ => Exec.ofOp (Heap.Op.alloc (.int value))
  | .float value, _ => Exec.ofOp (Heap.Op.alloc (.float value))
  | .string value, _ => Exec.ofOp (Heap.Op.alloc (.string value))
  | .none, _ => Exec.ofOp (Heap.Op.alloc .none)
  | .bool value, _ => Exec.ofOp (Heap.Op.alloc (.bool value))
  | .name name, _ => scope.lookup name
  | .list _, values => Exec.ofOp (Heap.Op.alloc (.list values))
  | .dict entries, values =>
    Exec.ofOp (Heap.Op.alloc (.dict (.ofEntries ((entries.map Prod.fst).zip values))))
  | .neg _, [operand] => Exec.ofOp (negate operand)
  | .binary _ operator _, [l, r] => Exec.ofOp (applyOperator operator l r)
  | .call _ args keywords, callee :: values =>
    let named := (keywords.map Prod.fst).zip (values.drop args.length)
    let spread : List (Arg κ) :=
      if named.isEmpty then []
      else [.keywords ((Entries.normalize named).map fun entry => (entry.1, .handle entry.2))]
    scope.invoke callee ((values.take args.length).map Arg.handle ++ spread)
  | .attr _ name, [value] => Exec.ofOp (Heap.getAttr value name)
  | .item _ _, [value, k] => Exec.ofOp (Heap.getItem value (.handle k))
  -- no other number of values comes from the parts
  | _, _ => .mk Run.diverge

/-- Evaluating one expression after the other, from a world on, evaluates an expression in a world:
one of them does, or a part of one. -/
inductive Visits (expr : Expr) (there : World κ σ) : List Expr → World κ σ → Prop
  | here {rest : List Expr} : Visits expr there (expr :: rest) there
  | inside {first : Expr} {rest : List Expr} {world : World κ σ}
      (part : Visits expr there first.parts world) : Visits expr there (first :: rest) world
  | later {first : Expr} {rest : List Expr} {world mid : World κ σ} {value : Handle}
      (evaluated : (scope.eval first).run world = some (.ok value, mid))
      (more : Visits expr there rest mid) : Visits expr there (first :: rest) world

/-- Statements that run one after the other and all succeed, with the names that they have assigned
to, and the values of these. -/
inductive Logs : List Statement → World κ σ → Entries Handle → World κ σ → Prop
  | nil {world : World κ σ} : Logs [] world [] world
  | expr {expr : Expr} {rest : List Statement} {world mid after : World κ σ} {value : Handle}
      {log : Entries Handle} (evaluated : (scope.eval expr).run world = some (.ok value, mid))
      (more : Logs rest mid log after) : Logs (.expr expr :: rest) world log after
  | assign {target expr : Expr} {rest : List Statement} {world mid next after : World κ σ}
      {value : Handle} {log : Entries Handle}
      (evaluated : (scope.eval expr).run world = some (.ok value, mid))
      (assigned : (scope.assign target value).run mid = some (.ok (), next))
      (more : Logs rest next log after) :
      Logs (.assign target expr :: rest) world (target.writes value ++ log) after

/-- A run of statements evaluates an expression in a world, after it has assigned to the names of a
log. -/
def Evaluates (statements : List Statement) (start : World κ σ) (log : Entries Handle) (expr : Expr)
    (there : World κ σ) : Prop :=
  ∃ done statement rest mid, statements = done ++ statement :: rest ∧
    scope.Logs done start log mid ∧ scope.Visits expr there statement.parts mid

variable {scope}

/-! ### Evaluation goes down into parts -/

theorem evalEntries_eq (entries : List (String × Expr)) :
    scope.evalEntries entries = scope.evalAll (entries.map Prod.snd) >>= fun values =>
      pure ((entries.map Prod.fst).zip values) := by
  induction entries with
  | nil => rfl
  | cons entry rest ih =>
      obtain ⟨key, expr⟩ := entry
      rw [List.map_cons, List.map_cons, evalEntries, evalAll, ih]
      simp only [bind_assoc, pure_bind, List.zip_cons_cons]

theorem evalAll_append_bind (first second : List Expr)
    (f : List Handle → List Handle → Exec κ σ α) :
    (scope.evalAll (first ++ second) >>= fun values =>
      f (values.take first.length) (values.drop first.length)) =
        scope.evalAll first >>= fun values => scope.evalAll second >>= f values := by
  induction first generalizing f with
  | nil =>
      rw [evalAll]
      rfl
  | cons expr rest ih =>
      rw [List.cons_append, evalAll, evalAll]
      simp only [bind_assoc, pure_bind]
      refine bind_congr fun value => ?_
      exact ih fun values others => f (value :: values) others

/-- An expression evaluates its parts in order, and then operates on their values. -/
theorem eval_eq (expr : Expr) :
    scope.eval expr = scope.evalAll expr.parts >>= scope.operate expr := by
  cases expr with
  | list items => rw [eval]; rfl
  | dict entries =>
      rw [eval, evalEntries_eq]
      simp only [bind_assoc, pure_bind]
      rfl
  | neg operand =>
      rw [eval]
      simp only [Expr.parts, evalAll, bind_assoc, pure_bind, operate]
  | binary left operator right =>
      rw [eval]
      simp only [Expr.parts, evalAll, bind_assoc, pure_bind, operate]
  | call function args keywords =>
      rw [eval]
      simp only [Expr.parts, evalAll, bind_assoc, pure_bind, operate, evalEntries_eq]
      refine bind_congr fun callee => ?_
      exact (evalAll_append_bind args (keywords.map Prod.snd) _).symm
  | attr target name =>
      rw [eval]
      simp only [Expr.parts, evalAll, bind_assoc, pure_bind, operate]
  | item target key =>
      rw [eval]
      simp only [Expr.parts, evalAll, bind_assoc, pure_bind, operate]
  | _ =>
      rw [eval]
      simp only [Expr.parts, evalAll, pure_bind, operate]

/-- A run that is logged is one that performs its statements, and all that perform are logged. -/
theorem exists_logs_iff {statements : List Statement} {before : Option Handle}
    {world after : World κ σ} :
    (∃ log, scope.Logs statements world log after) ↔
      ∃ last, scope.Performs before statements last world after := by
  constructor
  · rintro ⟨log, logs⟩
    induction logs generalizing before with
    | nil => exact ⟨before, .none⟩
    | expr evaluated _ ih =>
        obtain ⟨last, performs⟩ := ih
        exact ⟨last, .next (Exec.run_bind_of_ok evaluated) performs⟩
    | assign evaluated assigned _ ih =>
        obtain ⟨last, performs⟩ := ih
        refine ⟨last, .next ?_ performs⟩
        exact (Exec.run_bind_of_ok evaluated).trans (Exec.run_bind_of_ok assigned)
  · rintro ⟨last, performs⟩
    induction performs with
    | none => exact ⟨[], .nil⟩
    | @next _ _ _ statement _ _ _ _ step _ ih =>
        obtain ⟨log, logs⟩ := ih
        cases statement with
        | expr expr =>
            obtain ⟨value, mid, evaluated, last⟩ | ⟨_, _, impossible⟩ :=
              Exec.run_bind_eq_some_iff.mp step
            · cases last
              exact ⟨log, .expr evaluated logs⟩
            · cases impossible
        | assign target expr =>
            obtain ⟨value, mid, evaluated, rest⟩ | ⟨_, _, impossible⟩ :=
              Exec.run_bind_eq_some_iff.mp step
            · obtain ⟨_, next, assigned, last⟩ | ⟨_, _, impossible⟩ :=
                Exec.run_bind_eq_some_iff.mp rest
              · cases last
                exact ⟨_, .assign evaluated assigned logs⟩
              · cases impossible
            · cases impossible

end Scope

end Interop.Script
