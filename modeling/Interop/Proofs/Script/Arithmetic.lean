import Interop.Proofs.Bridge.Wrapping
import Interop.Proofs.Script.Visiting
import Interop.Proofs.Sequence.Slicing
import Interop.Proofs.Template.Binding
import Mathlib
/-!
Arithmetic on integers. An expression of integers, negations, sums, differences and products either
makes the integer that it stands for or, if an integer on the way to it is no word, overflows.

The integers in an expression are words themselves: a numeral beyond them is refused when it is
read.
-/

set_option autoImplicit false

namespace Interop

open Script

variable {κ σ α : Type}

namespace Script.Expr

/-- The integer that an expression of integers stands for. -/
inductive StandsFor : Expr → Int → Prop
  | int (value : Int64) : StandsFor (.int value) value.toInt
  | neg {operand : Expr} {a : Int} (inner : StandsFor operand a) : StandsFor (.neg operand) (-a)
  | add {left right : Expr} {a b : Int} (first : StandsFor left a) (second : StandsFor right b) :
      StandsFor (.binary left .add right) (a + b)
  | sub {left right : Expr} {a b : Int} (first : StandsFor left a) (second : StandsFor right b) :
      StandsFor (.binary left .sub right) (a - b)
  | mul {left right : Expr} {a b : Int} (first : StandsFor left a) (second : StandsFor right b) :
      StandsFor (.binary left .mul right) (a * b)

/-- What an expression and all its parts stand for are words. -/
def FitsThroughout (expr : Expr) : Prop :=
  ∀ part n, expr.HasPart part → part.StandsFor n → FitsWord n

theorem StandsFor.unique {expr : Expr} {m n : Int} (one : expr.StandsFor m)
    (other : expr.StandsFor n) : m = n := by
  induction one generalizing n with
  | int value =>
      cases other
      rfl
  | neg _ ih =>
      cases other with
      | neg inner => rw [ih inner]
  | add _ _ ihFirst ihSecond =>
      cases other with
      | add first second => rw [ihFirst first, ihSecond second]
  | sub _ _ ihFirst ihSecond =>
      cases other with
      | sub first second => rw [ihFirst first, ihSecond second]
  | mul _ _ ihFirst ihSecond =>
      cases other with
      | mul first second => rw [ihFirst first, ihSecond second]

theorem fitsThroughout_iff {expr : Expr} {n : Int} (standsFor : expr.StandsFor n) :
    expr.FitsThroughout ↔ (∀ part ∈ expr.parts, part.FitsThroughout) ∧ FitsWord n := by
  constructor
  · intro fits
    exact ⟨fun part among inner m within => fits inner m (.head among within),
      fits expr n .refl standsFor⟩
  · rintro ⟨inner, fits⟩ part m within partStandsFor
    obtain rfl | ⟨next, among, within⟩ := within.cases_head
    · exact standsFor.unique partStandsFor ▸ fits
    · exact inner next among part m within partStandsFor

theorem fitsThroughout_int (value : Int64) : (int value).FitsThroughout :=
  (fitsThroughout_iff (.int value)).mpr ⟨nofun, value.le_toInt, value.toInt_lt⟩

end Script.Expr

/-! ### Computations of integers -/

def Heap.IsInt (heap : Heap κ) (h : Handle) (n : Int) : Prop :=
  ∃ value, heap.kind? h = some (.int value) ∧ value.toInt = n

namespace Exec

/-- The computation gives an integer, and does no more than make objects. -/
def GivesInt (x : Exec κ σ Handle) (world : World κ σ) (n : Int) : Prop :=
  ∃ h after, x.run world = some (.ok h, after) ∧ after.heap.IsInt h n ∧
    world.Moves Heap.Extends after

/-- The computation reports an overflow, and does no more than make objects. -/
def Overflows (x : Exec κ σ α) (world : World κ σ) : Prop :=
  ∃ error after, x.run world = some (.error error, after) ∧
    after.heap.IsException error "OverflowError" "integer overflow" ∧
    world.Moves Heap.Extends after

/-- The computation gives an integer under a condition, otherwise it overflows. -/
structure GivesIntIf (x : Exec κ σ Handle) (world : World κ σ) (n : Int) (fits : Prop) : Prop where
  gives : fits → x.GivesInt world n
  overflows : ¬ fits → x.Overflows world

variable {world : World κ σ} {n : Int}

/-- A new integer, if it is a word. -/
theorem givesIntIf_checked {op : Heap.Op κ Handle}
    (checks : op.run world.heap = (liftM (checkedInt n) >>= Heap.Op.alloc).run world.heap) :
    (Exec.ofOp op : Exec κ σ Handle).GivesIntIf world n (FitsWord n) := by
  constructor
  · intro fits
    have word : checkedInt n = (.ok (.int (Int64.ofInt n)) : Except Fault (Kind κ)) := by
      rw [checkedInt, word?, if_pos fits]
    rw [word] at checks
    exact ⟨world.heap.fresh, _, Run.attempt_of_ok checks,
      ⟨_, Heap.kind?_fresh _ _, toInt_ofInt_of_fitsWord fits⟩, .ofHeap (.push _ _)⟩
  · intro unfit
    have none : checkedInt n = (.error .integerOverflow : Except Fault (Kind κ)) := by
      rw [checkedInt, word?, if_neg unfit]
    rw [none] at checks
    exact ⟨_, _, Run.attempt_of_error checks, Heap.isException_raise world.heap rfl (by decide),
      .ofHeap (Heap.along_raise world.heap .integerOverflow)⟩

theorem GivesIntIf.bind {x : Exec κ σ Handle} {f : Handle → Exec κ σ Handle} {a : Int}
    {first rest fits : Prop} (split : fits ↔ first ∧ rest) (early : x.GivesIntIf world a first)
    (late : ∀ h after, after.heap.IsInt h a → world.Moves Heap.Extends after →
      (f h).GivesIntIf after n rest) : (x >>= f).GivesIntIf world n fits := by
  by_cases fitsFirst : first
  · obtain ⟨h, mid, finished, isInt, moves⟩ := early.gives fitsFirst
    have goesOn := late h mid isInt moves
    constructor
    · intro all
      obtain ⟨k, after, finished', isInt', moves'⟩ := goesOn.gives (split.mp all).2
      exact ⟨k, after, (run_bind_of_ok finished).trans finished', isInt', moves.trans moves'⟩
    · intro unfit
      obtain ⟨error, after, failed, isOverflow, moves'⟩ :=
        goesOn.overflows fun fits => unfit (split.mpr ⟨fitsFirst, fits⟩)
      exact ⟨error, after, (run_bind_of_ok finished).trans failed, isOverflow, moves.trans moves'⟩
  · constructor
    · intro all
      exact absurd (split.mp all).1 fitsFirst
    · intro _
      obtain ⟨error, after, failed, isOverflow, moves⟩ := early.overflows fitsFirst
      exact ⟨error, after, run_bind_of_error failed, isOverflow, moves⟩

end Exec

namespace Script

theorem run_negate {heap : Heap κ} {h : Handle} {a : Int} (isInt : heap.IsInt h a) :
    (negate h).run heap = (liftM (checkedInt (-a)) >>= Heap.Op.alloc).run heap := by
  obtain ⟨value, found, rfl⟩ := isInt
  unfold negate
  rw [Heap.Op.run_get_bind, found]

theorem run_applyOperator {heap : Heap κ} {h k : Handle} {a b : Int} (operator : Operator)
    (left : heap.IsInt h a) (right : heap.IsInt k b) :
    (applyOperator operator h k).run heap =
      (liftM (checkedInt (operator.onInts a b)) >>= Heap.Op.alloc).run heap := by
  obtain ⟨value, foundLeft, rfl⟩ := left
  obtain ⟨other, foundRight, rfl⟩ := right
  unfold applyOperator
  rw [Heap.Op.run_get_bind, foundLeft, foundRight]
  rfl

namespace Scope

variable (scope : Scope κ σ)

/-- An operation on two parts, whichever of the three it is. -/
theorem givesIntIf_binary {left right : Expr} {operator : Operator} {a b : Int}
    (standsFor : (Expr.binary left operator right).StandsFor (operator.onInts a b))
    (first : ∀ world, (scope.eval left).GivesIntIf world a left.FitsThroughout)
    (second : ∀ world, (scope.eval right).GivesIntIf world b right.FitsThroughout)
    (world : World κ σ) :
    (scope.eval (.binary left operator right)).GivesIntIf world (operator.onInts a b)
      (Expr.binary left operator right).FitsThroughout := by
  have split : (Expr.binary left operator right).FitsThroughout ↔
      left.FitsThroughout ∧ right.FitsThroughout ∧ FitsWord (operator.onInts a b) := by
    rw [Expr.fitsThroughout_iff standsFor]
    simp [Expr.parts, and_assoc]
  rw [eval]
  refine .bind split (first world) fun h mid isLeft _ => ?_
  refine .bind .rfl (second mid) fun k last isRight moves => ?_
  obtain ⟨value, found, same⟩ := isLeft
  exact Exec.givesIntIf_checked
    (run_applyOperator operator ⟨value, moves.heap.kind? found, same⟩ isRight)

/-- Evaluation of an expression of integers is exact where all is in range, otherwise it
overflows. -/
theorem givesIntIf_eval {expr : Expr} {n : Int} (standsFor : expr.StandsFor n)
    (world : World κ σ) : (scope.eval expr).GivesIntIf world n expr.FitsThroughout := by
  induction standsFor generalizing world with
  | int value =>
      rw [eval]
      refine ⟨fun _ => ?_, fun unfit => absurd (Expr.fitsThroughout_int value) unfit⟩
      exact ⟨world.heap.fresh, _, rfl, ⟨value, Heap.kind?_fresh _ _, rfl⟩, .ofHeap (.push _ _)⟩
  -- The least word has no negative, so the result of a negation is checked like any other.
  | @neg operand a inner ih =>
      have split : (Expr.neg operand).FitsThroughout ↔ operand.FitsThroughout ∧ FitsWord (-a) := by
        rw [Expr.fitsThroughout_iff (.neg inner)]
        simp [Expr.parts]
      rw [eval]
      refine .bind split (ih world) fun h mid isInt _ => ?_
      exact Exec.givesIntIf_checked (run_negate isInt)
  | add first second ihFirst ihSecond =>
      exact scope.givesIntIf_binary (.add first second) ihFirst ihSecond world
  | sub first second ihFirst ihSecond =>
      exact scope.givesIntIf_binary (.sub first second) ihFirst ihSecond world
  | mul first second ihFirst ihSecond =>
      exact scope.givesIntIf_binary (.mul first second) ihFirst ihSecond world

/-- A source that is one expression gives what the expression does. -/
theorem exec_of_parsed_expr {source : String} {expr : Expr}
    (parsed : parseSource source = .ok [.expr expr]) : scope.exec source = scope.eval expr := by
  rw [exec_of_parsed parsed]
  simp only [steps, step, bind_assoc, pure_bind, resultOf, bind_pure]

end Scope

end Script

/-- Arithmetic on integers is exact or refused. However deep an expression is, in any scope it gives
the integer that it stands for if it is a word throughout, and otherwise an overflow. So does a
source that consists of the expression, when it is evaluated. -/
theorem arithmetic_exact {expr : Expr} {n : Int} (standsFor : expr.StandsFor n) :
    (∀ (scope : Scope κ σ) (world : World κ σ),
      (expr.FitsThroughout → (scope.eval expr).GivesInt world n) ∧
      (¬ expr.FitsThroughout → (scope.eval expr).Overflows world)) ∧
    ∀ (host : Host κ σ) (layers : Nat) (world : World κ σ) (source : String),
      parseSource (if world.settings.dedent then dedent source else source) = .ok [.expr expr] →
      (expr.FitsThroughout → ∃ value after,
        (Machine.runProgram (Machine.answer host (layers + 1))
          (Bridge.evaluate (.plain source))).run world = some (.ok (.int value), after) ∧
        value.toInt = n ∧ world.Moves Heap.Extends after) ∧
      (¬ expr.FitsThroughout →
        (Machine.runProgram (Machine.answer host (layers + 1))
          (Bridge.evaluate (.plain source))).Overflows world) := by
  constructor
  · intro scope world
    have evaluated := scope.givesIntIf_eval standsFor world
    exact ⟨evaluated.gives, evaluated.overflows⟩
  · intro host layers world source parsed
    have evaluated := (Machine.scopeIn host layers world.globals).givesIntIf_eval standsFor world
    have runs := Machine.run_evaluate_plain host layers world source
    rw [Scope.exec_of_parsed_expr _ parsed] at runs
    constructor
    · intro fits
      obtain ⟨h, mid, finished, ⟨value, found, same⟩, moves⟩ := evaluated.gives fits
      have classed : mid.heap.HasClass (.int value : Kind κ) := nofun
      obtain ⟨after, wrapped, more⟩ := (Machine.wrap_answers_primitive host
        (Machine.answer host layers) classed found rfl rfl).finishes
      exact ⟨value, after, runs.trans ((Exec.run_bind_of_ok finished).trans wrapped), same,
        moves.trans more⟩
    · intro unfit
      obtain ⟨error, after, failed, isOverflow, moves⟩ := evaluated.overflows unfit
      exact ⟨error, after, runs.trans (Exec.run_bind_of_error failed), isOverflow, moves⟩

/-- The least word is reached from the greatest one, but an expression that leaves the range on the
way overflows, although what it stands for is a word. -/
theorem arithmetic_exact_extremes :
    let world : World Unit Unit := World.start {} .standard ()
    let run (source : String) :=
      Machine.runProgram (Machine.answer Host.answeringNone 1) (Bridge.evaluate (.plain source))
    (∃ value after, (run "-9223372036854775807 - 1").run world = some (.ok (.int value), after) ∧
      value.toInt = -2 ^ 63) ∧
    (run "9223372036854775807 + 1 - 1").Overflows world := by
  intro world run
  let greatest : Expr := .int Int64.maxValue
  have isGreatest : greatest.StandsFor (2 ^ 63 - 1) := .int Int64.maxValue
  have isOne : (Expr.int 1).StandsFor 1 := .int 1
  constructor
  · have parsed : parseSource (dedent "-9223372036854775807 - 1") =
        .ok [.expr (.binary (.neg greatest) .sub (.int 1))] := by
      cbv
    have standsFor := Expr.StandsFor.sub (.neg isGreatest) isOne
    have fits : (Expr.binary (.neg greatest) .sub (.int 1)).FitsThroughout := by
      simp [Expr.fitsThroughout_iff standsFor, Expr.fitsThroughout_iff (.neg isGreatest),
        Expr.fitsThroughout_iff isGreatest, Expr.fitsThroughout_iff isOne, Expr.parts, FitsWord]
    obtain ⟨value, after, finished, same, _⟩ :=
      ((arithmetic_exact standsFor).2 Host.answeringNone 0 world _ parsed).1 fits
    exact ⟨value, after, finished, same⟩
  · have parsed : parseSource (dedent "9223372036854775807 + 1 - 1") =
        .ok [.expr (.binary (.binary greatest .add (.int 1)) .sub (.int 1))] := by
      cbv
    have beyond := Expr.StandsFor.add isGreatest isOne
    have unfit : ¬ (Expr.binary (.binary greatest .add (.int 1)) .sub (.int 1)).FitsThroughout := by
      intro fits
      have word := fits (.binary greatest .add (.int 1)) _ (.single List.mem_cons_self) beyond
      exact absurd word (by decide)
    exact ((arithmetic_exact (.sub beyond isOne)).2 Host.answeringNone 0 world _ parsed).2 unfit

end Interop
