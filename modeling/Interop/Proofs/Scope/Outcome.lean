import Interop.Proofs.Scope.Guard
/-!
The outcome of a scope. What is handed to `__exit__` follows from the result of the scoped code and
from the exception that can be made of its error; and the outcome follows from the result, from
whether there was an exception, and from what `__exit__` answered.
-/

set_option autoImplicit false

namespace Interop

variable {κ σ α β : Type}

/-! ### What is to be expected -/

namespace ScopeGuard

/-- What `__exit__` is called with: the handles of an exception, or none three times. -/
def exitArgs : Option ForeignException → List (Arg κ)
  | some exception =>
    [.handle exception.excType, .handle exception.value,
      (exception.traceback.map .handle).getD .none]
  | none => [.none, .none, .none]

/-- How a scope is judged whose `__exit__` has answered. -/
def verdict (result : Except Error α) (exception : Option ForeignException) (answer : Object κ) :
    ScopeOutcome α :=
  match result with
  | .ok value => .completed value
  | .error error =>
    if exception.isSome && answer.isTruthy then .handled error else .unhandled error

/-- The exception that a machine makes of the result of scoped code. There is none for a success.
For an error it is the error's own exception, or else that of a type error with the error's text,
and none if the machine refuses both. -/
inductive Materialized (below : Handler κ σ) :
    Except Error α → World κ σ → Option ForeignException → World κ σ → Prop
  | success (value : α) (world : World κ σ) : Materialized below (.ok value) world none world
  | own {error : Error} {world after : World κ σ} {exception : ForeignException}
      (made : below (.materialize error) world = some (.ok exception, after)) :
      Materialized below (.error error) world (some exception) after
  | typeError {error failure : Error} {world mid after : World κ σ} {exception : ForeignException}
      (refused : below (.materialize error) world = some (.error failure, mid))
      (made : below (.materialize (.type (.stated error.message))) mid =
        some (.ok exception, after)) :
      Materialized below (.error error) world (some exception) after
  | nothing {error failure failure' : Error} {world mid after : World κ σ}
      (refused : below (.materialize error) world = some (.error failure, mid))
      (refusedToo : below (.materialize (.type (.stated error.message))) mid =
        some (.error failure', after)) :
      Materialized below (.error error) world none after

end ScopeGuard

/-! ### Runs of the parts -/

open Machine (runProgram)

variable {below : Handler κ σ} {world after : World κ σ}

/-- A program whose failure is part of its answer always goes on. -/
theorem Machine.run_attempt_bind_iff {x : Program κ σ α} {f : Except Error α → Program κ σ β}
    {result : Except Error β} :
    (runProgram below (x.attempt >>= f)).run world = some (result, after) ↔
      ∃ inner mid, (runProgram below x).run world = some (inner, mid) ∧
        (runProgram below (f inner)).run mid = some (result, after) := by
  have parts : (runProgram below (x.attempt >>= f)).run =
      (runProgram below x).run >>= fun inner => (runProgram below (f inner)).run := by
    change Interaction.run below (ExceptT.lift x.run >>= f).run = _
    rw [ExceptT.run_bind_lift, Interaction.run_bind]
    rfl
  rw [parts, Run.bind_eq_some_iff]

theorem Machine.run_materialize (below : Handler κ σ) (error : Error) :
    (runProgram below (Program.materialize error)).run = below (.materialize error) :=
  Interaction.run_ask below (.materialize error)

namespace ScopeGuard

theorem run_exceptionFor_iff {error : Error} {found : Except Error (Option ForeignException)} :
    (runProgram below (exceptionFor error)).run world = some (found, after) ↔
      ∃ exception, found = .ok exception ∧
        Materialized below (.error error : Except Error α) world exception after := by
  unfold exceptionFor
  rw [Machine.run_attempt_bind_iff]
  constructor
  · rintro ⟨first, mid, made, rest⟩
    rw [Machine.run_materialize] at made
    cases first with
    | ok exception =>
        cases rest
        exact ⟨some exception, rfl, .own made⟩
    | error failure =>
        obtain ⟨second, last, madeToo, rest⟩ := Machine.run_attempt_bind_iff.mp rest
        rw [Machine.run_materialize] at madeToo
        cases second with
        | ok exception =>
            cases rest
            exact ⟨some exception, rfl, .typeError made madeToo⟩
        | error failure' =>
            cases rest
            exact ⟨none, rfl, .nothing made madeToo⟩
  · rintro ⟨exception, rfl, materialized⟩
    cases materialized with
    | @own _ _ _ exception made =>
        rw [← Machine.run_materialize below] at made
        exact ⟨.ok exception, after, made, rfl⟩
    | @typeError _ failure _ mid _ exception refused made =>
        rw [← Machine.run_materialize below] at refused made
        exact ⟨.error failure, mid, refused,
          Machine.run_attempt_bind_iff.mpr ⟨.ok exception, after, made, rfl⟩⟩
    | @nothing _ failure failure' _ mid _ refused refusedToo =>
        rw [← Machine.run_materialize below] at refused refusedToo
        exact ⟨.error failure, mid, refused,
          Machine.run_attempt_bind_iff.mpr ⟨.error failure', after, refusedToo, rfl⟩⟩

/-- Calls the exit and judges its answer; a failure is told as it is. -/
def exitJudged (guard : ScopeGuard κ) (triple : List (Arg κ)) (judge : Object κ → β) :
    Interaction κ σ (Except Error β × ScopeGuard κ) := do
  let (answer, guard) ← guard.exit triple
  return (answer.map judge, guard)

theorem run_exitJudged_iff {guard concluded : ScopeGuard κ} {triple : List (Arg κ)}
    {judge : Object κ → β} {outcome : Except Error β} :
    (guard.exitJudged triple judge).run below world = some ((outcome, concluded), after) ↔
      ∃ answer, (runProgram below (guard.context.callMethod "__exit__" triple)).run world =
          some (answer, after) ∧
        outcome = answer.map judge ∧ concluded = { guard with exited := true } := by
  have parts : (guard.exitJudged triple judge).run below =
      (runProgram below (guard.context.callMethod "__exit__" triple)).run >>= fun answer =>
        pure (answer.map judge, { guard with exited := true }) := by
    unfold exitJudged exit
    rw [bind_assoc, Interaction.run_bind]
    rfl
  rw [parts, Run.bind_eq_some_iff]
  constructor
  · rintro ⟨answer, mid, called, rest⟩
    obtain ⟨same, rfl⟩ := Prod.mk.inj (Option.some.inj rest)
    obtain ⟨rfl, rfl⟩ := Prod.mk.inj same
    exact ⟨answer, called, rfl, rfl⟩
  · rintro ⟨answer, called, rfl, rfl⟩
    exact ⟨answer, after, called, rfl⟩

theorem exitWith_eq (exception : ForeignException) :
    (exitWith exception : List (Arg κ)) = exitArgs (some exception) := by
  obtain ⟨excType, value, traceback, message⟩ := exception
  cases traceback <;> rfl

theorem conclude_ok (guard : ScopeGuard κ) (value : α) :
    guard.conclude (σ := σ) (.ok value) =
      guard.exitJudged (exitArgs none) (verdict (.ok value) none) := by
  unfold conclude exitJudged
  refine bind_congr ?_
  rintro ⟨failure | answer, exited⟩ <;> rfl

theorem conclude_error (guard : ScopeGuard κ) (error : Error) :
    guard.conclude (σ := σ) (.error error : Except Error α) =
      (exceptionFor error).run >>= fun found =>
        match found with
        | .error failure => pure (.error failure, guard)
        | .ok exception =>
          guard.exitJudged (exitArgs exception) (verdict (.error error) exception) := by
  unfold conclude
  refine bind_congr fun found => ?_
  cases found with
  | error failure => rfl
  | ok exception =>
      cases exception with
      | none =>
          refine bind_congr ?_
          rintro ⟨failure | answer, exited⟩ <;> rfl
      | some exception =>
          dsimp only
          rw [exitWith_eq]
          refine bind_congr ?_
          rintro ⟨failure | answer, exited⟩ <;> rfl

/-- Concluding makes an exception of the result, calls `__exit__` with it, and judges the answer. -/
theorem run_conclude_iff {guard concluded : ScopeGuard κ} {result : Except Error α}
    {outcome : Except Error (ScopeOutcome α)} :
    (guard.conclude result).run below world = some ((outcome, concluded), after) ↔
      ∃ exception mid answer, Materialized below result world exception mid ∧
        (runProgram below (guard.context.callMethod "__exit__" (exitArgs exception))).run mid =
          some (answer, after) ∧
        outcome = answer.map (verdict result exception) ∧
        concluded = { guard with exited := true } := by
  cases result with
  | ok value =>
      rw [conclude_ok, run_exitJudged_iff]
      constructor
      · rintro ⟨answer, called, same, done⟩
        exact ⟨none, world, answer, .success value world, called, same, done⟩
      · rintro ⟨exception, mid, answer, materialized, called, same, done⟩
        cases materialized
        exact ⟨answer, called, same, done⟩
  | error error =>
      rw [conclude_error, Interaction.run_bind, Run.bind_eq_some_iff]
      constructor
      · rintro ⟨found, mid, sought, rest⟩
        obtain ⟨exception, rfl, materialized⟩ := run_exceptionFor_iff.mp sought
        obtain ⟨answer, called, same, done⟩ := run_exitJudged_iff.mp rest
        exact ⟨exception, mid, answer, materialized, called, same, done⟩
      · rintro ⟨exception, mid, answer, materialized, called, same, done⟩
        exact ⟨.ok exception, mid, run_exceptionFor_iff.mpr ⟨exception, rfl, materialized⟩,
          run_exitJudged_iff.mpr ⟨answer, called, same, done⟩⟩

theorem run_finish_iff {guard : ScopeGuard κ} {result : Except Error α}
    {outcome : Except Error (ScopeOutcome α)} :
    (runProgram below (guard.finish result)).run world = some (outcome, after) ↔
      ∃ exception mid answer, Materialized below result world exception mid ∧
        (runProgram below (guard.context.callMethod "__exit__" (exitArgs exception))).run mid =
          some (answer, after) ∧
        outcome = answer.map (verdict result exception) := by
  have parts : (runProgram below (guard.finish result)).run =
      (guard.conclude result).run below >>= fun ended =>
        ended.2.release.run below >>= fun _ => pure ended.1 := by
    unfold finish
    change Interaction.run below (guard.conclude result >>= fun ended => _) = _
    rw [Interaction.run_bind]
    refine bind_congr fun ended => ?_
    rw [Interaction.run_bind]
    rfl
  rw [parts, Run.bind_eq_some_iff]
  constructor
  · rintro ⟨⟨ended, concluded⟩, last, finished, rest⟩
    obtain ⟨exception, mid, answer, materialized, called, rfl, rfl⟩ := run_conclude_iff.mp finished
    -- nothing is owed any more
    cases rest
    exact ⟨exception, mid, answer, materialized, called, rfl⟩
  · rintro ⟨exception, mid, answer, materialized, called, rfl⟩
    have concluded := run_conclude_iff.mpr
      ⟨exception, mid, answer, materialized, called, rfl, rfl⟩
    exact ⟨_, after, concluded, rfl⟩

theorem toExcept_verdict_eq_error_iff {result : Except Error α}
    {exception : Option ForeignException} {answer : Object κ} {error : Error} :
    (verdict result exception answer).toExcept = .error error ↔
      result = .error error ∧ ¬ (exception.isSome = true ∧ answer.isTruthy = true) := by
  unfold verdict
  cases result with
  | ok value => exact iff_of_false nofun nofun
  | error own =>
      rw [← Bool.and_eq_true]
      cases exception.isSome && answer.isTruthy with
      | true => exact iff_of_false nofun fun both => both.2 rfl
      | false =>
          change (Except.error own : Except Error (Option α)) = .error error ↔ _
          rw [Except.error.injEq, Except.error.injEq]
          exact (and_iff_left Bool.false_ne_true).symm

theorem run_arm {context : Proxy κ}
    (asks : ∀ name, (runProgram below (context.handle.hasAttr name)).run world =
      some (.ok (world.heap.hasAttr context.handle name), world))
    (enters : world.heap.hasAttr context.handle "__enter__" = true)
    (exits : world.heap.hasAttr context.handle "__exit__" = true) :
    (runProgram below (arm context)).run world = some (.ok ⟨context, false⟩, world) := by
  have asksEnter := asks "__enter__"
  have asksExit := asks "__exit__"
  rw [enters] at asksEnter
  rw [exits] at asksExit
  unfold arm
  rw [Machine.run_bind_of_ok _ asksEnter, if_pos rfl, Machine.run_bind_of_ok _ asksExit,
    if_pos rfl]
  rfl

end ScopeGuard

open ScopeGuard (Materialized exitArgs verdict)

/-- The outcome of a scope. For every context manager, every scoped code and every way of making
exceptions, a scope enters and runs the code, makes an exception of the result, calls `__exit__`
with the exception's handles or with none three times, and then fails if that call failed, and else
tells the verdict. Raised again, the verdict is the very error of the code, unless there was an
exception and the answer was true. -/
theorem withScope_outcome (host : Host κ σ) (exceptionOf : Error → Program κ σ ForeignException)
    (layers : Nat) (context : Proxy κ) (body : Object κ → Program κ σ α) (world : World κ σ)
    (enters : world.heap.hasAttr context.handle "__enter__" = true)
    (exits : world.heap.hasAttr context.handle "__exit__" = true) :
    let below := Machine.answerMaterializing host exceptionOf layers
    (∀ outcome after,
      (runProgram below (withScope context body)).run world = some (outcome, after) ↔
        ∃ result mid exception late answer,
          (runProgram below (context.callMethod "__enter__" [] >>= body)).run world =
            some (result, mid) ∧
          Materialized below result mid exception late ∧
          (runProgram below (context.callMethod "__exit__" (exitArgs exception))).run late =
            some (answer, after) ∧
          outcome = answer.map (verdict result exception)) ∧
    ∀ (result : Except Error α) exception (answer : Object κ) error,
      (verdict result exception answer).toExcept = .error error ↔
        result = .error error ∧ ¬ (exception.isSome = true ∧ answer.isTruthy = true) := by
  intro below
  constructor
  · intro outcome after
    cases layers with
    | zero =>
        -- without layers neither side gets an answer
        constructor
        · intro impossible
          cases impossible
        · rintro ⟨_, _, _, _, _, impossible, _⟩
          cases impossible
    | succ layers =>
        have arms : (runProgram below (ScopeGuard.arm context)).run world =
            some (.ok ⟨context, false⟩, world) :=
          ScopeGuard.run_arm (fun _ => rfl) enters exits
        unfold withScope
        rw [Machine.run_bind_of_ok _ arms, Machine.run_attempt_bind_iff]
        constructor
        · rintro ⟨result, mid, ran, finished⟩
          obtain ⟨exception, late, answer, materialized, called, same⟩ :=
            ScopeGuard.run_finish_iff.mp finished
          exact ⟨result, mid, exception, late, answer, ran, materialized, called, same⟩
        · rintro ⟨result, mid, exception, late, answer, ran, materialized, called, same⟩
          exact ⟨result, mid, ran,
            ScopeGuard.run_finish_iff.mpr ⟨exception, late, answer, materialized, called, same⟩⟩
  · intro result exception answer error
    exact ScopeGuard.toExcept_verdict_eq_error_iff

/-- A machine that makes no exceptions at all: the error of the scoped code is told unhandled, and
not replaced by the refusals. -/
theorem withScope_outcome_refused :
    let refuse : Error → Program Unit Unit ForeignException :=
      fun error => throw (.type (.stated ("refused: " ++ error.message)))
    let below := Machine.answerMaterializing Host.answeringNone refuse 2
    let context : Proxy Unit := .mk ⟨4⟩ ⟨"host", "Context"⟩ []
    let error : Error := .type (.stated "bad input")
    ∃ after, (runProgram below
        (withScope context fun _ => (throw error : Program Unit Unit Unit))).run
      World.withContext = some (.ok (.unhandled error), after) := by
  intro refuse below context error
  have enters : World.withContext.heap.hasAttr ⟨4⟩ "__enter__" = true := by decide +kernel
  have exits : World.withContext.heap.hasAttr ⟨4⟩ "__exit__" = true := by decide +kernel
  have entering : ((runProgram below (context.callMethod "__enter__" [])).run
      World.withContext).any (·.1.isOk) = true := by decide +kernel
  have ending : ((runProgram below (withScope context fun _ =>
      (throw error : Program Unit Unit Unit))).run World.withContext).any (·.1.isOk) = true := by
    decide +kernel
  obtain ⟨⟨entered, mid⟩, enter, isOk⟩ := (Option.any_eq_true _ _).mp entering
  obtain ⟨⟨outcome, after⟩, finished, isOk'⟩ := (Option.any_eq_true _ _).mp ending
  obtain ⟨parts, _⟩ := withScope_outcome Host.answeringNone refuse 2 context
    (fun _ => (throw error : Program Unit Unit Unit)) World.withContext enters exits
  obtain ⟨result, mid', exception, late, answer, ran, materialized, called, rfl⟩ :=
    (parts outcome after).mp finished
  -- entering succeeds, so that the result is the error of the code
  cases entered with
  | error failure => cases isOk
  | ok value =>
      rw [Machine.run_bind_of_ok _ enter] at ran
      cases ran
      cases answer with
      | error failure => cases isOk'
      | ok answer =>
          cases materialized with
          | own made => cases made
          | typeError _ made => cases made
          | nothing _ _ => exact ⟨after, finished⟩

end Interop
