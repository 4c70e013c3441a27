import Interop.Proofs.Scope.Guard
/-!
The life of a guard, and scopes inside each other. Whatever a guard's owner does and whatever runs
in between, the guard calls `__exit__` once; and host code that opens scopes to any depth enters and
exits them in brackets.
-/

set_option autoImplicit false

namespace Interop

open Interaction (Performs)

variable {κ σ α : Type}

/-! ### The life of a guard -/

/-- The lives that a guard can have, each told by the traces of the guard's own operations. Entering
is possible any number of times; what else runs meanwhile only has to evolve the heap. -/
inductive ScopeGuard.Lives (below : Handler κ σ) (guard : ScopeGuard κ) :
    World κ σ → List (List (Event κ σ)) → Prop
  | other {world mid : World κ σ} {own : List (List (Event κ σ))}
      (moves : world.Moves Heap.Evolves mid) (rest : Lives below guard mid own) :
      Lives below guard world own
  | enter {world mid : World κ σ} {trace : List (Event κ σ)} {own : List (List (Event κ σ))}
      {entered : Except Error (Object κ)}
      (performed : Performs below guard.enter.run world trace entered mid)
      (rest : Lives below guard mid own) : Lives below guard world (trace :: own)
  | finish {α : Type} {world after : World κ σ} {trace : List (Event κ σ)}
      (result : Except Error α) {outcome : Except Error (ScopeOutcome α)}
      (performed : Performs below (guard.finish result).run world trace outcome after) :
      Lives below guard world [trace]
  | drop {world after : World κ σ} {trace : List (Event κ σ)}
      (performed : Performs below guard.release world trace () after) :
      Lives below guard world [trace]
  /-- The callback cannot be called: the exit comes before the guard is dropped. -/
  | reject {world after : World κ σ} {trace : List (Event κ σ)}
      {answer : Except Error (Object κ)}
      (performed : Performs below (do
        let (answer, guard) ← guard.exit quietExit
        guard.release
        return answer) world trace answer after) :
      Lives below guard world [trace]

section Guard

variable {below : Handler κ σ} (keeps : Handler.KeepsAttributes below)

include keeps

theorem ScopeGuard.Lives.calls {guard : ScopeGuard κ} {world : World κ σ}
    {own : List (List (Event κ σ))} (lives : guard.Lives below world own)
    (armed : guard.exited = false)
    (enters : world.heap.hasAttr guard.context.handle "__enter__" = true)
    (exits : world.heap.hasAttr guard.context.handle "__exit__" = true) :
    ∃ entries triple, own.flatMap (methodCalls guard.context.handle) =
      List.replicate entries ("__enter__", []) ++ [("__exit__", triple)] := by
  -- whatever happens, the context keeps both methods, so that the exit can be called in the end
  induction lives with
  | other moves _ ih => exact ih (moves.heap.hasAttr enters) (moves.heap.hasAttr exits)
  | enter performed _ ih =>
      have moves := performed.moves keeps.evolves
      obtain ⟨entries, triple, calls⟩ := ih (moves.heap.hasAttr enters) (moves.heap.hasAttr exits)
      refine ⟨entries + 1, triple, ?_⟩
      rw [List.flatMap_cons, methodCalls_enter keeps enters performed, calls,
        List.replicate_succ]
      rfl
  | finish result performed =>
      obtain ⟨triple, calls⟩ := methodCalls_finish keeps exits performed
      refine ⟨0, triple, ?_⟩
      rw [List.flatMap_singleton, calls]
      rfl
  | drop performed =>
      refine ⟨0, quietExit, ?_⟩
      rw [List.flatMap_singleton, methodCalls_release keeps armed exits performed]
      rfl
  | reject performed =>
      refine ⟨0, quietExit, ?_⟩
      rw [List.flatMap_singleton,
        (methodCalls_reject keeps guard pure (fun answer => ⟨answer, rfl⟩) exits performed).1]
      rfl

end Guard

/-! ### One scope -/

/-- What a scope answers for an object that cannot be called, once its exit has answered. -/
def refusal (callback : Object κ) :
    Except Error (Object κ) → Interaction κ σ (Except Error (ScopeOutcome (Object κ)))
  | .ok _ => return .error (.type (.scopeCallback callback.typeName))
  | .error failure => return .error failure

theorem refusal_error (callback : Object κ) (answer : Except Error (Object κ)) :
    ∃ error, refusal (σ := σ) callback answer = pure (.error error) := by
  cases answer with
  | ok answer => exact ⟨_, rfl⟩
  | error failure => exact ⟨_, rfl⟩

/-- Scoped code runs on the entered value; if entering failed it does not run. -/
def RunsIfEntered (below : Handler κ σ) (body : Object κ → Program κ σ α) :
    Except Error (Object κ) → World κ σ → List (Event κ σ) → Except Error α → World κ σ → Prop
  | .ok value, world, trace, result, after =>
    Performs below (body value).run world trace result after
  | .error error, world, trace, result, after =>
    trace = [] ∧ result = .error error ∧ after = world

/-- The run of code under an armed guard: one call of `__enter__`, then the code if that succeeded,
then one call of `__exit__`. -/
inductive ScopeGuard.Guarded (below : Handler κ σ) (guard : ScopeGuard κ)
    (body : Object κ → Program κ σ α) :
    World κ σ → List (Event κ σ) → Except Error (ScopeOutcome α) → World κ σ → Prop
  | intro {world mid late after : World κ σ} {enter code exit : List (Event κ σ)}
      {entered : Except Error (Object κ)} {result : Except Error α}
      {outcome : Except Error (ScopeOutcome α)} {triple : List (Arg κ)}
      (enters : Performs below guard.enter.run world enter entered mid)
      (enteredOnce : methodCalls guard.context.handle enter = [("__enter__", [])])
      (runs : RunsIfEntered below body entered mid code result late)
      (finishes : Performs below (guard.finish result).run late exit outcome after)
      (exitedOnce : methodCalls guard.context.handle exit = [("__exit__", triple)]) :
      Guarded below guard body world (enter ++ code ++ exit) outcome after

section Guard

variable {below : Handler κ σ} (keeps : Handler.KeepsAttributes below)

include keeps

theorem ScopeGuard.guarded_of_performs {guard : ScopeGuard κ} {body : Object κ → Program κ σ α}
    {world after : World κ σ} {trace : List (Event κ σ)}
    {outcome : Except Error (ScopeOutcome α)}
    (enters : world.heap.hasAttr guard.context.handle "__enter__" = true)
    (exits : world.heap.hasAttr guard.context.handle "__exit__" = true)
    (performed : Performs below (do
      let result ← Program.attempt do body (← guard.enter)
      guard.finish result : Program κ σ (ScopeOutcome α)).run world trace outcome after) :
    guard.Guarded below body world trace outcome after := by
  rcases Program.performs_bind_iff.mp performed with
    ⟨early, result, late, exit, rfl, attempted, finishes⟩ | ⟨error, attempted, _⟩
  · obtain ⟨result', same, inside⟩ := Program.performs_lift_iff.mp attempted
    cases same
    have exits' := (inside.moves keeps.evolves).heap.hasAttr exits
    obtain ⟨triple, exitedOnce⟩ := methodCalls_finish keeps exits' finishes
    rcases Program.performs_bind_iff.mp inside with
      ⟨enter, value, mid, code, rfl, entering, runs⟩ | ⟨error, entering, rfl⟩
    · exact .intro entering (methodCalls_enter keeps enters entering) runs finishes exitedOnce
    · have parts : guard.Guarded below body world (early ++ [] ++ exit) outcome after :=
        .intro entering (methodCalls_enter keeps enters entering) ⟨rfl, rfl, rfl⟩ finishes
          exitedOnce
      rwa [List.append_nil] at parts
  · obtain ⟨_, impossible, _⟩ := Program.performs_lift_iff.mp attempted
    cases impossible

/-- A scope arms its guard, which calls nothing, and then runs its code under it; without a context
manager it does nothing else. -/
theorem performs_withScope {context : Proxy κ} {body : Object κ → Program κ σ α}
    {world after : World κ σ} {trace : List (Event κ σ)}
    {outcome : Except Error (ScopeOutcome α)}
    (performed : Performs below (withScope context body).run world trace outcome after) :
    (∃ arming inside, trace = arming ++ inside ∧
      (∀ event ∈ arming, ¬ event.request.IsInvoke) ∧
      world.heap.hasAttr context.handle "__enter__" = true ∧
      world.heap.hasAttr context.handle "__exit__" = true ∧
      Performs below (ScopeGuard.arm context).run world arming (.ok ⟨context, false⟩) world ∧
      ScopeGuard.Guarded below ⟨context, false⟩ body world inside outcome after) ∨
    ¬ (world.heap.hasAttr context.handle "__enter__" = true ∧
        world.heap.hasAttr context.handle "__exit__" = true) ∧
      (∀ event ∈ trace, ¬ event.request.IsInvoke) ∧
      ∃ error, Performs below (ScopeGuard.arm context).run world trace (.error error) after ∧
        outcome = .error error := by
  rcases Program.performs_bind_iff.mp performed with
    ⟨arming, guard, mid, inside, rfl, armed, rest⟩ | ⟨error, armed, rfl⟩
  · obtain ⟨rfl, quiet, ⟨enters, exits, same⟩ | ⟨_, impossible⟩⟩ :=
      ScopeGuard.performs_arm keeps armed
    · cases same
      exact .inl ⟨arming, inside, rfl, quiet, enters, exits, armed,
        ScopeGuard.guarded_of_performs keeps enters exits rest⟩
    · cases impossible
  · obtain ⟨rfl, quiet, ⟨_, _, impossible⟩ | ⟨missing, _⟩⟩ := ScopeGuard.performs_arm keeps armed
    · cases impossible
    · exact .inr ⟨missing, quiet, error, armed, rfl⟩

omit keeps in
/-- A scope runs whenever its parts do. -/
theorem performs_withScope_of {context : Proxy κ} (body : Object κ → Program κ σ α)
    {guard : ScopeGuard κ} {world ready late after : World κ σ}
    {arming code exit : List (Event κ σ)} {result : Except Error α}
    {outcome : Except Error (ScopeOutcome α)}
    (armed : Performs below (ScopeGuard.arm context).run world arming (.ok guard) ready)
    (runs : Performs below (guard.enter >>= body).run ready code result late)
    (finishes : Performs below (guard.finish result).run late exit outcome after) :
    Performs below (withScope context body).run world (arming ++ (code ++ exit)) outcome after := by
  refine Program.performs_bind_iff.mpr (.inl ⟨_, _, _, _, rfl, armed, ?_⟩)
  refine Program.performs_bind_iff.mpr (.inl ⟨_, _, _, _, rfl, ?_, finishes⟩)
  exact Program.performs_lift_iff.mpr ⟨_, rfl, runs⟩

omit keeps in
/-- Asking whether an object can be called calls nothing and always has an answer. -/
theorem Object.performs_isCallable {object : Object κ} {world after : World κ σ}
    {trace : List (Event κ σ)} {answer : Except Error Bool}
    (performed : Performs below object.isCallable.run world trace answer after) :
    (∀ event ∈ trace, ¬ event.request.IsInvoke) ∧ ∃ callable, answer = .ok callable := by
  have asked : ∀ h : Handle, Performs below h.isCallable.run world trace answer after →
      (∀ event ∈ trace, ¬ event.request.IsInvoke) ∧ ∃ callable, answer = .ok callable := by
    intro h performed
    obtain ⟨callable, rfl, rfl, _⟩ := Program.performs_ask_iff.mp performed
    refine ⟨?_, callable, rfl⟩
    intro event member
    rw [List.mem_singleton] at member
    subst member
    exact not_false
  have known : ∀ callable : Bool,
      Performs below (pure callable : Program κ σ Bool).run world trace answer after →
      (∀ event ∈ trace, ¬ event.request.IsInvoke) ∧ ∃ callable, answer = .ok callable := by
    intro callable performed
    obtain ⟨rfl, rfl, _⟩ := Program.performs_pure_iff.mp performed
    exact ⟨List.forall_mem_nil _, callable, rfl⟩
  cases object with
  | proxy p => exact asked p.handle performed
  | handle h => exact asked h performed
  | method m => exact known true performed
  | _ => exact known false performed

/-- A scope with a callable object runs it like any other code; one with an object that cannot be
called exits once, enters nothing and fails. -/
theorem performs_withScopeObject {context : Proxy κ} {callback : Object κ}
    {world after : World κ σ} {trace : List (Event κ σ)}
    {outcome : Except Error (ScopeOutcome (Object κ))}
    (enters : world.heap.hasAttr context.handle "__enter__" = true)
    (exits : world.heap.hasAttr context.handle "__exit__" = true)
    (performed : Performs below (withScopeObject context callback).run world trace outcome after) :
    ∃ arming asking inside callable mid, trace = arming ++ (asking ++ inside) ∧
      (∀ event ∈ arming ++ asking, ¬ event.request.IsInvoke) ∧
      Performs below callback.isCallable.run world asking (.ok callable) mid ∧
      if callable = true then
        ScopeGuard.Guarded below ⟨context, false⟩ (fun value => callback.call [value]) mid inside
          outcome after
      else
        methodCalls context.handle inside = [("__exit__", ScopeGuard.quietExit)] ∧
          ∃ error, outcome = .error error := by
  rcases Program.performs_bind_iff.mp performed with
    ⟨arming, guard, mid, rest, rfl, armed, asked⟩ | ⟨error, armed, rfl⟩
  · obtain ⟨rfl, quiet, ⟨_, _, same⟩ | ⟨missing, _⟩⟩ := ScopeGuard.performs_arm keeps armed
    · cases same
      rcases Program.performs_bind_iff.mp asked with
        ⟨asking, callable, late, inside, rfl, asked, scope⟩ | ⟨error, asked, _⟩
      · have quiet' := (Object.performs_isCallable asked).1
        have moves := asked.moves keeps.evolves
        refine ⟨arming, asking, inside, callable, late, rfl, ?_, asked, ?_⟩
        · exact List.forall_mem_append.mpr ⟨quiet, quiet'⟩
        · split at scope
          · rename_i isCallable
            rw [if_pos isCallable]
            exact ScopeGuard.guarded_of_performs keeps (moves.heap.hasAttr enters)
              (moves.heap.hasAttr exits) scope
          · rename_i isCallable
            rw [if_neg isCallable]
            have refuses : ∀ answer, ∃ outcome,
                refusal (σ := σ) callback answer = pure outcome := by
              intro answer
              obtain ⟨error, failed⟩ := refusal_error callback answer
              exact ⟨_, failed⟩
            obtain ⟨calls, answer, same⟩ := ScopeGuard.methodCalls_reject keeps ⟨context, false⟩
              (refusal callback) refuses (moves.heap.hasAttr exits) scope
            obtain ⟨error, failed⟩ := refusal_error callback answer
            exact ⟨calls, error, (Interaction.done.inj (failed.symm.trans same)).symm⟩
      · obtain ⟨_, _, impossible⟩ := Object.performs_isCallable asked
        cases impossible
    · exact absurd ⟨enters, exits⟩ missing
  · obtain ⟨_, _, ⟨_, _, impossible⟩ | ⟨missing, _⟩⟩ := ScopeGuard.performs_arm keeps armed
    · cases impossible
    · exact absurd ⟨enters, exits⟩ missing

end Guard

/-! ### Scopes inside each other -/

/-- Host code in which scopes are opened: other code in between, sequences, failures that are
caught, and scopes whose code is again of this kind. -/
inductive HostCode (κ σ : Type) : Type → Type 1
  | perform {α : Type} (program : Program κ σ α) : HostCode κ σ α
  | bind {α β : Type} (first : HostCode κ σ α) (next : α → HostCode κ σ β) : HostCode κ σ β
  | attempt {α : Type} (code : HostCode κ σ α) : HostCode κ σ (Except Error α)
  | scope {α : Type} (context : Proxy κ) (body : Object κ → HostCode κ σ α) :
      HostCode κ σ (ScopeOutcome α)

namespace HostCode

/-- The program that the code stands for. -/
def program {α : Type} : HostCode κ σ α → Program κ σ α
  | perform program => program
  | bind first next => do (next (← first.program)).program
  | attempt code => code.program.attempt
  | scope context body => withScope context fun value => (body value).program

end HostCode

/-- A part of a trace, made by the guard of a context or by none. -/
structure Segment (κ σ : Type) where
  guard : Option Handle
  trace : List (Event κ σ)

namespace Segment

/-- The whole trace of some parts. -/
def whole (segments : List (Segment κ σ)) : List (Event κ σ) := segments.flatMap trace

/-- The method calls of guards on their contexts, in order. -/
def guardCalls (segments : List (Segment κ σ)) : List (Handle × String) :=
  segments.flatMap fun segment =>
    match segment.guard with
    | none => []
    | some h => (methodCalls h segment.trace).map fun call => (h, call.1)

/-- The contexts that are still entered after some calls, the last one first; none if a call is
neither the entry of a context nor the exit of the one that was entered last. -/
def stillEntered : List Handle → List (Handle × String) → Option (List Handle)
  | open_, [] => some open_
  | open_, (h, name) :: rest =>
    if name = "__enter__" then stillEntered (h :: open_) rest
    else if name = "__exit__" ∧ open_.head? = some h then stillEntered open_.tail rest
    else none

/-- Every entry has its exit, and scopes do not overlap unless one is inside the other. -/
def WellBracketed (segments : List (Segment κ σ)) : Prop :=
  stillEntered [] (guardCalls segments) = some []

theorem guardCalls_append (early late : List (Segment κ σ)) :
    guardCalls (early ++ late) = guardCalls early ++ guardCalls late := by
  unfold guardCalls
  rw [List.flatMap_append]

theorem guardCalls_cons (h : Handle) (trace : List (Event κ σ)) (rest : List (Segment κ σ)) :
    guardCalls (⟨some h, trace⟩ :: rest) =
      (methodCalls h trace).map (fun call => (h, call.1)) ++ guardCalls rest := by
  unfold guardCalls
  rw [List.flatMap_cons]

theorem guardCalls_singleton (h : Handle) (trace : List (Event κ σ)) :
    guardCalls [⟨some h, trace⟩] = (methodCalls h trace).map fun call => (h, call.1) := by
  rw [guardCalls_cons]
  exact List.append_nil _

theorem whole_append (early late : List (Segment κ σ)) :
    whole (early ++ late) = whole early ++ whole late := by
  unfold whole
  rw [List.flatMap_append]

theorem stillEntered_append (entered : List Handle) (early late : List (Handle × String)) :
    stillEntered entered (early ++ late) =
      (stillEntered entered early).bind (stillEntered · late) := by
  fun_induction stillEntered entered early with
  | case1 => rfl
  | case2 entered h rest ih =>
      rw [List.cons_append, stillEntered, if_pos rfl]
      exact ih
  | case3 entered h name rest enters exits ih =>
      rw [List.cons_append, stillEntered, if_neg enters, if_pos exits]
      exact ih
  | case4 entered h name rest enters exits =>
      rw [List.cons_append, stillEntered, if_neg enters, if_neg exits]
      rfl

end Segment

namespace HostCode

open Segment (whole guardCalls stillEntered WellBracketed)

/-- Host code runs, and its trace falls into segments: those that a scope's guard makes in arming,
entering and leaving belong to that guard, and those of the code itself to none. -/
inductive Runs (below : Handler κ σ) : {α : Type} → HostCode κ σ α → World κ σ →
    List (Segment κ σ) → Except Error α → World κ σ → Prop
  | perform {α : Type} {program : Program κ σ α} {world after : World κ σ}
      {trace : List (Event κ σ)} {result : Except Error α}
      (performed : Performs below program.run world trace result after) :
      Runs below (.perform program) world [⟨none, trace⟩] result after
  | bind {α β : Type} {first : HostCode κ σ α} {next : α → HostCode κ σ β}
      {world mid after : World κ σ} {early late : List (Segment κ σ)} {a : α}
      {result : Except Error β} (runs : Runs below first world early (.ok a) mid)
      (rest : Runs below (next a) mid late result after) :
      Runs below (.bind first next) world (early ++ late) result after
  | bindError {α β : Type} {first : HostCode κ σ α} {next : α → HostCode κ σ β}
      {world after : World κ σ} {segments : List (Segment κ σ)} {error : Error}
      (runs : Runs below first world segments (.error error) after) :
      Runs below (.bind first next) world segments (.error error) after
  | attempt {α : Type} {code : HostCode κ σ α} {world after : World κ σ}
      {segments : List (Segment κ σ)} {result : Except Error α}
      (runs : Runs below code world segments result after) :
      Runs below (.attempt code) world segments (.ok result) after
  /-- There is no context manager. -/
  | refused {α : Type} {context : Proxy κ} {body : Object κ → HostCode κ σ α}
      {world after : World κ σ} {arming : List (Event κ σ)} {error : Error}
      (armed : Performs below (ScopeGuard.arm context).run world arming (.error error) after) :
      Runs below (.scope context body) world [⟨some context.handle, arming⟩] (.error error) after
  /-- Entering failed, so that the code does not run. -/
  | unentered {α : Type} {context : Proxy κ} {body : Object κ → HostCode κ σ α}
      {world ready mid after : World κ σ} {arming enter exit : List (Event κ σ)}
      {guard : ScopeGuard κ} {error : Error} {outcome : Except Error (ScopeOutcome α)}
      (armed : Performs below (ScopeGuard.arm context).run world arming (.ok guard) ready)
      (enters : Performs below guard.enter.run ready enter (.error error) mid)
      (finishes : Performs below (guard.finish (Except.error error : Except Error α)).run mid exit
        outcome after) :
      Runs below (.scope context body) world
        [⟨some context.handle, arming⟩, ⟨some context.handle, enter⟩, ⟨some context.handle, exit⟩]
        outcome after
  | scope {α : Type} {context : Proxy κ} {body : Object κ → HostCode κ σ α}
      {world ready mid late after : World κ σ} {arming enter exit : List (Event κ σ)}
      {guard : ScopeGuard κ} {value : Object κ} {inside : List (Segment κ σ)}
      {result : Except Error α} {outcome : Except Error (ScopeOutcome α)}
      (armed : Performs below (ScopeGuard.arm context).run world arming (.ok guard) ready)
      (enters : Performs below guard.enter.run ready enter (.ok value) mid)
      (runs : Runs below (body value) mid inside result late)
      (finishes : Performs below (guard.finish result).run late exit outcome after) :
      Runs below (.scope context body) world
        ([⟨some context.handle, arming⟩, ⟨some context.handle, enter⟩] ++ inside ++
          [⟨some context.handle, exit⟩]) outcome after

section Guard

variable {below : Handler κ σ} (keeps : Handler.KeepsAttributes below)

theorem Runs.performs {α : Type} {code : HostCode κ σ α} {world after : World κ σ}
    {segments : List (Segment κ σ)} {result : Except Error α}
    (runs : Runs below code world segments result after) :
    Performs below code.program.run world (whole segments) result after := by
  induction runs with
  | @perform _ _ _ _ trace _ performed =>
      rw [show whole [⟨none, trace⟩] = trace from List.append_nil trace]
      exact performed
  | bind _ _ ihFirst ihRest =>
      rw [Segment.whole_append]
      exact Program.performs_bind_iff.mpr (.inl ⟨_, _, _, _, rfl, ihFirst, ihRest⟩)
  | bindError _ ih => exact Program.performs_bind_iff.mpr (.inr ⟨_, ih, rfl⟩)
  | attempt _ ih => exact Program.performs_lift_iff.mpr ⟨_, rfl, ih⟩
  | @refused _ context _ _ _ arming _ armed =>
      rw [show whole [⟨some context.handle, arming⟩] = arming from List.append_nil arming]
      exact Program.performs_bind_iff.mpr (.inr ⟨_, armed, rfl⟩)
  | @unentered _ _ body _ _ _ _ _ _ _ _ _ _ armed enters finishes =>
      have scope := performs_withScope_of (fun value => (body value).program) armed
        (Program.performs_bind_iff.mpr (.inr ⟨_, enters, rfl⟩)) finishes
      simpa [whole, program] using scope
  | @scope _ _ body _ _ _ _ _ _ _ _ _ _ _ _ _ armed enters _ finishes ih =>
      have scope := performs_withScope_of (fun value => (body value).program) armed
        (Program.performs_bind_iff.mpr (.inl ⟨_, _, _, _, rfl, enters, ih⟩)) finishes
      simpa [whole, program] using scope

/-- Every run of host code falls into such segments. -/
theorem runs_of_performs {α : Type} {code : HostCode κ σ α} {world after : World κ σ}
    {trace : List (Event κ σ)} {result : Except Error α}
    (performed : Performs below code.program.run world trace result after) :
    ∃ segments, whole segments = trace ∧ Runs below code world segments result after := by
  induction code generalizing world trace after with
  | perform program => exact ⟨[⟨none, trace⟩], List.append_nil trace, .perform performed⟩
  | bind first next ihFirst ihNext =>
      rcases Program.performs_bind_iff.mp performed with
        ⟨early, a, mid, late, rfl, begins, rest⟩ | ⟨error, begins, rfl⟩
      · obtain ⟨early, rfl, runs⟩ := ihFirst begins
        obtain ⟨late, rfl, ends⟩ := ihNext a rest
        exact ⟨_, Segment.whole_append early late, .bind runs ends⟩
      · obtain ⟨segments, rfl, runs⟩ := ihFirst begins
        exact ⟨segments, rfl, .bindError runs⟩
  | attempt code ih =>
      obtain ⟨result, rfl, inside⟩ := Program.performs_lift_iff.mp performed
      obtain ⟨segments, rfl, runs⟩ := ih inside
      exact ⟨segments, rfl, .attempt runs⟩
  | scope context body ih =>
      rcases Program.performs_bind_iff.mp performed with
        ⟨arming, guard, ready, rest, rfl, armed, scope⟩ | ⟨error, armed, rfl⟩
      · rcases Program.performs_bind_iff.mp scope with
          ⟨early, result, late, exit, rfl, attempted, finishes⟩ | ⟨error, attempted, _⟩
        · obtain ⟨result', same, inside⟩ := Program.performs_lift_iff.mp attempted
          cases same
          rcases Program.performs_bind_iff.mp inside with
            ⟨enter, value, mid, code, rfl, enters, body⟩ | ⟨error, enters, rfl⟩
          · obtain ⟨segments, rfl, runs⟩ := ih value body
            refine ⟨_, ?_, .scope armed enters runs finishes⟩
            simp [whole]
          · refine ⟨_, ?_, .unentered armed enters finishes⟩
            simp [whole]
        · obtain ⟨_, impossible, _⟩ := Program.performs_lift_iff.mp attempted
          cases impossible
      · exact ⟨[⟨some context.handle, trace⟩], List.append_nil trace, .refused armed⟩

include keeps

/-- Every scope of a run is entered and left again: what was entered before it still is after it,
and nothing else. -/
theorem Runs.stillEntered {α : Type} {code : HostCode κ σ α} {world after : World κ σ}
    {segments : List (Segment κ σ)} {result : Except Error α}
    (runs : Runs below code world segments result after) (entered : List Handle) :
    Segment.stillEntered entered (guardCalls segments) = some entered := by
  -- what is entered already stays so, hence a scope's own brackets close around those inside
  induction runs generalizing entered with
  | perform _ => rfl
  | bind _ _ ihFirst ihRest =>
      rw [Segment.guardCalls_append, Segment.stillEntered_append, ihFirst entered]
      exact ihRest entered
  | bindError _ ih => exact ih entered
  | attempt _ ih => exact ih entered
  | refused armed =>
      obtain ⟨_, quiet, _⟩ := ScopeGuard.performs_arm keeps armed
      rw [Segment.guardCalls_singleton, methodCalls_of_quiet quiet]
      rfl
  | unentered armed enters finishes =>
      obtain ⟨rfl, quiet, ⟨hasEnter, hasExit, same⟩ | ⟨_, impossible⟩⟩ :=
        ScopeGuard.performs_arm keeps armed
      · cases same
        have hasExit' := (enters.moves keeps.evolves).heap.hasAttr hasExit
        obtain ⟨triple, exits⟩ := ScopeGuard.methodCalls_finish keeps hasExit' finishes
        have enters := ScopeGuard.methodCalls_enter keeps hasEnter enters
        dsimp only at enters exits
        rw [Segment.guardCalls_cons, Segment.guardCalls_cons, Segment.guardCalls_singleton,
          methodCalls_of_quiet quiet, enters, exits]
        simp [Segment.stillEntered]
      · cases impossible
  | scope armed enters runs finishes ih =>
      obtain ⟨rfl, quiet, ⟨hasEnter, hasExit, same⟩ | ⟨_, impossible⟩⟩ :=
        ScopeGuard.performs_arm keeps armed
      · cases same
        have hasExit' := (enters.moves keeps.evolves).heap.hasAttr hasExit
        have hasExit'' := (runs.performs.moves keeps.evolves).heap.hasAttr hasExit'
        obtain ⟨triple, exits⟩ := ScopeGuard.methodCalls_finish keeps hasExit'' finishes
        have enters := ScopeGuard.methodCalls_enter keeps hasEnter enters
        dsimp only at enters exits
        rw [Segment.guardCalls_append, Segment.guardCalls_append, Segment.guardCalls_cons,
          Segment.guardCalls_singleton, Segment.guardCalls_singleton, methodCalls_of_quiet quiet,
          enters, exits, Segment.stillEntered_append, Segment.stillEntered_append]
        simp [Segment.stillEntered, ih]
      · cases impossible

end Guard

end HostCode

/-- On the machine, whatever its host code does and however exceptions are made: an armed guard of
a value with both methods calls `__exit__` once in every life that it can have, after all its
entries; a scope calls `__enter__` once, then runs its code if that succeeded, then calls `__exit__`
once; an object that cannot be called is rejected with one exit; and the guards of scopes inside
each other enter and exit in brackets. -/
theorem scopes_exit_once (host : Host κ σ) (exceptionOf : Error → Program κ σ ForeignException)
    (layers : Nat) :
    (∀ (guard : ScopeGuard κ) (world : World κ σ) (own : List (List (Event κ σ))),
      guard.exited = false →
      world.heap.hasAttr guard.context.handle "__enter__" = true →
      world.heap.hasAttr guard.context.handle "__exit__" = true →
      guard.Lives (Machine.answerMaterializing host exceptionOf layers) world own →
      ∃ entries triple, own.flatMap (methodCalls guard.context.handle) =
        List.replicate entries ("__enter__", []) ++ [("__exit__", triple)]) ∧
    (∀ (α : Type) (context : Proxy κ) (body : Object κ → Program κ σ α) (world after : World κ σ)
      (trace : List (Event κ σ)) (outcome : Except Error (ScopeOutcome α)),
      world.heap.hasAttr context.handle "__enter__" = true →
      world.heap.hasAttr context.handle "__exit__" = true →
      Performs (Machine.answerMaterializing host exceptionOf layers) (withScope context body).run
        world trace outcome after →
      ∃ arming inside, trace = arming ++ inside ∧ methodCalls context.handle arming = [] ∧
        ScopeGuard.Guarded (Machine.answerMaterializing host exceptionOf layers) ⟨context, false⟩
          body world inside outcome after) ∧
    (∀ (context : Proxy κ) (callback : Object κ) (world after : World κ σ)
      (trace : List (Event κ σ)) (outcome : Except Error (ScopeOutcome (Object κ))),
      world.heap.hasAttr context.handle "__enter__" = true →
      world.heap.hasAttr context.handle "__exit__" = true →
      Performs (Machine.answerMaterializing host exceptionOf layers)
        (withScopeObject context callback).run world trace outcome after →
      ∃ arming asking inside callable mid, trace = arming ++ (asking ++ inside) ∧
        methodCalls context.handle (arming ++ asking) = [] ∧
        Performs (Machine.answerMaterializing host exceptionOf layers) callback.isCallable.run world
          asking (.ok callable) mid ∧
        if callable = true then
          ScopeGuard.Guarded (Machine.answerMaterializing host exceptionOf layers) ⟨context, false⟩
            (fun value => callback.call [value]) mid inside outcome after
        else
          methodCalls context.handle inside = [("__exit__", ScopeGuard.quietExit)] ∧
            ∃ error, outcome = .error error) ∧
    (∀ (α : Type) (code : HostCode κ σ α) (world after : World κ σ) (trace : List (Event κ σ))
      (result : Except Error α),
      Performs (Machine.answerMaterializing host exceptionOf layers) code.program.run world trace
        result after →
      ∃ segments, Segment.whole segments = trace ∧
        HostCode.Runs (Machine.answerMaterializing host exceptionOf layers) code world segments
          result after ∧
        Segment.WellBracketed segments) := by
  have keeps := Machine.keepsAttributes_answerMaterializing host exceptionOf layers
  refine ⟨?_, ?_, ?_, ?_⟩
  · intro guard world own armed enters exits lives
    exact lives.calls keeps armed enters exits
  · intro α context body world after trace outcome enters exits performed
    rcases performs_withScope keeps performed with
      ⟨arming, inside, rfl, quiet, _, _, _, guarded⟩ | ⟨missing, _⟩
    · exact ⟨arming, inside, rfl, methodCalls_of_quiet quiet, guarded⟩
    · exact absurd ⟨enters, exits⟩ missing
  · intro context callback world after trace outcome enters exits performed
    obtain ⟨arming, asking, inside, callable, mid, rfl, quiet, asked, rest⟩ :=
      performs_withScopeObject keeps enters exits performed
    exact ⟨arming, asking, inside, callable, mid, rfl, methodCalls_of_quiet quiet, asked, rest⟩
  · intro α code world after trace result performed
    obtain ⟨segments, rfl, runs⟩ := HostCode.runs_of_performs performed
    exact ⟨segments, rfl, runs, runs.stillEntered keeps []⟩

/-- A guard that is dropped, a scope, and a scope with a number for a callback, on that context
manager. -/
theorem scopes_exit_once_withContext :
    let below := Machine.answerMaterializing Host.answeringNone Program.materialize 2
    let context : Proxy Unit := .mk ⟨4⟩ ⟨"host", "Context"⟩ []
    (∃ own, ScopeGuard.Lives below ⟨context, false⟩ World.withContext own ∧
      ∃ entries triple, own.flatMap (methodCalls ⟨4⟩) =
        List.replicate entries ("__enter__", []) ++ [("__exit__", triple)]) ∧
    (∃ trace outcome after,
      Performs below (withScope context fun _ => (pure () : Program Unit Unit Unit)).run
        World.withContext trace outcome after ∧
      ∃ arming inside, trace = arming ++ inside ∧ methodCalls ⟨4⟩ arming = [] ∧
        ScopeGuard.Guarded below ⟨context, false⟩ (fun _ => pure ()) World.withContext inside
          outcome after) ∧
    (∃ trace outcome after,
      Performs below (withScopeObject context (.int 3)).run World.withContext trace outcome after ∧
      ∃ arming asking inside callable mid, trace = arming ++ (asking ++ inside) ∧
        methodCalls ⟨4⟩ (arming ++ asking) = [] ∧
        Performs below (Object.int 3 : Object Unit).isCallable.run World.withContext asking
          (.ok callable) mid ∧
        if callable = true then
          ScopeGuard.Guarded below ⟨context, false⟩ (fun value => (Object.int 3).call [value]) mid
            inside outcome after
        else
          methodCalls ⟨4⟩ inside = [("__exit__", ScopeGuard.quietExit)] ∧
            ∃ error, outcome = .error error) := by
  intro below context
  have enters : World.withContext.heap.hasAttr ⟨4⟩ "__enter__" = true := by decide +kernel
  have exits : World.withContext.heap.hasAttr ⟨4⟩ "__exit__" = true := by decide +kernel
  obtain ⟨lives, scope, object, _⟩ := scopes_exit_once Host.answeringNone Program.materialize 2
  refine ⟨?_, ?_, ?_⟩
  · obtain ⟨trace, _, after, dropped⟩ :
        ∃ trace answer after, Performs below (ScopeGuard.release ⟨context, false⟩) World.withContext
          trace answer after :=
      Interaction.exists_performs_of_isSome _ _ (by decide +kernel)
    exact ⟨[trace], .drop dropped,
      lives ⟨context, false⟩ World.withContext [trace] rfl enters exits (.drop dropped)⟩
  · obtain ⟨trace, outcome, after, performed⟩ :
        ∃ trace outcome after, Performs below
          (withScope context fun _ => (pure () : Program Unit Unit Unit)).run World.withContext
          trace outcome after :=
      Interaction.exists_performs_of_isSome _ _ (by decide +kernel)
    exact ⟨trace, outcome, after, performed,
      scope Unit context (fun _ => pure ()) World.withContext after trace outcome enters exits
        performed⟩
  · obtain ⟨trace, outcome, after, performed⟩ :
        ∃ trace outcome after, Performs below (withScopeObject context (.int 3)).run
          World.withContext trace outcome after :=
      Interaction.exists_performs_of_isSome _ _ (by decide +kernel)
    exact ⟨trace, outcome, after, performed,
      object context (.int 3) World.withContext after trace outcome enters exits performed⟩

end Interop
