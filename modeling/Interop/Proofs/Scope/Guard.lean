import Interop.Proofs.Interaction.Trace
import Interop.Scope
/-!
What a scope's guard calls. On every machine that keeps attributes the methods of an armed guard's
context are there whenever the guard needs them, so that each operation of the guard can be told by
the method calls in its trace.
-/

set_option autoImplicit false

namespace Interop

variable {κ σ α : Type}

/-! ### Method calls in a trace -/

/-- Whether a request invokes a value. -/
def Request.IsInvoke : Request κ σ → Prop
  | .invoke _ _ => True
  | _ => False

theorem Request.Looks.not_isInvoke {request : Request κ σ} (looks : request.Looks) :
    ¬ request.IsInvoke := by
  cases request with
  | invoke h args => cases looks
  | _ => exact not_false

/-- The calls of methods of a value: each is a method that was read from it and then invoked. -/
def methodCalls (h : Handle) : List (Event κ σ) → List (String × List (Arg κ))
  | ⟨.getAttr k name, .ok method⟩ :: ⟨.invoke callee args, reply⟩ :: rest =>
    if k = h ∧ callee = method then (name, args) :: methodCalls h rest
    else methodCalls h (⟨.invoke callee args, reply⟩ :: rest)
  | _ :: rest => methodCalls h rest
  | [] => []

theorem methodCalls_of_quiet {h : Handle} {trace : List (Event κ σ)}
    (quiet : ∀ event ∈ trace, ¬ event.request.IsInvoke) : methodCalls h trace = [] := by
  fun_induction methodCalls h trace with
  | case1 => exact absurd trivial (quiet _ (List.mem_cons_of_mem _ List.mem_cons_self))
  | case2 => exact absurd trivial (quiet _ (List.mem_cons_of_mem _ List.mem_cons_self))
  | case3 _ _ _ ih => exact ih fun event member => quiet event (List.mem_cons_of_mem _ member)
  | case4 => rfl

theorem methodCalls_append_of_materialize {h : Handle} {early late : List (Event κ σ)}
    (materializes : ∀ event ∈ early, ∃ error, event.request = .materialize error) :
    methodCalls h (early ++ late) = methodCalls h late := by
  induction early with
  | nil => rfl
  | cons event rest ih =>
      obtain ⟨request, reply⟩ := event
      obtain ⟨error, rfl⟩ := materializes _ List.mem_cons_self
      exact ih fun event member => materializes event (List.mem_cons_of_mem _ member)

/-- A method read and invoked, and no invocation after that. -/
theorem methodCalls_of_call {h method : Handle} {name : String} {args : List (Arg κ)}
    {reply : Except Error Handle} {rest : List (Event κ σ)}
    (quiet : ∀ event ∈ rest, ¬ event.request.IsInvoke) :
    methodCalls h (⟨.getAttr h name, .ok method⟩ :: ⟨.invoke method args, reply⟩ :: rest) =
      [(name, args)] := by
  rw [methodCalls, if_pos ⟨rfl, rfl⟩, methodCalls_of_quiet quiet]

/-! ### Machines that keep attributes -/

/-- A machine that answers for attributes from its heap, which only evolves. -/
structure Handler.KeepsAttributes (below : Handler κ σ) : Prop where
  evolves : ∀ request, Run.Moves Heap.Evolves (below request)
  hasAttr : ∀ {h name world has after}, below (.hasAttr h name) world = some (has, after) →
    has = world.heap.hasAttr h name ∧ after = world
  getAttr : ∀ {h name world reply after}, world.heap.hasAttr h name = true →
    below (.getAttr h name) world = some (reply, after) → ∃ method, reply = .ok method

theorem Heap.getAttr_of_hasAttr {heap : Heap κ} {h : Handle} {name : String}
    (has : heap.hasAttr h name = true) :
    ∃ value after, (Heap.getAttr h name).run heap = .ok (value, after) := by
  obtain ⟨found, stands⟩ := Option.isSome_iff_exists.mp has
  cases found with
  | text text =>
      refine ⟨heap.fresh, heap.push (.object ⟨.string text, .empty⟩),
        Op.bind_eq_ok_iff.mpr ⟨heap, heap, rfl, ?_⟩⟩
      rw [stands]
      rfl
  | object value =>
      refine ⟨value, heap, Op.bind_eq_ok_iff.mpr ⟨heap, heap, rfl, ?_⟩⟩
      rw [stands]
      rfl
  | method name code =>
      refine ⟨heap.fresh, heap.push (.object ⟨.boundMethod h name code, .empty⟩),
        Op.bind_eq_ok_iff.mpr ⟨heap, heap, rfl, ?_⟩⟩
      rw [stands]
      rfl

namespace Machine

/-- A machine on which the exceptions that stand for errors are made by host code, which may
fail. -/
def materializing (exceptionOf : Error → Program κ σ ForeignException) (usual : Handler κ σ) :
    Handler κ σ
  | .materialize error => (runProgram usual (exceptionOf error)).run
  | request => usual request

/-- The machine with a given number of layers, on each of which host code makes the exceptions that
stand for errors. -/
def answerMaterializing (host : Host κ σ) (exceptionOf : Error → Program κ σ ForeignException)
    (layers : Nat) : Handler κ σ :=
  tower (fun below => materializing exceptionOf (layer host below)) layers

theorem evolves_answerMaterializing (host : Host κ σ)
    (exceptionOf : Error → Program κ σ ForeignException) (layers : Nat) :
    ∀ request, Run.Moves Heap.Evolves (answerMaterializing host exceptionOf layers request) := by
  refine moves_tower (fun below answers request => ?_) layers
  have usual : ∀ request, Run.Moves Heap.Evolves (layer host below request) :=
    evolves_layer answers
  cases request with
  | materialize error => exact evolves_runProgram usual (exceptionOf error)
  | _ => exact usual _

theorem keepsAttributes_answerMaterializing (host : Host κ σ)
    (exceptionOf : Error → Program κ σ ForeignException) (layers : Nat) :
    Handler.KeepsAttributes (answerMaterializing host exceptionOf layers) where
  evolves := evolves_answerMaterializing host exceptionOf layers
  hasAttr := by
    intro h name world has after answered
    cases layers with
    | zero => cases answered
    | succ layers =>
        cases answered
        exact ⟨rfl, rfl⟩
  getAttr := by
    intro h name world reply after has answered
    cases layers with
    | zero => cases answered
    | succ layers =>
        obtain ⟨value, heap, success⟩ := Heap.getAttr_of_hasAttr has
        change Run.attempt (Heap.getAttr h name) world = some (reply, after) at answered
        rw [Run.attempt_of_ok success] at answered
        cases answered
        exact ⟨value, rfl⟩

/-- The machine as it is makes its exceptions on its own. -/
theorem answerMaterializing_materialize (host : Host κ σ) (layers : Nat) :
    answerMaterializing host Program.materialize layers = answer host layers := by
  have plain : ∀ usual : Handler κ σ, materializing Program.materialize usual = usual := by
    intro usual
    funext request
    cases request with
    | materialize error => exact Interaction.run_ask usual (.materialize error)
    | _ => rfl
  unfold answerMaterializing answer
  congr 1
  funext below
  exact plain (layer host below)

end Machine

/-! ### The operations of a guard -/

open Interaction (Performs)

section Guard

variable {below : Handler κ σ} (keeps : Handler.KeepsAttributes below)

include keeps

/-- A method that is there is called once. -/
theorem Proxy.methodCalls_callMethod {p : Proxy κ} {name : String} {args : List (Arg κ)}
    {world after : World κ σ} {trace : List (Event κ σ)} {result : Except Error (Object κ)}
    (has : world.heap.hasAttr p.handle name = true)
    (performed : Performs below (p.callMethod name args).run world trace result after) :
    methodCalls p.handle trace = [(name, args)] := by
  unfold Proxy.callMethod at performed
  rcases Program.performs_bind_iff.mp performed with
    ⟨early, method, mid, late, rfl, read, invoked⟩ | ⟨error, read, _⟩
  · obtain ⟨rfl, _⟩ := Interaction.performs_ask_iff.mp read
    rcases Program.performs_bind_iff.mp invoked with
      ⟨early, value, _, rest, rfl, called, wrapped⟩ | ⟨error, called, _⟩
    · obtain ⟨rfl, _⟩ := Interaction.performs_ask_iff.mp called
      have looks := wrapped.within (Bridge.only_wrap value)
      exact methodCalls_of_call fun event member => (looks event member).not_isInvoke
    · obtain ⟨rfl, _⟩ := Interaction.performs_ask_iff.mp called
      exact methodCalls_of_call (List.forall_mem_nil _)
  · obtain ⟨_, answered⟩ := Interaction.performs_ask_iff.mp read
    obtain ⟨method, impossible⟩ := keeps.getAttr has answered
    cases impossible

namespace ScopeGuard

/-- A guard is armed exactly for a value with both methods, and without a call of them. -/
theorem performs_arm {context : Proxy κ} {world after : World κ σ} {trace : List (Event κ σ)}
    {result : Except Error (ScopeGuard κ)}
    (performed : Performs below (arm context).run world trace result after) :
    after = world ∧ (∀ event ∈ trace, ¬ event.request.IsInvoke) ∧
      ((world.heap.hasAttr context.handle "__enter__" = true ∧
        world.heap.hasAttr context.handle "__exit__" = true ∧ result = .ok ⟨context, false⟩) ∨
      (¬ (world.heap.hasAttr context.handle "__enter__" = true ∧
          world.heap.hasAttr context.handle "__exit__" = true) ∧
        result = .error (.type (.noContextManager context.typeInfo.name)))) := by
  unfold arm at performed
  have asked : ∀ {name : String} {world mid : World κ σ} {early : List (Event κ σ)}
      {answer : Except Error Bool},
      Performs below (context.handle.hasAttr name).run world early answer mid →
      mid = world ∧ (∀ event ∈ early, ¬ event.request.IsInvoke) ∧
        answer = .ok (world.heap.hasAttr context.handle name) := by
    intro name world mid early answer performed
    obtain ⟨reply, rfl, rfl, answered⟩ := Program.performs_ask_iff.mp performed
    obtain ⟨rfl, rfl⟩ := keeps.hasAttr answered
    refine ⟨rfl, ?_, rfl⟩
    intro event member
    rw [List.mem_singleton] at member
    subst member
    exact not_false
  have refused : ∀ {world after : World κ σ} {late : List (Event κ σ)}
      {result : Except Error (ScopeGuard κ)},
      Performs below (Program.fault (.noContextManager context.typeInfo.name) :
        Program κ σ (ScopeGuard κ)).run world late result after →
      late = [] ∧ result = .error (.type (.noContextManager context.typeInfo.name)) ∧
        after = world :=
    Program.performs_throw_iff.mp
  rcases Program.performs_bind_iff.mp performed with
    ⟨early, hasEnter, mid, late, rfl, first, rest⟩ | ⟨error, first, _⟩
  · obtain ⟨rfl, quiet, same⟩ := asked first
    cases same
    by_cases enters : mid.heap.hasAttr context.handle "__enter__" = true
    · rw [if_pos enters] at rest
      rcases Program.performs_bind_iff.mp rest with
        ⟨early', hasExit, mid', late', rfl, second, rest⟩ | ⟨error, second, _⟩
      · obtain ⟨rfl, quiet', same⟩ := asked second
        cases same
        by_cases exits : mid'.heap.hasAttr context.handle "__exit__" = true
        · rw [if_pos exits] at rest
          obtain ⟨rfl, rfl, rfl⟩ := Program.performs_pure_iff.mp rest
          refine ⟨rfl, ?_, .inl ⟨enters, exits, rfl⟩⟩
          simpa only [List.append_nil, List.forall_mem_append] using ⟨quiet, quiet'⟩
        · rw [if_neg exits] at rest
          obtain ⟨rfl, rfl, rfl⟩ := refused rest
          refine ⟨rfl, ?_, .inr ⟨fun both => exits both.2, rfl⟩⟩
          simpa only [List.append_nil, List.forall_mem_append] using ⟨quiet, quiet'⟩
      · obtain ⟨_, _, impossible⟩ := asked second
        cases impossible
    · rw [if_neg enters] at rest
      obtain ⟨rfl, rfl, rfl⟩ := refused rest
      refine ⟨rfl, ?_, .inr ⟨fun both => enters both.1, rfl⟩⟩
      simpa only [List.append_nil] using quiet
  · obtain ⟨_, _, impossible⟩ := asked first
    cases impossible

theorem methodCalls_enter {guard : ScopeGuard κ} {world after : World κ σ}
    {trace : List (Event κ σ)} {result : Except Error (Object κ)}
    (has : world.heap.hasAttr guard.context.handle "__enter__" = true)
    (performed : Performs below guard.enter.run world trace result after) :
    methodCalls guard.context.handle trace = [("__enter__", [])] :=
  Proxy.methodCalls_callMethod keeps has performed

/-- Whether it succeeds or not, an exit calls `__exit__` once and is no longer owed after that. -/
theorem performs_exit {guard exited : ScopeGuard κ} {triple : List (Arg κ)}
    {world after : World κ σ} {trace : List (Event κ σ)} {result : Except Error (Object κ)}
    (has : world.heap.hasAttr guard.context.handle "__exit__" = true)
    (performed : Performs below (guard.exit triple) world trace (result, exited) after) :
    methodCalls guard.context.handle trace = [("__exit__", triple)] ∧ exited.exited = true := by
  unfold exit at performed
  obtain ⟨early, answer, mid, late, rfl, called, rest⟩ :=
    Interaction.performs_bind_iff.mp performed
  obtain ⟨rfl, same, rfl⟩ := Interaction.performs_pure_iff.mp rest
  cases same
  rw [List.append_nil]
  exact ⟨Proxy.methodCalls_callMethod keeps has called, rfl⟩

omit keeps in
/-- Once the exit has been called, the end of the guard's life does nothing. -/
theorem performs_release_of_exited {guard : ScopeGuard κ} {world after : World κ σ}
    {trace : List (Event κ σ)} (exited : guard.exited = true)
    (performed : Performs below guard.release world trace () after) : trace = [] := by
  unfold release at performed
  rw [if_pos exited] at performed
  exact (Interaction.performs_pure_iff.mp performed).1

/-- A guard that still owes its exit calls it at the end of its life. -/
theorem methodCalls_release {guard : ScopeGuard κ} {world after : World κ σ}
    {trace : List (Event κ σ)} (armed : guard.exited = false)
    (has : world.heap.hasAttr guard.context.handle "__exit__" = true)
    (performed : Performs below guard.release world trace () after) :
    methodCalls guard.context.handle trace = [("__exit__", quietExit)] := by
  unfold release at performed
  rw [if_neg (by rw [armed]; exact Bool.false_ne_true)] at performed
  obtain ⟨early, ⟨answer, exited⟩, mid, late, rfl, called, rest⟩ :=
    Interaction.performs_bind_iff.mp performed
  obtain ⟨rfl, _, _⟩ := Interaction.performs_pure_iff.mp rest
  rw [List.append_nil]
  exact (performs_exit keeps has called).1

omit keeps in
theorem only_exceptionFor (error : Error) :
    Interaction.Only (fun request => ∃ error, request = .materialize error)
      (exceptionFor error : Program κ σ (Option ForeignException)).run := by
  refine Program.only_bind (Program.only_lift (Interaction.only_ask ⟨_, rfl⟩)) fun first => ?_
  split
  · exact Program.only_pure _
  · refine Program.only_bind (Program.only_lift (Interaction.only_ask ⟨_, rfl⟩)) fun second => ?_
    split
    · exact Program.only_pure _
    · exact Program.only_pure _

omit keeps in
/-- Looking for an exception does not fail; at worst it finds none. -/
theorem exceptionFor_ok {error : Error} {world after : World κ σ} {trace : List (Event κ σ)}
    {result : Except Error (Option ForeignException)}
    (performed : Performs below (exceptionFor error).run world trace result after) :
    ∃ exception, result = .ok exception := by
  unfold exceptionFor at performed
  rcases Program.performs_bind_iff.mp performed with
    ⟨_, first, _, _, rfl, _, rest⟩ | ⟨_, impossible, _⟩
  · split at rest
    · exact ⟨_, (Program.performs_pure_iff.mp rest).2.1⟩
    · rcases Program.performs_bind_iff.mp rest with
        ⟨_, second, _, _, rfl, _, rest⟩ | ⟨_, impossible, _⟩
      · split at rest
        · exact ⟨_, (Program.performs_pure_iff.mp rest).2.1⟩
        · exact ⟨_, (Program.performs_pure_iff.mp rest).2.1⟩
      · obtain ⟨_, impossible, _⟩ := Program.performs_lift_iff.mp impossible
        cases impossible
  · obtain ⟨_, impossible, _⟩ := Program.performs_lift_iff.mp impossible
    cases impossible

/-- An exit whose answer is only looked at. -/
theorem performs_exit_bind {β : Type} {guard concluded : ScopeGuard κ} {triple : List (Arg κ)}
    {next : Except Error (Object κ) × ScopeGuard κ → Interaction κ σ (β × ScopeGuard κ)}
    (only : ∀ answer guard, ∃ b, next (answer, guard) = pure (b, guard))
    {world after : World κ σ} {trace : List (Event κ σ)} {b : β}
    (has : world.heap.hasAttr guard.context.handle "__exit__" = true)
    (performed : Performs below (guard.exit triple >>= next) world trace (b, concluded) after) :
    methodCalls guard.context.handle trace = [("__exit__", triple)] ∧ concluded.exited = true := by
  obtain ⟨early, ⟨answer, exited⟩, mid, late, rfl, called, rest⟩ :=
    Interaction.performs_bind_iff.mp performed
  obtain ⟨b', same⟩ := only answer exited
  rw [same] at rest
  obtain ⟨rfl, same, _⟩ := Interaction.performs_pure_iff.mp rest
  cases same
  rw [List.append_nil]
  exact performs_exit keeps has called

/-- Concluding calls `__exit__` once, whatever the result is and whatever the exit answers. -/
theorem performs_conclude {guard concluded : ScopeGuard κ} {result : Except Error α}
    {world after : World κ σ} {trace : List (Event κ σ)}
    {outcome : Except Error (ScopeOutcome α)}
    (has : world.heap.hasAttr guard.context.handle "__exit__" = true)
    (performed : Performs below (guard.conclude result) world trace (outcome, concluded) after) :
    (∃ triple, methodCalls guard.context.handle trace = [("__exit__", triple)]) ∧
      concluded.exited = true := by
  unfold conclude at performed
  cases result with
  | ok value =>
      obtain ⟨calls, exited⟩ := performs_exit_bind keeps
        (by rintro (failure | answer) guard <;> exact ⟨_, rfl⟩) has performed
      exact ⟨⟨_, calls⟩, exited⟩
  | error error =>
      obtain ⟨early, found, mid, late, rfl, sought, rest⟩ :=
        Interaction.performs_bind_iff.mp performed
      obtain ⟨exception, rfl⟩ := exceptionFor_ok sought
      have has' : mid.heap.hasAttr guard.context.handle "__exit__" = true :=
        (sought.moves keeps.evolves).heap.hasAttr has
      rw [methodCalls_append_of_materialize (sought.within (only_exceptionFor error))]
      cases exception with
      | none =>
          obtain ⟨calls, exited⟩ := performs_exit_bind keeps
            (by rintro (failure | answer) guard <;> exact ⟨_, rfl⟩) has' rest
          exact ⟨⟨_, calls⟩, exited⟩
      | some exception =>
          obtain ⟨calls, exited⟩ := performs_exit_bind keeps
            (by rintro (failure | answer) guard <;> exact ⟨_, rfl⟩) has' rest
          exact ⟨⟨_, calls⟩, exited⟩

/-- Finishing calls `__exit__` once: the release that follows finds nothing owed. -/
theorem methodCalls_finish {guard : ScopeGuard κ} {result : Except Error α}
    {world after : World κ σ} {trace : List (Event κ σ)}
    {outcome : Except Error (ScopeOutcome α)}
    (has : world.heap.hasAttr guard.context.handle "__exit__" = true)
    (performed : Performs below (guard.finish result).run world trace outcome after) :
    ∃ triple, methodCalls guard.context.handle trace = [("__exit__", triple)] := by
  obtain ⟨early, ⟨outcome', concluded⟩, mid, late, rfl, first, rest⟩ :=
    Interaction.performs_bind_iff.mp performed
  obtain ⟨calls, exited⟩ := performs_conclude keeps has first
  obtain ⟨_, _, _, last, rfl, release, ending⟩ := Interaction.performs_bind_iff.mp rest
  obtain rfl := performs_release_of_exited exited release
  obtain ⟨rfl, _, _⟩ := Interaction.performs_pure_iff.mp ending
  simpa only [List.append_nil] using calls

/-- Rejecting, that is exiting at once and then releasing, calls `__exit__` once. -/
theorem methodCalls_reject {β : Type} (guard : ScopeGuard κ)
    (next : Except Error (Object κ) → Interaction κ σ β)
    (only : ∀ answer, ∃ b, next answer = pure b)
    {world after : World κ σ} {trace : List (Event κ σ)} {outcome : β}
    (has : world.heap.hasAttr guard.context.handle "__exit__" = true)
    (performed : Performs below (do
      let (answer, guard) ← guard.exit quietExit
      guard.release
      next answer) world trace outcome after) :
    methodCalls guard.context.handle trace = [("__exit__", quietExit)] ∧
      ∃ answer, next answer = pure outcome := by
  obtain ⟨early, ⟨answer, exited⟩, mid, late, rfl, called, rest⟩ :=
    Interaction.performs_bind_iff.mp performed
  obtain ⟨calls, done⟩ := performs_exit keeps has called
  obtain ⟨_, _, _, last, rfl, release, ending⟩ := Interaction.performs_bind_iff.mp rest
  obtain rfl := performs_release_of_exited done release
  obtain ⟨b, same⟩ := only answer
  rw [same] at ending
  obtain ⟨rfl, rfl, _⟩ := Interaction.performs_pure_iff.mp ending
  refine ⟨?_, answer, same⟩
  simpa only [List.append_nil] using calls

end ScopeGuard

end Guard

end Interop
