import Interop.Proofs.Scope.Nesting
import Interop.Proofs.Scope.Outcome
/-!
Which objects can be called. One classification answers whether an object is callable, another one
carries out the call. They agree on all objects but the raw handles: a raw handle tells what its
value says, and its call is refused all the same. A scope trusts the first for the second.
-/

set_option autoImplicit false

namespace Interop

open Interaction (Performs)

variable {κ σ α β : Type}

/-! ### Programs that are no refusal -/

namespace Program

variable {cause : TypeFault}

theorem pure_ne_fault (a : α) : (pure a : Program κ σ α) ≠ fault cause := by
  intro same
  cases Interaction.done.inj same

theorem fault_ne_fault {other : TypeFault} (different : other ≠ cause) :
    (fault other : Program κ σ α) ≠ fault cause := by
  intro same
  cases Interaction.done.inj same
  exact different rfl

theorem perform_ne_fault {request : Request κ σ}
    {resume : request.Reply → Interaction κ σ (Except Error α)} :
    (ExceptT.mk (.perform request resume) : Program κ σ α) ≠ fault cause := by
  intro same
  cases congrArg ExceptT.run same

/-- A sequence is a refusal only through one of its parts. -/
theorem bind_ne_fault {x : Program κ σ α} {f : α → Program κ σ β} (first : x ≠ fault cause)
    (rest : ∀ a, f a ≠ fault cause) : x >>= f ≠ fault cause := by
  intro same
  have parts : (x >>= f).run = .done (.error (.type cause)) := congrArg ExceptT.run same
  rw [run_bind_eq] at parts
  cases whole : x.run with
  | perform request resume =>
      rw [whole] at parts
      cases parts
  | done result =>
      rw [whole] at parts
      cases result with
      | ok a => exact rest a (ExceptT.ext parts)
      | error error =>
          cases Interaction.done.inj parts
          exact first (ExceptT.ext whole)

end Program

open Program (pure_ne_fault fault_ne_fault perform_ne_fault bind_ne_fault)

/-! ### What a call is -/

section Refusals

variable {typeName : String}

theorem Method.call_ne_refusal (method : Method κ) (receiver : Proxy κ) (args : List (Object κ)) :
    (method.call receiver args : Program κ σ _) ≠ Program.fault (.notCallable typeName) := by
  obtain ⟨name, code⟩ := method
  cases code <;> exact perform_ne_fault

namespace Capability

theorem required_ne_refusal (c : Capability) (args : List (Object κ)) :
    (c.required args : Program κ σ _) ≠ Program.fault (.notCallable typeName) := by
  cases args with
  | nil => exact fault_ne_fault nofun
  | cons first rest => exact pure_ne_fault _

theorem requiredName_ne_refusal (c : Capability) (args : List (Object κ)) :
    (c.requiredName args : Program κ σ _) ≠ Program.fault (.notCallable typeName) := by
  refine bind_ne_fault (c.required_ne_refusal args) ?_
  rintro ⟨first, rest⟩
  cases first with
  | string name => exact pure_ne_fault _
  | _ => exact fault_ne_fault nofun

theorem optionalInt_ne_refusal (c : Capability) (args : List (Object κ)) :
    (c.optionalInt args : Program κ σ _) ≠ Program.fault (.notCallable typeName) := by
  fun_cases Capability.optionalInt c args with
  | case4 => exact fault_ne_fault nofun
  | _ => exact pure_ne_fault _

end Capability

/-- A capability may refuse its arguments, but does not tell that something is no callable. -/
theorem Proxy.perform_ne_refusal (p : Proxy κ) (c : Capability) (args : List (Object κ)) :
    (p.perform c args : Program κ σ _) ≠ Program.fault (.notCallable typeName) := by
  cases c with
  | handle | dispatch => exact pure_ne_fault _
  | invoke | toStr | hash => exact perform_ne_fault
  | slice =>
      refine bind_ne_fault (Capability.optionalInt_ne_refusal _ _) fun start => ?_
      refine bind_ne_fault (Capability.optionalInt_ne_refusal _ _) fun stop => ?_
      refine bind_ne_fault (Capability.optionalInt_ne_refusal _ _) fun step => ?_
      exact perform_ne_fault
  | hasAttr | getAttr =>
      exact bind_ne_fault (Capability.requiredName_ne_refusal _ _) fun name => perform_ne_fault
  | getItem =>
      exact bind_ne_fault (Capability.required_ne_refusal _ _) fun key => perform_ne_fault
  | setAttr =>
      refine bind_ne_fault (Capability.requiredName_ne_refusal _ _) fun name => ?_
      exact bind_ne_fault (Capability.required_ne_refusal _ _) fun value => perform_ne_fault
  | setItem =>
      refine bind_ne_fault (Capability.required_ne_refusal _ _) fun key => ?_
      exact bind_ne_fault (Capability.required_ne_refusal _ _) fun value => perform_ne_fault

theorem wrapRaw_ne_refusal (args : List (Object κ)) :
    (wrapRaw args : Program κ σ _) ≠ Program.fault (.notCallable typeName) := by
  induction args with
  | nil => exact pure_ne_fault _
  | cons arg rest ih =>
      unfold wrapRaw
      cases arg with
      | handle h => exact perform_ne_fault
      | _ =>
          refine bind_ne_fault (pure_ne_fault _) fun object => bind_ne_fault ih ?_
          rintro ⟨objects, same⟩
          exact pure_ne_fault _

end Refusals

namespace Object

theorem eq_method_of_typeName {object : Object κ} (named : object.typeName = "method") :
    ∃ m, object = .method m := by
  cases object with
  | method m => exact ⟨m, rfl⟩
  | _ => simp [typeName] at named

/-- A call never tells that a method is no callable, not even one that is dispatched. -/
theorem call_ne_refusal (object : Object κ) (args : List (Object κ)) :
    (object.call args : Program κ σ _) ≠ Program.fault (.notCallable "method") := by
  -- by the recursion of a dispatched call, whose callee has one argument less
  fun_induction Object.call (σ := σ) object args with
  | case1 => exact Method.call_ne_refusal _ _ _
  | case2 => exact fault_ne_fault nofun
  | case3 _ callee rest ih =>
      refine bind_ne_fault (wrapRaw_ne_refusal rest) ?_
      rintro ⟨wrapped, same⟩
      exact ih wrapped same
  | case4 => exact Proxy.perform_ne_refusal _ _ _
  | case5 => exact perform_ne_fault
  | case6 args other noMember noDispatch noCapability noProxy =>
      refine fault_ne_fault fun same => ?_
      obtain ⟨m, rfl⟩ := eq_method_of_typeName (TypeFault.notCallable.inj same)
      cases m with
      | member receiver m => exact noMember receiver m rfl
      | capability receiver c => exact noCapability receiver c rfl

/-- What a call reaches: the code of a method, a capability, or the invocation of the value behind a
proxy. -/
inductive Reaches (below : Handler κ σ) : Object κ → List (Object κ) →
    World κ σ → List (Event κ σ) → Except Error (Object κ) → World κ σ → Prop
  | hostMethod {receiver : Proxy κ} {name : String} {code : κ} {args : List (Object κ)}
      {world after : World κ σ} {result : Except Error (Object κ)}
      (answered : below (.runMethod code receiver args) world = some (result, after)) :
      Reaches below (.method (.member receiver ⟨name, .host code⟩)) args world
        [⟨.runMethod code receiver args, result⟩] result after
  /-- A method of the library, whose code is no name. -/
  | ownMethod {receiver : Proxy κ} {method : Method κ} {args : List (Object κ)}
      {world after : World κ σ} {trace : List (Event κ σ)} {result : Except Error (Object κ)}
      (own : ∀ code, method.code ≠ .host code)
      (performed : Performs below (method.call receiver args).run world trace result after) :
      Reaches below (.method (.member receiver method)) args world trace result after
  | capability {receiver : Proxy κ} {c : Capability} {args : List (Object κ)}
      {world after : World κ σ} {trace : List (Event κ σ)} {result : Except Error (Object κ)}
      (other : c ≠ .dispatch)
      (performed : Performs below (receiver.perform c args).run world trace result after) :
      Reaches below (.method (.capability receiver c)) args world trace result after
  | dispatch {receiver : Proxy κ} {callee : Object κ} {rest : List (Object κ)}
      {world after : World κ σ} {trace : List (Event κ σ)} {result : Except Error (Object κ)}
      (performed : Performs below (wrapRaw rest >>= fun wrapped => callee.call wrapped.val).run
        world trace result after) :
      Reaches below (.method (.capability receiver .dispatch)) (callee :: rest) world trace result
        after
  | dispatchNothing {receiver : Proxy κ} {world : World κ σ} :
      Reaches below (.method (.capability receiver .dispatch)) [] world []
        (.error (.type (.missingArgument Capability.dispatch.memberName))) world
  | invoke {p : Proxy κ} {args : List (Object κ)} {world mid after : World κ σ} {value : Handle}
      {trace : List (Event κ σ)} {result : Except Error (Object κ)}
      (answered : below (.invoke p.handle (args.map toArg)) world = some (.ok value, mid))
      (wraps : Performs below (Bridge.wrap value).run mid trace result after) :
      Reaches below (.proxy p) args world
        (⟨.invoke p.handle (args.map toArg), .ok value⟩ :: trace) result after
  | invokeFails {p : Proxy κ} {args : List (Object κ)} {world after : World κ σ} {error : Error}
      (answered : below (.invoke p.handle (args.map toArg)) world = some (.error error, after)) :
      Reaches below (.proxy p) args world [⟨.invoke p.handle (args.map toArg), .error error⟩]
        (.error error) after

variable {below : Handler κ σ}

/-- A call of a method or of a proxy reaches something, and there is nothing else that a call could
reach. -/
theorem reaches_or_refused {object : Object κ} {args : List (Object κ)} {world after : World κ σ}
    {trace : List (Event κ σ)} {result : Except Error (Object κ)}
    (performed : Performs below (object.call args).run world trace result after) :
    object.Reaches below args world trace result after ∨
      (object.call args : Program κ σ _) = Program.fault (.notCallable object.typeName) := by
  rw [Object.call.eq_def] at performed
  cases object with
  | method m =>
      left
      cases m with
      | member receiver m =>
          obtain ⟨name, code⟩ := m
          cases code with
          | host code =>
              obtain ⟨rfl, answered⟩ := Interaction.performs_ask_iff.mp performed
              exact .hostMethod answered
          | _ => exact .ownMethod nofun performed
      | capability receiver c =>
          by_cases dispatches : c = .dispatch
          · subst dispatches
            cases args with
            | nil =>
                obtain ⟨rfl, rfl, rfl⟩ := Program.performs_throw_iff.mp performed
                exact .dispatchNothing
            | cons callee rest => exact .dispatch performed
          · refine .capability dispatches ?_
            cases c with
            | dispatch => exact absurd rfl dispatches
            | _ => exact performed
  | proxy p =>
      left
      rcases Program.performs_bind_iff.mp performed with
        ⟨early, value, mid, late, rfl, invoked, wraps⟩ | ⟨error, invoked, rfl⟩
      · obtain ⟨rfl, answered⟩ := Interaction.performs_ask_iff.mp invoked
        exact .invoke answered wraps
      · obtain ⟨rfl, answered⟩ := Interaction.performs_ask_iff.mp invoked
        exact .invokeFails answered
  | _ => exact .inr (by rw [Object.call.eq_def])

/-- Among the objects that say they are callable, the raw handles and no others are refused. -/
theorem refused_iff_handle {object : Object κ} {world mid : World κ σ} {asking : List (Event κ σ)}
    (asked : Performs below object.isCallable.run world asking (.ok true) mid)
    (args : List (Object κ)) :
    (object.call args : Program κ σ _) = Program.fault (.notCallable object.typeName) ↔
      ∃ h, object = .handle h := by
  cases object with
  | method m => exact iff_of_false (call_ne_refusal _ args) nofun
  | proxy p =>
      refine iff_of_false ?_ nofun
      rw [Object.call.eq_def]
      exact perform_ne_fault
  | handle h => exact iff_of_true (by rw [Object.call.eq_def]) ⟨h, rfl⟩
  | _ =>
      obtain ⟨_, no, _⟩ := Program.performs_pure_iff.mp asked
      cases no

theorem reaches_of_isCallable {object : Object κ} {world mid : World κ σ}
    {asking : List (Event κ σ)}
    (asked : Performs below object.isCallable.run world asking (.ok true) mid)
    (plain : ∀ h, object ≠ .handle h) {args : List (Object κ)} {start after : World κ σ}
    {trace : List (Event κ σ)} {result : Except Error (Object κ)}
    (performed : Performs below (object.call args).run start trace result after) :
    object.Reaches below args start trace result after := by
  rcases reaches_or_refused performed with reaches | refused
  · exact reaches
  · obtain ⟨h, raw⟩ := (refused_iff_handle asked args).mp refused
    exact absurd raw (plain h)

theorem performs_call_handle {h : Handle} {args : List (Object κ)} {world after : World κ σ}
    {trace : List (Event κ σ)} {result : Except Error (Object κ)}
    (performed : Performs below ((Object.handle h).call args).run world trace result after) :
    trace = [] ∧ result = .error (.type (.notCallable "handle")) ∧ after = world := by
  rw [Object.call.eq_def] at performed
  exact Program.performs_throw_iff.mp performed

end Object

/-! ### Callbacks of scopes -/

/-- The error that an outcome leaves unhandled. -/
def ScopeOutcome.unhandled? : ScopeOutcome α → Option Error
  | unhandled error => some error
  | _ => none

theorem ScopeOutcome.eq_unhandled {outcome : ScopeOutcome α} {error : Error}
    (told : outcome.unhandled? = some error) : outcome = .unhandled error := by
  cases outcome with
  | unhandled own =>
      cases told
      rfl
  | _ => cases told

namespace ScopeGuard

/-- The run of a scope whose callback said that it is callable: if the context was entered, the call
on the entered value reaches something, or else the callback is a raw handle and nothing is asked
for between entering and exiting. -/
inductive Applies (below : Handler κ σ) (guard : ScopeGuard κ) : Object κ →
    World κ σ → List (Event κ σ) → Except Error (ScopeOutcome (Object κ)) → World κ σ → Prop
  | unentered {callback : Object κ} {world mid after : World κ σ} {enter exit : List (Event κ σ)}
      {error : Error} {outcome : Except Error (ScopeOutcome (Object κ))}
      (enters : Performs below guard.enter.run world enter (.error error) mid)
      (finishes : Performs below (guard.finish (.error error)).run mid exit outcome after) :
      Applies below guard callback world (enter ++ exit) outcome after
  | applied {callback value : Object κ} {world mid late after : World κ σ}
      {enter code exit : List (Event κ σ)} {result : Except Error (Object κ)}
      {outcome : Except Error (ScopeOutcome (Object κ))}
      (enters : Performs below guard.enter.run world enter (.ok value) mid)
      (reaches : callback.Reaches below [value] mid code result late)
      (finishes : Performs below (guard.finish result).run late exit outcome after) :
      Applies below guard callback world (enter ++ code ++ exit) outcome after
  | refused {h : Handle} {value : Object κ} {world mid after : World κ σ}
      {enter exit : List (Event κ σ)} {outcome : Except Error (ScopeOutcome (Object κ))}
      (enters : Performs below guard.enter.run world enter (.ok value) mid)
      (finishes : Performs below
        (guard.finish (.error (.type (.notCallable "handle")))).run mid exit outcome after) :
      Applies below guard (.handle h) world (enter ++ exit) outcome after

variable {below : Handler κ σ}

theorem Guarded.applies {guard : ScopeGuard κ} {callback : Object κ} {start world after : World κ σ}
    {asking trace : List (Event κ σ)} {outcome : Except Error (ScopeOutcome (Object κ))}
    (asked : Performs below callback.isCallable.run start asking (.ok true) world)
    (guarded : guard.Guarded below (fun value => callback.call [value]) world trace outcome after) :
    guard.Applies below callback world trace outcome after := by
  cases guarded with
  | @intro _ _ _ _ _ _ entered _ _ _ enters _ runs finishes _ =>
    cases entered with
    | ok value =>
        by_cases raw : ∃ h, callback = .handle h
        · obtain ⟨h, rfl⟩ := raw
          obtain ⟨rfl, rfl, rfl⟩ := Object.performs_call_handle runs
          rw [List.append_nil]
          exact .refused enters finishes
        · exact .applied enters
            (Object.reaches_of_isCallable asked (not_exists.mp raw) runs) finishes
    | error error =>
        obtain ⟨rfl, rfl, rfl⟩ := runs
        rw [List.append_nil]
        exact .unentered enters finishes

theorem isCompleted_verdict_error (error : Error) (exception : Option ForeignException)
    (answer : Object κ) : (verdict (.error error : Except Error α) exception answer).isCompleted =
      false := by
  unfold verdict
  dsimp only
  split <;> rfl

/-- Under a guard a failure is not told as a completion, however the exit answers. -/
theorem isCompleted_of_finish_error {guard : ScopeGuard κ} {error : Error}
    {world after : World κ σ} {trace : List (Event κ σ)} {outcome : ScopeOutcome α}
    (finishes : Performs below (guard.finish (.error error : Except Error α)).run world trace
      (.ok outcome) after) : outcome.isCompleted = false := by
  have finished : (Machine.runProgram below (guard.finish (.error error : Except Error α))).run
      world = some (.ok outcome, after) := finishes.run
  obtain ⟨exception, mid, answer, _, _, same⟩ := run_finish_iff.mp finished
  cases answer with
  | error failure => cases same
  | ok answer =>
      cases same
      exact isCompleted_verdict_error error exception answer

end ScopeGuard

theorem isCompleted_withScopeObject_handle {below : Handler κ σ} {context : Proxy κ} {h : Handle}
    {world after : World κ σ} {trace : List (Event κ σ)} {outcome : ScopeOutcome (Object κ)}
    (performed : Performs below (withScopeObject context (.handle h)).run world trace (.ok outcome)
      after) : outcome.isCompleted = false := by
  rcases Program.performs_bind_iff.mp performed with
    ⟨arming, guard, ready, rest, rfl, armed, scope⟩ | ⟨error, _, failed⟩
  · rcases Program.performs_bind_iff.mp scope with
      ⟨asking, callable, mid, inside, rfl, asked, scope⟩ | ⟨error, _, failed⟩
    · split at scope
      · rcases Program.performs_bind_iff.mp scope with
          ⟨early, result, late, exit, rfl, attempted, finishes⟩ | ⟨error, _, failed⟩
        · obtain ⟨result', same, code⟩ := Program.performs_lift_iff.mp attempted
          cases same
          rcases Program.performs_bind_iff.mp code with
            ⟨enter, value, entered, call, rfl, enters, called⟩ | ⟨error, enters, rfl⟩
          · obtain ⟨rfl, rfl, rfl⟩ := Object.performs_call_handle called
            exact ScopeGuard.isCompleted_of_finish_error finishes
          · exact ScopeGuard.isCompleted_of_finish_error finishes
        · cases failed
      · -- a handle that says it is not callable makes the scope fail after the exit
        obtain ⟨early, exited, mid, late, rfl, exits, rest⟩ :=
          Interaction.performs_bind_iff.mp scope
        obtain ⟨_, _, _, _, rfl, _, ends⟩ := Interaction.performs_bind_iff.mp rest
        obtain ⟨answer, guard⟩ := exited
        cases answer with
        | ok answer =>
            obtain ⟨_, failed, _⟩ := Interaction.performs_pure_iff.mp ends
            cases failed
        | error failure =>
            obtain ⟨_, failed, _⟩ := Interaction.performs_pure_iff.mp ends
            cases failed
    · cases failed
  · cases failed

/-- Callable means callable, but for raw handles. Whatever the foreign side answers, an object that
says it is callable is refused as not callable exactly if it is a raw handle, and any other one
reaches the code of its method, its capability or the foreign invocation of its value. On the
machine a scope whose callback said that it is callable applies it on every entered value, unless it
is a raw handle; and with a raw handle no scope completes. -/
theorem callable_reaches (host : Host κ σ) (exceptionOf : Error → Program κ σ ForeignException)
    (layers : Nat) :
    (∀ (below : Handler κ σ) (object : Object κ) (args : List (Object κ)) (world mid : World κ σ)
      (asking : List (Event κ σ)),
      Performs below object.isCallable.run world asking (.ok true) mid →
      ((object.call args : Program κ σ _) = Program.fault (.notCallable object.typeName) ↔
          ∃ h, object = .handle h) ∧
        ((∀ h, object ≠ .handle h) → ∀ start trace result after,
          Performs below (object.call args).run start trace result after →
          object.Reaches below args start trace result after)) ∧
    (∀ (context : Proxy κ) (callback : Object κ) (world after : World κ σ)
      (trace : List (Event κ σ)) (outcome : Except Error (ScopeOutcome (Object κ))),
      world.heap.hasAttr context.handle "__enter__" = true →
      world.heap.hasAttr context.handle "__exit__" = true →
      Performs (Machine.answerMaterializing host exceptionOf layers)
        (withScopeObject context callback).run world trace outcome after →
      ∃ arming asking inside callable mid, trace = arming ++ (asking ++ inside) ∧
        Performs (Machine.answerMaterializing host exceptionOf layers) callback.isCallable.run world
          asking (.ok callable) mid ∧
        (callable = true →
          ScopeGuard.Applies (Machine.answerMaterializing host exceptionOf layers)
            ⟨context, false⟩ callback mid inside outcome after)) ∧
    (∀ (below : Handler κ σ) (context : Proxy κ) (h : Handle) (world after : World κ σ)
      (trace : List (Event κ σ)) (outcome : ScopeOutcome (Object κ)),
      Performs below (withScopeObject context (.handle h)).run world trace (.ok outcome) after →
      outcome.isCompleted = false) := by
  have keeps := Machine.keepsAttributes_answerMaterializing host exceptionOf layers
  refine ⟨?_, ?_, ?_⟩
  · intro below object args world mid asking asked
    refine ⟨Object.refused_iff_handle asked args, ?_⟩
    intro plain start trace result after performed
    exact Object.reaches_of_isCallable asked plain performed
  · intro context callback world after trace outcome enters exits performed
    obtain ⟨arming, asking, inside, callable, mid, rfl, _, asked, rest⟩ :=
      performs_withScopeObject keeps enters exits performed
    refine ⟨arming, asking, inside, callable, mid, rfl, asked, ?_⟩
    rintro rfl
    exact ScopeGuard.Guarded.applies asked rest
  · intro below context h world after trace outcome performed
    exact isCompleted_withScopeObject_handle performed

/-- A proxy of a function: its call, and a scope with it as the callback. -/
theorem callable_reaches_function :
    let below := Machine.answerMaterializing Host.answeringNone Program.materialize 2
    let context : Proxy Unit := .mk ⟨4⟩ ⟨"host", "Context"⟩ []
    let function : Object Unit := .proxy (.mk ⟨1⟩ ⟨"builtins", "function"⟩ [])
    (∃ trace result after,
      Performs below (function.call []).run World.withContext trace result after ∧
        function.Reaches below [] World.withContext trace result after) ∧
    (∃ trace outcome after,
      Performs below (withScopeObject context function).run World.withContext trace outcome after ∧
        ∃ arming asking inside callable mid, trace = arming ++ (asking ++ inside) ∧
          Performs below function.isCallable.run World.withContext asking (.ok callable) mid ∧
          (callable = true →
            ScopeGuard.Applies below ⟨context, false⟩ function mid inside outcome after)) ∧
    ∃ trace outcome after,
      Performs below (withScopeObject context (.handle ⟨1⟩)).run World.withContext trace
        (.ok outcome) after ∧ outcome.isCompleted = false := by
  intro below context function
  obtain ⟨calls, scopes, raw⟩ := callable_reaches Host.answeringNone Program.materialize 2
  refine ⟨?_, ?_, ?_⟩
  · have asked : Performs below function.isCallable.run World.withContext
        [⟨.isCallable ⟨1⟩, true⟩] (.ok true) World.withContext :=
      Program.performs_ask_iff.mpr ⟨true, rfl, rfl, by rfl⟩
    obtain ⟨trace, result, after, performed⟩ :
        ∃ trace result after,
          Performs below (function.call []).run World.withContext trace result after :=
      Interaction.exists_performs_of_isSome _ _ (by decide +kernel)
    obtain ⟨_, reaches⟩ := calls below function [] _ _ _ asked
    exact ⟨trace, result, after, performed, reaches nofun _ _ _ _ performed⟩
  · obtain ⟨trace, outcome, after, performed⟩ :
        ∃ trace outcome after, Performs below (withScopeObject context function).run
          World.withContext trace outcome after :=
      Interaction.exists_performs_of_isSome _ _ (by decide +kernel)
    exact ⟨trace, outcome, after, performed,
      scopes context function World.withContext after trace outcome (by decide +kernel)
        (by decide +kernel) performed⟩
  · have finishes : ((withScopeObject context (.handle ⟨1⟩)).run.run below World.withContext).any
        (·.1.isOk) = true := by decide +kernel
    obtain ⟨⟨outcome, after⟩, finished, isOk⟩ := (Option.any_eq_true _ _).mp finishes
    obtain ⟨trace, performed⟩ := Interaction.exists_performs_iff.mpr finished
    cases outcome with
    | error failure => cases isOk
    | ok outcome =>
        exact ⟨trace, outcome, after, performed,
          raw below context ⟨1⟩ World.withContext after trace outcome performed⟩

/-- The raw handle of that function, as its proxy tells it: it says that it is callable, its call is
refused, and so is the callback of a scope that was entered for it. -/
theorem handle_callable_refused :
    let below := Machine.answerMaterializing Host.answeringNone Program.materialize 2
    let context : Proxy Unit := .mk ⟨4⟩ ⟨"host", "Context"⟩ []
    let function : Proxy Unit := .mk ⟨1⟩ ⟨"builtins", "function"⟩ []
    let raw : Object Unit := .handle ⟨1⟩
    (Object.method (.capability function .handle)).call [] = (pure raw : Program Unit Unit _) ∧
    Performs below raw.isCallable.run World.withContext [⟨.isCallable ⟨1⟩, true⟩] (.ok true)
      World.withContext ∧
    (raw.call [] : Program Unit Unit _) = Program.fault (.notCallable raw.typeName) ∧
    ∃ after, (Machine.runProgram below (withScopeObject context raw)).run World.withContext =
      some (.ok (.unhandled (.type (.notCallable raw.typeName))), after) := by
  intro below context function raw
  refine ⟨by rw [Object.call.eq_def]; rfl, ?_, by rw [Object.call.eq_def], ?_⟩
  · exact Program.performs_ask_iff.mpr ⟨true, rfl, rfl, by rfl⟩
  · have refused : ((Machine.runProgram below (withScopeObject context raw)).run
        World.withContext).any (fun ended => ended.1.toOption.bind ScopeOutcome.unhandled? =
          some (.type (.notCallable raw.typeName))) = true := by decide +kernel
    obtain ⟨⟨outcome, after⟩, finished, told⟩ := (Option.any_eq_true _ _).mp refused
    cases outcome with
    | error failure => cases of_decide_eq_true told
    | ok outcome =>
        have unhandled := ScopeOutcome.eq_unhandled (of_decide_eq_true told)
        exact ⟨after, unhandled ▸ finished⟩

end Interop
