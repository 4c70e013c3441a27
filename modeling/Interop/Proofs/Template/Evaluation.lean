import Interop.Proofs.Bridge.RoundTrip
import Interop.Proofs.Iteration.Shared
import Interop.Proofs.Script.Purity
import Interop.Proofs.Template.Binding
import Interop.Proofs.Template.Isolation
/-!
What the evaluation of a source without values changes, if the source calls nothing and assigns to
names only. It changes the shared namespace, by exactly the assignments that come before its first
failure, and nothing else.
-/

set_option autoImplicit false

namespace Interop

open Script
open Machine (runProgram answer scopeIn)

variable {κ σ : Type}

namespace Bridge

/-- A source that is no code changes nothing. A source of plain statements binds names in the shared
namespace, those that it assigns to before it fails, if it does. All other objects stay what they
are, also while the result is wrapped, where no delegator is host code. -/
theorem evaluate_plain_rebinds (host : Host κ σ) (layers : Nat) {world : World κ σ}
    {entries attributes : OrderedMap Handle}
    (found : world.heap.cell? world.globals = some (.object ⟨.dict entries, attributes⟩))
    (source : String) :
    let text := if world.settings.dedent then dedent source else source
    let scope := scopeIn host (layers + 1) world.globals
    let run := (runProgram (answer host (layers + 2)) (evaluate (.plain source))).run world
    (∀ fault, parseSource text = .error fault → ∃ error after,
      run = some (.error error, after) ∧ world.Moves Heap.Extends after) ∧
    ∀ statements, parseSource text = .ok statements →
      (∀ statement ∈ statements, statement.IsPlain) →
      ∃ log ended last, scope.StopsAt statements world log ended last ∧
        world.Rebinds world.globals entries attributes log last ∧
        (∀ error, ended = .error error → run = some (.error error, last)) ∧
        (∀ value, ended = .ok value →
          run = (runProgram (answer host (layers + 2)) (wrap value)).run last ∧
          (world.Reachable host → world.loader = .standard →
            (last.heap.kind? value).isSome = true → run.isSome = true)) ∧
        (world.loader.Own → ∀ result after, run = some (result, after) →
          world.Rebinds world.globals entries attributes log after) := by
  intro text scope run
  have runs : run = _ := Machine.run_evaluate_plain host (layers + 1) world source
  constructor
  · intro fault refused
    obtain ⟨error, after, failed, moves⟩ := scope.run_exec_of_fault refused world
    exact ⟨error, after, runs.trans (Exec.run_bind_of_error failed), moves⟩
  · intro statements parsed isPlain
    obtain ⟨log, ended, last, executed, stops, rebinds⟩ :=
      scope.run_exec_plain parsed isPlain found
    refine ⟨log, ended, last, stops, rebinds, ?_, ?_, ?_⟩
    · rintro error rfl
      exact runs.trans (Exec.run_bind_of_error executed)
    · rintro value rfl
      have wraps := runs.trans (Exec.run_bind_of_ok executed)
      refine ⟨wraps, ?_⟩
      intro reachable standard isObject
      have answered : answer host (layers + 2) (.exec text world.globals world.globals) world =
          some (.ok value, last) := executed
      obtain ⟨kind, isKind⟩ := Option.isSome_iff_exists.mp isObject
      obtain ⟨result, after, wrapped, _⟩ := wrap_outcome layers (reachable.answer answered)
        (rebinds.others.loader.trans standard) isKind
      rw [wraps, wrapped]
      rfl
    · intro own result after finished
      cases ended with
      | error error =>
          cases finished.symm.trans (runs.trans (Exec.run_bind_of_error executed))
          exact rebinds
      | ok value =>
          have wrapped := (runs.trans (Exec.run_bind_of_ok executed)).symm.trans finished
          have ownLast : last.loader.Own := rebinds.others.loader ▸ own
          exact rebinds.extends (Machine.extends_wrap host _ last ownLast value result after wrapped)

/-- A source that reads a list and adds to it binds two names, and one that breaks off in the second
line binds none. -/
theorem evaluate_plain_rebinds_list :
    let world := World.withBindings
    let entries : OrderedMap Handle := .ofEntries [("n", ⟨7⟩), ("xs", ⟨8⟩)]
    let run (source : String) :=
      (runProgram (answer Host.answeringNone 2) (evaluate (.plain source))).run world
    (∃ log object after, run "  a = xs\n  b = [n] + a" = some (.ok object, after) ∧
      log.keys = ["a", "b"] ∧ world.Rebinds world.globals entries .empty log after) ∧
    ∃ error after, run "a = xs\nb = [n] + " = some (.error error, after) ∧
      world.Moves Heap.Extends after := by
  intro world entries run
  have found : world.heap.cell? world.globals = some (.object ⟨.dict entries, .empty⟩) := rfl
  constructor
  · have parsed : parseSource (dedent "  a = xs\n  b = [n] + a") = .ok
        [.assign (.name "a") (.name "xs"),
          .assign (.name "b") (.binary (.list [.name "n"]) .add (.name "a"))] := by
      cbv
    have names (name : String) : (Expr.name name).CallFree :=
      Expr.callFree_iff.mpr ⟨rfl, List.forall_mem_nil _⟩
    have list : (Expr.list [.name "n"]).CallFree :=
      Expr.callFree_iff.mpr ⟨rfl, List.forall_mem_singleton.mpr (names "n")⟩
    have sum : (Expr.binary (.list [.name "n"]) .add (.name "a")).CallFree :=
      Expr.callFree_iff.mpr ⟨rfl, by simpa [Expr.parts] using ⟨list, names "a"⟩⟩
    have finishes : (run "  a = xs\n  b = [n] + a").map (·.1.isOk) = some true := by
      have asked : run "  a = xs\n  b = [n] + a" =
          ((scopeIn Host.answeringNone 1 world.globals).exec (dedent "  a = xs\n  b = [n] + a") >>=
            fun value => runProgram (answer Host.answeringNone 2) (wrap value)).run world :=
        Machine.run_evaluate_plain Host.answeringNone 1 world _
      rw [asked, Scope.exec_of_parsed parsed]
      decide +kernel
    obtain ⟨log, ended, last, ⟨done, _, _, keys, _, ends⟩, _, failed, _, only⟩ :=
      (evaluate_plain_rebinds Host.answeringNone 0 found _).2 _ parsed
        (by simpa [Statement.IsPlain] using ⟨names "xs", sum⟩)
    obtain ⟨⟨result, after⟩, finished, isOk⟩ := Option.map_eq_some_iff.mp finishes
    cases result with
    | error error => cases isOk
    | ok object =>
        refine ⟨log, object, after, finished, ?_, only Registry.own_standard _ _ finished⟩
        rcases ends with ⟨rfl, _⟩ | ⟨_, _, error, _, isError, _⟩
        · exact keys
        · cases finished.symm.trans (failed error isError)
  · have refused : parseSource (dedent "a = xs\nb = [n] + ") =
        .error (.unexpected .expression none) := by
      cbv
    exact (evaluate_plain_rebinds Host.answeringNone 0 found _).1 _ refused

end Bridge

end Interop
