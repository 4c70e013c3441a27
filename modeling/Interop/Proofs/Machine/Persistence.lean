import Interop.Proofs.Machine.Answers
import Interop.Proofs.Machine.Moments
import Interop.Proofs.Scope.Outcome
import Interop.Proofs.Script.Composition
import Interop.Proofs.Template.Binding
import Mathlib
/-!
Names stay. Whatever a bridge does or evaluates, with whatever success, no value loses an attribute
and no dict a key. So a check that was answered once need not be made again: the methods of a
guard's context are there from its arming to its exit.
-/

set_option autoImplicit false

namespace Interop

variable {κ σ : Type}

open Machine (runProgram answer answerWithin scopeIn)

namespace World

/-- The worlds that a bridge comes to from a world, by registering modules and by running host
code. -/
inductive Later (host : Host κ σ) (world : World κ σ) : World κ σ → Prop
  | now : Later host world world
  | register {later : World κ σ} (modules : OrderedMap Handle)
      (reached : Later host world later) : Later host world { later with modules := modules }
  | run {α : Type} {later after : World κ σ} {layers : Nat} {tree : Interaction κ σ α} {a : α}
      (reached : Later host world later)
      (finished : tree.run (answer host layers) later = some (a, after)) : Later host world after

variable {host : Host κ σ} {world later : World κ σ}

theorem Later.retains (reached : world.Later host later) : world.Retains later := by
  induction reached with
  | now => exact Std.Refl.refl world.heap
  | register modules _ ih => exact ih
  | run _ finished ih =>
      have moves : World.Moves Heap.Evolves _ _ :=
        Interaction.moves_run (Machine.evolves_answer host _) _ _ _ _ finished
      exact IsTrans.trans _ _ _ ih moves.heap.retains

/-- A run from a later world has its moments, and the earlier world comes before all of them. -/
theorem Later.moments (reached : world.Later host later) {α : Type} {layers : Nat}
    {tree : Interaction κ σ α} {a : α} {after : World κ σ}
    (finished : tree.run (answer host layers) later = some (a, after)) :
    ∃ moments : List (World κ σ), (world :: later :: (moments ++ [after])).Pairwise Retains ∧
      ∀ among, (∀ moment ∈ moments, among moment = true) →
        tree.run (answerWithin among host layers) later = some (a, after) := by
  obtain ⟨moments, ordered, same⟩ := Machine.exists_moments finished
  refine ⟨moments, List.pairwise_cons.mpr ⟨?_, ordered⟩, same⟩
  intro moment behind
  rcases List.mem_cons.mp behind with rfl | behind
  · exact reached.retains
  · exact IsTrans.trans _ _ _ reached.retains (List.rel_of_pairwise_cons ordered behind)

end World

namespace Machine

variable {world : World κ σ} {h : Handle} {name : String}

theorem hasAttr_of_answer {host : Host κ σ} {layers : Nat} {after : World κ σ}
    (answered : answer host layers (.hasAttr h name) world = some (true, after)) :
    world.heap.hasAttr h name = true := by
  cases layers with
  | zero => cases answered
  | succ layers => exact congrArg Prod.fst (Option.some.inj answered)

theorem answer_getAttr_of_hasAttr (host : Host κ σ) (layers : Nat)
    (has : world.heap.hasAttr h name = true) : ∃ value after,
      answer host (layers + 1) (.getAttr h name) world = some (.ok value, after) := by
  obtain ⟨value, heap, read⟩ := Heap.getAttr_of_hasAttr has
  exact ⟨value, _, Run.attempt_of_ok read⟩

theorem keepsAttributes_answer (host : Host κ σ) (layers : Nat) :
    Handler.KeepsAttributes (answer host layers) :=
  answerMaterializing_materialize host layers ▸ keepsAttributes_answerMaterializing host _ layers

/-- An entry of a dict is read without any trace. -/
theorem answer_getItem_of_mem (host : Host κ σ) (layers : Nat) {entries : OrderedMap Handle}
    {key : String} (isDict : world.heap.kind? h = some (.dict entries))
    (bound : key ∈ entries.keys) : ∃ value,
      answer host (layers + 1) (.getItem h (.string key)) world = some (.ok value, world) := by
  obtain ⟨attributes, present⟩ := Heap.cell?_of_kind? isDict
  obtain ⟨value, stands⟩ := Option.isSome_iff_exists.mp (OrderedMap.contains_iff.mpr bound)
  exact ⟨value, Run.attempt_of_ok (Heap.getItem_run (Heap.item_entry present rfl stands))⟩

end Machine

namespace ScopeGuard

variable {host : Host κ σ} {layers : Nat} {context : Proxy κ} {guard : ScopeGuard κ}
  {world after : World κ σ}

/-- The check that arms a guard: its context has both methods. -/
theorem of_run_arm (armed : (runProgram (answer host layers) (arm context)).run world =
      some (.ok guard, after)) :
    guard = ⟨context, false⟩ ∧ world.heap.hasAttr context.handle "__enter__" = true ∧
      world.heap.hasAttr context.handle "__exit__" = true := by
  obtain ⟨trace, performed⟩ := Interaction.exists_performs_iff.mpr armed
  obtain ⟨_, _, ⟨enters, exits, same⟩ | ⟨_, impossible⟩⟩ :=
    performs_arm (Machine.keepsAttributes_answer host layers) performed
  · exact ⟨Except.ok.inj same, enters, exits⟩
  · cases impossible

end ScopeGuard

open Interaction (Performs)

/-- Names stay. Whatever was set, made, called or evaluated on the way to a later world, and however
it ended, every value has the attributes that it had, its own, its class's and its kind's, and every
dict the keys. So what was checked once can be relied on: the attribute is there and can be read,
the entry can be read, and an armed guard never lacks the method that it exits with. This holds not
only between runs of host code, but from any moment to any later one within a run. -/
theorem World.names_stay {host : Host κ σ} {world later : World κ σ}
    (reached : world.Later host later) :
    world.Retains later ∧
    (∀ checking layers h name after,
      answer host checking (.hasAttr h name) world = some (true, after) →
      answer host (layers + 1) (.hasAttr h name) later = some (true, later) ∧
        ∃ value after, answer host (layers + 1) (.getAttr h name) later = some (.ok value, after)) ∧
    (∀ layers d entries key, world.heap.kind? d = some (.dict entries) → key ∈ entries.keys →
      ∃ value, answer host (layers + 1) (.getItem d (.string key)) later =
        some (.ok value, later)) ∧
    (∀ arming layers context guard after,
      (runProgram (answer host arming) (ScopeGuard.arm context)).run world =
        some (.ok guard, after) →
      (runProgram (answer host (layers + 1)) (ScopeGuard.arm context)).run later =
        some (.ok guard, later) ∧
      ∀ triple trace ending ended,
        Performs (answer host layers) (guard.exit triple) later trace ending ended →
        methodCalls context.handle trace = [("__exit__", triple)]) ∧
    ∀ {α : Type} layers (tree : Interaction κ σ α) a after,
      tree.run (answer host layers) later = some (a, after) →
      ∃ moments : List (World κ σ), (world :: later :: (moments ++ [after])).Pairwise Retains ∧
        ∀ among, (∀ moment ∈ moments, among moment = true) →
          tree.run (answerWithin among host layers) later = some (a, after) := by
  have retains : world.heap.Retains later.heap := reached.retains
  refine ⟨retains, ?_, ?_, ?_, fun _ _ _ _ finished => reached.moments finished⟩
  · intro checking layers h name after checked
    have has := retains.attributes h name (Machine.hasAttr_of_answer checked)
    refine ⟨?_, Machine.answer_getAttr_of_hasAttr host layers has⟩
    change some (later.heap.hasAttr h name, later) = _
    rw [has]
  · intro layers d entries key isDict bound
    obtain ⟨more, found, kept⟩ := retains.keys d entries isDict
    exact Machine.answer_getItem_of_mem host layers found (kept.subset bound)
  · intro arming layers context guard after armed
    obtain ⟨rfl, enters, exits⟩ := ScopeGuard.of_run_arm armed
    have enters := retains.attributes _ _ enters
    have exits := retains.attributes _ _ exits
    refine ⟨ScopeGuard.run_arm (Machine.run_hasAttr host _ later _) enters exits, ?_⟩
    rintro triple trace ⟨result, exited⟩ ended performed
    exact (ScopeGuard.performs_exit (Machine.keepsAttributes_answer host layers) exits performed).1

/-- A context manager whose `__exit__` is hidden under a number by code that then fails. -/
theorem World.names_stay_hidden_exit :
    let host := Host.answeringNone
    let names : OrderedMap Handle := .ofEntries [("manager", ⟨4⟩)]
    let world : World Unit Unit := { World.withContext with
      heap := World.withContext.heap.write ⟨0⟩ (.object ⟨.dict names, .empty⟩) }
    let source := "manager.__exit__ = 5\nmanager.missing"
    let context : Proxy Unit := .mk ⟨4⟩ ⟨"host", "Context"⟩ []
    ∃ error later value,
      (runProgram (answer host 1) (ScopeGuard.arm context)).run world =
        some (.ok ⟨context, false⟩, world) ∧
      answer host 1 (.exec source ⟨0⟩ ⟨0⟩) world = some (.error error, later) ∧
      later.heap.attribute? ⟨4⟩ "__exit__" = some (.object ⟨5⟩) ∧
      later.heap.kind? ⟨5⟩ = some (.int 5) ∧
      answer host 1 (.hasAttr ⟨4⟩ "__enter__") later = some (true, later) ∧
      answer host 1 (.getItem ⟨0⟩ (.string "manager")) later = some (.ok value, later) ∧
      (runProgram (answer host 1) (ScopeGuard.arm context)).run later =
        some (.ok ⟨context, false⟩, later) ∧
      ∃ moments : List (World Unit Unit),
        (world :: world :: (moments ++ [later])).Pairwise World.Retains := by
  intro host names world source context
  have parsed : Script.parseSource source =
      .ok [.assign (.attr (.name "manager") "__exit__") (.int 5),
        .expr (.attr (.name "manager") "missing")] := by
    cbv
  let manager : HeapObject Unit := ⟨.instanceOf ⟨3⟩, .ofEntries [("__exit__", ⟨5⟩)]⟩
  let hidden : Heap Unit := (world.heap.push (.object ⟨.int 5, .empty⟩)).write ⟨4⟩ (.object manager)
  let fault : Fault := .noAttribute "Context" "missing"
  let later : World Unit Unit := { world with heap := (hidden.raise fault).2 }
  have armed : (runProgram (answer host 1) (ScopeGuard.arm context)).run world =
    some (.ok ⟨context, false⟩, world) := rfl
  have ran : answer host 1 (.exec source ⟨0⟩ ⟨0⟩) world =
      some (.error (hidden.raise fault).1, later) := by
    change ((scopeIn host 0 ⟨0⟩).exec source).run world = _
    rw [Script.Scope.exec_of_parsed parsed]
    rfl
  have evaluation : (Interaction.ask (.exec source ⟨0⟩ ⟨0⟩)).run (answer host 1) world =
      some (.error (hidden.raise fault).1, later) := by
    rw [Interaction.run_ask]
    exact ran
  obtain ⟨_, _, _, _, during⟩ := World.names_stay (.now : world.Later host world)
  obtain ⟨_, checked, entries, guards, _⟩ := World.names_stay (.run .now evaluation)
  obtain ⟨value, read⟩ := entries 0 ⟨0⟩ names "manager" rfl List.mem_cons_self
  obtain ⟨moments, ordered, _⟩ := during 1 _ _ _ evaluation
  exact ⟨_, later, value, armed, ran, rfl, rfl, (checked 1 0 ⟨4⟩ "__enter__" world rfl).1, read,
    (guards 1 0 context _ world armed).1, moments, ordered⟩

end Interop
