import Interop.Proofs.Machine.Sheltering
import Interop.Proofs.Interaction.Trace
import Interop.Template
import Mathlib
/-!
Templates run in isolation. A template with values runs in a copy of the shared namespace, and
nothing that its code gets hold of leads back to the original.
-/

set_option autoImplicit false

namespace Interop

variable {κ σ α β : Type} {g : Handle}

/-- Reading the method that copies a dict binds it to the dict, and changes neither. -/
theorem Heap.yields_getAttr_copy {heap : Heap κ} {entries : OrderedMap Handle}
    (isDict : heap.kind? g = some (.dict entries)) (bindings : heap.AllApart g entries.values) :
    (Heap.getAttr g "copy" : Heap.Op κ Handle).Yields g heap fun after copy =>
      after.cell? copy = some (.object ⟨.boundMethod g "copy" (.container .copy), .empty⟩) ∧
        after.kind? g = some (.dict entries) ∧ after.AllApart g entries.values := by
  obtain ⟨object, read, kind⟩ := Option.map_eq_some_iff.mp isDict
  have found := cell?_of_object? read
  have stands : heap.attribute? g "copy" = some (.method "copy" (.container .copy)) := by
    unfold attribute?
    rw [found]
    dsimp only
    rw [kind]
    rfl
  apply Op.yields_get_bind
  rw [stands]
  intro present copy after finished
  cases finished
  have pushed := shelters_push (g := g) heap
    (.object ⟨.boundMethod g "copy" (.container .copy), .empty⟩)
  refine ⟨pushed, ?_, ?_, fun k member => (pushed present).2 k (bindings k member)⟩
  · rw [cell?_push, if_pos rfl]
  · unfold kind?
    rw [object?_of_cell? (cell?_push_of_found found _)]
    exact congrArg some kind

namespace Machine

variable {host : Host κ σ}

/-- Wrapping only adds cells, as long as no delegator of the host has a part in it. -/
theorem moves_answerAlone {along : Heap κ → Heap κ → Prop} [Heap.Growing along] (host : Host κ σ)
    (layers : Nat) : ∀ request : Request κ σ, request.Looks →
      Run.Moves along (answerAlone host layers request) := by
  induction layers with
  | zero => exact fun request _ => Run.moves_diverge
  | succ layers ih =>
      intro request looks world result after finished
      obtain ⟨own, finished⟩ := cutOff_eq_some finished
      cases request with
      | typeOf h => exact Run.moves_attemptOp (Heap.moves_typeOf h) world result after finished
      | primitive h => exact Run.moves_check _ world result after finished
      | isCallable h => exact Run.moves_readHeap (isCallable · h) world result after finished
      | hasAttr h name => exact Run.moves_readHeap (·.hasAttr h name) world result after finished
      | getAttr h name =>
          exact Run.moves_attemptOp (Heap.moves_getAttr h name) world result after finished
      | registry => exact moves_registry world result after finished
      | members delegator h =>
          have standard : Run.Moves along
              (runProgram (answerAlone host layers) (delegator.standardMembers h)).run :=
            (Delegator.only_standardMembers delegator h).moves_run ih
          cases delegator with
          | host code => cases own
          | _ => exact standard world result after finished
      | _ => cases looks

/-- The method that copies a dict: what it gives is apart if the dict's entries are. -/
theorem yields_invoke_copy {below : Handler κ σ} {world : World κ σ} {copy : Handle} {name : String}
    {entries : OrderedMap Handle}
    (isMethod : world.heap.cell? copy =
      some (.object ⟨.boundMethod g name (.container .copy), .empty⟩))
    (isDict : world.heap.kind? g = some (.dict entries))
    (bindings : world.heap.AllApart g entries.values) :
    (invoke host below copy []).Yields g world (Heap.Apart g) := by
  apply Exec.yields_readHeap_bind
  rw [isMethod]
  have copies : (Heap.callContainer .copy g [] : Heap.Op κ Handle).Yields g world.heap
      (Heap.Apart g) := by
    apply Heap.Op.yields_get_bind
    obtain ⟨object, found, kind⟩ := Option.map_eq_some_iff.mp isDict
    rw [found]
    dsimp only
    rw [kind]
    exact Heap.Op.yields_alloc bindings
  exact Exec.yields_ofOp copies

variable {layers : Nat} {world : World κ σ}

theorem runProgram_setItem (h : Handle) (key value : Arg κ) :
    runProgram (answerAlone host (layers + 1)) (h.setItem key value : Program κ σ Status) =
      ExceptT.lift (Run.onHeap (·.setItem h key value)) := by
  unfold Handle.setItem
  rw [runProgram_ask, answerAlone_of_own host layers (by exact fun _ => rfl)]
  rfl

theorem yields_bindValues (settings : Settings) {shadow : Handle} (values : List (Arg κ))
    (index : Nat) (parts : List String) {world : World κ σ} (apart : world.heap.Apart g shadow)
    (valuesApart : world.heap.AllApart g (Arg.handlesAll values)) :
    (runProgram (answerAlone host (layers + 1))
      (bindValues settings shadow index parts values)).Yields g world fun _ _ => True := by
  induction values generalizing index parts world with
  | nil =>
      rw [bindValues]
      · exact Exec.yields_pure trivial
      · intro _ _ _ _ _ same
        cases same
  | cons value rest ih =>
      cases parts with
      | nil =>
          rw [bindValues]
          · exact Exec.yields_pure trivial
          · intro _ _ _ _ same
            cases same
      | cons part parts =>
          rw [bindValues, runProgram_bind, runProgram_setItem]
          have valueApart : world.heap.AllApart g value.handles := fun k member =>
            valuesApart k (List.mem_append_left _ member)
          refine Exec.yields_bind (Exec.yields_onHeap (Heap.shelters_setItem _ apart valueApart))
            fun status mid kept _ => ?_
          split
          · rw [runProgram_bind]
            refine Exec.yields_bind (ih (index + 1) parts (kept shadow apart) fun k member => ?_)
              fun _ _ _ _ => Exec.yields_pure trivial
            exact kept k (valuesApart k (List.mem_append_right _ member))
          · exact Exec.yields_throw _

theorem yields_resolve (settings : Settings) {parts : List String} {values : List (Arg κ)}
    {entries : OrderedMap Handle} (interpolates : values ≠ [])
    (isDict : world.heap.kind? g = some (.dict entries))
    (bindings : world.heap.AllApart g entries.values)
    (interpolated : world.heap.AllApart g (Arg.handlesAll values)) :
    (runProgram (answerAlone host (layers + 1))
      ((Source.template parts values).resolve settings g)).Yields g world
        fun heap resolved => heap.Apart g resolved.2 := by
  unfold Source.resolve
  split
  · rename_i impossible
    cases impossible
  · rename_i impossible
    cases impossible
    exact absurd rfl interpolates
  · rename_i same
    cases same
    split
    · exact Exec.yields_throw _
    · rw [runProgram_bind, runProgram_getAttr,
        answerAlone_of_own host layers (by exact fun _ => rfl)]
      refine Exec.yields_bind (Exec.yields_ofOp (Heap.yields_getAttr_copy isDict bindings))
        fun copy mid kept found => ?_
      obtain ⟨isMethod, isDict, bindings⟩ := found
      rw [runProgram_bind, runProgram_invoke]
      have copied : Exec.Yields g (ExceptT.mk (answerAlone host (layers + 1) (.invoke copy [])) :
          Exec κ σ Handle) mid (Heap.Apart g) := by
        intro secludes result after finished
        obtain ⟨_, finished⟩ :=
          cutOff_eq_some (show cutOff _ (.invoke copy []) mid = _ from finished)
        exact yields_invoke_copy isMethod isDict bindings secludes result after finished
      -- from here on everything happens to the copy, which does not lead to the original
      refine Exec.yields_bind copied fun shadow last kept' apart => ?_
      rw [runProgram_bind]
      refine Exec.yields_bind (yields_bindValues settings _ 0 _ apart fun k member => ?_)
        fun text final kept'' _ => Exec.yields_pure (kept'' shadow apart)
      exact kept' k (kept k (interpolated k member))

theorem yields_globals_bind {f : Handle → Program κ σ α} {good : Heap κ → α → Prop}
    (yields : (runProgram (answerAlone host (layers + 1)) (f world.globals)).Yields g world good) :
    (runProgram (answerAlone host (layers + 1)) (Program.globals >>= f)).Yields g world good :=
  yields

theorem yields_settings_bind {f : Settings → Program κ σ α} {good : Heap κ → α → Prop}
    (yields : (runProgram (answerAlone host (layers + 1)) (f world.settings)).Yields g world good) :
    (runProgram (answerAlone host (layers + 1)) (Program.settings >>= f)).Yields g world good :=
  yields

theorem yields_wrap (layers : Nat) (h : Handle) {world : World κ σ} :
    (runProgram (answerAlone host layers) (Bridge.wrap h)).Yields g world fun _ _ => True := by
  have moves : Run.Moves (Heap.Shelters g)
      (runProgram (answerAlone host layers) (Bridge.wrap h)).run :=
    (Bridge.only_wrap h).moves_run (moves_answerAlone host layers)
  intro _ result after finished
  exact ⟨moves world result after finished, fun _ _ => trivial⟩

theorem yields_exec {text : String} {shadow : Handle} {world : World κ σ}
    (apart : world.heap.Apart g shadow) :
    (runProgram (answerAlone host (layers + 1)) (Program.exec text shadow shadow)).Yields g world
      (Heap.Apart g) := by
  rw [runProgram_exec, answerAlone_of_own host layers (by exact fun _ => rfl)]
  let scope : Script.Scope κ σ :=
    ⟨shadow, shadow, fun h args => ExceptT.mk (answerAlone host layers (.invoke h args))⟩
  have secluded : scope.Secluded g world.heap := ⟨apart, apart⟩
  exact Script.yields_exec (invokesApart_answerAlone host layers) text secluded

/-- Evaluating a template on the machine alone leaves the shared namespace as it is. -/
theorem yields_evaluate {parts : List String} {values : List (Arg κ)} {entries : OrderedMap Handle}
    (interpolates : values ≠ []) (isDict : world.heap.kind? world.globals = some (.dict entries))
    (bindings : world.heap.AllApart world.globals entries.values)
    (interpolated : world.heap.AllApart world.globals (Arg.handlesAll values)) :
    (runProgram (answerAlone host (layers + 1)) (Bridge.evaluate (.template parts values))).Yields
      world.globals world fun _ _ => True := by
  unfold Bridge.evaluate
  refine yields_globals_bind (yields_settings_bind ?_)
  rw [runProgram_bind]
  refine Exec.yields_bind (yields_resolve world.settings interpolates isDict bindings interpolated)
    fun resolved mid kept apart => ?_
  dsimp only
  rw [runProgram_bind]
  exact Exec.yields_bind (yields_exec apart) fun value _ _ _ => yields_wrap (layers + 1) value

end Machine

/-- A template with values leaves the shared namespace alone. If the code of the template starts no
host code, and the namespace cannot be reached from its own bindings, the builtins or the values,
then however the evaluation ends, the namespace has the same keys in the same order for the same
values. -/
theorem Bridge.evaluate_template_isolated {host : Host κ σ} {layers : Nat} {parts : List String}
    {values : List (Arg κ)} {world : World κ σ} {entries : OrderedMap Handle}
    (interpolates : values ≠ []) (isDict : world.heap.kind? world.globals = some (.dict entries))
    (bindings : world.heap.AllApart world.globals entries.values)
    (builtins : world.heap.AllApart world.globals world.builtins.values)
    (interpolated : world.heap.AllApart world.globals (Arg.handlesAll values))
    (alone : ((Machine.runProgram (Machine.answerAlone host layers)
      (Bridge.evaluate (.template parts values))).run world).isSome = true) :
    ∃ result after,
      (Machine.runProgram (Machine.answer host layers)
        (Bridge.evaluate (.template parts values))).run world = some (result, after) ∧
      after.globals = world.globals ∧ after.heap.kind? world.globals = some (.dict entries) := by
  obtain ⟨⟨result, after⟩, finished⟩ := Option.isSome_iff_exists.mp alone
  cases layers with
  | zero => cases finished
  | succ layers =>
      refine ⟨result, after, ?_, ?_⟩
      · exact Machine.finishesAs_runProgram (Machine.finishesAs_answer host (layers + 1)) _ world
          _ finished
      · obtain ⟨object, read, kind⟩ := Option.map_eq_some_iff.mp isDict
        have found := Heap.cell?_of_object? read
        have secludes : world.Secludes world.globals := ⟨by rw [found]; rfl, builtins⟩
        obtain ⟨moves, _⟩ := Machine.yields_evaluate interpolates isDict bindings interpolated
          secludes result after finished
        refine ⟨moves.globals, ?_⟩
        have same := (moves.heap secludes.present).1
        rw [found] at same
        unfold Heap.kind?
        rw [Heap.object?_of_cell? same]
        exact congrArg some kind

/-- A world whose global namespace binds a number and a list that holds it. -/
def World.withBindings : World Unit Unit :=
  let start : World Unit Unit := .start { interpolationPrefix := "v" } .standard ()
  let number := start.heap.push (.object ⟨.int 100, .empty⟩)
  let list := number.push (.object ⟨.list [⟨7⟩], .empty⟩)
  { start with
    heap := list.write start.globals
      (.object ⟨.dict (.ofEntries [("n", ⟨7⟩), ("xs", ⟨8⟩)]), .empty⟩) }

/-- A template that appends its value to a list of the global namespace. -/
theorem Bridge.evaluate_template_isolated_append :
    let world := World.withBindings
    let source : Source Unit := .template ["xs.append(", ")"] [.int 7]
    ∃ result after,
      (Machine.runProgram (Machine.answer Host.answeringNone 2) (Bridge.evaluate source)).run
        world = some (result, after) ∧
      after.globals = world.globals ∧
      after.heap.kind? world.globals = some (.dict (.ofEntries [("n", ⟨7⟩), ("xs", ⟨8⟩)])) :=
  Bridge.evaluate_template_isolated (List.cons_ne_nil _ _) rfl
    (Heap.allApart_of_all (by decide +kernel)) (Heap.allApart_of_all (by decide +kernel))
    (List.forall_mem_nil _) (by cbv)

end Interop
