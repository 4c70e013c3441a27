import Interop.Proofs.Heap.Evolution
/-!
What stands behind a callable value: the code of a function or a method, and the receiver that goes
before its arguments. A call of any of them marshals the arguments and enters the code.
-/

set_option autoImplicit false

namespace Interop

variable {κ σ : Type}

/-- The code behind a function or a method. -/
inductive Body (κ : Type)
  /-- Code that takes keyword arguments. -/
  | native (code : NativeCode κ)
  /-- A function of the host, which takes none. -/
  | hosted (function : Callback κ)

/-- The body of a function or method, and the receiver that goes before its arguments. -/
def Kind.body? : Kind κ → Option (Body κ × List Handle)
  | .function _ code => some (.native code, [])
  | .boundMethod receiver _ code => some (.native code, [receiver])
  | .callback hosted => some (.hosted hosted, [])
  | .hostMethod receiver hosted => some (.hosted hosted, [receiver])
  | _ => Option.none

theorem OrderedMap.isEmpty_iff {α : Type} {m : OrderedMap α} : m.isEmpty = true ↔ m.keys = [] := by
  rw [isEmpty, List.isEmpty_iff, keys, Entries.keys, List.map_eq_nil_iff]

open Machine

namespace Body

/-- Runs the body; what a host function answers is marshalled. -/
def run (host : Host κ σ) (below : Handler κ σ) (args : List Handle)
    (keywords : OrderedMap Handle) : Body κ → Exec κ σ Handle
  | native code => callNative host below code args keywords
  | hosted function => do
    let answer ← callCallback host below function args
    Exec.ofOp (Heap.marshal answer)

/-- Runs the body after its check of the keywords. -/
def enter (host : Host κ σ) (below : Handler κ σ) (args : List Handle)
    (keywords : OrderedMap Handle) : Body κ → Exec κ σ Handle
  | native code => callNative host below code args keywords
  | hosted function => invokeCallback host below function args keywords

theorem enter_eq_run (host : Host κ σ) (below : Handler κ σ) (args : List Handle)
    {keywords : OrderedMap Handle} {body : Body κ}
    (taken : ∀ function, body = hosted function → keywords.keys = []) :
    body.enter host below args keywords = body.run host below args keywords := by
  cases body with
  | native code => rfl
  | hosted function => exact if_pos (OrderedMap.isEmpty_iff.mpr (taken function rfl))

/-- A host function that is left with keywords does not run. -/
theorem enter_refused (host : Host κ σ) (below : Handler κ σ) (args : List Handle)
    {keywords : OrderedMap Handle} (function : Callback κ) (left : keywords.keys ≠ []) :
    (hosted function).enter host below args keywords =
      Exec.fault (.keywordsRefused function.name) :=
  if_neg fun empty => left (OrderedMap.isEmpty_iff.mp empty)

end Body

namespace Machine

variable (host : Host κ σ) (below : Handler κ σ) {world : World κ σ} {h : Handle}

/-- A call marshals the positional arguments, then the keywords, and enters the body. -/
theorem run_invoke_body {kind : Kind κ} {body : Body κ} {receiver : List Handle}
    (found : world.heap.kind? h = some kind) (hasBody : kind.body? = some (body, receiver))
    (args : List (Arg κ)) :
    (runProgram (layer host below) (h.invoke args)).run world =
      (do
        let handles ← Exec.ofOp (Heap.marshalAll (Arg.splitKeywords args).1)
        let named ← Exec.ofOp (Heap.marshalEntries (Arg.splitKeywords args).2)
        body.enter host below (receiver ++ handles) (.ofEntries named) :
          Exec κ σ Handle).run world := by
  obtain ⟨attributes, present⟩ := Heap.cell?_of_kind? found
  have read : (Exec.readHeap (·.cell? h) : Exec κ σ _).run world = some (.ok _, world) :=
    congrArg (fun cell => some (Except.ok cell, world)) present
  rw [runProgram_invoke]
  change (invoke host below h args).run world = _
  unfold invoke
  rw [Exec.run_bind_of_ok read]
  cases kind with
  | function name code =>
      cases hasBody
      rfl
  | boundMethod receiver name code =>
      cases hasBody
      rfl
  | callback function =>
      cases hasBody
      rfl
  | hostMethod receiver function =>
      cases hasBody
      rfl
  | _ => cases hasBody

/-- A builtin gets its arguments marshalled. -/
theorem run_invoke_marshalled {result : Handle} {name : String} {builtin : Builtin}
    {args : List (Arg κ)} {handles : List Handle} {made heap : Heap κ}
    (isBuiltin : world.heap.kind? h = some (.function name (.builtin builtin)))
    (positional : Arg.splitKeywords args = (args, []))
    (marshalled : (Heap.marshalAll args).run world.heap = .ok (handles, made))
    (called : (Heap.callBuiltin builtin handles).run made = .ok (result, heap)) :
    (runProgram (layer host below) (h.invoke args)).run world =
      some (.ok result, { world with heap := heap }) := by
  rw [run_invoke_body host below isBuiltin rfl, positional, Exec.run_ofOp_bind_of_ok marshalled]
  exact Run.attempt_of_ok called

end Machine

end Interop
