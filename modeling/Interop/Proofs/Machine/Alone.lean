import Interop.Proofs.Machine.Families
/-!
The runtime on its own. Cut off from the host, the machine stops where host code would start; a run
that never gets there goes the same with and without the host.
-/

set_option autoImplicit false

namespace Interop

variable {κ σ α β : Type}

/-- Whether invoking such an object starts host code. -/
def Kind.isHostCode : Kind κ → Bool
  | .function _ (.host _) | .boundMethod _ _ (.host _) | .callback _ | .hostMethod _ _ => true
  | _ => false

/-- Whether invoking a value starts host code. -/
def Heap.isHostCode (heap : Heap κ) (h : Handle) : Bool :=
  match heap.cell? h with
  | some (.object object) => object.kind.isHostCode
  | some (.stub stub) => stub.body.isSome
  | none => false

/-- Whether answering a request starts host code. -/
def Request.startsHostCode (heap : Heap κ) : Request κ σ → Bool
  | .invoke h _ => heap.isHostCode h
  | .members (.host _) _ => true
  | .runMethod _ _ _ => true
  | _ => false

namespace Machine

/-- A machine cut off from host code: it does not answer where host code would start. -/
def cutOff (handler : Handler κ σ) : Handler κ σ := fun request world =>
  if request.startsHostCode world.heap then none else handler request world

theorem cutOff_eq_some {handler : Handler κ σ} {request : Request κ σ} {world : World κ σ}
    {answered : request.Reply × World κ σ}
    (finished : cutOff handler request world = some answered) :
    request.startsHostCode world.heap = false ∧ handler request world = some answered := by
  unfold cutOff at finished
  split at finished
  · cases finished
  · rename_i own
    exact ⟨Bool.not_eq_true _ ▸ own, finished⟩

/-- The machine with a given number of layers, each cut off from host code. -/
def answerAlone (host : Host κ σ) (layers : Nat) : Handler κ σ :=
  tower (fun below => cutOff (layer host below)) layers

theorem answerAlone_of_own (host : Host κ σ) (layers : Nat) {request : Request κ σ}
    (own : ∀ heap, request.startsHostCode heap = false) :
    answerAlone host (layers + 1) request = layer host (answerAlone host layers) request := by
  funext world
  change (if request.startsHostCode world.heap = true then none else _) = _
  rw [own]
  rfl

end Machine

/-! ### Going the same -/

/-- Whenever one computation finishes, so does another, and in the same way. -/
def Run.FinishesAs (x y : Run κ σ α) : Prop :=
  ∀ world result, x world = some result → y world = some result

namespace Run

theorem finishesAs_refl (x : Run κ σ α) : x.FinishesAs x := fun _ _ finished => finished

theorem finishesAs_bind {x y : Run κ σ α} {f g : α → Run κ σ β} (first : x.FinishesAs y)
    (rest : ∀ a, (f a).FinishesAs (g a)) : (x >>= f).FinishesAs (y >>= g) := by
  rintro world ⟨b, after⟩ finished
  obtain ⟨a, mid, early, late⟩ := bind_eq_some_iff.mp finished
  exact bind_eq_some_iff.mpr ⟨a, mid, first world _ early, rest a mid _ late⟩

end Run

namespace Exec

theorem finishesAs_bind {x y : Exec κ σ α} {f g : α → Exec κ σ β} (first : x.run.FinishesAs y.run)
    (rest : ∀ a, (f a).run.FinishesAs (g a).run) : (x >>= f).run.FinishesAs (y >>= g).run := by
  rw [ExceptT.run_bind, ExceptT.run_bind]
  refine Run.finishesAs_bind first fun result => ?_
  cases result with
  | ok a => exact rest a
  | error error => exact Run.finishesAs_refl _

theorem finishesAs_bind_left {x y : Exec κ σ α} {f : α → Exec κ σ β}
    (first : x.run.FinishesAs y.run) : (x >>= f).run.FinishesAs (y >>= f).run :=
  finishesAs_bind first fun a => Run.finishesAs_refl (f a).run

theorem finishesAs_bind_right {x : Exec κ σ α} {f g : α → Exec κ σ β}
    (rest : ∀ a, (f a).run.FinishesAs (g a).run) : (x >>= f).run.FinishesAs (x >>= g).run :=
  finishesAs_bind (Run.finishesAs_refl x.run) rest

end Exec

/-- One of two computations finishes as the other does: a property of families of two. -/
theorem Run.compositional_finishesAs :
    Run.Compositional fun α (x : Bool → Run κ σ α) => (x false).FinishesAs (x true) where
  own _ := finishesAs_refl _
  make _ := finishesAs_refl _
  bind first rest := finishesAs_bind first rest

namespace Machine

variable {host : Host κ σ} {below upper : Handler κ σ}

/-- Two machines as a family. -/
theorem exists_both (below upper : Handler κ σ) :
    ∃ both : Bool → Handler κ σ, both false = below ∧ both true = upper :=
  ⟨fun second => cond second upper below, rfl, rfl⟩

section

variable (answers : ∀ request, (below request).FinishesAs (upper request))

include answers

theorem finishesAs_runProgram (program : Program κ σ α) :
    (runProgram below program).run.FinishesAs (runProgram upper program).run := by
  obtain ⟨both, rfl, rfl⟩ := exists_both below upper
  exact family_runProgram Run.compositional_finishesAs answers program

theorem finishesAs_layer (request : Request κ σ) :
    (layer host below request).FinishesAs (layer host upper request) := by
  obtain ⟨both, rfl, rfl⟩ := exists_both below upper
  exact family_layer Run.compositional_finishesAs answers request

end

/-- What the machine answers on its own, it answers in the company of the host. -/
theorem finishesAs_answer (host : Host κ σ) (layers : Nat) :
    ∀ request, (answerAlone host layers request).FinishesAs (answer host layers request) := by
  induction layers with
  | zero => exact fun request => Run.finishesAs_refl _
  | succ layers ih =>
      intro request world result finished
      exact finishesAs_layer ih request world result (cutOff_eq_some finished).2

end Machine

end Interop
