import Interop.Proofs.Heap.Retention
import Interop.Proofs.Machine.Families
import Mathlib.Data.List.Chain
/-!
The moments of a run: the worlds in which something is asked of a layer, by whatever code and at
whatever depth. From each moment of a run to the next, nothing that has a name loses it.
-/

set_option autoImplicit false

namespace Interop

variable {κ σ α β : Type}

namespace Machine

/-- The machine with a given number of layers that only answers at certain moments: wherever
anything is asked of any of its layers in another world, it stops. -/
def answerWithin (among : World κ σ → Bool) (host : Host κ σ) (layers : Nat) : Handler κ σ :=
  tower (fun below request world =>
    if among world = true then layer host below request world else none) layers

theorem answerWithin_always (host : Host κ σ) (layers : Nat) :
    answerWithin (fun _ => true) host layers = answer host layers := by
  have unrestricted : ∀ below : Handler κ σ, (fun request world =>
      if true = true then layer host below request world else none) = layer host below :=
    fun below => funext fun request => funext fun world => if_pos rfl
  exact congrArg (tower · layers) (funext unrestricted)

end Machine

/-- In the second world every value still has the attributes that it had in the first, and every
dict the keys. -/
def World.Retains (world after : World κ σ) : Prop := world.heap.Retains after.heap

instance : IsPreorder (World κ σ) World.Retains where
  refl world := Std.Refl.refl world.heap
  trans first second third := IsTrans.trans first.heap second.heap third.heap

/-- Whenever a computation finishes, it passes through some moments, one retaining what the other
had, and finishes in the same way if it is only answered at these. -/
def Run.Passes (x : (World κ σ → Bool) → Run κ σ α) : Prop :=
  ∀ world a after, x (fun _ => true) world = some (a, after) → ∃ moments : List (World κ σ),
    (world :: (moments ++ [after])).IsChain World.Retains ∧
      ∀ among, (∀ moment ∈ moments, among moment = true) → x among world = some (a, after)

namespace Run

theorem passes_of_retains {x : Run κ σ α}
    (retains : ∀ world a after, x world = some (a, after) → world.Retains after) :
    Passes fun _ => x := by
  intro world a after finished
  exact ⟨[], .cons_cons (retains world a after finished) (.singleton after), fun _ _ => finished⟩

/-- The moment at which the second part takes over is one of the whole. -/
theorem passes_bind {x : (World κ σ → Bool) → Run κ σ α}
    {f : (World κ σ → Bool) → α → Run κ σ β} (first : Passes x)
    (rest : ∀ a, Passes fun among => f among a) : Passes fun among => x among >>= f among := by
  intro world b after finished
  obtain ⟨a, mid, early, late⟩ := bind_eq_some_iff.mp finished
  obtain ⟨before, chained, same⟩ := first world a mid early
  obtain ⟨behind, chained', same'⟩ := rest a mid b after late
  refine ⟨before ++ mid :: behind, ?_, ?_⟩
  · rw [List.append_assoc, List.cons_append, ← List.cons_append]
    exact List.isChain_split.mpr ⟨chained, chained'⟩
  · intro among answered
    have begun := same among fun moment early =>
      answered moment (List.mem_append_left _ early)
    have ended := same' among fun moment late =>
      answered moment (List.mem_append_right _ (List.mem_cons_of_mem _ late))
    exact bind_eq_some_iff.mpr ⟨a, mid, begun, ended⟩

theorem compositional_passes :
    Compositional fun α (x : (World κ σ → Bool) → Run κ σ α) => Passes x where
  own moves := passes_of_retains fun world a after finished =>
    (moves world a after finished).heap.retains
  make kind := passes_of_retains fun world a after finished => by
    cases finished
    exact Heap.retains_push world.heap _
  bind := passes_bind

end Run

namespace Machine

theorem passes_answerWithin (host : Host κ σ) (layers : Nat) :
    ∀ request, Run.Passes fun among => answerWithin among host layers request := by
  induction layers with
  | zero =>
      intro request world a after finished
      cases finished
  | succ layers ih =>
      intro request world reply after finished
      -- everywhere is among everywhere
      have usual : layer host (answerWithin (fun _ => true) host layers) request world =
          some (reply, after) := by
        change (if true = true then _ else none) = some (reply, after) at finished
        rwa [if_pos rfl] at finished
      obtain ⟨moments, chained, same⟩ :=
        family_layer Run.compositional_passes ih request world reply after usual
      refine ⟨world :: moments, .cons_cons (Std.Refl.refl world.heap) chained, ?_⟩
      intro among answered
      have here : among world = true := answered world List.mem_cons_self
      exact (if_pos here).trans
        (same among fun moment later => answered moment (List.mem_cons_of_mem _ later))

/-- Every run of host code has its moments: each retains what was there at the ones before, and the
run only asks at these. -/
theorem exists_moments {host : Host κ σ} {layers : Nat} {tree : Interaction κ σ α}
    {world after : World κ σ} {a : α}
    (finished : tree.run (answer host layers) world = some (a, after)) :
    ∃ moments : List (World κ σ), (world :: (moments ++ [after])).Pairwise World.Retains ∧
      ∀ among, (∀ moment ∈ moments, among moment = true) →
        tree.run (answerWithin among host layers) world = some (a, after) := by
  rw [← answerWithin_always] at finished
  obtain ⟨moments, chained, same⟩ := family_run Run.compositional_passes
    (passes_answerWithin host layers) tree world a after finished
  exact ⟨moments, List.isChain_iff_pairwise.mp chained, same⟩

end Machine

end Interop
