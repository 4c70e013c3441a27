import Interop.Proofs.Heap.Soundness
import Interop.Proofs.Machine.Evolution
/-!
The worlds that a bridge can be in: those that a fresh one comes to by registering modules and by
answering requests. Their heaps are sound, and their builtins are those of the start.
-/

set_option autoImplicit false

namespace Interop

variable {κ σ : Type}

namespace World

/-- The worlds that a bridge over a fresh runtime can come to. -/
inductive Reachable (host : Host κ σ) : World κ σ → Prop
  | start (settings : Settings) (loader : Registry κ) (state : σ) :
      Reachable host (.start settings loader state)
  | register {world : World κ σ} (modules : OrderedMap Handle) (reachable : Reachable host world) :
      Reachable host { world with modules := modules }
  | answer {world after : World κ σ} {layers : Nat} {request : Request κ σ} {reply : request.Reply}
      (reachable : Reachable host world)
      (answered : Machine.answer host layers request world = some (reply, after)) :
      Reachable host after

/-- What holds of a fresh world and is kept wherever the heap evolves holds of every world that a
bridge can come to. -/
theorem Reachable.induct {host : Host κ σ} {p : World κ σ → Prop}
    (along : Heap κ → Heap κ → Prop) [Heap.Evolving along]
    (start : ∀ settings loader state, p (.start settings loader state))
    (register : ∀ world modules, p world → p { world with modules := modules })
    (moves : ∀ world after, p world → world.Moves along after → p after)
    {world : World κ σ} (reachable : world.Reachable host) : p world := by
  induction reachable with
  | start settings loader state => exact start settings loader state
  | register modules _ ih => exact register _ modules ih
  | answer _ answered ih =>
      exact moves _ _ ih (Machine.evolves_answer host _ _ _ _ _ answered)

/-- Running host code leads to a world that a bridge can come to. -/
theorem Reachable.run {host : Host κ σ} {layers : Nat} {α : Type} {tree : Interaction κ σ α}
    {world after : World κ σ} {a : α} (reachable : world.Reachable host)
    (finished : tree.run (Machine.answer host layers) world = some (a, after)) :
    after.Reachable host := by
  induction tree generalizing world with
  | done a =>
      cases finished
      exact reachable
  | perform request resume ih =>
      obtain ⟨reply, mid, answered, rest⟩ := Run.bind_eq_some_iff.mp finished
      exact ih reply (reachable.answer answered) rest

theorem sound_start (settings : Settings) (loader : Registry κ) (state : σ) :
    (World.start settings loader state).heap.Sound := by
  have function : ∀ {heap : Heap κ} (builtin : Builtin), heap.Sound →
      (heap.add (.function builtin.name (.builtin builtin))).2.Sound :=
    fun builtin sound => Heap.sound_push sound trivial nofun
  have globals : ((.empty : Heap κ).add (.dict .empty)).2.Sound :=
    Heap.sound_push Heap.sound_empty trivial fun _ => rfl
  have functions := function .str (function .iter (function .type (function .slice
    (function .len globals))))
  exact Heap.sound_push functions trivial nofun

theorem Reachable.sound {host : Host κ σ} {world : World κ σ} (reachable : world.Reachable host) :
    world.heap.Sound :=
  reachable.induct Heap.KeepsSound sound_start (fun _ _ sound => sound) fun _ _ sound moves =>
    moves.heap sound

/-! ### Builtins -/

/-- Whether a name of the builtins stands for the runtime's own function. -/
def HasBuiltin (world : World κ σ) (builtin : Builtin) : Prop :=
  ∃ h, world.builtins.get? builtin.name = some h ∧
    world.heap.kind? h = some (.function builtin.name (.builtin builtin))

theorem HasBuiltin.evolves {world after : World κ σ} {builtin : Builtin}
    (has : world.HasBuiltin builtin) (evolves : world.heap.Evolves after.heap)
    (same : after.builtins = world.builtins) : after.HasBuiltin builtin := by
  obtain ⟨h, bound, found⟩ := has
  rw [← same] at bound
  exact ⟨h, bound, evolves.kind?_eq found nofun⟩

theorem hasBuiltin_start (settings : Settings) (loader : Registry κ) (state : σ)
    (builtin : Builtin) : (World.start settings loader state).HasBuiltin builtin := by
  cases builtin with
  | len => exact ⟨⟨1⟩, rfl, rfl⟩
  | slice => exact ⟨⟨2⟩, rfl, rfl⟩
  | type => exact ⟨⟨3⟩, rfl, rfl⟩
  | iter => exact ⟨⟨4⟩, rfl, rfl⟩
  | str => exact ⟨⟨5⟩, rfl, rfl⟩

theorem Reachable.hasBuiltin {host : Host κ σ} {world : World κ σ}
    (reachable : world.Reachable host) (builtin : Builtin) : world.HasBuiltin builtin := by
  apply reachable.induct Heap.Evolves
  · exact fun settings loader state => hasBuiltin_start settings loader state builtin
  · exact fun world modules has => has
  · exact fun world after has moves => has.evolves moves.heap moves.builtins

end World

end Interop
