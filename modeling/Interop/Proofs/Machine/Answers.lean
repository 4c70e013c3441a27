import Interop.Proofs.Heap.Answers
import Interop.Proofs.Machine.Evolution
/-!
Computations that only look. Such a computation answers the same in a world and in every world that
has more cells, and itself does no more than add cells.
-/

set_option autoImplicit false

namespace Interop

variable {κ σ α β : Type}

namespace Exec

/-- The computation answers `a` in a world and in every world with more cells, and only adds
cells. -/
def Answers (x : Exec κ σ α) (world : World κ σ) (a : α) : Prop :=
  ∀ later, world.Moves Heap.Extends later →
    ∃ last, x.run later = some (.ok a, last) ∧ later.Moves Heap.Extends last

variable {world after : World κ σ}

theorem answers_pure (a : α) : (pure a : Exec κ σ α).Answers world a :=
  fun later _ => ⟨later, rfl, .refl later⟩

theorem Answers.later {x : Exec κ σ α} {a : α} (answers : x.Answers world a)
    (moves : world.Moves Heap.Extends after) : x.Answers after a :=
  fun later more => answers later (moves.trans more)

theorem Answers.finishes {x : Exec κ σ α} {a : α} (answers : x.Answers world a) :
    ∃ last, x.run world = some (.ok a, last) ∧ world.Moves Heap.Extends last :=
  answers world (.refl world)

/-- The first part may answer something new each time, if the rest does not depend on it. -/
theorem answers_bind {x : Exec κ σ α} {f : α → Exec κ σ β} {b : β}
    (parts : ∀ later, world.Moves Heap.Extends later →
      ∃ a mid, x.run later = some (.ok a, mid) ∧ later.Moves Heap.Extends mid ∧
        (f a).Answers mid b) : (x >>= f).Answers world b := by
  intro later moves
  obtain ⟨a, mid, first, early, rest⟩ := parts later moves
  obtain ⟨last, second, late⟩ := rest.finishes
  exact ⟨last, run_bind_eq_some_iff.mpr (.inl ⟨a, mid, first, second⟩), early.trans late⟩

theorem Answers.bind {x : Exec κ σ α} {f : α → Exec κ σ β} {a : α} {b : β}
    (first : x.Answers world a) (rest : (f a).Answers world b) : (x >>= f).Answers world b := by
  apply answers_bind
  intro later moves
  obtain ⟨mid, finished, early⟩ := first later moves
  exact ⟨a, mid, finished, early, rest.later (moves.trans early)⟩

/-- What is read from the heap, if it reads the same in every later heap. -/
theorem answers_readHeap {f : Heap κ → α} {a : α}
    (same : ∀ later, world.heap.Extends later → f later = a) :
    (readHeap f : Exec κ σ α).Answers world a := by
  intro later moves
  refine ⟨later, ?_, .refl later⟩
  change some (Except.ok (f later.heap), later) = some (.ok a, later)
  rw [same later.heap moves.heap]

end Exec

namespace Machine

variable {below : Handler κ σ} {world : World κ σ}

/-- A program that answers, followed by one that does. -/
theorem answers_program_bind {x : Program κ σ α} {f : α → Program κ σ β} {a : α} {b : β}
    (first : (runProgram below x).Answers world a)
    (rest : (runProgram below (f a)).Answers world b) :
    (runProgram below (x >>= f)).Answers world b := by
  rw [runProgram_bind]
  exact first.bind rest

/-! ### Single requests -/

variable (host : Host κ σ) (below : Handler κ σ)

theorem run_getItem {world : World κ σ} {h stored : Handle} {key : Arg κ}
    (read : world.heap.item h key = .ok (.object stored)) :
    (runProgram (layer host below) (h.getItem key)).run world = some (.ok stored, world) := by
  rw [runProgram_getItem]
  exact Run.attempt_of_ok (Heap.getItem_run read)

theorem run_getAttr {world : World κ σ} {h stored : Handle} {name : String}
    (read : world.heap.attribute? h name = some (.object stored)) :
    (runProgram (layer host below) (h.getAttr name)).run world = some (.ok stored, world) := by
  rw [runProgram_getAttr]
  exact Run.attempt_of_ok (Heap.getAttr_run read)

theorem run_hasAttr (world : World κ σ) (h : Handle) (name : String) :
    (runProgram (layer host below) (h.hasAttr name)).run world =
      some (.ok (world.heap.hasAttr h name), world) := rfl

end Machine

end Interop
