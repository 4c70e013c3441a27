import Interop.Proofs.Heap.Answers
import Mathlib.Data.Finset.Card
import Mathlib.Data.Finset.Range
/-!
Trees that are read off the heap. An address on the way down into a tree stands for a larger tree
than what is below it. So no address occurs twice on the way, and a bound of one more than the
number of cells is enough for every operation that follows the parts.
-/

set_option autoImplicit false

namespace Interop

variable {κ : Type}

/-! ### Related lists -/

section Related

variable {α β γ : Type} {r s : α → β → Prop} {as : List α} {bs cs : List β}

theorem forall₂_imp_of_mem (related : List.Forall₂ r as bs)
    (step : ∀ b ∈ bs, ∀ a, r a b → s a b) : List.Forall₂ s as bs := by
  rw [List.forall₂_iff_zip] at related ⊢
  refine ⟨related.1, fun {a b} among => ?_⟩
  exact step b (List.of_mem_zip among).2 a (related.2 among)

theorem eq_of_forall₂ (one : List.Forall₂ r as bs) (other : List.Forall₂ s as cs)
    (same : ∀ b ∈ bs, ∀ a c, r a b → s a c → b = c) : bs = cs := by
  induction one generalizing cs with
  | nil =>
      cases other
      rfl
  | @cons a b _ _ first _ ih =>
      cases other with
      | @cons _ c _ _ first' rest' =>
          rw [same b List.mem_cons_self a c first first',
            ih rest' fun b among => same b (List.mem_cons_of_mem _ among)]

theorem map_eq_map_of_forall₂ {f : α → γ} {g : β → γ} (related : List.Forall₂ r as bs)
    (same : ∀ b ∈ bs, ∀ a, r a b → f a = g b) : as.map f = bs.map g := by
  have each := forall₂_imp_of_mem (s := fun a b => f a = g b) related same
  rw [← List.forall₂_eq_eq_eq, List.forall₂_map_left_iff, List.forall₂_map_right_iff]
  exact each

theorem exists_of_forall₂_of_mem (related : List.Forall₂ r as bs) {b : β} (among : b ∈ bs) :
    ∃ a, r a b := by
  induction related with
  | nil => cases among
  | cons first _ ih =>
      rcases List.mem_cons.mp among with rfl | among
      · exact ⟨_, first⟩
      · exact ih among

end Related

namespace Heap

/-- A relation between handles and trees by which the cells determine the trees. -/
structure Unfolds {τ : Type} [SizeOf τ] (heap : Heap κ) (parts : τ → List τ)
    (stands : Handle → τ → Prop) : Prop where
  smaller : ∀ {tree part : τ}, part ∈ parts tree → sizeOf part < sizeOf tree
  unique : ∀ {h : Handle} {tree other : τ}, stands h tree → stands h other → tree = other
  address_lt : ∀ {h : Handle} {tree : τ}, stands h tree → h.address < heap.cells.size
  exists_part : ∀ {h : Handle} {tree part : τ}, stands h tree → part ∈ parts tree →
    ∃ k, stands k part

namespace Unfolds

variable {τ : Type} [SizeOf τ] {heap : Heap κ} {parts : τ → List τ} {stands : Handle → τ → Prop}
  {p : Nat → τ → Prop} {h : Handle} {tree : τ}

/-- The addresses on the way down to a tree are those of values that stand for larger trees. They
are different, and no more than the cells, so that the way ends before the depth is used up. -/
theorem holds_below (unfolds : heap.Unfolds parts stands)
    (step : ∀ depth tree, (∀ part ∈ parts tree, p depth part) → p (depth + 1) tree)
    (above : Finset Nat) {depth : Nat}
    (larger : ∀ address ∈ above, ∃ whole, stands ⟨address⟩ whole ∧ sizeOf tree < sizeOf whole)
    (here : stands h tree) (room : heap.cells.size < depth + above.card) : p depth tree := by
  induction depth generalizing h tree above with
  | zero =>
      have counted : above.card ≤ heap.cells.size := by
        rw [← Finset.card_range heap.cells.size]
        refine Finset.card_le_card fun address member => ?_
        obtain ⟨whole, likewise, _⟩ := larger address member
        exact Finset.mem_range.mpr (unfolds.address_lt likewise)
      omega
  | succ depth ih =>
      -- a value on the way down to itself would stand for a tree larger than its own
      have new : h.address ∉ above := by
        intro among
        obtain ⟨whole, likewise, less⟩ := larger _ among
        rw [unfolds.unique here likewise] at less
        exact Nat.lt_irrefl _ less
      refine step depth tree fun part among => ?_
      obtain ⟨k, inner⟩ := unfolds.exists_part here among
      have less := unfolds.smaller among
      have oneMore := Finset.card_insert_of_notMem new
      refine ih (insert h.address above) ?_ inner (by omega)
      intro address member
      rcases Finset.mem_insert.mp member with rfl | member
      · exact ⟨tree, here, less⟩
      · obtain ⟨whole, likewise, notLess⟩ := larger address member
        exact ⟨whole, likewise, less.trans notLess⟩

/-- What holds at a depth if it holds of the parts at one less holds beyond the number of cells. -/
theorem holds (unfolds : heap.Unfolds parts stands)
    (step : ∀ depth tree, (∀ part ∈ parts tree, p depth part) → p (depth + 1) tree)
    (here : stands h tree) : p (heap.cells.size + 1) tree :=
  unfolds.holds_below step ∅ nofun here (Nat.lt_succ_self _)

end Unfolds

end Heap
end Interop
