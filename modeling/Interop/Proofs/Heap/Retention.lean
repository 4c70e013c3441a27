import Interop.Proofs.Heap.Soundness
import Interop.Proofs.Mapping.Writes
/-!
What is never taken away from a heap: there is an operation to set an attribute and one to set an
item, but none to delete either. So a value keeps all its attributes, and a dict all its keys.
-/

set_option autoImplicit false

namespace Interop

variable {κ : Type}

/-- A dict stays a dict, and what comes to its keys comes after those that it had. -/
theorem Kind.Turns.dict {entries : OrderedMap Handle} {later : Kind κ}
    (turns : (Kind.dict entries).Turns later) :
    ∃ more, later = .dict more ∧ entries.keys <+: more.keys := by
  induction turns with
  | refl => exact ⟨entries, rfl, List.prefix_rfl⟩
  | tail _ becomes ih =>
      obtain ⟨more, rfl, kept⟩ := ih
      cases becomes with
      | dict _ key value =>
          exact ⟨more.insert key value, rfl, kept.trans (more.keys_prefix_insert key value)⟩

namespace Heap

/-- A heap and a later one in which every value has the attributes that it had, and every dict the
keys that it had. -/
structure Retains (heap after : Heap κ) : Prop where
  attributes : ∀ h name, heap.hasAttr h name = true → after.hasAttr h name = true
  keys : ∀ h entries, heap.kind? h = some (.dict entries) →
    ∃ more, after.kind? h = some (.dict more) ∧ entries.keys <+: more.keys

instance : IsPreorder (Heap κ) Retains where
  refl _ := ⟨fun _ _ has => has, fun _ entries found => ⟨entries, found, List.prefix_rfl⟩⟩
  trans _ _ _ early late := by
    refine ⟨fun h name has => late.attributes h name (early.attributes h name has), ?_⟩
    intro h entries found
    obtain ⟨some, present, kept⟩ := early.keys h entries found
    obtain ⟨more, present, kept'⟩ := late.keys h some present
    exact ⟨more, present, kept.trans kept'⟩

theorem Evolves.retains {heap after : Heap κ} (evolves : heap.Evolves after) :
    heap.Retains after where
  attributes _ _ has := evolves.hasAttr has
  keys _ _ found := by
    obtain ⟨later, present, turns⟩ := evolves.kind? found
    obtain ⟨more, rfl, kept⟩ := turns.dict
    exact ⟨more, present, kept⟩

/-- Nothing is taken away by a new cell, be its class there or not. -/
theorem retains_push (heap : Heap κ) (cell : Cell κ) : heap.Retains (heap.push cell) where
  attributes _ _ has :=
    hasAttr_of_keepsNames (fun found => ⟨_, cell?_push_of_found found cell, .refl _⟩) has
  keys _ entries found := ⟨entries, kind?_push found cell, List.prefix_rfl⟩

end Heap

end Interop
