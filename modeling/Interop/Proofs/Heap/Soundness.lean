import Interop.Proofs.Heap.Evolution
/-!
Sound heaps: the class of every instance is a class, and only objects that accept attributes have
any. Every operation of the runtime keeps a heap sound, and an object never changes its sort.
-/

set_option autoImplicit false

namespace Interop

variable {κ : Type}

/-- What can become of an object in the course of time. -/
def Kind.Turns : Kind κ → Kind κ → Prop := Relation.ReflTransGen Kind.Becomes

theorem Kind.Turns.eq_of_fixed {kind later : Kind κ} (turns : kind.Turns later)
    (fixed : ∀ changed, ¬ kind.Becomes changed) : later = kind := by
  induction turns with
  | refl => rfl
  | tail _ becomes ih =>
      subst ih
      exact absurd becomes (fixed _)

theorem Kind.Turns.list {items : List Handle} {later : Kind κ}
    (turns : (Kind.list items).Turns later) : ∃ others, later = .list others := by
  induction turns with
  | refl => exact ⟨items, rfl⟩
  | tail _ becomes ih =>
      obtain ⟨others, rfl⟩ := ih
      cases becomes with
      | list _ after => exact ⟨after, rfl⟩

/-- What changing contents keep, a chain of changes keeps. -/
theorem Kind.Turns.keeps {β : Type} {f : Kind κ → β}
    (step : ∀ {kind changed : Kind κ}, kind.Becomes changed → f changed = f kind)
    {kind later : Kind κ} (turns : kind.Turns later) : f later = f kind := by
  induction turns with
  | refl => rfl
  | tail _ becomes ih => exact (step becomes).trans ih

theorem Kind.Becomes.acceptsAttributes {kind changed : Kind κ} (becomes : kind.Becomes changed) :
    changed.acceptsAttributes = kind.acceptsAttributes := by
  cases becomes <;> rfl

theorem Kind.not_becomes_instance {kind : Kind κ} {cls : Handle} :
    ¬ kind.Becomes (.instanceOf cls) := nofun

namespace Heap

variable {heap after : Heap κ} {h : Handle}

theorem kind?_push {kind : Kind κ} (found : heap.kind? h = some kind) (cell : Cell κ) :
    (heap.push cell).kind? h = some kind := by
  obtain ⟨attributes, present⟩ := cell?_of_kind? found
  exact kind?_of_cell? (cell?_push_of_found present cell)

/-- A write leaves the kind of an object to another one that it can become. -/
theorem kind?_write {k : Handle} {object changed : HeapObject κ} {kind : Kind κ}
    (present : heap.cell? k = some (.object object)) (turns : object.kind.Turns changed.kind)
    (found : heap.kind? h = some kind) :
    ∃ later, (heap.write k (.object changed)).kind? h = some later ∧ kind.Turns later := by
  obtain ⟨attributes, content⟩ := cell?_of_kind? found
  by_cases same : h = k
  · subst same
    cases content.symm.trans present
    exact ⟨changed.kind, kind?_of_cell? (cell?_write_self content _), turns⟩
  · have kept := (cell?_write_of_ne same (.object changed)).trans content
    exact ⟨kind, kind?_of_cell? kept, .refl⟩

theorem kind?_write_stub {k : Handle} {stub changed : Stub κ} {kind : Kind κ}
    (present : heap.cell? k = some (.stub stub)) (found : heap.kind? h = some kind) :
    (heap.write k (.stub changed)).kind? h = some kind := by
  obtain ⟨attributes, content⟩ := cell?_of_kind? found
  have other : h ≠ k := by
    intro same
    subst same
    cases content.symm.trans present
  exact kind?_of_cell? ((cell?_write_of_ne other _).trans content)

theorem Step.kind? (step : Step heap after) {kind : Kind κ} (found : heap.kind? h = some kind) :
    ∃ later, after.kind? h = some later ∧ kind.Turns later := by
  cases step with
  | push admitted => exact ⟨kind, kind?_push found _, .refl⟩
  | content present becomes => exact kind?_write present (.single becomes) found
  | named name value present accepts => exact kind?_write present .refl found
  | answered script present => exact ⟨kind, kind?_write_stub present found, .refl⟩

/-- An object of an evolving heap stays there, with contents of the same sort. -/
theorem Evolves.kind? (evolves : heap.Evolves after) {kind : Kind κ}
    (found : heap.kind? h = some kind) :
    ∃ later, after.kind? h = some later ∧ kind.Turns later := by
  induction evolves with
  | refl => exact ⟨kind, found, .refl⟩
  | tail _ step ih =>
      obtain ⟨mid, present, early⟩ := ih
      obtain ⟨last, present, late⟩ := step.kind? present
      exact ⟨last, present, early.trans late⟩

theorem Evolves.kind?_eq (evolves : heap.Evolves after) {kind : Kind κ}
    (found : heap.kind? h = some kind) (fixed : ∀ changed, ¬ kind.Becomes changed) :
    after.kind? h = some kind := by
  obtain ⟨later, present, turns⟩ := evolves.kind? found
  rw [present, turns.eq_of_fixed fixed]

theorem Evolves.isType (evolves : heap.Evolves after) (isType : heap.IsType h) :
    after.IsType h := by
  obtain ⟨info, found⟩ := isType
  exact ⟨info, evolves.kind?_eq found nofun⟩

theorem Evolves.admits (evolves : heap.Evolves after) {cell : Cell κ}
    (admitted : heap.Admits cell) : after.Admits cell := by
  unfold Admits at admitted ⊢
  split at admitted
  · exact evolves.isType admitted
  · trivial

/-! ### Soundness -/

/-- Whether the class of an object is there, if the object is an instance. -/
def HasClass (heap : Heap κ) (kind : Kind κ) : Prop :=
  ∀ cls, kind = .instanceOf cls → heap.IsType cls

theorem admits_object_iff {object : HeapObject κ} : heap.Admits (.object object) ↔
    heap.HasClass object.kind := by
  obtain ⟨kind, attributes⟩ := object
  constructor
  · rintro admitted cls rfl
    exact admitted
  · intro classed
    unfold Admits
    split
    · rename_i cls attributes same
      cases same
      exact classed cls rfl
    · trivial

/-- Every instance has its class, and attributes are set only where they are accepted. -/
def Sound (heap : Heap κ) : Prop :=
  ∀ h cell, heap.cell? h = some cell → heap.Admits cell ∧ NamesAccepted cell

theorem sound_empty : (empty : Heap κ).Sound := by
  intro h cell found
  cases found

theorem sound_push (sound : heap.Sound) {cell : Cell κ} (admitted : heap.Admits cell)
    (accepted : NamesAccepted cell) : (heap.push cell).Sound := by
  have evolves : heap.Evolves (heap.push cell) := .single (.push admitted)
  intro h other found
  rw [cell?_push] at found
  split at found
  · cases found
    exact ⟨evolves.admits admitted, accepted⟩
  · obtain ⟨old, names⟩ := sound h other found
    exact ⟨evolves.admits old, names⟩

/-- A write keeps a heap sound if the cell written fits in the heap. -/
theorem sound_write {k : Handle} {cell : Cell κ} (sound : heap.Sound)
    (evolves : heap.Evolves (heap.write k cell)) (admitted : heap.Admits cell)
    (accepted : NamesAccepted cell) : (heap.write k cell).Sound := by
  intro h other found
  rw [cell?_write] at found
  split at found
  · obtain ⟨old, _, rfl⟩ := Option.map_eq_some_iff.mp found
    exact ⟨evolves.admits admitted, accepted⟩
  · obtain ⟨old, names⟩ := sound h other found
    exact ⟨evolves.admits old, names⟩

/-- A heap that is sound after a sound one. -/
def KeepsSound (heap after : Heap κ) : Prop := heap.Sound → after.Sound

instance : Evolving (KeepsSound : Heap κ → Heap κ → Prop) where
  refl _ sound := sound
  trans _ _ _ early late sound := late (early sound)
  push _ _ admitted accepted sound := sound_push sound admitted accepted
  content found becomes sound := by
    refine sound_write sound (.single (.content found becomes)) ?_ ?_
    · apply admits_object_iff.mpr
      rintro cls rfl
      exact absurd becomes Kind.not_becomes_instance
    · intro refuses
      rw [becomes.acceptsAttributes] at refuses
      exact (sound _ _ found).2 refuses
  named name value found accepts sound := by
    refine sound_write sound (.single (.named name value found accepts)) ?_ ?_
    · have classed := admits_object_iff.mp (sound _ _ found).1
      exact admits_object_iff.mpr classed
    · intro refuses
      rw [accepts] at refuses
      cases refuses
  answered script found sound :=
    sound_write sound (.single (.answered script found)) trivial trivial

theorem Sound.hasClass (sound : heap.Sound) {kind : Kind κ} (found : heap.kind? h = some kind) :
    heap.HasClass kind := by
  obtain ⟨attributes, present⟩ := cell?_of_kind? found
  exact admits_object_iff.mp (sound h _ present).1

end Heap

end Interop
