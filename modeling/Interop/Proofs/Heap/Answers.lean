import Mathlib.Data.List.Forall2
import Interop.Proofs.Heap.Evolution
/-!
Operations that only look. Such an operation answers the same in a heap and in whatever the heap
becomes by new cells, and itself does no more than add cells.
-/

set_option autoImplicit false

namespace Interop

variable {κ α β : Type}

/-! ### Positions -/

theorem toInt_ofInt_of_fitsWord {i : Int} (fits : FitsWord i) : (Int64.ofInt i).toInt = i := by
  obtain ⟨least, greatest⟩ := fits
  exact Int64.toInt_ofInt_of_le least greatest

theorem Arg.ofInt_of_fitsWord {i : Int} (fits : FitsWord i) :
    (Arg.ofInt i : Arg κ) = .int (Int64.ofInt i) := by
  unfold Arg.ofInt word?
  rw [if_pos fits]

theorem FitsWord.of_lt {position length : Nat} (fits : FitsWord length)
    (below : position < length) : FitsWord position := by
  unfold FitsWord at fits ⊢
  omega

theorem not_ofInt_neg {length : Nat} (fits : FitsWord length) : ¬ Int64.ofInt length < 0 := by
  rw [Int64.lt_iff_toInt_lt, toInt_ofInt_of_fitsWord fits, Int64.toInt_zero]
  omega

theorem resolveIndex?_ofInt {position length : Nat} (fits : FitsWord length)
    (below : position < length) :
    resolveIndex? (Int64.ofInt position) length = some position := by
  have counted := fits.of_lt below
  unfold resolveIndex?
  rw [if_neg (not_ofInt_neg counted), toInt_ofInt_of_fitsWord counted]
  dsimp only
  rw [if_pos (by omega), Int.toNat_natCast]

namespace Heap

/-! ### Answers that stay -/

/-- The operation answers `a` in a heap and in every heap with more cells, and only adds cells. -/
def Op.Answers (op : Op κ α) (heap : Heap κ) (a : α) : Prop :=
  ∀ later, heap.Extends later → ∃ last, op.run later = .ok (a, last) ∧ later.Extends last

theorem Extends.kind? {heap after : Heap κ} (extends_ : heap.Extends after) {h : Handle}
    {kind : Kind κ} (found : heap.kind? h = some kind) : after.kind? h = some kind := by
  obtain ⟨object, present, rfl⟩ := Option.map_eq_some_iff.mp found
  unfold Heap.kind?
  rw [extends_.object? present]
  rfl

/-- What a later heap does not hold was not there before. -/
theorem Extends.cell?_eq_none {heap after : Heap κ} (extends_ : heap.Extends after) {h : Handle}
    (missing : after.cell? h = none) : heap.cell? h = none := by
  cases found : heap.cell? h with
  | none => rfl
  | some cell => cases (extends_ h cell found).symm.trans missing

theorem Extends.refl (heap : Heap κ) : heap.Extends heap := Std.Refl.refl heap

theorem Extends.trans {first second third : Heap κ} (early : first.Extends second)
    (late : second.Extends third) : first.Extends third :=
  IsTrans.trans _ _ _ early late

theorem Extends.push (heap : Heap κ) (cell : Cell κ) : heap.Extends (heap.push cell) :=
  fun _ _ found => cell?_push_of_found found cell

namespace Op

variable {heap : Heap κ}

theorem answers_pure (a : α) : (pure a : Op κ α).Answers heap a :=
  fun later _ => ⟨later, rfl, .refl later⟩

theorem Answers.later {op : Op κ α} {after : Heap κ} {a : α} (answers : op.Answers heap a)
    (extends_ : heap.Extends after) : op.Answers after a :=
  fun later more => answers later (extends_.trans more)

/-- The first part may answer something new each time, if the rest does not depend on it. -/
theorem answers_bind {x : Op κ α} {f : α → Op κ β} {b : β}
    (parts : ∀ later, heap.Extends later → ∃ a mid, x.run later = .ok (a, mid) ∧
      later.Extends mid ∧ (f a).Answers mid b) : (x >>= f).Answers heap b := by
  intro later extends_
  obtain ⟨a, mid, first, early, rest⟩ := parts later extends_
  obtain ⟨last, second, late⟩ := rest mid (.refl mid)
  exact ⟨last, bind_eq_ok_iff.mpr ⟨a, mid, first, second⟩, early.trans late⟩

theorem Answers.bind {x : Op κ α} {f : α → Op κ β} {a : α} {b : β} (first : x.Answers heap a)
    (rest : (f a).Answers heap b) : (x >>= f).Answers heap b := by
  apply answers_bind
  intro later extends_
  obtain ⟨mid, finished, early⟩ := first later extends_
  exact ⟨a, mid, finished, early, rest.later (extends_.trans early)⟩

theorem Answers.map {x : Op κ α} {a : α} (answers : x.Answers heap a) (f : α → β) :
    (f <$> x).Answers heap (f a) := by
  rw [map_eq_pure_bind]
  exact answers.bind (answers_pure (f a))

theorem answers_mapM {relation : α → β → Prop} {f : α → Op κ β} {items : List α}
    {results : List β} (each : ∀ item result, relation item result → (f item).Answers heap result)
    (related : List.Forall₂ relation items results) : (items.mapM f).Answers heap results := by
  induction related with
  | nil =>
      rw [List.mapM_nil]
      exact answers_pure []
  | cons first _ ih =>
      rw [List.mapM_cons]
      exact (each _ _ first).bind (ih.bind (answers_pure _))

/-- Reading the heap first is all right if the rest answers the same for every later heap. -/
theorem answers_get_bind {f : Heap κ → Op κ α} {a : α}
    (rest : ∀ later, heap.Extends later → (f later).Answers later a) :
    (get >>= f).Answers heap a := by
  apply answers_bind
  intro later extends_
  exact ⟨later, later, rfl, .refl later, rest later extends_⟩

/-- What is computed from the heap without changing it. -/
theorem answers_check {f : Heap κ → Except Fault α} {a : α}
    (computed : ∀ later, heap.Extends later → f later = .ok a) : (check f).Answers heap a := by
  intro later extends_
  refine ⟨later, ?_, .refl later⟩
  change (f later).map (fun a => (a, later)) = .ok (a, later)
  rw [computed later extends_]
  rfl

end Op

/-! ### Reading items and attributes -/

/-- What fetching gives for an item, and the heap then. -/
def fetched (heap : Heap κ) : Item → Handle × Heap κ
  | .object value => (value, heap)
  | .byte value => heap.add (.int (Int64.ofInt value.toNat))
  | .listSection items => heap.add (.list items)
  | .tupleSection items => heap.add (.tuple items)

theorem getItem_of_ok {heap : Heap κ} {h : Handle} {key : Arg κ} {item : Item}
    (read : heap.item h key = .ok item) : (getItem h key).run heap = .ok (heap.fetched item) := by
  refine Op.bind_eq_ok_iff.mpr ⟨heap, heap, rfl, ?_⟩
  rw [read]
  cases item <;> rfl

theorem getItem_of_error {heap : Heap κ} {h : Handle} {key : Arg κ} {fault : Fault}
    (refused : heap.item h key = .error fault) :
    (getItem h key : Op κ Handle).run heap = .error fault := by
  unfold getItem
  rw [Op.run_get_bind, refused]
  rfl

theorem getItem_run {heap : Heap κ} {h stored : Handle} {key : Arg κ}
    (read : heap.item h key = .ok (.object stored)) :
    (getItem h key).run heap = .ok (stored, heap) :=
  getItem_of_ok read

theorem getAttr_run {heap : Heap κ} {h stored : Handle} {name : String}
    (read : heap.attribute? h name = some (.object stored)) :
    (getAttr h name).run heap = .ok (stored, heap) := by
  refine Op.bind_eq_ok_iff.mpr ⟨heap, heap, rfl, ?_⟩
  rw [read]
  rfl

theorem item_position {heap : Heap κ} {h stored : Handle} {object : HeapObject κ} {index : Int64}
    {items : List Handle} {place : Nat} (found : heap.cell? h = some (.object object))
    (isList : object.kind = .list items)
    (resolved : resolveIndex? index items.length = some place)
    (item : items[place]? = some stored) :
    heap.item h (.int index) = .ok (.object stored) := by
  have part : heap.sequencePart "list" items (.int index) = .ok (.inl stored) := by
    unfold sequencePart
    dsimp only
    rw [resolved, Option.bind_some, item]
  unfold Heap.item
  rw [found]
  dsimp only
  rw [isList, show heap.plainKey (.int index) = .int index from rfl]
  dsimp only
  rw [part]
  rfl

theorem attribute?_own {heap : Heap κ} {h stored : Handle} {object : HeapObject κ} {name : String}
    (found : heap.cell? h = some (.object object))
    (notFixed : object.kind.fixedAttribute? name = none)
    (set : object.attributes.get? name = some stored) :
    heap.attribute? h name = some (.object stored) := by
  unfold attribute?
  rw [found]
  dsimp only
  rw [notFixed, set]
  rfl

theorem item_entry {heap : Heap κ} {h stored : Handle} {object : HeapObject κ} {name : String}
    {entries : OrderedMap Handle} (found : heap.cell? h = some (.object object))
    (isDict : object.kind = .dict entries) (item : entries.get? name = some stored) :
    heap.item h (.string name) = .ok (.object stored) := by
  unfold Heap.item
  rw [found]
  dsimp only
  rw [isDict, show heap.plainKey (.string name) = .string name from rfl]
  dsimp only
  rw [item]

end Heap

end Interop
