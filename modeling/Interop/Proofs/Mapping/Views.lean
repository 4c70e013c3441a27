import Interop.Proofs.Machine.Containers
/-!
What a dict shows of itself: its keys, its values, the pairs of both, an iterator, its length, and
its items. All of them tell the same map.
-/

set_option autoImplicit false

namespace Interop

open Machine (layer runProgram)

variable {κ σ : Type}

namespace Heap

def HoldsText (heap : Heap κ) (h : Handle) (text : String) : Prop :=
  heap.kind? h = some (.string text)

/-- Whether a value is a pair of a text and another value. -/
def HoldsPair (heap : Heap κ) (h : Handle) (entry : String × Handle) : Prop :=
  ∃ text, heap.kind? h = some (.tuple [text, entry.2]) ∧ heap.HoldsText text entry.1

variable {heap : Heap κ} {d : Handle} {entries : OrderedMap Handle}
  {attributes : OrderedMap Handle}

theorem HoldsPair.later {after : Heap κ} {h : Handle} {entry : String × Handle}
    (holds : heap.HoldsPair h entry) (extends_ : heap.Extends after) :
    after.HoldsPair h entry := by
  obtain ⟨text, pair, isText⟩ := holds
  exact ⟨text, extends_.kind? pair, extends_.kind? isText⟩

/-- New pairs stand next to each other. -/
theorem allocPairs_eq_ok (entries : Entries Handle) (heap : Heap κ) :
    ∃ pairs after, (allocPairs entries).run heap = .ok (pairs, after) ∧ heap.Extends after ∧
      List.Forall₂ after.HoldsPair pairs entries := by
  induction entries generalizing heap with
  | nil => exact ⟨[], heap, rfl, .refl heap, .nil⟩
  | cons entry rest ih =>
      obtain ⟨key, value⟩ := entry
      let mid := heap.push (.object ⟨.string key, .empty⟩)
      let next := mid.push (.object ⟨.tuple [heap.fresh, value], .empty⟩)
      have early : heap.Extends mid := .push heap _
      have late : mid.Extends next := .push mid _
      have text : mid.HoldsText heap.fresh key := kind?_fresh heap (.string key)
      have pair : next.HoldsPair mid.fresh (key, value) :=
        ⟨heap.fresh, kind?_fresh mid _, late.kind? text⟩
      obtain ⟨pairs, after, made, extends_, holds⟩ := ih next
      refine ⟨mid.fresh :: pairs, after, ?_, (early.trans late).trans extends_,
        .cons (pair.later extends_) holds⟩
      refine Op.bind_eq_ok_iff.mpr ⟨heap.fresh, mid, rfl, ?_⟩
      refine Op.bind_eq_ok_iff.mpr ⟨mid.fresh, next, rfl, ?_⟩
      exact Op.bind_eq_ok_iff.mpr ⟨pairs, after, made, rfl⟩

/-! ### Methods of dicts -/

section Methods

variable (found : heap.cell? d = some (.object ⟨.dict entries, attributes⟩))

include found

theorem callContainer_keys :
    ∃ items after, (callContainer .keys d []).run heap =
        .ok (after.fresh, after.push (.object ⟨.list items, .empty⟩)) ∧
      heap.Extends after ∧ List.Forall₂ after.HoldsText items entries.keys := by
  obtain ⟨items, after, made, extends_, texts⟩ := allocStrings_eq_ok entries.keys heap
  refine ⟨items, after, ?_, extends_, texts⟩
  unfold callContainer
  rw [Op.run_get_bind, object?_of_cell? found]
  exact Op.bind_eq_ok_iff.mpr ⟨items, after, made, rfl⟩

theorem callContainer_values :
    (callContainer .values d []).run heap =
      .ok (heap.fresh, heap.push (.object ⟨.list entries.values, .empty⟩)) := by
  unfold callContainer
  rw [Op.run_get_bind, object?_of_cell? found]
  rfl

theorem callContainer_items :
    ∃ pairs after, (callContainer .items d []).run heap =
        .ok (after.fresh, after.push (.object ⟨.list pairs, .empty⟩)) ∧
      heap.Extends after ∧ List.Forall₂ after.HoldsPair pairs entries.entries := by
  obtain ⟨pairs, after, made, extends_, holds⟩ := allocPairs_eq_ok entries.entries heap
  refine ⟨pairs, after, ?_, extends_, holds⟩
  unfold callContainer
  rw [Op.run_get_bind, object?_of_cell? found]
  exact Op.bind_eq_ok_iff.mpr ⟨pairs, after, made, rfl⟩

theorem callContainer_dictCopy :
    (callContainer .copy d []).run heap =
      .ok (heap.fresh, heap.push (.object ⟨.dict entries, .empty⟩)) := by
  unfold callContainer
  rw [Op.run_get_bind, object?_of_cell? found]
  rfl

theorem callContainer_get {k value : Handle} {key : String} (isText : heap.HoldsText k key)
    (stored : entries.get? key = some value) :
    (callContainer .get d [k]).run heap = .ok (value, heap) := by
  unfold callContainer
  rw [Op.run_get_bind, object?_of_cell? found]
  dsimp only
  rw [show heap.kind? k = _ from isText]
  dsimp only
  rw [stored]
  rfl

end Methods

theorem callBuiltin_iter_dict (found : heap.kind? d = some (.dict entries)) :
    ∃ items after, (callBuiltin .iter [d]).run heap =
        .ok (after.fresh, after.push (.object ⟨.iterator items, .empty⟩)) ∧
      heap.Extends after ∧ List.Forall₂ after.HoldsText items entries.keys := by
  obtain ⟨items, after, made, extends_, texts⟩ := allocStrings_eq_ok entries.keys heap
  refine ⟨items, after, ?_, extends_, texts⟩
  refine Op.bind_eq_ok_iff.mpr ⟨d, heap, rfl, ?_⟩
  refine Op.bind_eq_ok_iff.mpr ⟨heap, heap, rfl, ?_⟩
  rw [found]
  exact Op.bind_eq_ok_iff.mpr ⟨items, after, made, rfl⟩

theorem item_of_plainKey {arg : Arg κ} {value : Handle} {key : String}
    (isKey : heap.plainKey arg = .string key)
    (found : heap.cell? d = some (.object ⟨.dict entries, attributes⟩))
    (stored : entries.get? key = some value) : heap.item d arg = .ok (.object value) := by
  have same : heap.plainKey arg = heap.plainKey (.string key) := isKey
  rw [item_congr found same]
  exact item_entry found rfl stored

/-- A foreign value counts as a text if it is one. -/
theorem plainKey_handle_iff {k : Handle} {key : String} :
    heap.plainKey (.handle k) = .string key ↔ heap.HoldsText k key := by
  unfold plainKey HoldsText
  dsimp only
  constructor
  · intro isKey
    split at isKey
    · cases isKey
    · rename_i text found
      cases isKey
      exact found
    · cases isKey
  · intro isText
    rw [isText]

/-- An argument that is a text, of the host or a foreign one, is marshalled to a text. -/
theorem marshal_of_plainKey {arg : Arg κ} {key : String} (isKey : heap.plainKey arg = .string key) :
    arg.isPositional = true ∧ ∀ later, heap.Extends later →
      ∃ k after, (marshal arg).run later = .ok (k, after) ∧ later.Extends after ∧
        after.HoldsText k key := by
  cases arg with
  | string text =>
      cases isKey
      refine ⟨rfl, fun later _ => ?_⟩
      rw [marshal]
      exact ⟨_, _, rfl, .push later _, kind?_fresh later _⟩
  | handle k =>
      have isText := plainKey_handle_iff.mp isKey
      refine ⟨rfl, fun later extends_ => ?_⟩
      rw [marshal]
      exact ⟨k, later, rfl, .refl later, extends_.kind? isText⟩
  | _ => cases isKey

end Heap

/-! ### Views -/

/-- A program gives a value of which something holds, and does no more than add to the heap. -/
def World.Yields (handler : Handler κ σ) (world : World κ σ) (program : Program κ σ Handle)
    (holds : Heap κ → Handle → Prop) : Prop :=
  ∃ h after, (runProgram handler program).run world = some (.ok h, after) ∧
    world.Moves Heap.Extends after ∧ holds after.heap h

/-- What a value shows as a dict of some keys and, in the same order, their values. -/
structure World.Shows (handler : Handler κ σ) (world : World κ σ) (d : Handle)
    (names : List String) (stored : List Handle) : Prop where
  keys : world.Yields handler (d.callMethod "keys" []) fun heap list =>
    ∃ items, heap.kind? list = some (.list items) ∧ List.Forall₂ heap.HoldsText items names
  values : world.Yields handler (d.callMethod "values" []) fun heap list =>
    heap.kind? list = some (.list stored)
  items : world.Yields handler (d.callMethod "items" []) fun heap list =>
    ∃ pairs, heap.kind? list = some (.list pairs) ∧
      List.Forall₂ heap.HoldsPair pairs (names.zip stored)
  iterator : world.Yields handler (do (← Program.builtin "iter").invoke [.handle d])
    fun heap iterator => ∃ items, heap.kind? iterator = some (.iterator items) ∧
      List.Forall₂ heap.HoldsText items names
  length : world.Yields handler (do (← Program.builtin "len").invoke [.handle d])
    fun heap length => heap.kind? length = some (.int (Int64.ofInt names.length))
  /-- A key leads to its value, as a host text and as a foreign one, such as those that `keys`
  has given. -/
  item : ∀ later, world.Moves Heap.Extends later → ∀ key value, (key, value) ∈ names.zip stored →
    ∀ arg, later.heap.plainKey arg = .string key →
      (runProgram handler (d.getItem arg)).run later = some (.ok value, later)
  /-- And it does so by the dict's own method. -/
  get : ∀ later, world.Moves Heap.Extends later → ∀ key value, (key, value) ∈ names.zip stored →
    ∀ arg, later.heap.plainKey arg = .string key →
      later.Yields handler (d.callMethod "get" [arg]) fun _ result => result = value

namespace OrderedMap

theorem zip_keys_values (entries : OrderedMap Handle) :
    entries.keys.zip entries.values = entries.entries := by
  unfold keys values Entries.keys
  exact (List.zip_of_prod rfl rfl).symm

theorem get?_of_mem_zip {entries : OrderedMap Handle} {key : String} {value : Handle}
    (among : (key, value) ∈ entries.keys.zip entries.values) : entries.get? key = some value := by
  rw [zip_keys_values] at among
  exact get?_of_mem among

end OrderedMap

namespace Machine

variable (host : Host κ σ) (below : Handler κ σ) {world : World κ σ} {d : Handle}
  {entries : OrderedMap Handle}

theorem yields_callMethod_nil {holds : Heap κ → Handle → Prop} {result : Handle} {after : Heap κ}
    (found : world.heap.kind? d = some (.dict entries)) (method : ContainerMethod)
    (own : ContainerMethod.ofDict? method.name = some method)
    (called : (Heap.callContainer method d []).run (world.heap.withMethod d method) =
      .ok (result, after))
    (extends_ : (world.heap.withMethod d method).Extends after) (holdsOf : holds after result) :
    world.Yields (layer host below) (d.callMethod method.name []) holds := by
  have run := run_callMethod_nil host below (Heap.hasMethod_of_dict found method own)
  exact ⟨result, _, run.trans (Run.attempt_of_ok called),
    .ofHeap ((Heap.extends_withMethod _ d method).trans extends_), holdsOf⟩

theorem yields_get {arg : Arg κ} {key : String} {value : Handle}
    (found : world.heap.kind? d = some (.dict entries))
    (isKey : world.heap.plainKey arg = .string key) (stored : entries.get? key = some value) :
    world.Yields (layer host below) (d.callMethod "get" [arg]) fun _ result => result = value := by
  obtain ⟨attributes, present⟩ := Heap.cell?_of_kind? found
  have bound := Heap.extends_withMethod world.heap d .get
  obtain ⟨positional, marshals⟩ := Heap.marshal_of_plainKey isKey
  obtain ⟨k, made, marshalled, more, isText⟩ := marshals _ bound
  have called := Heap.callContainer_get (more _ _ (bound _ _ present)) isText stored
  have has := Heap.hasMethod_of_dict found .get rfl
  have run := run_callMethod_one host below has positional marshalled
  exact ⟨value, _, run.trans (Run.attempt_of_ok called), .ofHeap (bound.trans more), rfl⟩

theorem shows_of_dict (hasIter : world.HasBuiltin .iter) (hasLen : world.HasBuiltin .len)
    (found : world.heap.kind? d = some (.dict entries)) :
    world.Shows (layer host below) d entries.keys entries.values where
  keys := by
    obtain ⟨attributes, present⟩ := Heap.cell?_of_kind? found
    obtain ⟨items, after, called, extends_, texts⟩ :=
      Heap.callContainer_keys (Heap.extends_withMethod _ d .keys _ _ present)
    have more := Heap.Extends.push after (.object ⟨.list items, .empty⟩)
    apply yields_callMethod_nil host below found .keys rfl called (extends_.trans more)
    exact ⟨items, Heap.kind?_fresh after _, texts.imp fun _ _ isText => more.kind? isText⟩
  values := by
    obtain ⟨attributes, present⟩ := Heap.cell?_of_kind? found
    have called := Heap.callContainer_values (Heap.extends_withMethod _ d .values _ _ present)
    apply yields_callMethod_nil host below found .values rfl called (.push _ _)
    exact Heap.kind?_fresh _ _
  items := by
    obtain ⟨attributes, present⟩ := Heap.cell?_of_kind? found
    obtain ⟨pairs, after, called, extends_, holds⟩ :=
      Heap.callContainer_items (Heap.extends_withMethod _ d .items _ _ present)
    have more := Heap.Extends.push after (.object ⟨.list pairs, .empty⟩)
    apply yields_callMethod_nil host below found .items rfl called (extends_.trans more)
    rw [OrderedMap.zip_keys_values]
    exact ⟨pairs, Heap.kind?_fresh after _, holds.imp fun _ _ pair => pair.later more⟩
  iterator := by
    obtain ⟨items, after, called, extends_, texts⟩ := Heap.callBuiltin_iter_dict found
    have more := Heap.Extends.push after (.object ⟨.iterator items, .empty⟩)
    exact ⟨_, _, run_callBuiltin host below hasIter called, .ofHeap (extends_.trans more), items,
      Heap.kind?_fresh after _, texts.imp fun _ _ isText => more.kind? isText⟩
  length := by
    have told : world.heap.length (.dict entries) = .ok entries.size := rfl
    have called := callBuiltin_len found told
    refine ⟨_, _, run_callBuiltin host below hasLen called, .ofHeap (.push _ _), ?_⟩
    rw [show entries.keys.length = entries.size from List.length_map _]
    exact Heap.kind?_fresh _ _
  item := by
    intro later moves key value among arg isKey
    obtain ⟨attributes, present⟩ := Heap.cell?_of_kind? (moves.heap.kind? found)
    have stored := OrderedMap.get?_of_mem_zip among
    exact run_getItem host below (Heap.item_of_plainKey isKey present stored)
  get := by
    intro later moves key value among arg isKey
    have stored := OrderedMap.get?_of_mem_zip among
    exact yields_get host below (moves.heap.kind? found) isKey stored

end Machine

end Interop
