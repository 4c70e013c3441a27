import Interop.Proofs.Machine.Containers
import Interop.Proofs.Proxy.ReadAfterWrite
import Interop.Proofs.Sequence.Reference
/-!
Operations on lists, as host code and evaluated code ask for them, and the edits that they are. Each
operation is shown to answer what its edit answers and to leave in the heap what its edit leaves.
-/

set_option autoImplicit false

namespace Interop

variable {κ σ : Type}

/-- An operation on lists and on iterators over them. -/
inductive Operation (κ : Type)
  | append (list : Handle) (value : Arg κ)
  | pop (list : Handle)
  | assign (list : Handle) (key value : Arg κ)
  | copy (list : Handle)
  | concat (left right : Handle)
  | read (list : Handle) (key : Arg κ)
  | iterate (list : Handle)
  | next (queue : Handle)
  | length (list : Handle)

/-- The answer that comes of a computation, if it succeeds. -/
def report {α : Type} (answer : α → Answer) (x : Exec κ σ α) : Run κ σ (Option Answer) :=
  (fun result => result.toOption.map answer) <$> x.run

/-- Performs an operation; there is no answer if it fails. -/
def Operation.perform (handler : Handler κ σ) : Operation κ → Run κ σ (Option Answer)
  | .append list value =>
    report (fun _ => .done) (Machine.runProgram handler (list.callMethod "append" [value]))
  | .pop list => report .item (Machine.runProgram handler (list.callMethod "pop" []))
  | .assign list key value =>
    (fun status : Status => if status.isOk then some .done else none) <$>
      handler (.setItem list key value)
  | .copy list => report .item (Machine.runProgram handler (list.callMethod "copy" []))
  | .concat left right => report .item (Exec.ofOp (Script.applyOperator .add left right))
  | .read list key => report .item (Machine.runProgram handler (list.getItem key))
  | .iterate list =>
    report .item (Machine.runProgram handler do (← Program.builtin "iter").invoke [.handle list])
  | .next queue =>
    report (fun item => item.elim .exhausted .item) (Machine.runProgram handler queue.next)
  | .length list => report .length (Machine.runProgram handler (Bridge.lengthOf list))

/-! ### The edit that an operation is -/

/-- What a key stands for; a foreign integer stands for itself. -/
def Heap.key (heap : Heap κ) (key : Arg κ) : Key :=
  match heap.plainKey key with
  | .int index => .position index.toInt
  | .handle h =>
    match heap.kind? h with
    | some (.slice start stop step) =>
      .part (start.map Int64.toInt) (stop.map Int64.toInt) (step.map Int64.toInt)
    | _ => .other
  | _ => .other

/-- What a call of `append` appends. The method is bound before the value is made, and keywords are
no value. -/
def Heap.appended? (heap : Heap κ) (list : Handle) (value : Arg κ) : Option Handle :=
  if value.isPositional then (heap.withMethod list .append).made? value else none

def Operation.edit (heap : Heap κ) : Operation κ → Edit
  | .append list value => .append list (heap.appended? list value)
  | .pop list => .pop list
  | .assign list key value => .assign list (heap.key key) (heap.made? value)
  | .copy list => .copy list
  | .concat left right => .concat left right
  | .read list key => .read list (heap.key key)
  | .iterate list => .iterate list
  | .next queue => .next queue
  | .length list => .length list

/-- What a kind of object is among sequences. -/
def Kind.contents? : Kind κ → Option Contents
  | .list items => some (.list items)
  | .iterator items => some (.queue items)
  | _ => Option.none

namespace Heap

/-- All lists of a heap as sequences, and its iterators as queues. -/
def sequences (heap : Heap κ) : Sequences := fun h => (heap.kind? h).bind Kind.contents?

def HoldsList (heap : Heap κ) (h : Handle) : Prop := ∃ items, heap.kind? h = some (.list items)

/-- Whether a value is a list with a length that is a word. -/
def HoldsCounted (heap : Heap κ) (h : Handle) : Prop :=
  ∃ items, heap.kind? h = some (.list items) ∧ FitsWord items.length

def HoldsIterator (heap : Heap κ) (h : Handle) : Prop :=
  ∃ items, heap.kind? h = some (.iterator items)

end Heap

/-- Whether an operation is on lists, or on an iterator. Lengths are told in words, and so are the
places of a slice. -/
def Operation.Targets (heap : Heap κ) : Operation κ → Prop
  | .append list _ => heap.HoldsList list
  | .pop list => heap.HoldsList list
  | .assign list _ _ => heap.HoldsList list
  | .copy list => heap.HoldsList list
  | .concat left right => heap.HoldsList left ∧ heap.HoldsList right
  | .read list _ => heap.HoldsCounted list
  | .iterate list => heap.HoldsList list
  | .next queue => heap.HoldsIterator queue
  | .length list => heap.HoldsCounted list

/-! ### Lists of a heap -/

namespace Heap

variable {heap mid : Heap κ} {h : Handle} {items : List Handle}

theorem list?_sequences (found : heap.kind? h = some (.list items)) :
    heap.sequences.list? h = some items := by
  unfold Sequences.list? sequences
  rw [found]
  rfl

theorem queue?_sequences (found : heap.kind? h = some (.iterator items)) :
    heap.sequences.queue? h = some items := by
  unfold Sequences.queue? sequences
  rw [found]
  rfl

theorem Extends.grows {after : Heap κ} (extends_ : heap.Extends after) :
    heap.sequences.Grows after.sequences := by
  intro name contents found
  obtain ⟨kind, present, isContents⟩ := Option.bind_eq_some_iff.mp found
  exact Option.bind_eq_some_iff.mpr ⟨kind, extends_.kind? present, isContents⟩

/-- The next cell of a later heap has no name yet. -/
theorem sequences_fresh (extends_ : heap.Extends mid) : heap.sequences mid.fresh = none := by
  cases found : heap.sequences mid.fresh with
  | none => rfl
  | some contents =>
      obtain ⟨kind, present, _⟩ := Option.bind_eq_some_iff.mp found
      obtain ⟨attributes, cell⟩ := cell?_of_kind? present
      exact absurd rfl (ne_fresh_of_cell? (extends_ _ _ cell))

theorem grows_write {object : HeapObject κ} {kind : Kind κ} {contents : Contents}
    (extends_ : heap.Extends mid) (found : heap.cell? h = some (.object object))
    (isContents : kind.contents? = some contents) :
    (heap.sequences.set h contents).Grows
      (mid.write h (.object { object with kind := kind })).sequences := by
  intro name other given
  have present := extends_ h _ found
  by_cases same : name = h
  · subst same
    rw [Sequences.set_self] at given
    cases given
    unfold sequences
    rw [kind?_of_cell? (cell?_write_self present _)]
    exact isContents
  · rw [Sequences.set_of_ne same] at given
    obtain ⟨kind, old, isOther⟩ := Option.bind_eq_some_iff.mp given
    obtain ⟨attributes, cell⟩ := cell?_of_kind? (extends_.kind? old)
    unfold sequences
    rw [kind?_of_cell? ((cell?_write_of_ne same _).trans cell)]
    exact isOther

theorem grows_push {kind : Kind κ} {contents : Contents} (extends_ : heap.Extends mid)
    (isContents : kind.contents? = some contents) :
    (heap.sequences.set mid.fresh contents).Grows
      (mid.push (.object ⟨kind, .empty⟩)).sequences := by
  intro name other given
  by_cases same : name = mid.fresh
  · subst same
    rw [Sequences.set_self] at given
    cases given
    unfold sequences
    rw [kind?_fresh]
    exact isContents
  · rw [Sequences.set_of_ne same] at given
    exact (extends_.trans (.push mid _)).grows name other given

theorem appended?_eq_some_iff {value : Arg κ} {item : Handle} :
    heap.appended? h value = some item ↔ value.isPositional = true ∧
      ∃ made, (marshal value).run (heap.withMethod h .append) = .ok (item, made) := by
  unfold appended?
  rw [Option.ite_none_right_eq_some, made?_eq_some_iff]

end Heap

/-! ### Reports -/

section Reports

variable {α : Type} {answer : α → Answer} {x : Exec κ σ α} {world after : World κ σ}

theorem report_of_ok {a : α} (finished : x.run world = some (.ok a, after)) :
    report answer x world = some (some (answer a), after) := by
  unfold report
  rw [map_eq_pure_bind]
  exact Run.bind_eq_some_iff.mpr ⟨.ok a, after, finished, rfl⟩

theorem report_of_error {error : Error} (failed : x.run world = some (.error error, after)) :
    report answer x world = some (none, after) := by
  unfold report
  rw [map_eq_pure_bind]
  exact Run.bind_eq_some_iff.mpr ⟨.error error, after, failed, rfl⟩

end Reports

/-! ### Keys -/

theorem resolveIndex?_eq_place? (index : Int64) (length : Nat) :
    resolveIndex? index length = place? length index.toInt := by
  have negative : index < 0 ↔ index.toInt < 0 := by
    rw [Int64.lt_iff_toInt_lt, Int64.toInt_zero]
  unfold resolveIndex? place?
  dsimp only
  by_cases below : index < 0
  · have below' := negative.mp below
    simp only [if_pos below]
    rw [if_neg (by omega : ¬ (0 ≤ index.toInt ∧ index.toInt < length)), add_comm]
    exact if_congr (by omega) rfl rfl
  · have natural : ¬ (-(length : Int) ≤ index.toInt ∧ index.toInt < 0) :=
      fun between => below (negative.mpr between.2)
    simp only [if_neg below]
    rw [if_neg natural]

namespace Heap

variable {heap : Heap κ} {h : Handle} {items : List Handle} {key : Arg κ}

/-- What a key stands for in a sequence: one item or a part. -/
def partAt (items : List Handle) : Key → Option (Handle ⊕ List Handle)
  | .position index => ((place? items.length index).bind (items[·]?)).map .inl
  | .part start stop step =>
    if step.getD 1 = 0 then none
    else some (.inr ((selection items.length start stop step).filterMap (items[·]?)))
  | .other => none

theorem effect_read {s : Sequences} (found : s.list? h = some items) (new : Handle) (key : Key) :
    s.effect new (.read h key) = (partAt items key).map (Sum.elim (fun item => (.item item, none))
      fun taken => (.item new, some (.list taken))) := by
  cases key with
  | position index =>
      simp only [Sequences.effect, found, partAt, Option.bind_eq_bind, Option.bind_some]
      cases place? items.length index with
      | none => rfl
      | some place =>
          simp only [Option.bind_some]
          cases items[place]? with
          | none => rfl
          | some item => rfl
  | part start stop step =>
      simp only [Sequences.effect, found, partAt, Option.bind_eq_bind, Option.bind_some]
      split
      · rfl
      · rfl
  | other =>
      simp only [Sequences.effect, found, partAt, Option.bind_eq_bind, Option.bind_some,
        Option.map_none]

theorem sequencePart_slice {start stop step : Option Int64} (fits : FitsWord items.length)
    (isSlice : heap.kind? h = some (.slice start stop step)) (sequence : String) :
    (heap.sequencePart sequence items (.handle h)).toOption =
      if (step.map Int64.toInt).getD 1 = 0 then none
      else some (.inr ((selection items.length (start.map Int64.toInt) (stop.map Int64.toInt)
        (step.map Int64.toInt)).filterMap (items[·]?))) := by
  unfold sequencePart
  dsimp only
  rw [isSlice]
  dsimp only
  by_cases zero : (step.map Int64.toInt).getD 1 = 0
  · rw [if_pos zero, slicePositions_zeroStep fits zero]
    rfl
  · rw [if_neg zero, slicePositions_eq fits zero]
    rfl

theorem sequencePart_eq (fits : FitsWord items.length) (sequence : String) :
    (heap.sequencePart sequence items (heap.plainKey key)).toOption =
      partAt items (heap.key key) := by
  unfold Heap.key
  cases plain : heap.plainKey key with
  | int index =>
      dsimp only [partAt]
      rw [← resolveIndex?_eq_place?]
      unfold sequencePart
      dsimp only
      cases (resolveIndex? index items.length).bind (items[·]?) with
      | none => rfl
      | some item => rfl
  | handle k =>
      cases slot : heap.kind? k with
      | none =>
          unfold sequencePart
          dsimp only
          rw [slot]
          rfl
      | some kind =>
          cases kind with
          | slice start stop step =>
              rw [sequencePart_slice fits slot]
              dsimp only
              rw [slot]
              rfl
          | _ =>
              unfold sequencePart
              dsimp only
              rw [slot]
              rfl
  | _ => rfl

theorem item_of_list_key (found : heap.kind? h = some (.list items))
    (fits : FitsWord items.length) (key : Arg κ) :
    (heap.item h key).toOption =
      (partAt items (heap.key key)).map (Sum.elim .object .listSection) := by
  obtain ⟨attributes, present⟩ := cell?_of_kind? found
  rw [← sequencePart_eq fits "list"]
  unfold item
  rw [present]
  dsimp only
  cases heap.sequencePart "list" items (heap.plainKey key) with
  | error fault => rfl
  | ok part => cases part <;> rfl

theorem storing_list (stored : Handle) :
    (Kind.list items : Kind κ).storing (heap.plainKey key) stored =
      ((heap.key key).place? items.length).map fun place => .list (items.set place stored) := by
  unfold Heap.key
  cases heap.plainKey key with
  | int index =>
      rw [Kind.storing, resolveIndex?_eq_place?]
      rfl
  | handle k =>
      dsimp only
      split
      · rfl
      · rfl
  | _ => rfl

variable {attributes : OrderedMap Handle} {value : Arg κ}

/-- A list takes an item if the item can be made and the key has a place. -/
theorem setItem_of_list {item : Handle} {made : Heap κ} {place : Nat}
    (found : heap.cell? h = some (.object ⟨.list items, attributes⟩))
    (marshalled : (marshal value).run heap = .ok (item, made))
    (placed : (heap.key key).place? items.length = some place) :
    heap.setItem h key value =
      (.ok, made.write h (.object ⟨.list (items.set place item), attributes⟩)) := by
  unfold setItem
  rw [found]
  dsimp only
  rw [marshalled]
  dsimp only
  rw [storing_list, placed]
  rfl

theorem setItem_of_unmade (found : heap.cell? h = some (.object ⟨.list items, attributes⟩))
    (unmade : heap.made? value = none) : heap.setItem h key value = (.failure, heap) := by
  unfold setItem
  rw [found]
  dsimp only
  cases marshalled : (marshal value).run heap with
  | error fault => rfl
  | ok pair =>
      rw [made?_eq_some_iff.mpr ⟨pair.2, marshalled⟩] at unmade
      cases unmade

theorem setItem_of_unplaced (found : heap.cell? h = some (.object ⟨.list items, attributes⟩))
    (unplaced : (heap.key key).place? items.length = none) :
    heap.setItem h key value = (.failure, heap) := by
  unfold setItem
  rw [found]
  dsimp only
  cases marshalled : (marshal value).run heap with
  | error fault => rfl
  | ok pair =>
      dsimp only
      rw [storing_list, unplaced]
      rfl

theorem plainKey_of_int {k : Handle} {index : Int64} (found : heap.kind? k = some (.int index)) :
    heap.plainKey (.handle k) = heap.plainKey (.int index) := by
  unfold plainKey
  dsimp only
  rw [found]

/-- A list takes a value at just the indices at which it has an item. -/
theorem setItem_isOk_iff {index : Int64}
    (found : heap.cell? h = some (.object ⟨.list items, attributes⟩))
    (isMade : (heap.made? value).isSome = true) :
    (heap.setItem h (.int index) value).1.isOk = true ↔
      (heap.item h (.int index)).isOk = true := by
  obtain ⟨item, isItem⟩ := Option.isSome_iff_exists.mp isMade
  obtain ⟨made, marshalled⟩ := made?_eq_some_iff.mp isItem
  have key : (heap.key (.int index)).place? items.length = resolveIndex? index items.length :=
    (resolveIndex?_eq_place? index items.length).symm
  cases resolved : resolveIndex? index items.length with
  | none =>
      have absent : heap.item h (.int index) = .error (.indexOutOfRange "list") := by
        have part : heap.sequencePart "list" items (.int index) =
            .error (.indexOutOfRange "list") := by
          unfold sequencePart
          dsimp only
          rw [resolved]
          rfl
        unfold Heap.item
        rw [found]
        dsimp only [plainKey]
        rw [part]
        rfl
      rw [setItem_of_unplaced found (key.trans resolved), absent]
      change Status.failure.isOk = true ↔ false = true
      decide
  | some place =>
      have inside := lt_of_resolveIndex? resolved
      rw [setItem_of_list found marshalled (key.trans resolved),
        item_position found rfl resolved (List.getElem?_eq_getElem inside)]
      change Status.ok.isOk = true ↔ true = true
      decide

end Heap

end Interop
