import Interop.Proofs.Heap.Answers
/-!
Reading a value back as an argument: plain values by their primitive reading, lists position by
position, dicts key by key. What is no plain value is left as a handle, and so is what lies deeper
than a given depth.
-/

set_option autoImplicit false

namespace Interop

variable {κ : Type}

/-- The primitive that a kind of object stands for. -/
def Kind.primitive? : Kind κ → Option Primitive
  | .bool value => some (.bool value)
  | .int value => some (.int value)
  | .float value => some (.float value)
  | .string value => some (.string value)
  | _ => Option.none

theorem OrderedMap.get?_of_mem {α : Type} {m : OrderedMap α} {entry : String × α}
    (member : entry ∈ m.entries) : m.get? entry.1 = some entry.2 := by
  obtain ⟨entries, distinct⟩ := m
  change Entries.get? entries entry.1 = some entry.2
  induction entries with
  | nil => cases member
  | cons first rest ih =>
      obtain ⟨key, value⟩ := first
      rw [Entries.keys_cons, List.nodup_cons] at distinct
      unfold Entries.get?
      rcases List.mem_cons.mp member with rfl | later
      · exact if_pos rfl
      · have different : key ≠ entry.1 := by
          intro same
          subst same
          exact distinct.1 (List.mem_map_of_mem later)
        rw [if_neg different]
        exact ih distinct.2 later

namespace Heap

def readText (h : Handle) : Op κ String := do
  match ← Op.check (·.primitive h) with
  | .string text => return text
  | _ => throw (.noPrimitive "str")

/-- The items of a sequence, each fetched by its position. -/
def fetchItems (h : Handle) (length : Nat) : Op κ (List Handle) :=
  (List.range length).mapM fun position : Nat => getItem h (.ofInt position)

/-- The keys of a dict, as its method `keys` lists them. -/
def readKeys (h : Handle) (size : Nat) : Op κ (List String) := do
  let keys ← callContainer .keys h []
  (← fetchItems keys size).mapM readText

/-- The argument that a value reads back as. -/
def readBack : (depth : Nat) → Handle → Op κ (Arg κ)
  | 0, h => return .handle h
  | depth + 1, h => do
    let heap ← get
    match heap.kind? h with
    | some .none => return .none
    | some (.bytes data) => return .bytes data
    | some (.list items) => do
      return .list (← (← fetchItems h items.length).mapM (readBack depth))
    | some (.dict entries) => do
      return .dict (← (← readKeys h entries.size).mapM fun key => do
        return (key, ← readBack depth (← getItem h (.string key))))
    | some (.bool _) | some (.int _) | some (.float _) | some (.string _) =>
      return .ofPrimitive (← Op.check (·.primitive h))
    | _ => return .handle h

/-- The value reads back as `arg`, in this heap and in every heap with more cells. -/
def ReadsAs (heap : Heap κ) (h : Handle) (arg : Arg κ) : Prop :=
  ∃ needed, ∀ depth, needed ≤ depth → (readBack depth h).Answers heap arg

variable {heap after : Heap κ} {h : Handle}

theorem ReadsAs.later {arg : Arg κ} (reads : heap.ReadsAs h arg) (extends_ : heap.Extends after) :
    after.ReadsAs h arg := by
  obtain ⟨needed, answers⟩ := reads
  exact ⟨needed, fun depth enough => (answers depth enough).later extends_⟩

/-! ### Items and keys -/

theorem primitive_of_kind? {kind : Kind κ} (found : heap.kind? h = some kind) :
    heap.primitive h = match kind.primitive? with
      | some primitive => .ok primitive
      | none => .error (.noPrimitive (heap.typeName kind)) := by
  obtain ⟨attributes, present⟩ := cell?_of_kind? found
  unfold primitive
  rw [present]
  cases kind <;> rfl

theorem getItem_answers {key : Arg κ} {stored : Handle}
    (item : ∀ later, heap.Extends later → later.item h key = .ok (.object stored)) :
    (getItem h key).Answers heap stored :=
  fun later extends_ => ⟨later, getItem_run (item later extends_), .refl later⟩

theorem item_of_list {items : List Handle} (found : heap.kind? h = some (.list items))
    (fits : FitsWord items.length) {position : Nat} (below : position < items.length) :
    heap.item h (.ofInt position) = .ok (.object items[position]) := by
  obtain ⟨attributes, present⟩ := cell?_of_kind? found
  rw [Arg.ofInt_of_fitsWord (fits.of_lt below)]
  exact item_position present rfl (resolveIndex?_ofInt fits below)
    (List.getElem?_eq_getElem below)

theorem fetchItems_answers {items : List Handle} (found : heap.kind? h = some (.list items))
    (fits : FitsWord items.length) : (fetchItems h items.length).Answers heap items := by
  have placed : List.Forall₂ (fun position item => items[position]? = some item)
      (List.range items.length) items := by
    apply List.forall₂_iff_get.mpr
    refine ⟨List.length_range, fun position _ below => ?_⟩
    rw [List.get_eq_getElem, List.getElem_range]
    exact List.getElem?_eq_getElem below
  refine Op.answers_mapM (fun position item place => ?_) placed
  obtain ⟨below, rfl⟩ := List.getElem?_eq_some_iff.mp place
  exact getItem_answers fun later extends_ => item_of_list (extends_.kind? found) fits below

theorem readText_answers {text : String} (found : heap.kind? h = some (.string text)) :
    (readText h).Answers heap text := by
  have primitive : (Op.check (·.primitive h)).Answers heap (.string text) := by
    apply Op.answers_check
    intro later extends_
    rw [primitive_of_kind? (extends_.kind? found)]
    rfl
  exact primitive.bind (Op.answers_pure text)

theorem kind?_fresh (heap : Heap κ) (kind : Kind κ) :
    (heap.push (.object ⟨kind, .empty⟩)).kind? heap.fresh = some kind := by
  unfold kind? object?
  rw [cell?_push, if_pos rfl]
  rfl

/-- New strings stand next to each other with the texts that they were made of. -/
theorem allocStrings_eq_ok (texts : List String) (heap : Heap κ) :
    ∃ handles after, (allocStrings texts).run heap = .ok (handles, after) ∧ heap.Extends after ∧
      List.Forall₂ (fun h text => after.kind? h = some (.string text)) handles texts := by
  induction texts generalizing heap with
  | nil => exact ⟨[], heap, rfl, .refl heap, .nil⟩
  | cons text rest ih =>
      obtain ⟨handles, after, made, extends_, texts⟩ :=
        ih (heap.push (.object ⟨.string text, .empty⟩))
      have first : (heap.push (.object ⟨.string text, .empty⟩)).kind? heap.fresh =
          some (.string text) := kind?_fresh heap (.string text)
      have grown : heap.Extends (heap.push (.object ⟨.string text, .empty⟩)) :=
        .push heap _
      refine ⟨heap.fresh :: handles, after, ?_, grown.trans extends_,
        .cons (extends_.kind? first) texts⟩
      exact Op.bind_eq_ok_iff.mpr ⟨heap.fresh, _, rfl,
        Op.bind_eq_ok_iff.mpr ⟨handles, after, made, rfl⟩⟩

theorem readKeys_answers {entries : OrderedMap Handle} (found : heap.kind? h = some (.dict entries))
    (fits : FitsWord entries.size) : (readKeys h entries.size).Answers heap entries.keys := by
  apply Op.answers_bind
  intro later extends_
  obtain ⟨handles, after, made, grown, texts⟩ := allocStrings_eq_ok entries.keys later
  have length : handles.length = entries.size := by
    rw [texts.length_eq]
    exact List.length_map _
  have listed : (after.push (.object ⟨.list handles, .empty⟩)).kind? after.fresh =
      some (.list handles) := kind?_fresh after (.list handles)
  have more : after.Extends (after.push (.object ⟨.list handles, .empty⟩)) :=
    .push after _
  refine ⟨after.fresh, after.push (.object ⟨.list handles, .empty⟩), ?_, grown.trans more, ?_⟩
  · obtain ⟨attributes, present⟩ := cell?_of_kind? (extends_.kind? found)
    refine Op.bind_eq_ok_iff.mpr ⟨later, later, rfl, ?_⟩
    rw [object?_of_cell? present]
    exact Op.bind_eq_ok_iff.mpr ⟨handles, after, made, rfl⟩
  · rw [← length] at fits ⊢
    refine (fetchItems_answers listed fits).bind (Op.answers_mapM ?_ texts)
    intro item text found
    exact (readText_answers found).later more

/-! ### What reads back -/

/-- One more level than is needed for what a value holds is enough for the value. -/
theorem readsAs_of_step {kind : Kind κ} {arg : Arg κ} (found : heap.kind? h = some kind)
    (needed : Nat)
    (step : ∀ depth, needed ≤ depth → ∀ later, heap.Extends later → later.kind? h = some kind →
      (readBack (depth + 1) h).Answers later arg) : heap.ReadsAs h arg := by
  refine ⟨needed + 1, fun depth enough => ?_⟩
  cases depth with
  | zero => exact absurd enough (Nat.not_succ_le_zero needed)
  | succ depth =>
      intro later extends_
      exact step depth (Nat.le_of_succ_le_succ enough) later extends_ (extends_.kind? found) later
        (.refl later)

theorem readsAs_none (found : heap.kind? h = some .none) : heap.ReadsAs h .none := by
  refine readsAs_of_step found 0 fun depth _ later extends_ found => ?_
  apply Op.answers_get_bind
  intro later extends_
  rw [extends_.kind? found]
  exact Op.answers_pure _

theorem readsAs_bytes {data : List UInt8} (found : heap.kind? h = some (.bytes data)) :
    heap.ReadsAs h (.bytes data) := by
  refine readsAs_of_step found 0 fun depth _ later extends_ found => ?_
  apply Op.answers_get_bind
  intro later extends_
  rw [extends_.kind? found]
  exact Op.answers_pure _

theorem readsAs_primitive {kind : Kind κ} (primitive : Primitive)
    (found : heap.kind? h = some kind) (reads : kind.primitive? = some primitive) :
    heap.ReadsAs h (.ofPrimitive primitive) := by
  refine readsAs_of_step found 0 fun depth _ later extends_ found => ?_
  have looked : (Op.check (·.primitive h)).Answers later primitive := by
    apply Op.answers_check
    intro later extends_
    rw [primitive_of_kind? (extends_.kind? found), reads]
  have answers := looked.map (Arg.ofPrimitive (κ := κ))
  rw [map_eq_pure_bind] at answers
  apply Op.answers_get_bind
  intro later extends_
  rw [extends_.kind? found]
  cases kind with
  | bool value => exact answers.later extends_
  | int value => exact answers.later extends_
  | float value => exact answers.later extends_
  | string value => exact answers.later extends_
  | _ => cases reads

/-- Finitely many depths have a depth that is enough for all of them. -/
theorem exists_enough {α β : Type} {relation : Nat → α → β → Prop} {items : List α}
    {results : List β}
    (related : List.Forall₂ (fun item result => ∃ needed, ∀ depth, needed ≤ depth →
      relation depth item result) items results) :
    ∃ needed, ∀ depth, needed ≤ depth → List.Forall₂ (relation depth) items results := by
  induction related with
  | nil => exact ⟨0, fun depth _ => .nil⟩
  | cons first _ ih =>
      obtain ⟨own, first⟩ := first
      obtain ⟨others, rest⟩ := ih
      refine ⟨max own others, fun depth enough => ?_⟩
      exact .cons (first depth (by omega)) (rest depth (by omega))

theorem readsAs_list {items : List Handle} {args : List (Arg κ)}
    (found : heap.kind? h = some (.list items)) (fits : FitsWord items.length)
    (each : List.Forall₂ heap.ReadsAs items args) : heap.ReadsAs h (.list args) := by
  obtain ⟨needed, enough⟩ := exists_enough each
  refine readsAs_of_step found needed fun depth deep later extends_ found => ?_
  have parts : ((fetchItems h items.length) >>= fun handles =>
      handles.mapM (readBack depth)).Answers later args := by
    refine (fetchItems_answers found fits).bind (Op.answers_mapM ?_ (enough depth deep))
    intro item arg reads
    exact reads.later extends_
  have answers := parts.map Arg.list
  apply Op.answers_get_bind
  intro later extends_
  rw [extends_.kind? found]
  rw [map_eq_pure_bind, bind_assoc] at answers
  exact answers.later extends_

theorem readsAs_dict {entries : OrderedMap Handle} {args : List (String × Arg κ)}
    (found : heap.kind? h = some (.dict entries)) (fits : FitsWord entries.size)
    (each : List.Forall₂ (fun entry arg => entry.1 = arg.1 ∧ heap.ReadsAs entry.2 arg.2)
      entries.entries args) : heap.ReadsAs h (.dict args) := by
  have stored : List.Forall₂ (fun key arg => ∃ needed, ∀ depth, needed ≤ depth →
      ∃ value, entries.get? key = some value ∧ key = arg.1 ∧
        (readBack depth value).Answers heap arg.2) entries.keys args := by
    have members := (List.forall₂_and_left _ _).mpr
      ⟨fun entry member => OrderedMap.get?_of_mem (m := entries) member, each⟩
    refine List.forall₂_map_left_iff.mpr (members.imp ?_)
    rintro entry arg ⟨found, same, needed, answers⟩
    exact ⟨needed, fun depth enough => ⟨entry.2, found, same, answers depth enough⟩⟩
  obtain ⟨needed, enough⟩ := exists_enough stored
  refine readsAs_of_step found needed fun depth deep later extends_ found => ?_
  have parts : ((readKeys h entries.size) >>= fun keys => keys.mapM fun key => do
      return (key, ← readBack depth (← getItem h (.string key)))).Answers later args := by
    refine (readKeys_answers found fits).bind (Op.answers_mapM ?_ (enough depth deep))
    rintro key ⟨_, arg⟩ ⟨value, entry, rfl, reads⟩
    have item : (getItem h (.string key)).Answers later value := by
      apply getItem_answers
      intro later extends_
      obtain ⟨attributes, present⟩ := cell?_of_kind? (extends_.kind? found)
      exact item_entry present rfl entry
    exact item.bind ((reads.later extends_).bind (Op.answers_pure (key, arg)))
  have answers := parts.map Arg.dict
  apply Op.answers_get_bind
  intro later extends_
  rw [extends_.kind? found]
  rw [map_eq_pure_bind, bind_assoc] at answers
  exact answers.later extends_

end Heap

end Interop
