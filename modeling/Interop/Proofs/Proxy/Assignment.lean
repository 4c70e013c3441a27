import Interop.Proofs.Mapping.Writes
import Interop.Proofs.Proxy.ReadAfterWrite
/-!
Assignments are atomic and local. A name stands for at most one slot of an object that a value can
be put in. An assignment fills this slot and touches nothing else, or it is refused, because there
is no slot or the value cannot be marshalled, and then it leaves no trace at all.
-/

set_option autoImplicit false

namespace Interop

variable {κ σ : Type}

/-- A part of an object that an assignment can fill. -/
inductive Slot
  /-- A position of a list. -/
  | position (place : Nat)
  /-- The entry of a dict at a key. -/
  | entry (key : String)
  /-- An attribute among those set on the object itself. -/
  | named (name : String)
  deriving DecidableEq

namespace Kind

/-- The keys of the entries, in order. -/
def keys : Kind κ → List String
  | .dict entries => entries.keys
  | _ => []

/-- What is left of a kind of object without its positions and entries. -/
def vacated : Kind κ → Kind κ
  | .list _ => .list []
  | .dict _ => .dict .empty
  | kind => kind

end Kind

namespace HeapObject

/-- What stands in a slot of an object. -/
def held? (object : HeapObject κ) : Slot → Option Handle
  | .position place =>
    match object.kind with
    | .list items => items[place]?
    | _ => none
  | .entry key =>
    match object.kind with
    | .dict entries => entries.get? key
    | _ => none
  | .named name => object.attributes.get? name

/-- Whether a value can be put in a slot of an object. A position must be there already. -/
def Offers (object : HeapObject κ) : Slot → Prop
  | .position place => ∃ items, object.kind = .list items ∧ place < items.length
  | .entry _ => ∃ entries, object.kind = .dict entries
  | .named _ => object.kind.acceptsAttributes = true

/-- The object with a value in one of its slots. -/
def fill (object : HeapObject κ) (slot : Slot) (stored : Handle) : HeapObject κ :=
  match slot, object.kind with
  | .position place, .list items => { object with kind := .list (items.set place stored) }
  | .entry key, .dict entries => { object with kind := .dict (entries.insert key stored) }
  | .named name, _ => { object with attributes := object.attributes.insert name stored }
  | _, _ => object

/-- One object is another with a single slot filled. The slot holds the value, every other slot
holds what it held, what is no slot is as it was, and keys and names keep their order, with new
ones at the end. -/
structure Fills (before : HeapObject κ) (slot : Slot) (stored : Handle) (after : HeapObject κ) :
    Prop where
  holds : after.held? slot = some stored
  others : ∀ other, other ≠ slot → after.held? other = before.held? other
  rest : after.kind.vacated = before.kind.vacated
  keys : before.kind.keys <+: after.kind.keys
  names : before.attributes.keys <+: after.attributes.keys

end HeapObject

/-! ### One slot -/

namespace HeapObject

variable {object : HeapObject κ} {slot : Slot}

/-- Filling a slot that an object offers changes nothing but this slot. -/
theorem fills_fill (offers : object.Offers slot) (stored : Handle) :
    object.Fills slot stored (object.fill slot stored) := by
  obtain ⟨kind, attributes⟩ := object
  cases slot with
  | position place =>
      obtain ⟨items, rfl, inside⟩ := offers
      refine ⟨List.getElem?_set_self inside, ?_, rfl, List.prefix_rfl, List.prefix_rfl⟩
      intro other different
      cases other with
      | position k =>
          have apart : place ≠ k := fun same => different (congrArg Slot.position same.symm)
          exact List.getElem?_set_ne apart
      | entry key => rfl
      | named name => rfl
  | entry key =>
      obtain ⟨entries, rfl⟩ := offers
      refine ⟨?_, ?_, rfl, entries.keys_prefix_insert key stored, List.prefix_rfl⟩
      · exact (entries.get?_insert key key stored).trans (if_pos rfl)
      · intro other different
        cases other with
        | position place => rfl
        | entry k =>
            have apart : key ≠ k := fun same => different (congrArg Slot.entry same.symm)
            exact (entries.get?_insert key k stored).trans (if_neg apart)
        | named name => rfl
  | named name =>
      refine ⟨?_, ?_, rfl, List.prefix_rfl, attributes.keys_prefix_insert name stored⟩
      · exact (attributes.get?_insert name name stored).trans (if_pos rfl)
      · intro other different
        cases other with
        | position place => rfl
        | entry key => rfl
        | named k =>
            have apart : name ≠ k := fun same => different (congrArg Slot.named same.symm)
            exact (attributes.get?_insert name k stored).trans (if_neg apart)

end HeapObject

/-! ### The slot of a name -/

namespace Heap

/-- The slot that a name stands for when a proxy writes: a position, else an attribute, else an
entry. A dict has entries for all names but those of its methods. -/
def slotFor? (heap : Heap κ) (h : Handle) (kind : Kind κ) (name : String) : Option Slot :=
  match position? name, kind with
  | some index, .list items => (resolveIndex? index items.length).map .position
  | some _, _ => none
  | none, .dict _ => if heap.hasAttr h name then none else some (.entry name)
  | none, kind => if kind.acceptsAttributes then some (.named name) else none

variable {heap : Heap κ} {h : Handle} {object : HeapObject κ} {name : String}

theorem offers_of_slotFor? {slot : Slot} (found : heap.slotFor? h object.kind name = some slot) :
    object.Offers slot := by
  unfold slotFor? at found
  split at found
  · rename_i index items _ isList
    obtain ⟨place, resolved, rfl⟩ := Option.map_eq_some_iff.mp found
    exact ⟨items, isList, lt_of_resolveIndex? resolved⟩
  · cases found
  · rename_i entries _ isDict
    split at found
    · cases found
    · cases found
      exact ⟨entries, isDict⟩
  · split at found
    · rename_i accepts
      cases found
      exact accepts
    · cases found

/-- The heap after a value was put in a slot of an object, if there is one and the value can be
marshalled. -/
def assign (heap : Heap κ) (h : Handle) (object : HeapObject κ) (slot? : Option Slot)
    (value : Arg κ) : Status × Heap κ :=
  match slot?, (marshal value).run heap with
  | some slot, .ok (stored, made) => (.ok, made.write h (.object (object.fill slot stored)))
  | _, _ => (.failure, heap)

theorem assign_of_ok {slot : Slot} {value : Arg κ} {stored : Handle} {made : Heap κ}
    (marshalled : (marshal value).run heap = .ok (stored, made)) :
    heap.assign h object (some slot) value =
      (.ok, made.write h (.object (object.fill slot stored))) := by
  unfold assign
  rw [marshalled]

theorem assign_of_error {slot? : Option Slot} {value : Arg κ} {fault : Fault}
    (refused : (marshal value).run heap = .error fault) :
    heap.assign h object slot? value = (.failure, heap) := by
  unfold assign
  rw [refused]
  cases slot? with
  | none => rfl
  | some slot => rfl

theorem assign_none (value : Arg κ) : heap.assign h object none value = (.failure, heap) := rfl

theorem setAttr_eq (found : heap.cell? h = some (.object object)) (value : Arg κ) :
    heap.setAttr h name value = heap.assign h object
      (if object.kind.acceptsAttributes then some (.named name) else none) value := by
  unfold setAttr
  rw [found]
  dsimp only
  split
  · cases marshalled : (marshal value).run heap with
    | error fault => exact (assign_of_error marshalled).symm
    | ok pair =>
        rw [assign_of_ok marshalled]
        rfl
  · rfl

/-- Storing an item fills a slot, if the object stores it as it fills the slot. -/
theorem setItem_eq (found : heap.cell? h = some (.object object)) {key : Arg κ}
    {slot? : Option Slot}
    (stores : ∀ stored, (object.kind.storing (heap.plainKey key) stored).map
      (fun kind => { object with kind := kind }) = slot?.map (object.fill · stored))
    (value : Arg κ) : heap.setItem h key value = heap.assign h object slot? value := by
  unfold setItem
  rw [found]
  dsimp only
  cases marshalled : (marshal value).run heap with
  | error fault => exact (assign_of_error marshalled).symm
  | ok pair =>
      have same := stores pair.1
      dsimp only
      cases slot? with
      | none =>
          rw [Option.map_eq_none_iff.mp same]
          rfl
      | some slot =>
          obtain ⟨kind, stored, filled⟩ := Option.map_eq_some_iff.mp same
          have filled : { object with kind := kind } = object.fill slot pair.1 := filled
          rw [stored, assign_of_ok marshalled, ← filled]

theorem setItem_text_of_dict {entries : OrderedMap Handle}
    (found : heap.cell? h = some (.object object)) (isDict : object.kind = .dict entries)
    (name : String) (value : Arg κ) :
    heap.setItem h (.string name) value = heap.assign h object (some (.entry name)) value := by
  apply setItem_eq found
  intro stored
  obtain ⟨kind, attributes⟩ := object
  cases isDict
  rfl

theorem setItem_text_of_not_dict (found : heap.cell? h = some (.object object))
    (notDict : ∀ entries, object.kind ≠ .dict entries) (name : String) (value : Arg κ) :
    heap.setItem h (.string name) value = (.failure, heap) := by
  have noSlot : heap.setItem h (.string name) value = heap.assign h object none value := by
    apply setItem_eq found
    intro stored
    cases sort : object.kind with
    | dict entries => exact absurd sort (notDict entries)
    | _ => rfl
  exact noSlot.trans (assign_none value)

/-- What a proxy does with the heap under a name that is no position. -/
def storeText (heap : Heap κ) (h : Handle) (name : String) (value : Arg κ) : Status × Heap κ :=
  if heap.hasAttr h name then heap.setAttr h name value
  else
    let (status, after) := heap.setItem h (.string name) value
    if status.isOk then (status, after) else after.setAttr h name value

/-- A dict takes any name as a key that is not the name of one of its methods. -/
theorem storeText_of_dict {entries : OrderedMap Handle}
    (found : heap.cell? h = some (.object object)) (isDict : object.kind = .dict entries)
    (name : String) (value : Arg κ) :
    heap.storeText h name value =
      heap.assign h object (if heap.hasAttr h name then none else some (.entry name)) value := by
  have noAttributes : heap.setAttr h name value = (.failure, heap) := by
    rw [setAttr_eq found, isDict]
    rfl
  unfold storeText
  rw [setItem_text_of_dict found isDict]
  split
  · exact noAttributes
  · cases marshalled : (marshal value).run heap with
    | error fault =>
        rw [assign_of_error marshalled]
        exact noAttributes
    | ok pair =>
        rw [assign_of_ok marshalled]
        rfl

/-- On anything else the attribute is set in the end, also where there was none. -/
theorem storeText_of_not_dict (found : heap.cell? h = some (.object object))
    (notDict : ∀ entries, object.kind ≠ .dict entries) (name : String) (value : Arg κ) :
    heap.storeText h name value = heap.assign h object
      (if object.kind.acceptsAttributes then some (.named name) else none) value := by
  unfold storeText
  rw [setItem_text_of_not_dict found notDict, ← setAttr_eq found]
  exact ite_self _

/-- What a proxy does with the heap: it puts the value in the slot of the name. -/
theorem storeMember_eq (found : heap.cell? h = some (.object object)) (name : String)
    (value : Arg κ) :
    heap.storeMember h name value =
      heap.assign h object (heap.slotFor? h object.kind name) value := by
  unfold storeMember slotFor?
  cases isPosition : position? name with
  | some index =>
      apply setItem_eq found
      intro stored
      obtain ⟨kind, attributes⟩ := object
      cases kind with
      | list items =>
          dsimp only [Kind.storing, plainKey]
          cases resolveIndex? index items.length with
          | none => rfl
          | some place => rfl
      | _ => rfl
  | none =>
      cases sort : object.kind with
      | dict entries => exact storeText_of_dict found sort name value
      | _ =>
          refine (storeText_of_not_dict found ?_ name value).trans ?_
          · rw [sort]
            exact nofun
          · rw [sort]

theorem assign_isOk_iff {slot? : Option Slot} {value : Arg κ} :
    (heap.assign h object slot? value).1.isOk = true ↔
      slot?.isSome = true ∧ ∀ n ∈ value.bigs, FitsWord n := by
  rw [← marshal_eq_ok_iff value heap]
  cases slot? with
  | none => exact iff_of_false nofun fun both => nomatch both.1
  | some slot =>
      cases marshalled : (marshal value).run heap with
      | error fault =>
          rw [assign_of_error marshalled]
          exact iff_of_false nofun fun ⟨_, _, _, made⟩ => nomatch made
      | ok pair =>
          rw [assign_of_ok marshalled]
          exact iff_of_true rfl ⟨rfl, pair.1, pair.2, rfl⟩

theorem assign_of_not_isOk {slot? : Option Slot} {value : Arg κ}
    (refused : (heap.assign h object slot? value).1.isOk = false) :
    (heap.assign h object slot? value).2 = heap := by
  cases slot? with
  | none => rfl
  | some slot =>
      cases marshalled : (marshal value).run heap with
      | error fault => rw [assign_of_error marshalled]
      | ok pair =>
          rw [assign_of_ok marshalled] at refused
          cases refused

/-- The values that there were are as before, but for one slot of one object, which has taken a
value. -/
structure Assigned (heap : Heap κ) (h : Handle) (slot : Slot) (value : Arg κ) (after : Heap κ) :
    Prop where
  filled : ∃ object changed stored made, heap.object? h = some object ∧
    after.object? h = some changed ∧ object.Fills slot stored changed ∧
    (marshal value).run heap = .ok (stored, made) ∧ ∀ k, k ≠ h → after.cell? k = made.cell? k
  others : ∀ k cell, k ≠ h → heap.cell? k = some cell → after.cell? k = some cell

theorem assigned_of_isOk {slot? : Option Slot} {value : Arg κ}
    (found : heap.cell? h = some (.object object))
    (offers : ∀ slot, slot? = some slot → object.Offers slot)
    (accepted : (heap.assign h object slot? value).1.isOk = true) :
    ∃ slot, slot? = some slot ∧
      heap.Assigned h slot value (heap.assign h object slot? value).2 := by
  obtain ⟨offered, fits⟩ := assign_isOk_iff.mp accepted
  obtain ⟨slot, rfl⟩ := Option.isSome_iff_exists.mp offered
  obtain ⟨stored, made, marshalled⟩ := (marshal_eq_ok_iff value heap).mpr fits
  have kept : heap.Extends made := moves_marshal value heap stored made marshalled
  refine ⟨slot, rfl, ?_⟩
  rw [assign_of_ok marshalled]
  have there := cell?_write_self (kept h _ found) (.object (object.fill slot stored))
  refine ⟨⟨object, _, stored, made, object?_of_cell? found, object?_of_cell? there,
    HeapObject.fills_fill (offers slot rfl) stored, marshalled, fun k other =>
      cell?_write_of_ne other _⟩, fun k cell other before => ?_⟩
  exact (cell?_write_of_ne other _).trans (kept k cell before)

end Heap

/-- A write through a proxy puts its value in the slot of the name. -/
theorem Machine.run_set_assign (host : Host κ σ) (below : Handler κ σ) {p : Proxy κ}
    {world : World κ σ} {object : HeapObject κ}
    (found : world.heap.cell? p.handle = some (.object object)) (name : String) (value : Arg κ) :
    let assigned := world.heap.assign p.handle object
      (world.heap.slotFor? p.handle object.kind name) value
    (runProgram (layer host below) (p.set name value)).run world =
      some (.ok assigned.1.isOk, { world with heap := assigned.2 }) := by
  intro assigned
  rw [run_set, Heap.storeMember_eq found name value]

/-- Assignment through a proxy is atomic and local. It always answers. It answers true exactly if
the name stands for a slot of the value and the argument can be marshalled; then just this slot of
just this value holds the argument's foreign form, and everything else that there was is as it was.
Where it answers false, nothing has happened, however deep in the argument the refusal came. -/
theorem Proxy.set_atomic (host : Host κ σ) {p : Proxy κ} {world : World κ σ} {object : HeapObject κ}
    (isObject : world.heap.object? p.handle = some object) (name : String) (value : Arg κ)
    (layers : Nat) :
    ∃ accepted after,
      (Machine.runProgram (Machine.answer host (layers + 1)) (p.set name value)).run world =
        some (.ok accepted, { world with heap := after }) ∧
      (accepted = true ↔ (world.heap.slotFor? p.handle object.kind name).isSome = true ∧
        ∀ n ∈ value.bigs, FitsWord n) ∧
      (accepted = true → ∃ slot, world.heap.slotFor? p.handle object.kind name = some slot ∧
        world.heap.Assigned p.handle slot value after) ∧
      (accepted = false → after = world.heap) := by
  have found := Heap.cell?_of_object? isObject
  exact ⟨_, _, Machine.run_set_assign host (Machine.answer host layers) found name value,
    Heap.assign_isOk_iff,
    Heap.assigned_of_isOk found fun slot offered => Heap.offers_of_slotFor? offered,
    Heap.assign_of_not_isOk⟩

/-- A new binding of the global namespace, and one that is refused for an integer deep inside. -/
theorem Proxy.set_atomic_globals :
    let world : World Unit Unit := .start {} .standard ()
    let globals : Proxy Unit := .mk world.globals ⟨"builtins", "dict"⟩ []
    let nested : Arg Unit := .list [.int 1, .dict [("big", .big (2 ^ 63))]]
    let set (value : Arg Unit) := (Machine.runProgram (Machine.answer Host.answeringNone 1)
      (globals.set "count" value)).run world
    (∃ after, set (.int 5) = some (.ok true, { world with heap := after }) ∧
      world.heap.Assigned globals.handle (.entry "count") (.int 5) after) ∧
    set nested = some (.ok false, world) := by
  intro world globals nested set
  have isObject : world.heap.object? globals.handle = some ⟨.dict .empty, .empty⟩ := rfl
  constructor
  · obtain ⟨accepted, after, finished, iff, fills, _⟩ :=
      Proxy.set_atomic Host.answeringNone isObject "count" (.int 5) 0
    have isTrue : accepted = true := iff.mpr ⟨rfl, List.forall_mem_nil _⟩
    obtain ⟨slot, named, assigned⟩ := fills isTrue
    cases named
    rw [isTrue] at finished
    exact ⟨after, finished, assigned⟩
  · obtain ⟨accepted, after, finished, iff, _, untouched⟩ :=
      Proxy.set_atomic Host.answeringNone isObject "count" nested 0
    have isFalse : accepted = false := by
      rw [← Bool.not_eq_true, iff]
      exact fun both => absurd (both.2 (2 ^ 63) (by decide)) (by decide)
    rw [isFalse, untouched isFalse] at finished
    exact finished

end Interop
