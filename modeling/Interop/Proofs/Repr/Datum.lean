import Interop.Proofs.Heap.Unfolding
import Interop.Proofs.Mapping.Writes
/-!
Values that are nothing but data, and their quoted text. A handle represents a datum if the datum is
what can be read off the heap from there. A value that contains itself represents none, and so the
text of one that represents a datum shows all of its parts, however deep they are.
-/

set_option autoImplicit false

namespace Interop

variable {κ : Type}

/-- None, a boolean, an integer or a string, or a list or a dict of such. -/
inductive Datum
  | none
  | bool (value : Bool)
  | int (value : Int64)
  | string (value : String)
  | list (items : List Datum)
  | dict (entries : List (String × Datum))

namespace Datum

/-- What a container holds, in order. -/
def parts : Datum → List Datum
  | list items => items
  | dict entries => entries.map Prod.snd
  | _ => []

theorem sizeOf_lt_of_mem_parts {datum part : Datum} (among : part ∈ datum.parts) :
    sizeOf part < sizeOf datum := by
  cases datum with
  | list items =>
      have smaller : sizeOf part < sizeOf items := List.sizeOf_lt_of_mem among
      rw [list.sizeOf_spec]
      omega
  | dict entries =>
      have smaller := Entries.sizeOf_lt_of_mem_values among
      rw [dict.sizeOf_spec]
      omega
  | _ => cases among

/-- What holds of a datum if it holds of its parts holds of every datum. -/
theorem induct_parts {p : Datum → Prop}
    (step : ∀ datum, (∀ part ∈ datum.parts, p part) → p datum) (datum : Datum) : p datum :=
  step datum fun part _ => induct_parts step part
termination_by sizeOf datum
decreasing_by exact sizeOf_lt_of_mem_parts ‹_›

/-- Something holds of a datum and of all that it contains. -/
inductive Every (p : Datum → Prop) : Datum → Prop
  | intro {datum : Datum} (here : p datum) (inside : ∀ part ∈ datum.parts, Every p part) :
    Every p datum

theorem every_iff {p : Datum → Prop} {datum : Datum} :
    datum.Every p ↔ p datum ∧ ∀ part ∈ datum.parts, part.Every p := by
  constructor
  · rintro ⟨here, inside⟩
    exact ⟨here, inside⟩
  · rintro ⟨here, inside⟩
    exact ⟨here, inside⟩

/-- A datum is nested to less than some depth. -/
def Within : Nat → Datum → Prop
  | 0, _ => False
  | depth + 1, datum => ∀ part ∈ datum.parts, Within depth part

def keys : Datum → List String
  | dict entries => entries.map Prod.fst
  | _ => []

/-- An entry of a dict as it is shown. -/
def entryText (key value : String) : String := "'" ++ key ++ "': " ++ value

/-- How a datum is shown. -/
def text : Datum → String
  | none => "None"
  | bool value => if value then "True" else "False"
  | int value => toString value.toInt
  | string value => singleQuoted value
  | list items => "[" ++ Text.commaSeparated (items.map text) ++ "]"
  | dict entries =>
    "\x7b" ++ Text.commaSeparated (entries.map fun entry => entryText entry.1 (text entry.2)) ++
      "\x7d"
termination_by datum => sizeOf datum
decreasing_by
  · exact @sizeOf_lt_of_mem_parts (list items) _ ‹_›
  · exact @sizeOf_lt_of_mem_parts (dict entries) _ (List.mem_map_of_mem ‹_›)

theorem map_eq_zipWith {α β γ δ : Type} (f : α → δ → γ) (g : β → δ) (entries : List (α × β)) :
    (entries.map fun entry => f entry.1 (g entry.2)) =
      List.zipWith f (entries.map Prod.fst) ((entries.map Prod.snd).map g) := by
  induction entries with
  | nil => rfl
  | cons entry rest ih =>
      rw [List.map_cons, ih]
      rfl

end Datum

namespace Heap

variable {heap after : Heap κ} {h : Handle} {datum other : Datum}

/-- What can be read off the heap from a handle is a datum. -/
inductive Represents (heap : Heap κ) : Handle → Datum → Prop
  | none {h : Handle} (found : heap.kind? h = some .none) : Represents heap h .none
  | bool {h : Handle} {value : Bool} (found : heap.kind? h = some (.bool value)) :
    Represents heap h (.bool value)
  | int {h : Handle} {value : Int64} (found : heap.kind? h = some (.int value)) :
    Represents heap h (.int value)
  | string {h : Handle} {value : String} (found : heap.kind? h = some (.string value)) :
    Represents heap h (.string value)
  | list {h : Handle} {items : List Handle} {data : List Datum}
    (found : heap.kind? h = some (.list items)) (each : List.Forall₂ (Represents heap) items data) :
    Represents heap h (.list data)
  | dict {h : Handle} {entries : OrderedMap Handle} {data : List (String × Datum)}
    (found : heap.kind? h = some (.dict entries)) (keyed : entries.keys = data.map Prod.fst)
    (each : List.Forall₂ (Represents heap) entries.values (data.map Prod.snd)) :
    Represents heap h (.dict data)

namespace Represents

theorem address_lt (represents : heap.Represents h datum) : h.address < heap.cells.size := by
  cases represents with
  | none found | bool found | int found | string found | list found | dict found =>
      obtain ⟨_, present⟩ := cell?_of_kind? found
      exact (Array.getElem?_eq_some_iff.mp present).1

theorem exists_parts (represents : heap.Represents h datum) :
    ∃ handles, List.Forall₂ heap.Represents handles datum.parts := by
  cases represents with
  | list _ each | dict _ _ each => exact ⟨_, each⟩
  | _ => exact ⟨[], .nil⟩

theorem unique (represents : heap.Represents h datum) (likewise : heap.Represents h other) :
    datum = other := by
  induction datum using Datum.induct_parts generalizing h other with
  | step datum ih =>
      have parts {handles : List Handle} {data : List Datum}
          (one : List.Forall₂ heap.Represents handles datum.parts)
          (other : List.Forall₂ heap.Represents handles data) : datum.parts = data :=
        eq_of_forall₂ one other fun part among _ _ represents => ih part among represents
      cases represents with
      | none found =>
          cases likewise with
          | none => rfl
          | bool found' | int found' | string found' | list found' | dict found' =>
              cases found.symm.trans found'
      | bool found =>
          cases likewise with
          | bool found' =>
              cases found.symm.trans found'
              rfl
          | none found' | int found' | string found' | list found' | dict found' =>
              cases found.symm.trans found'
      | int found =>
          cases likewise with
          | int found' =>
              cases found.symm.trans found'
              rfl
          | none found' | bool found' | string found' | list found' | dict found' =>
              cases found.symm.trans found'
      | string found =>
          cases likewise with
          | string found' =>
              cases found.symm.trans found'
              rfl
          | none found' | bool found' | int found' | list found' | dict found' =>
              cases found.symm.trans found'
      | list found each =>
          cases likewise with
          | list found' each' =>
              cases found.symm.trans found'
              exact congrArg Datum.list (parts each each')
          | none found' | bool found' | int found' | string found' | dict found' =>
              cases found.symm.trans found'
      | dict found keyed each =>
          cases likewise with
          | dict found' keyed' each' =>
              cases found.symm.trans found'
              have zipped := List.zip_of_prod (keyed.symm.trans keyed') (parts each each')
              rw [zipped, ← List.zip_of_prod rfl rfl]
          | none found' | bool found' | int found' | string found' | list found' =>
              cases found.symm.trans found'

theorem later (represents : heap.Represents h datum) (extends_ : heap.Extends after) :
    after.Represents h datum := by
  induction datum using Datum.induct_parts generalizing h with
  | step datum ih =>
      have parts {handles : List Handle}
          (each : List.Forall₂ heap.Represents handles datum.parts) :
          List.Forall₂ after.Represents handles datum.parts :=
        forall₂_imp_of_mem each fun part among _ represents => ih part among represents
      cases represents with
      | none found => exact .none (extends_.kind? found)
      | bool found => exact .bool (extends_.kind? found)
      | int found => exact .int (extends_.kind? found)
      | string found => exact .string (extends_.kind? found)
      | list found each => exact .list (extends_.kind? found) (parts each)
      | dict found keyed each => exact .dict (extends_.kind? found) keyed (parts each)

theorem nodup_keys (represents : heap.Represents h datum) : datum.keys.Nodup := by
  cases represents with
  | @dict _ entries _ _ keyed _ =>
      have distinct : entries.keys.Nodup := entries.distinct
      rw [keyed] at distinct
      exact distinct
  | _ => exact List.nodup_nil

theorem distinct (represents : heap.Represents h datum) :
    datum.Every fun datum => datum.keys.Nodup := by
  induction datum using Datum.induct_parts generalizing h with
  | step datum ih =>
      obtain ⟨handles, each⟩ := represents.exists_parts
      refine Datum.every_iff.mpr ⟨represents.nodup_keys, fun part among => ?_⟩
      obtain ⟨k, inner⟩ := exists_of_forall₂_of_mem each among
      exact ih part among inner

theorem unfolds (heap : Heap κ) : heap.Unfolds Datum.parts heap.Represents where
  smaller := Datum.sizeOf_lt_of_mem_parts
  unique := unique
  address_lt := address_lt
  exists_part := by
    intro h datum part represents among
    obtain ⟨handles, each⟩ := represents.exists_parts
    exact exists_of_forall₂_of_mem each among

theorem within (represents : heap.Represents h datum) : datum.Within heap.depthBound :=
  (unfolds heap).holds (fun _ _ inside => inside) represents

end Represents

/-- What is shown of a value inside of others, and in its description. -/
def repr (heap : Heap κ) (h : Handle) : String := heap.render heap.depthBound true h

theorem render_eq_text {depth : Nat} (within : datum.Within depth)
    (represents : heap.Represents h datum) : heap.render depth true h = datum.text := by
  induction datum using Datum.induct_parts generalizing h depth with
  | step datum ih =>
      cases depth with
      | zero => exact absurd within id
      | succ depth =>
          have parts {handles : List Handle}
              (each : List.Forall₂ heap.Represents handles datum.parts) :
              handles.map (heap.render depth true) = datum.parts.map Datum.text :=
            map_eq_map_of_forall₂ each fun part among _ represents =>
              ih part among (within part among) represents
          cases represents with
          | none found | bool found | int found =>
              obtain ⟨_, present⟩ := cell?_of_kind? found
              rw [render, present, Datum.text]
          | string found =>
              obtain ⟨_, present⟩ := cell?_of_kind? found
              rw [render, present, Datum.text]
              rfl
          | list found each =>
              obtain ⟨_, present⟩ := cell?_of_kind? found
              rw [render, present, Datum.text]
              dsimp only
              rw [parts each]
              rfl
          | @dict _ entries _ found keyed each =>
              obtain ⟨_, present⟩ := cell?_of_kind? found
              rw [render, present, Datum.text]
              dsimp only
              have shown := Datum.map_eq_zipWith Datum.entryText (heap.render depth true)
                entries.entries
              rw [Datum.map_eq_zipWith, ← Datum.parts, ← parts each, ← keyed]
              exact congrArg (fun texts => "\x7b" ++ Text.commaSeparated texts ++ "\x7d") shown

namespace Represents

theorem repr_eq (represents : heap.Represents h datum) : heap.repr h = datum.text :=
  render_eq_text represents.within represents

theorem describe_eq (represents : heap.Represents h datum) :
    heap.describe h = "MemoryObject(" ++ heap.repr h ++ ")" := by
  cases represents with
  | none found | bool found | int found | string found | list found | dict found =>
      obtain ⟨_, present⟩ := cell?_of_kind? found
      unfold describe
      rw [present]
      rfl

end Represents

end Heap
end Interop
