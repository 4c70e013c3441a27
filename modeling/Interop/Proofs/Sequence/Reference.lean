import Interop.Proofs.Sequence.Selection
import Mathlib.Logic.Function.Basic
/-!
Mutable sequences as one thinks of them: each has a name and contents of its own, and whatever makes
a sequence, or a queue of what a sequence holds, makes a new one. This is what lists are compared
with.
-/

set_option autoImplicit false

namespace Interop

/-- What stands under a name: the items of a sequence, or those of a queue that are still to
come. -/
inductive Contents
  | list (items : List Handle)
  | queue (items : List Handle)

/-- Sequences and queues by their names. -/
abbrev Sequences := Handle → Option Contents

/-- A key of a sequence. -/
inductive Key
  | position (index : Int)
  | part (start stop step : Option Int)
  | other

/-- Something done to sequences. An item is missing if it could not be made. -/
inductive Edit
  | append (list : Handle) (item : Option Handle)
  | pop (list : Handle)
  | assign (list : Handle) (key : Key) (item : Option Handle)
  | copy (list : Handle)
  | concat (left right : Handle)
  | read (list : Handle) (key : Key)
  | iterate (list : Handle)
  | next (queue : Handle)
  | length (list : Handle)

/-- What comes of an edit that succeeds. -/
inductive Answer
  | done
  | item (item : Handle)
  | exhausted
  | length (length : Nat)
  deriving DecidableEq

/-- The place of an index, which counts from the end if it is negative. -/
def place? (length : Nat) (index : Int) : Option Nat :=
  if 0 ≤ index ∧ index < length then some index.toNat
  else if -length ≤ index ∧ index < 0 then some (length + index).toNat
  else none

def Key.place? (length : Nat) : Key → Option Nat
  | .position index => Interop.place? length index
  | .part .. => none
  | .other => none

/-- The sequence or queue that an edit is to change. -/
def Edit.changes? : Edit → Option Handle
  | .append list _ => some list
  | .pop list => some list
  | .assign list _ _ => some list
  | .next queue => some queue
  | _ => none

namespace Sequences

def list? (s : Sequences) (name : Handle) : Option (List Handle) :=
  match s name with
  | some (.list items) => some items
  | _ => none

def queue? (s : Sequences) (name : Handle) : Option (List Handle) :=
  match s name with
  | some (.queue items) => some items
  | _ => none

/-- The sequences with other contents under one name. -/
def set (s : Sequences) (name : Handle) (contents : Contents) : Sequences :=
  Function.update s name (some contents)

/-- What an edit answers, and the contents it gives to what it changes or makes; `new` is the name
of what it makes. There is nothing if the edit is refused. -/
def effect (s : Sequences) (new : Handle) : Edit → Option (Answer × Option Contents)
  | .append list item => do
    let items ← s.list? list
    let item ← item
    return (.done, some (.list (items ++ [item])))
  | .pop list => do
    let items ← s.list? list
    let last ← items.getLast?
    return (.item last, some (.list items.dropLast))
  | .assign list key item => do
    let items ← s.list? list
    let item ← item
    let place ← key.place? items.length
    return (.done, some (.list (items.set place item)))
  | .copy list => do
    let items ← s.list? list
    return (.item new, some (.list items))
  | .concat left right => do
    let front ← s.list? left
    let back ← s.list? right
    return (.item new, some (.list (front ++ back)))
  | .read list key => do
    let items ← s.list? list
    match key with
    | .position index => do
      let place ← place? items.length index
      let item ← items[place]?
      return (.item item, none)
    | .part start stop step =>
      if step.getD 1 = 0 then none
      else
        let taken := (selection items.length start stop step).filterMap (items[·]?)
        return (.item new, some (.list taken))
    | .other => none
  | .iterate list => do
    let items ← s.list? list
    return (.item new, some (.queue items))
  | .next queue => do
    match ← s.queue? queue with
    | [] => return (.exhausted, none)
    | item :: rest => return (.item item, some (.queue rest))
  | .length list => do
    let items ← s.list? list
    return (.length items.length, none)

/-- The sequences after an edit has given contents to what it changes or makes. -/
def received (s : Sequences) (new : Handle) (edit : Edit) : Option Contents → Sequences
  | some contents => s.set (edit.changes?.getD new) contents
  | none => s

/-- Whatever is there stays as it is, and more may be there. -/
def Grows (s later : Sequences) : Prop :=
  ∀ name contents, s name = some contents → later name = some contents

theorem Grows.refl (s : Sequences) : s.Grows s := fun _ _ found => found

theorem Grows.trans {first second third : Sequences} (early : first.Grows second)
    (late : second.Grows third) : first.Grows third :=
  fun name contents found => late name contents (early name contents found)

/-- One edit, with whatever is made besides. -/
inductive Step (s : Sequences) (edit : Edit) : Option Answer → Sequences → Prop
  | done {new : Handle} {answer : Answer} {contents : Option Contents} {after : Sequences}
      (isNew : s new = none) (effect : s.effect new edit = some (answer, contents))
      (grows : (s.received new edit contents).Grows after) : Step s edit (some answer) after
  | refused {after : Sequences} (refused : ∀ new, s.effect new edit = none)
      (grows : s.Grows after) : Step s edit none after

/-- Edits one after another, each with its answer. Between them other sequences may be made. -/
inductive Runs : Sequences → List (Edit × Option Answer) → Sequences → Prop
  | nil (s : Sequences) : Runs s [] s
  | grow {s mid after : Sequences} {trace : List (Edit × Option Answer)} (grows : s.Grows mid)
      (rest : Runs mid trace after) : Runs s trace after
  | step {s mid after : Sequences} {edit : Edit} {answer : Option Answer}
      {trace : List (Edit × Option Answer)} (step : s.Step edit answer mid)
      (rest : Runs mid trace after) : Runs s ((edit, answer) :: trace) after

/-! ### Independence -/

variable {s mid after : Sequences} {name new : Handle} {contents : Contents}

theorem set_of_ne {other : Handle} (different : other ≠ name) :
    s.set name contents other = s other := Function.update_of_ne different _ _

theorem set_self : s.set name contents name = some contents := Function.update_self _ _ _

/-- What an edit does not change, and is not new, keeps its contents. -/
theorem received_of_untouched {edit : Edit} {received : Option Contents}
    (untouched : edit.changes? ≠ some name) (different : name ≠ new) :
    s.received new edit received name = s name := by
  cases received with
  | none => rfl
  | some contents =>
      apply set_of_ne
      cases target : edit.changes? with
      | none => exact different
      | some changed =>
          rintro rfl
          exact untouched target

/-- Changes of other sequences do not show in a sequence or a queue, however it came about. -/
theorem Runs.untouched {trace : List (Edit × Option Answer)} (runs : s.Runs trace after)
    (others : ∀ entry ∈ trace, entry.1.changes? ≠ some name) (found : s name = some contents) :
    after name = some contents := by
  induction runs with
  | nil s => exact found
  | grow grows _ ih => exact ih others (grows name contents found)
  | step step _ ih =>
      have here := others _ List.mem_cons_self
      have later := fun entry among => others entry (List.mem_cons_of_mem _ among)
      cases step with
      | refused _ grows => exact ih later (grows name contents found)
      | @done new _ _ _ isNew _ grows =>
          have different : name ≠ new := by
            rintro rfl
            rw [isNew] at found
            cases found
          exact ih later (grows name contents ((received_of_untouched here different).trans found))

end Sequences

end Interop
