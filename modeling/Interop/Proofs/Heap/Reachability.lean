import Interop.Proofs.Heap.Evolution
/-!
What can be reached from a value. A value is apart from another if it does not lead there. A change
of the heap shelters a value if that value stays as it is and nothing that was apart from it comes
to lead there.
-/

set_option autoImplicit false

namespace Interop

variable {κ α : Type}

/-- The values that an object holds: its elements or entries, its class, or its receiver. -/
def Kind.handles : Kind κ → List Handle
  | .list items => items
  | .tuple items => items
  | .dict entries => entries.values
  | .iterator items => items
  | .instanceOf cls => [cls]
  | .boundMethod receiver _ _ => [receiver]
  | .hostMethod receiver _ => [receiver]
  | _ => []

def StubStep.handles : StubStep → List Handle
  | .item handle => [handle]
  | .fail _ _ => []

/-- The values that a cell holds, among them those set as attributes. -/
def Cell.handles : Cell κ → List Handle
  | .object content => content.kind.handles ++ content.attributes.values
  | .stub content =>
    content.typeObject ::
      (content.items ++ content.attributes.values ++ content.script.flatMap StubStep.handles)

mutual

/-- The foreign values in an argument. -/
def Arg.handles : Arg κ → List Handle
  | .list items => handlesAll items
  | .dict entries => handlesEntries entries
  | .keywords entries => handlesEntries entries
  | .handle h => [h]
  | _ => []

def Arg.handlesAll : List (Arg κ) → List Handle
  | [] => []
  | arg :: rest => arg.handles ++ handlesAll rest

def Arg.handlesEntries : List (String × Arg κ) → List Handle
  | [] => []
  | (_, arg) :: rest => arg.handles ++ handlesEntries rest

end

theorem Arg.mem_handlesAll {args : List (Arg κ)} {k : Handle} :
    k ∈ Arg.handlesAll args ↔ ∃ arg ∈ args, k ∈ arg.handles := by
  induction args with
  | nil => simp [Arg.handlesAll]
  | cons arg rest ih => simp [Arg.handlesAll, ih]

theorem Arg.mem_handlesEntries {entries : List (String × Arg κ)} {k : Handle} :
    k ∈ Arg.handlesEntries entries ↔ ∃ entry ∈ entries, k ∈ entry.2.handles := by
  induction entries with
  | nil => simp [Arg.handlesEntries]
  | cons entry rest ih => simp [Arg.handlesEntries, ih]

namespace Heap

/-- One value holds another. -/
def Points (heap : Heap κ) (h k : Handle) : Prop :=
  ∃ cell, heap.cell? h = some cell ∧ k ∈ cell.handles

/-- A value leads to another, in any number of steps. -/
def Reaches (heap : Heap κ) : Handle → Handle → Prop := Relation.ReflTransGen heap.Points

/-- A value does not lead to `g`, and all that it leads to is there. -/
def Apart (g : Handle) (heap : Heap κ) (h : Handle) : Prop :=
  ∀ k, heap.Reaches h k → k ≠ g ∧ (heap.cell? k).isSome = true

def AllApart (g : Handle) (heap : Heap κ) (handles : List Handle) : Prop :=
  ∀ h ∈ handles, heap.Apart g h

/-- A value that was there is as it was, and what was apart from it still is. -/
def Shelters (g : Handle) (heap after : Heap κ) : Prop :=
  (heap.cell? g).isSome = true →
    after.cell? g = heap.cell? g ∧ ∀ h, heap.Apart g h → after.Apart g h

variable {g : Handle} {heap after : Heap κ}

/-! ### Apart -/

theorem Apart.ne {h : Handle} (apart : heap.Apart g h) : h ≠ g := (apart h .refl).1

theorem Apart.isSome {h : Handle} (apart : heap.Apart g h) : (heap.cell? h).isSome = true :=
  (apart h .refl).2

theorem Apart.points {h k : Handle} (apart : heap.Apart g h) (points : heap.Points h k) :
    heap.Apart g k :=
  fun last reaches => apart last (reaches.head points)

theorem Apart.reaches {h k : Handle} (apart : heap.Apart g h) (reaches : heap.Reaches h k) :
    heap.Apart g k :=
  fun last rest => apart last (reaches.trans rest)

theorem Apart.handles {h : Handle} {cell : Cell κ} (apart : heap.Apart g h)
    (found : heap.cell? h = some cell) : heap.AllApart g cell.handles :=
  fun _ member => apart.points ⟨cell, found, member⟩

/-- Values are apart if they are among values that hold each other only. -/
theorem apart_of_closed {among : Handle → Prop}
    (closed : ∀ h, among h → h ≠ g ∧ ∃ cell, heap.cell? h = some cell ∧ ∀ k ∈ cell.handles, among k)
    {h : Handle} (start : among h) : heap.Apart g h := by
  have inside : ∀ k, heap.Reaches h k → among k := by
    intro k reaches
    induction reaches with
    | refl => exact start
    | tail _ points ih =>
        obtain ⟨cell, found, member⟩ := points
        obtain ⟨_, cell', found', handles⟩ := closed _ ih
        rw [found] at found'
        cases found'
        exact handles _ member
  intro k reaches
  obtain ⟨different, cell, found, _⟩ := closed k (inside k reaches)
  exact ⟨different, by rw [found]; rfl⟩

/-- A check for values that hold each other only. -/
theorem allApart_of_all {handles : List Handle}
    (closed : (handles.all fun h => h != g &&
      (heap.cell? h).any fun cell => cell.handles.all handles.contains) = true) :
    heap.AllApart g handles := by
  have inside : ∀ h ∈ handles, h ≠ g ∧ ∃ cell, heap.cell? h = some cell ∧
      ∀ k ∈ cell.handles, k ∈ handles := by
    intro h member
    have checked := List.all_eq_true.mp closed h member
    rw [Bool.and_eq_true, Option.any_eq_true] at checked
    obtain ⟨different, cell, found, held⟩ := checked
    refine ⟨bne_iff_ne.mp different, cell, found, fun k among => ?_⟩
    exact List.contains_iff_mem.mp (List.all_eq_true.mp held k among)
  exact fun h member => apart_of_closed inside member

theorem Apart.cell {h : Handle} (apart : heap.Apart g h) :
    ∃ cell, heap.cell? h = some cell ∧ heap.AllApart g cell.handles := by
  obtain ⟨cell, found⟩ := Option.isSome_iff_exists.mp apart.isSome
  exact ⟨cell, found, apart.handles found⟩

theorem apart_of_cell {h : Handle} {cell : Cell κ} (different : h ≠ g)
    (found : heap.cell? h = some cell) (apart : heap.AllApart g cell.handles) : heap.Apart g h := by
  intro k reaches
  rcases reaches.cases_head with rfl | ⟨next, ⟨cell', found', member⟩, rest⟩
  · exact ⟨different, by rw [found]; rfl⟩
  · rw [found] at found'
    cases found'
    exact apart next member k rest

/-! ### Sheltering -/

theorem shelters_push (heap : Heap κ) (cell : Cell κ) : heap.Shelters g (heap.push cell) := by
  intro present
  obtain ⟨content, found⟩ := Option.isSome_iff_exists.mp present
  refine ⟨?_, ?_⟩
  · rw [cell?_push_of_found found, found]
  · intro h apart
    refine apart_of_closed (fun k apart => ?_) apart
    obtain ⟨content, found, handles⟩ := apart.cell
    exact ⟨apart.ne, content, cell?_push_of_found found cell, handles⟩

/-- A new value that holds only values apart from another is apart from it too. -/
theorem apart_fresh {cell : Cell κ} (present : (heap.cell? g).isSome = true)
    (apart : heap.AllApart g cell.handles) : (heap.push cell).Apart g heap.fresh := by
  obtain ⟨content, found⟩ := Option.isSome_iff_exists.mp present
  have new : (heap.push cell).cell? heap.fresh = some cell := by
    rw [cell?_push, if_pos rfl]
  refine apart_of_cell (ne_fresh_of_cell? found).symm new ?_
  intro k member
  exact (shelters_push heap cell present).2 k (apart k member)

/-- A value that is apart from another may come to hold more values that are. -/
theorem shelters_write {h : Handle} {cell : Cell κ} (apart : heap.Apart g h)
    (handles : heap.AllApart g cell.handles) : heap.Shelters g (heap.write h cell) := by
  intro present
  refine ⟨cell?_write_of_ne apart.ne.symm cell, ?_⟩
  intro k start
  refine apart_of_closed (fun k start => ⟨start.ne, ?_⟩) start
  by_cases same : k = h
  · subst same
    obtain ⟨old, found, _⟩ := start.cell
    exact ⟨cell, cell?_write_self found cell, handles⟩
  · obtain ⟨content, found, handles⟩ := start.cell
    rw [← cell?_write_of_ne same cell] at found
    exact ⟨content, found, handles⟩

theorem Shelters.present (shelters : heap.Shelters g after)
    (present : (heap.cell? g).isSome = true) : (after.cell? g).isSome = true := by
  rw [(shelters present).1]
  exact present

instance (g : Handle) : Growing (Shelters g : Heap κ → Heap κ → Prop) where
  refl _ _ := ⟨rfl, fun _ apart => apart⟩
  trans _ _ _ early late present := by
    obtain ⟨same, kept⟩ := early present
    obtain ⟨same', kept'⟩ := late (Shelters.present early present)
    exact ⟨same'.trans same, fun h apart => kept' h (kept h apart)⟩
  push heap cell _ _ := shelters_push heap cell

end Heap

end Interop
