import Interop.Proofs.Bridge.Passing
import Interop.Proofs.Iteration.Shared
import Interop.Proofs.Machine.Containers
import Interop.Proofs.Proxy.Numerals
/-!
Four ways to read a list or a tuple. An iteration of its proxy asks for the length and for the item
at a cursor; the builtin `iter` takes the items down in a queue, which an iteration empties; a name
of digits is taken for a position; and a slice without bounds is a new sequence of the same items.
-/

set_option autoImplicit false

namespace Interop

variable {κ σ : Type}

open Machine (runProgram answer layer)

/-! ### What the host sees -/

namespace World

/-- Wrapping a value gives an object, and does no more than add cells. -/
def Wraps (world : World κ σ) (host : Host κ σ) (layers : Nat) (h : Handle) : Prop :=
  ∃ object after, (runProgram (answer host layers) (Bridge.wrap h)).run world =
    some (.ok object, after) ∧ world.Moves Heap.Extends after

/-- Now and later, wrapping a value gives an object like a view, and does no more than add cells. -/
def Sees (world : World κ σ) (host : Host κ σ) (layers : Nat) (h : Handle) (view : Object κ) :
    Prop :=
  ∀ later, world.Moves Heap.Extends later → ∃ object after,
    (runProgram (answer host layers) (Bridge.wrap h)).run later = some (.ok object, after) ∧
      object.Alike view ∧ later.Moves Heap.Extends after

theorem Sees.later {world later : World κ σ} {host : Host κ σ} {layers : Nat} {h : Handle}
    {view : Object κ} (sees : world.Sees host layers h view)
    (moves : world.Moves Heap.Extends later) : later.Sees host layers h view :=
  fun last more => sees last (moves.trans more)

end World

theorem World.Moves.lengthAsked {world after : World κ σ} (moves : world.Moves Heap.Extends after)
    (length : Nat) : world.Moves Heap.Extends (after.lengthAsked length) :=
  moves.trans (.ofHeap (.push after.heap _))

theorem World.HasBuiltin.moves {world after : World κ σ} {builtin : Builtin}
    (has : world.HasBuiltin builtin) (moves : world.Moves Heap.Extends after) :
    after.HasBuiltin builtin := by
  obtain ⟨f, bound, isBuiltin⟩ := has
  exact ⟨f, by rw [moves.builtins, bound], moves.heap.kind? isBuiltin⟩

namespace Heap

variable {heap : Heap κ} {h : Handle} {type : SequenceType} {items : List Handle}

theorem length_kind (heap : Heap κ) (type : SequenceType) (items : List Handle) :
    heap.length (type.kind items) = .ok items.length := by
  cases type <;> rfl

theorem item_of_kind {n : Nat} {item : Handle} (found : heap.kind? h = some (type.kind items))
    (fits : FitsWord items.length) (inside : items[n]? = some item) :
    heap.item h (.ofInt n) = .ok (.object item) := by
  obtain ⟨attributes, present⟩ := cell?_of_kind? found
  obtain ⟨below, _⟩ := List.getElem?_eq_some_iff.mp inside
  have fits := fits.of_lt below
  rw [Arg.ofInt_of_fitsWord fits,
    item_natCast ((fitsWord_natCast_iff n).mp fits) present rfl, inside]

end Heap

/-- Through what a sequence is read: a sequence of its type or a queue, of the same items. -/
def SequenceType.Serves (type : SequenceType) (items : List Handle) (kind : Kind κ) : Prop :=
  kind = type.kind items ∨ kind = .iterator items

theorem Heap.isSequence_of_kind {heap : Heap κ} {h : Handle} {type : SequenceType}
    {items : List Handle} (found : heap.kind? h = some (type.kind items)) :
    Machine.isIterator heap h = false ∧ Machine.isSequence heap h = true := by
  obtain ⟨attributes, present⟩ := cell?_of_kind? found
  unfold Machine.isIterator Machine.isSequence
  rw [present]
  cases type <;> exact ⟨rfl, rfl⟩

namespace SequenceType.Serves

variable {type : SequenceType} {items : List Handle} {kind : Kind κ}

theorem hasClass (serves : type.Serves items kind) (heap : Heap κ) : heap.HasClass kind := by
  rcases serves with rfl | rfl
  · cases type <;> exact nofun
  · exact nofun

theorem not_callable (serves : type.Serves items kind) : kind.isCallable = false := by
  rcases serves with rfl | rfl
  · cases type <;> rfl
  · rfl

theorem view?_eq (serves : type.Serves items kind) (heap : Heap κ) (h : Handle) :
    heap.view? h kind = some (.proxy (.mk h (heap.typeInfo kind)
      (kind.members (heap.typeInfo kind)))) := by
  rcases serves with rfl | rfl
  · cases type <;> rfl
  · rfl

end SequenceType.Serves

/-- A sequence or a queue that can be wrapped is wrapped to a proxy of it. -/
theorem World.Wraps.proxy {world : World κ σ} {host : Host κ σ} {layers : Nat} {h : Handle}
    {kind : Kind κ} {type : SequenceType} {items : List Handle} (serves : type.Serves items kind)
    (found : world.heap.kind? h = some kind) (wraps : world.Wraps host (layers + 1) h) :
    ∃ q after, (runProgram (answer host (layers + 1)) (Bridge.wrap h)).run world =
      some (.ok (.proxy q), after) ∧ q.handle = h ∧ world.Moves Heap.Extends after := by
  obtain ⟨object, after, wrapped, moves⟩ := wraps
  obtain ⟨view, viewed, alike⟩ :=
    Machine.alike_of_wrap (serves.hasClass world.heap) found wrapped
  cases viewed.symm.trans (serves.view?_eq world.heap h)
  obtain ⟨q, rfl, same⟩ := alike.eq_proxy
  exact ⟨q, after, wrapped, same, moves⟩

namespace Iteration

/-- What is left of an iteration gives objects like the views. Whatever an earlier world holds is
still there afterwards. -/
def Gives (iteration : Iteration) (host : Host κ σ) (layers : Nat) (origin start : World κ σ)
    (views : List (Object κ)) : Prop :=
  ∀ limit, views.length ≤ limit → ∃ objects after,
    (iteration.items limit).run (answer host layers) start = some (objects.map .ok, after) ∧
      List.Forall₂ Object.Alike objects views ∧ origin.Moves Heap.Extends after

variable {host : Host κ σ} {layers : Nat} {origin start mid : World κ σ}
  {iteration rest : Iteration} {views : List (Object κ)} {items : List Handle}

/-! ### Items one by one -/

theorem gives_nil (moves : origin.Moves Heap.Extends start)
    (ended : iteration.next.run (answer host layers) start = some ((none, rest), mid))
    (moved : origin.Moves Heap.Extends mid) :
    iteration.Gives host layers origin start [] := by
  intro limit _
  cases limit with
  | zero => exact ⟨[], start, rfl, .nil, moves⟩
  | succ limit =>
      refine ⟨[], mid, ?_, .nil, moved⟩
      unfold items
      rw [Interaction.run_bind]
      exact Run.bind_eq_some_iff.mpr ⟨_, mid, ended, rfl⟩

theorem gives_cons {object view : Object κ}
    (called : iteration.next.run (answer host layers) start = some ((some (.ok object), rest), mid))
    (alike : object.Alike view) (more : rest.Gives host layers origin mid views) :
    iteration.Gives host layers origin start (view :: views) := by
  intro limit enough
  cases limit with
  | zero => cases enough
  | succ limit =>
      obtain ⟨objects, after, finished, same, moves⟩ := more limit (Nat.le_of_succ_le_succ enough)
      refine ⟨object :: objects, after, ?_, .cons alike same, moves⟩
      unfold items
      rw [Interaction.run_bind]
      refine Run.bind_eq_some_iff.mpr ⟨_, mid, called, ?_⟩
      dsimp only
      rw [Interaction.run_bind]
      exact Run.bind_eq_some_iff.mpr ⟨_, after, finished, rfl⟩

/-! ### A sequence at a cursor -/

variable {type : SequenceType} {h : Handle} {below : Handler κ σ}

theorem next_reading_item {cursor : Nat} {item : Handle} {object : Object κ}
    (hasLen : start.HasBuiltin .len) (found : start.heap.kind? h = some (type.kind items))
    (fits : FitsWord items.length) (inside : items[cursor]? = some item)
    (wraps : (runProgram (layer host below) (Bridge.wrap item)).run
      (start.lengthAsked items.length) = some (.ok object, mid)) :
    (next ⟨h, .reading cursor⟩).run (layer host below) start =
      some ((some (.ok object), ⟨h, .reading (cursor + 1)⟩), mid) := by
  refine next_reading_eq_some_iff.mpr ⟨.ok (some object), ?_, rfl⟩
  have told := start.heap.length_kind type items
  have stays : (start.lengthAsked items.length).heap.kind? h = some (type.kind items) :=
    Heap.kind?_push found _
  obtain ⟨before, _⟩ := List.getElem?_eq_some_iff.mp inside
  rw [Machine.run_itemAt_of_lt host below hasLen found told fits before
    (Heap.item_of_kind stays fits inside)]
  exact (Machine.run_map_eq_some_iff _).mpr ⟨.ok object, wraps, rfl⟩

theorem next_reading_end {cursor : Nat} (hasLen : start.HasBuiltin .len)
    (found : start.heap.kind? h = some (type.kind items)) (fits : FitsWord items.length)
    (outside : items.length ≤ cursor) :
    (next ⟨h, .reading cursor⟩).run (layer host below) start =
      some ((none, ⟨h, .finished⟩), start.lengthAsked items.length) := by
  have told := start.heap.length_kind type items
  refine next_reading_eq_some_iff.mpr ⟨.ok none, ?_, rfl⟩
  exact Machine.run_itemAt_of_le host below hasLen found told fits outside

/-- The items before the cursor are taken, and those from it on are given. -/
theorem gives_reading {taken : List Handle} (hasLen : origin.HasBuiltin .len)
    (sees : List.Forall₂ (origin.Sees host (layers + 1)) items views)
    (found : start.heap.kind? h = some (type.kind (taken ++ items)))
    (fits : FitsWord (taken ++ items).length) (moves : origin.Moves Heap.Extends start) :
    Gives ⟨h, .reading taken.length⟩ host (layers + 1) origin start views := by
  -- on what is left to be read: the cursor is the number of items before it
  induction sees generalizing taken start with
  | nil =>
      have atEnd : (taken ++ []).length ≤ taken.length := by simp
      exact gives_nil moves (next_reading_end (hasLen.moves moves) found fits atEnd)
        (moves.lengthAsked _)
  | @cons item view items views sight _ ih =>
      have asked := moves.lengthAsked (taken ++ item :: items).length
      obtain ⟨object, mid, wraps, alike, wrapped⟩ := sight _ asked
      have here : (taken ++ item :: items)[taken.length]? = some item := by simp
      have called := next_reading_item (hasLen.moves moves) found fits here wraps
      have stays := wrapped.heap.kind? (Heap.kind?_push found _)
      refine gives_cons called alike ?_
      rw [List.append_cons] at stays fits
      have more := ih stays fits (asked.trans wrapped)
      rwa [List.length_append] at more

/-! ### A queue -/

/-- Taking an item off a queue changes nothing that an earlier world holds without the queue. -/
theorem moves_stepped {q item : Handle} {more : List Handle}
    (moves : origin.Moves Heap.Extends start) (unknown : origin.heap.cell? q = none)
    (found : start.heap.kind? q = some (.iterator (item :: more))) :
    origin.Moves Heap.Extends (start.stepped q) := by
  obtain ⟨attributes, present⟩ := Heap.cell?_of_kind? found
  refine ⟨?_, moves.globals, moves.builtins, moves.modules, moves.settings, moves.loader⟩
  intro k cell there
  have apart : k ≠ q := by
    rintro rfl
    rw [unknown] at there
    cases there
  unfold World.stepped Heap.next
  dsimp only
  rw [present]
  exact (Heap.cell?_write_of_ne apart _).trans (moves.heap k cell there)

/-- A queue that an earlier world does not hold gives what is in it, and empties. -/
theorem gives_stepping {q : Handle} (unknown : origin.heap.cell? q = none)
    (sees : List.Forall₂ (origin.Sees host (layers + 1)) items views)
    (found : start.heap.kind? q = some (.iterator items))
    (moves : origin.Moves Heap.Extends start) :
    Gives ⟨q, .stepping⟩ host (layers + 1) origin start views := by
  induction sees generalizing start with
  | nil => exact gives_nil moves (next_stepping_nil found) moves
  | @cons item view items views sight _ ih =>
      have stepped := moves_stepped moves unknown found
      obtain ⟨object, mid, wraps, alike, wrapped⟩ := sight _ stepped
      have left := (Machine.run_next_cons host (answer host layers) found).2
      refine gives_cons ((next_stepping_cons_iff found).mpr ⟨.ok object, wraps, rfl, rfl⟩) alike ?_
      exact ih (wrapped.heap.kind? left) (stepped.trans wrapped)

end Iteration

/-! ### The readings of a proxy -/

namespace Proxy

/-- The iteration of a proxy begins, and gives objects like the views. -/
def Iterates (p : Proxy κ) (host : Host κ σ) (layers : Nat) (origin start : World κ σ)
    (views : List (Object κ)) : Prop :=
  ∃ iteration begun,
    (runProgram (answer host layers) (Iteration.start? p)).run start = some (.ok iteration, begun) ∧
      iteration.Gives host layers origin begun views

/-- The iterator of a proxy that the builtin `iter` makes. -/
def iterator (p : Proxy κ) : Program κ σ (Object κ) := do
  Bridge.wrap (← (← Program.builtin "iter").invoke [.handle p.handle])

/-- Every way to read a proxy gives objects like the views, as many as its length, and changes
nothing that an earlier world holds. -/
structure ReadsAs (p : Proxy κ) (host : Host κ σ) (layers : Nat) (origin start : World κ σ)
    (views : List (Object κ)) : Prop where
  length : ∃ after, (runProgram (answer host layers) p.length).run start =
    some (.ok views.length, after) ∧ origin.Moves Heap.Extends after
  iterates : p.Iterates host layers origin start views
  iterator : ∃ q after, (runProgram (answer host layers) p.iterator).run start =
    some (.ok (.proxy q), after) ∧ q.Iterates host layers origin after views
  get : ∀ (i : Nat) view, views[i]? = some view → ∃ object after,
    (runProgram (answer host layers) (p.get (toString i))).run start =
      some (.ok (some object), after) ∧
    object.Alike view ∧ origin.Moves Heap.Extends after
  slice : ∃ q after, (runProgram (answer host layers) (p.slice none none none)).run start =
    some (.ok (.proxy q), after) ∧ q.Iterates host layers origin after views

/-- A sequence can be read if its items can be wrapped, and so can sequences and queues that hold
these items; and if no member of the proxy goes by the name of a position. -/
structure Readable (p : Proxy κ) (host : Host κ σ) (layers : Nat) (world : World κ σ)
    (type : SequenceType) (items : List Handle) (views : List (Object κ)) : Prop where
  elements : List.Forall₂ (world.Sees host layers) items views
  containers : ∀ later h kind, world.Moves Heap.Extends later → later.heap.kind? h = some kind →
    type.Serves items kind → later.Wraps host layers h
  members : ∀ i < items.length, p.members.get? (toString i) = none

variable {host : Host κ σ} {layers : Nat} {world start : World κ σ} {p : Proxy κ}
  {type : SequenceType} {items : List Handle} {views : List (Object κ)}

theorem iterates_of_sequence (hasLen : world.HasBuiltin .len)
    (sees : List.Forall₂ (world.Sees host (layers + 1)) items views) (fits : FitsWord items.length)
    (moves : world.Moves Heap.Extends start)
    (found : start.heap.kind? p.handle = some (type.kind items)) :
    p.Iterates host (layers + 1) world start views := by
  obtain ⟨notIterator, isSequence⟩ := Heap.isSequence_of_kind found
  have started :=
    Iteration.start?_of_sequence host (answer host layers) notIterator isSequence
  have gives := Iteration.gives_reading hasLen sees (List.nil_append items ▸ found)
    (List.nil_append items ▸ fits) moves
  exact ⟨_, _, started, gives⟩

theorem iterates_of_iterator (unknown : world.heap.cell? p.handle = none)
    (sees : List.Forall₂ (world.Sees host (layers + 1)) items views)
    (moves : world.Moves Heap.Extends start)
    (found : start.heap.kind? p.handle = some (.iterator items)) :
    p.Iterates host (layers + 1) world start views := by
  have started := (Iteration.start_of_iterator host (answer host layers) found rfl).2
  exact ⟨_, _, started, Iteration.gives_stepping unknown sees found moves⟩

/-! ### Each reading -/

theorem run_length_eq (hasLen : start.HasBuiltin .len)
    (found : start.heap.kind? p.handle = some (type.kind items)) (fits : FitsWord items.length) :
    (runProgram (answer host (layers + 1)) p.length).run start =
      some (.ok items.length, start.lengthAsked items.length) :=
  Machine.run_lengthOf host (answer host layers) hasLen found (start.heap.length_kind type items)
    fits

theorem run_get_index {view : Object κ} {i : Nat} {item : Handle} (fits : FitsWord items.length)
    (found : start.heap.kind? p.handle = some (type.kind items))
    (noMember : p.members.get? (toString i) = none) (inside : items[i]? = some item)
    (sees : start.Sees host (layers + 1) item view) :
    ∃ object after, (runProgram (answer host (layers + 1)) (p.get (toString i))).run start =
        some (.ok (some object), after) ∧
      object.Alike view ∧ start.Moves Heap.Extends after := by
  obtain ⟨attributes, present⟩ := Heap.cell?_of_kind? found
  obtain ⟨before, _⟩ := List.getElem?_eq_some_iff.mp inside
  have isNumeral := isNumeral_toString i
  have small : numeral (toString i) < 2 ^ 63 := by
    rw [numeral_toString]
    exact (fitsWord_natCast_iff i).mp (fits.of_lt before)
  have indexes : p.Indexes host (answer host layers) start _ _ _ :=
    indexes_of_small present isNumeral noMember small
  rw [numeral_toString] at indexes
  obtain ⟨object, after, wraps, alike, moves⟩ := sees start (.refl start)
  refine ⟨object, after, ?_, alike, moves⟩
  refine (indexes.element type items item rfl inside).trans ?_
  exact (Machine.run_map_eq_some_iff _).mpr ⟨.ok object, wraps, rfl⟩

theorem run_iterator (hasIter : start.HasBuiltin .iter)
    (found : start.heap.kind? p.handle = some (type.kind items)) :
    (runProgram (answer host (layers + 1)) p.iterator).run start =
      (runProgram (answer host (layers + 1)) (Bridge.wrap start.heap.fresh)).run
        { start with heap := start.heap.push (.object ⟨.iterator items, .empty⟩) } := by
  have called : (Heap.callBuiltin .iter [p.handle]).run start.heap =
      .ok (start.heap.fresh, start.heap.push (.object ⟨.iterator items, .empty⟩)) := by
    refine Heap.Op.bind_eq_ok_iff.mpr ⟨p.handle, start.heap, rfl, ?_⟩
    refine Heap.Op.bind_eq_ok_iff.mpr ⟨start.heap, start.heap, rfl, ?_⟩
    rw [found]
    cases type <;> rfl
  have parts : (p.iterator : Program κ σ (Object κ)) =
      (do (← Program.builtin "iter").invoke [.handle p.handle]) >>= Bridge.wrap := by
    unfold iterator
    rw [bind_assoc]
  rw [parts]
  exact Machine.run_bind_of_ok _ (Machine.run_callBuiltin host (answer host layers) hasIter called)

/-- A slice without bounds holds all items. -/
theorem run_slice_all (hasSlice : start.HasBuiltin .slice)
    (found : start.heap.kind? p.handle = some (type.kind items)) (fits : FitsWord items.length) :
    ∃ new mid, (runProgram (answer host (layers + 1)) (p.slice none none none)).run start =
        (runProgram (answer host (layers + 1)) (Bridge.wrap new)).run mid ∧
      mid.heap.kind? new = some (type.kind items) ∧ start.Moves Heap.Extends mid := by
  obtain ⟨new, selected, mid, taken, _, isNew, holds, moves⟩ :=
    @takeSlice_selects κ σ host start type items hasSlice p.handle found fits none none none nofun
      layers
  have whole : sliceIndices items.length none none none = ⟨0, items.length, 1⟩ := rfl
  have all : selected = items := by
    apply List.ext_getElem?
    intro k
    rw [holds k]
    simp only [Option.map_none, whole, Before]
    split
    · congr 1
      omega
    · exact (List.getElem?_eq_none (by omega)).symm
  rw [all] at isNew
  refine ⟨new, mid, ?_, isNew, moves⟩
  rw [Proxy.slice_eq]
  exact Machine.run_bind_of_ok _ taken

theorem readsAs_of_readable (has : ∀ builtin, world.HasBuiltin builtin)
    (found : world.heap.kind? p.handle = some (type.kind items)) (fits : FitsWord items.length)
    (readable : p.Readable host (layers + 1) world type items views)
    (moves : world.Moves Heap.Extends start) : p.ReadsAs host (layers + 1) world start views := by
  have here := moves.heap.kind? found
  have sees := readable.elements
  constructor
  case length =>
    refine ⟨_, ?_, moves.lengthAsked items.length⟩
    rw [← sees.length_eq]
    exact run_length_eq ((has .len).moves moves) here fits
  case iterates =>
    exact iterates_of_sequence (has .len) sees fits moves here
  case iterator =>
    have made := moves.trans (.ofHeap (.push start.heap (.object ⟨.iterator items, .empty⟩)))
    have isQueue := Heap.kind?_fresh start.heap (.iterator items)
    have serves : type.Serves items (.iterator items : Kind κ) := .inr rfl
    have wraps := readable.containers _ _ _ made isQueue serves
    obtain ⟨q, after, wrapped, same, later⟩ := wraps.proxy serves isQueue
    refine ⟨q, after, (run_iterator ((has .iter).moves moves) here).trans wrapped, ?_⟩
    rw [← same] at isQueue
    refine iterates_of_iterator ?_ sees (made.trans later) (later.heap.kind? isQueue)
    rw [same]
    exact moves.heap.cell?_eq_none (Heap.cell?_fresh start.heap)
  case get =>
    intro i view there
    obtain ⟨before, rfl⟩ := List.getElem?_eq_some_iff.mp there
    have inside : i < items.length := sees.length_eq ▸ before
    have sight : world.Sees host (layers + 1) items[i] views[i] := sees.get inside before
    obtain ⟨object, after, got, alike, later⟩ := run_get_index fits here
      (readable.members i inside) (List.getElem?_eq_getElem inside) (sight.later moves)
    exact ⟨object, after, got, alike, moves.trans later⟩
  case slice =>
    obtain ⟨new, mid, cut, isNew, sliced⟩ := run_slice_all ((has .slice).moves moves) here fits
    have made := moves.trans sliced
    have serves : type.Serves items (type.kind items : Kind κ) := .inl rfl
    have wraps := readable.containers _ _ _ made isNew serves
    obtain ⟨q, after, wrapped, same, later⟩ := wraps.proxy serves isNew
    rw [← same] at isNew
    have stays := later.heap.kind? isNew
    exact ⟨q, after, cut.trans wrapped,
      iterates_of_sequence (has .len) sees fits (made.trans later) stays⟩

/-! ### The standard registry -/

/-- What wraps now is seen as the same ever after. -/
theorem sees_of_wraps (reachable : world.Reachable host) (standard : world.loader = .standard)
    {item : Handle} {kind : Kind κ} (found : world.heap.kind? item = some kind)
    (wraps : world.Wraps host (layers + 2) item) :
    ∃ view, world.Sees host (layers + 2) item view := by
  obtain ⟨object, after, wrapped, _⟩ := wraps
  obtain ⟨view, viewed, _⟩ :=
    Machine.alike_of_wrap (reachable.sound.hasClass found) found wrapped
  obtain ⟨attributes, present⟩ := Heap.cell?_of_kind? found
  have answers := Machine.wrap_answers host (answer host layers) standard reachable.sound present
    viewed
  refine ⟨view, fun later moves => ?_⟩
  obtain ⟨last, finished, more⟩ := answers later moves
  exact ⟨view, last, finished, .refl view, more⟩

theorem wraps_container (standard : world.loader = .standard) {h : Handle} {kind : Kind κ}
    (serves : type.Serves items kind) (found : world.heap.kind? h = some kind) :
    world.Wraps host (layers + 2) h := by
  obtain ⟨attributes, present⟩ := Heap.cell?_of_kind? found
  have plain : kind.isCallable = true → Heap.NamesAccepted (.object ⟨kind, attributes⟩) := by
    rw [serves.not_callable]
    exact nofun
  obtain ⟨after, wrapped, moves⟩ := (Machine.wrap_answers_view host (answer host layers) standard
    (serves.hasClass world.heap) plain present (serves.view?_eq world.heap h)).finishes
  exact ⟨_, after, wrapped, moves⟩

/-- The members that a sequence has of its own are no positions. -/
theorem get?_members (found : world.heap.kind? p.handle = some (type.kind items))
    (viewed : world.heap.HasView p.handle (.proxy p)) (i : Nat) :
    p.members.get? (toString i) = none := by
  obtain ⟨object, present, viewed⟩ := viewed
  have sort := Option.some.inj ((Heap.kind?_of_cell? present).symm.trans found)
  rw [sort] at viewed
  obtain ⟨_, _, own⟩ := Heap.view?_eq_proxy_iff.mp viewed
  have members : p.members = [("len", .method ⟨"len", .length⟩)] := by
    refine (congrArg Proxy.members own).trans ?_
    cases type <;> rfl
  have apart : "len" ≠ toString i := by
    intro same
    have isNumeral := isNumeral_toString i
    rw [← same] at isNumeral
    exact absurd (isNumeral.2 'l' (by decide)) (by decide)
  rw [members]
  exact if_neg apart

theorem exists_sees (reachable : world.Reachable host) (standard : world.loader = .standard)
    (objects : ∀ item ∈ items, ∃ kind, world.heap.kind? item = some kind)
    (wraps : ∀ item ∈ items, world.Wraps host (layers + 2) item) :
    ∃ views, List.Forall₂ (world.Sees host (layers + 2)) items views := by
  induction items with
  | nil => exact ⟨[], .nil⟩
  | cons item rest ih =>
      obtain ⟨⟨kind, isObject⟩, others⟩ := List.forall_mem_cons.mp objects
      obtain ⟨wrapsHere, wrapsThere⟩ := List.forall_mem_cons.mp wraps
      obtain ⟨view, first⟩ := sees_of_wraps reachable standard isObject wrapsHere
      obtain ⟨views, more⟩ := ih others wrapsThere
      exact ⟨view :: views, .cons first more⟩

theorem exists_readable (reachable : world.Reachable host) (standard : world.loader = .standard)
    (found : world.heap.kind? p.handle = some (type.kind items))
    (viewed : world.heap.HasView p.handle (.proxy p))
    (objects : ∀ item ∈ items, ∃ kind, world.heap.kind? item = some kind)
    (wraps : ∀ item ∈ items, world.Wraps host (layers + 2) item) :
    ∃ views, p.Readable host (layers + 2) world type items views := by
  obtain ⟨views, sees⟩ := exists_sees reachable standard objects wraps
  refine ⟨views, sees, ?_, fun i _ => get?_members found viewed i⟩
  intro later h kind moves isKind serves
  exact wraps_container (moves.loader.trans standard) serves isKind

/-- The readings of a list or a tuple agree: iterating its proxy, iterating the iterator that the
builtin `iter` makes of it, the members named by the positions from zero on, and iterating its slice
without bounds. If everything that is wrapped on the way wraps whenever it is asked for, and no
member of the proxy goes by the name of a position, then all of them give the same plain values and
proxies of the same values, as many as the length of the proxy, and change nothing that was there
before. Under the standard registry it is enough that the items wrap once. -/
theorem readings_agree (reachable : world.Reachable host)
    (found : world.heap.kind? p.handle = some (type.kind items)) (fits : FitsWord items.length)
    (layers : Nat) :
    (∀ views, p.Readable host (layers + 1) world type items views →
      views.length = items.length ∧ ∀ start, world.Moves Heap.Extends start →
        p.ReadsAs host (layers + 1) world start views) ∧
    (world.loader = .standard → world.heap.HasView p.handle (.proxy p) →
      (∀ item ∈ items, ∃ kind, world.heap.kind? item = some kind) →
      (∀ item ∈ items, world.Wraps host (layers + 2) item) →
      ∃ views, p.Readable host (layers + 2) world type items views) := by
  constructor
  · intro views readable
    refine ⟨readable.elements.length_eq.symm, fun start moves => ?_⟩
    exact readsAs_of_readable reachable.hasBuiltin found fits readable moves
  · intro standard viewed objects wraps
    exact exists_readable reachable standard found viewed objects wraps

/-- A tuple of two items, under the standard registry. -/
theorem readings_agree_tuple :
    let host := Host.answeringNone
    let start : World Unit Unit := .start {} .standard ()
    let world := { start with heap :=
      (start.heap.push (.object ⟨.int 5, .empty⟩)).push (.object ⟨.tuple [⟨7⟩, ⟨0⟩], .empty⟩) }
    let p : Proxy Unit := .mk ⟨8⟩ ⟨"builtins", "tuple"⟩ [("len", .method ⟨"len", .length⟩)]
    world.heap.HasView ⟨8⟩ (.proxy p) ∧
      ∃ views, views.length = 2 ∧ p.ReadsAs host 2 world world views := by
  intro host start world p
  have made : answer host 1 (.create (.int 5)) start =
    some (⟨7⟩, { start with heap := start.heap.push (.object ⟨.int 5, .empty⟩) }) := rfl
  have listed : answer host 1 (.create (.tuple [⟨7⟩, ⟨0⟩]))
    { start with heap := start.heap.push (.object ⟨.int 5, .empty⟩) } = some (⟨8⟩, world) := rfl
  have reachable : world.Reachable host :=
    ((World.Reachable.start {} .standard ()).answer made).answer listed
  have found : world.heap.kind? p.handle = some (SequenceType.tuple.kind [⟨7⟩, ⟨0⟩]) := rfl
  have viewed : world.heap.HasView p.handle (.proxy p) := ⟨_, rfl, rfl⟩
  have sees : ∀ item ∈ [⟨7⟩, ⟨0⟩], ∃ object view, world.heap.cell? item = some (.object object) ∧
      world.heap.view? item object.kind = some view := by
    simp only [List.forall_mem_cons, List.not_mem_nil]
    exact ⟨⟨_, _, rfl, rfl⟩, ⟨_, _, rfl, rfl⟩, nofun⟩
  have objects : ∀ item ∈ [⟨7⟩, ⟨0⟩], ∃ kind, world.heap.kind? item = some kind := by
    intro item among
    obtain ⟨object, _, present, _⟩ := sees item among
    exact ⟨_, Heap.kind?_of_cell? present⟩
  have wraps : ∀ item ∈ [⟨7⟩, ⟨0⟩], world.Wraps host 2 item := by
    intro item among
    obtain ⟨object, view, present, seen⟩ := sees item among
    obtain ⟨after, finished, moves⟩ :=
      (Machine.wrap_answers host (answer host 0) rfl reachable.sound present seen).finishes
    exact ⟨view, after, finished, moves⟩
  obtain ⟨views, readable⟩ :=
    (readings_agree reachable found (by decide) 0).2 rfl viewed objects wraps
  obtain ⟨length, agree⟩ := (readings_agree reachable found (by decide) 1).1 views readable
  exact ⟨viewed, views, length, agree world (.refl world)⟩

/-- A list whose delegator adds a member under the name of its first position, and whose iterators
cannot be wrapped since their delegator fails. -/
theorem not_readings_agree_member :
    let host : Host Bool Unit :=
      { function := fun _ _ _ => Program.create .none
        callback := fun _ _ => pure .none
        method := fun _ _ _ => pure .none
        members := fun adds _ =>
          if adds then pure [("0", .value (.int 9))]
          else throw (.type (.notIterable "list_iterator")) }
    let registry : Registry Bool :=
      { byType :=
          [(⟨"builtins", "list"⟩, .host true), (⟨"builtins", "list_iterator"⟩, .host false)] }
    let start : World Bool Unit := .start {} registry ()
    let world := { start with heap :=
      (start.heap.push (.object ⟨.int 5, .empty⟩)).push (.object ⟨.list [⟨7⟩], .empty⟩) }
    let p : Proxy Bool := .mk ⟨8⟩ ⟨"builtins", "list"⟩ [("0", .value (.int 9))]
    (∃ after, (runProgram (answer host 2) (Bridge.wrap ⟨8⟩)).run world =
        some (.ok (.proxy p), after)) ∧
      (∃ after, (Iteration.next ⟨⟨8⟩, .reading 0⟩).run (answer host 2) world =
        some ((some (.ok (.int 5)), ⟨⟨8⟩, .reading 1⟩), after)) ∧
      (runProgram (answer host 2) (p.get "0")).run world = some (.ok (some (.int 9)), world) ∧
      (∃ error after, (runProgram (answer host 2) p.iterator).run world =
        some (.error error, after)) := by
  intro host registry start world p
  have found : world.heap.kind? p.handle = some (SequenceType.list.kind [⟨7⟩]) := rfl
  refine ⟨⟨_, rfl⟩, ?_, rfl, ?_⟩
  · have hasLen : world.HasBuiltin .len := ⟨⟨1⟩, rfl, rfl⟩
    have isFive : (world.lengthAsked 1).heap.kind? ⟨7⟩ = some (.int 5) := rfl
    have classed : (world.lengthAsked 1).heap.HasClass (.int 5) := nofun
    obtain ⟨after, wraps, _⟩ :=
      (Machine.wrap_answers_primitive host (answer host 1) classed isFive rfl rfl).finishes
    exact ⟨after, Iteration.next_reading_item hasLen found (by decide) rfl wraps⟩
  · have fails : ((runProgram (answer host 2) p.iterator).run world).map (·.1.isOk) =
        some false := by decide +kernel
    obtain ⟨⟨result, after⟩, finished, failed⟩ := Option.map_eq_some_iff.mp fails
    cases result with
    | error error => exact ⟨error, after, finished⟩
    | ok object => cases failed

end Proxy

end Interop
