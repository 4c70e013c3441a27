import Interop.Proofs.Heap.Retention
import Interop.Proofs.Machine.Agreement
import Interop.Proofs.Sequence.Readings
import Interop.Proofs.Template.Substitution
/-!
Evaluated code cannot redirect the bridge. To measure a value, to slice it and to iterate over it,
the bridge takes builtins that no name in a namespace can hide and no operation can change. So two
runs that hold the same in a list, a tuple or a dict read the same from it, whatever else was
evaluated in either. Evaluated code itself finds a name in its namespace first.
-/

set_option autoImplicit false

namespace Interop

variable {κ σ : Type}

open Machine (runProgram answer layer scopeIn)

/-! ### The same contents -/

/-- Two objects hold the same: both are lists, both are tuples or both are dicts, with related
values at the same places. -/
inductive Kind.HoldSame (related : Handle → Handle → Prop) : Kind κ → Kind κ → Prop
  | sequence (type : SequenceType) {items others : List Handle}
      (same : List.Forall₂ related items others) :
      HoldSame related (type.kind items) (type.kind others)
  | dict {entries others : OrderedMap Handle}
      (same : List.Forall₂ (fun a b => a.1 = b.1 ∧ related a.2 b.2) entries.entries
        others.entries) :
      HoldSame related (.dict entries) (.dict others)

section RelatedItems

variable {α β : Type} {related : α → β → Prop} {items : List α} {others : List β}

theorem getElem?_of_forall₂ (same : List.Forall₂ related items others) (i : Nat) :
    Option.Rel related items[i]? others[i]? := by
  induction same generalizing i with
  | nil => exact .none
  | cons first _ ih =>
      cases i with
      | zero => exact .some first
      | succ i => exact ih i

theorem filterMap_of_forall₂ (same : List.Forall₂ related items others) (positions : List Nat) :
    List.Forall₂ related (positions.filterMap (items[·]?)) (positions.filterMap (others[·]?)) := by
  have places : List.Forall₂ Eq positions positions := List.forall₂_same.mpr fun _ _ => rfl
  refine List.rel_filterMap ?_ places
  rintro i _ rfl
  exact getElem?_of_forall₂ same i

end RelatedItems

namespace Heap

/-- Two values hold the same, each in its heap. -/
def HoldSame (heap other : Heap κ) (related : Handle → Handle → Prop) (h k : Handle) : Prop :=
  ∃ kind twin, heap.kind? h = some kind ∧ other.kind? k = some twin ∧ kind.HoldSame related twin

variable {heap other after later : Heap κ} {related : Handle → Handle → Prop} {h k : Handle}
  {kind twin : Kind κ} {items others : List Handle} {start stop step : Option Int64}

theorem HoldSame.extends (hold : heap.HoldSame other related h k) (grows : heap.Extends after)
    (grows' : other.Extends later) : after.HoldSame later related h k := by
  obtain ⟨kind, twin, found, found', same⟩ := hold
  exact ⟨kind, twin, grows.kind? found, grows'.kind? found', same⟩

theorem length_of_holdSame (same : kind.HoldSame related twin) :
    ∃ n, heap.length kind = .ok n ∧ other.length twin = .ok n := by
  cases same with
  | @sequence type items others same =>
      exact ⟨items.length, length_kind heap type items, same.length_eq ▸ length_kind other type _⟩
  | dict same => exact ⟨_, rfl, congrArg Except.ok same.length_eq.symm⟩

/-- What holds the same looks the same. -/
theorem HoldSame.lookSame (hold : heap.HoldSame other related h k) : heap.LookSame other h k := by
  obtain ⟨kind, twin, found, found', same⟩ := hold
  refine ⟨kind, twin, found, found', ?_⟩
  cases same with
  | sequence type => cases type <;> exact ⟨rfl, rfl, rfl, rfl⟩
  | dict => exact ⟨rfl, rfl, rfl, rfl⟩

/-! ### Items -/

/-- An integer is the same key in every heap. -/
theorem plainKey_ofInt (heap : Heap κ) (i : Int) : heap.plainKey (.ofInt i) = .ofInt i := by
  unfold Arg.ofInt
  cases word? i <;> rfl

theorem describeWith_ofInt (shown shown' : Handle → String) (i : Int) :
    (Arg.ofInt i : Arg κ).describeWith shown = (Arg.ofInt i : Arg κ).describeWith shown' := by
  unfold Arg.ofInt
  cases word? i <;> rfl

theorem ofInt_ne_string (i : Int) (text : String) : (Arg.ofInt i : Arg κ) ≠ .string text := by
  unfold Arg.ofInt
  cases word? i <;> exact nofun

/-- The parts of two sequences at an integer, which is no index if it is no word. -/
theorem sequencePart_ofInt (sequence : String) (same : List.Forall₂ related items others)
    (i : Int) :
    (∃ a b, heap.sequencePart sequence items (.ofInt i) = .ok (.inl a) ∧
      other.sequencePart sequence others (.ofInt i) = .ok (.inl b) ∧ related a b) ∨
    ∃ fault, heap.sequencePart sequence items (.ofInt i) = .error fault ∧
      other.sequencePart sequence others (.ofInt i) = .error fault := by
  unfold Arg.ofInt
  cases word? i with
  | none => exact .inr ⟨.invalidIndex sequence, rfl, rfl⟩
  | some index =>
      unfold sequencePart
      dsimp only
      rw [same.length_eq]
      cases resolveIndex? index others.length with
      | none => exact .inr ⟨_, rfl, rfl⟩
      | some position =>
          rw [Option.bind_some, Option.bind_some]
          have there := getElem?_of_forall₂ same position
          generalize items[position]? = here, others[position]? = there at there
          cases there with
          | none => exact .inr ⟨_, rfl, rfl⟩
          | some first => exact .inl ⟨_, _, rfl, rfl, first⟩

theorem item_of_dict {entries : OrderedMap Handle} (found : heap.kind? h = some (.dict entries))
    {key : Arg κ} (plain : heap.plainKey key = key) (noText : ∀ text, key ≠ .string text) :
    heap.item h key = .error (.noEntry (key.describeWith heap.describe)) := by
  obtain ⟨attributes, present⟩ := cell?_of_kind? found
  unfold item
  rw [present, plain]
  cases key with
  | string text => exact absurd rfl (noText text)
  | _ => rfl

/-- At an integer both hold related items, or both refuse it with one fault. -/
theorem HoldSame.item_ofInt (hold : heap.HoldSame other related h k) (i : Int) :
    (∃ a b, heap.item h (.ofInt i) = .ok (.object a) ∧ other.item k (.ofInt i) = .ok (.object b) ∧
      related a b) ∨
    ∃ fault, heap.item h (.ofInt i) = .error fault ∧ other.item k (.ofInt i) = .error fault := by
  obtain ⟨kind, twin, found, found', same⟩ := hold
  cases same with
  | @sequence type items others same =>
      rw [item_of_sequence found (heap.plainKey_ofInt i),
        item_of_sequence found' (other.plainKey_ofInt i)]
      rcases sequencePart_ofInt type.name same i with ⟨a, b, here, there, first⟩ |
        ⟨fault, here, there⟩
      · rw [here, there]
        exact .inl ⟨a, b, rfl, rfl, first⟩
      · rw [here, there]
        exact .inr ⟨fault, rfl, rfl⟩
  | dict same =>
      have here := item_of_dict found (heap.plainKey_ofInt i) (ofInt_ne_string i)
      rw [describeWith_ofInt heap.describe other.describe] at here
      exact .inr ⟨_, here, item_of_dict found' (other.plainKey_ofInt i) (ofInt_ne_string i)⟩

theorem HoldSame.agree_ofInt (hold : heap.HoldSame other related h k) (i : Int) :
    (getItem h (.ofInt i)).Agree (getItem k (.ofInt i)) heap other
      fun _ _ a b => related a b := by
  rcases hold.item_ofInt i with ⟨a, b, here, there, same⟩ | ⟨fault, here, there⟩
  · exact .inl ⟨a, b, heap, other, getItem_run here, getItem_run there, .refl heap, .refl other,
      same⟩
  · exact .inr ⟨fault, getItem_of_error here, getItem_of_error there⟩

/-- A slice is described by its bounds. -/
theorem describe_slice {cut : Handle} (isSlice : heap.kind? cut = some (.slice start stop step)) :
    heap.describe cut = "MemoryObject(" ++ ("slice(" ++
      Text.commaSeparated [boundText start, boundText stop, boundText step] ++ ")") ++ ")" := by
  obtain ⟨attributes, present⟩ := cell?_of_kind? isSlice
  have rendered (depth : Nat) : heap.render (depth + 1) true cut = "slice(" ++
      Text.commaSeparated [boundText start, boundText stop, boundText step] ++ ")" := by
    unfold render
    rw [present]
  unfold describe
  rw [present, ← rendered heap.cells.size]
  rfl

/-- A slice of both gives new values that hold the same, or one fault. -/
theorem HoldSame.agree_slice (hold : heap.HoldSame other related h k) {cut cut' : Handle}
    (isSlice : heap.kind? cut = some (.slice start stop step))
    (isSlice' : other.kind? cut' = some (.slice start stop step)) :
    (getItem h (.handle cut)).Agree (getItem k (.handle cut')) heap other
      fun after later a b => after.HoldSame later related a b := by
  obtain ⟨kind, twin, found, found', same⟩ := hold
  cases same with
  | @sequence type items others same =>
      cases selects : slicePositions items.length start stop step with
      | error fault =>
          have selects' := same.length_eq ▸ selects
          exact .inr ⟨fault, getItem_slice_error found isSlice selects,
            getItem_slice_error found' isSlice' selects'⟩
      | ok positions =>
          have selects' := same.length_eq ▸ selects
          refine .inl ⟨_, _, _, _, getItem_slice found isSlice selects,
            getItem_slice found' isSlice' selects', .push heap _, .push other _, ?_⟩
          exact ⟨_, _, kind?_fresh heap _, kind?_fresh other _,
            .sequence type (filterMap_of_forall₂ same positions)⟩
  | dict same =>
      have here := item_of_dict found (plainKey_of_slice isSlice) nofun
      have there := item_of_dict found' (plainKey_of_slice isSlice') nofun
      have shown (shown : Handle → String) (cut : Handle) :
          (Arg.handle cut : Arg κ).describeWith shown = "Handle(" ++ shown cut ++ ")" := rfl
      rw [shown, describe_slice isSlice] at here
      rw [shown, describe_slice isSlice'] at there
      exact .inr ⟨_, getItem_of_error here, getItem_of_error there⟩

end Heap

/-! ### What two runs have in common -/

/-- From here on, wrapping one value in one run and the other value in the other gives the same. -/
def World.WrapSame (host : Host κ σ) (layers : Nat) (first second : World κ σ) (h k : Handle) :
    Prop :=
  ∀ later other, first.Moves Heap.Extends later → second.Moves Heap.Extends other →
    (runProgram (answer host layers) (Bridge.wrap h)).Agree
      (runProgram (answer host layers) (Bridge.wrap k)) later other
      fun _ _ => Object.Twin fun a b => a = h ∧ b = k

/-- Proxies in two runs are counterparts: what they stand for holds the same, and what is wrapped
when it is read is wrapped the same. The runs themselves may have done anything before. -/
structure Proxy.Counterparts (host : Host κ σ) (layers : Nat) (related : Handle → Handle → Prop)
    (p q : Proxy κ) (first second : World κ σ) : Prop where
  reachableFirst : first.Reachable host
  reachableSecond : second.Reachable host
  typeInfo : p.typeInfo = q.typeInfo
  contents : first.heap.HoldSame second.heap related p.handle q.handle
  elements : ∀ h k, related h k → first.WrapSame host layers second h k
  sections : ∀ later other h k, first.Moves Heap.Extends later →
    second.Moves Heap.Extends other → later.heap.HoldSame other.heap related h k →
    later.WrapSame host layers other h k

/-- The state of an iteration that holds no exception of one of two runs. -/
def IterationState.Common : IterationState → Prop
  | .refused (.foreign _) => False
  | _ => True

/-- A call on an iteration in one run gives the same as a call in the other, and leaves the
iterations in one state. -/
def Iteration.AgreeNext (below : Handler κ σ) (related : Handle → Handle → Prop)
    (i j : Iteration) (first second : World κ σ) : Prop :=
  ∃ given twin state after later,
    i.next.run below first = some ((given, ⟨i.handle, state⟩), after) ∧
    j.next.run below second = some ((twin, ⟨j.handle, state⟩), later) ∧ state.Common ∧
    Option.Rel (after.heap.SameResult later.heap (Object.Twin related)) given twin

/-- Two runs read the same from their proxies. -/
structure Proxy.ReadSame (host : Host κ σ) (layers : Nat) (related : Handle → Handle → Prop)
    (p q : Proxy κ) (first second : World κ σ) : Prop where
  length : (runProgram (answer host layers) p.length).Agree
    (runProgram (answer host layers) q.length) first second fun _ _ a b => a = b
  isEmpty : (runProgram (answer host layers) p.isEmpty).Agree
    (runProgram (answer host layers) q.isEmpty) first second fun _ _ a b => a = b
  /-- A method that tells the length, as delegators add it. -/
  delegated : ∀ (method : Method κ) (args others : List (Object κ)), method.code = .length →
    (runProgram (answer host layers) ((Object.method (.member p method)).call args)).Agree
      (runProgram (answer host layers) ((Object.method (.member q method)).call others))
      first second fun _ _ a b => a = b
  /-- A slice is a new value that holds the same. -/
  slice : ∀ start stop step, (runProgram (answer host layers) (p.slice start stop step)).Agree
    (runProgram (answer host layers) (q.slice start stop step)) first second
    fun heap other => Object.Twin (heap.HoldSame other related)
  /-- An iteration starts in the same state. -/
  start : (runProgram (answer host layers) (Iteration.start p)).Agree
    (runProgram (answer host layers) (Iteration.start q)) first second
    fun _ _ i j => ∃ state, state.Common ∧ i = ⟨p.handle, state⟩ ∧ j = ⟨q.handle, state⟩
  next : ∀ state, state.Common →
    Iteration.AgreeNext (answer host layers) related ⟨p.handle, state⟩ ⟨q.handle, state⟩
      first second

/-! ### Lengths -/

namespace Machine

variable {host : Host κ σ} {below : Handler κ σ} {first second : World κ σ}
  {related : Handle → Handle → Prop} {h k : Handle} {start stop step : Option Int64}

theorem agree_lengthOf (hasLen : first.HasBuiltin .len) (hasLen' : second.HasBuiltin .len)
    (hold : first.heap.HoldSame second.heap related h k) :
    (runProgram (layer host below) (Bridge.lengthOf h)).Agree
      (runProgram (layer host below) (Bridge.lengthOf k)) first second fun _ _ a b => a = b := by
  obtain ⟨kind, twin, found, found', same⟩ := hold
  obtain ⟨n, told, told'⟩ := Heap.length_of_holdSame same
  refine ⟨_, _, _, _, run_lengthOf_word host below hasLen found told,
    run_lengthOf_word host below hasLen' found' told', .ofHeap (.push _ _), .ofHeap (.push _ _), ?_⟩
  unfold readLength
  split
  · exact .error (.type _)
  · exact .ok rfl

/-! ### Slices -/

theorem agree_getItem {key other : Arg κ} {more : Heap κ → Heap κ → Handle → Handle → Prop}
    (agree : (Heap.getItem h key).Agree (Heap.getItem k other) first.heap second.heap more) :
    (runProgram (layer host below) (h.getItem key)).Agree
      (runProgram (layer host below) (k.getItem other)) first second more := by
  rw [runProgram_getItem, runProgram_getItem]
  exact Exec.agree_ofOp agree

theorem agree_takeSlice (hasSlice : first.HasBuiltin .slice) (hasSlice' : second.HasBuiltin .slice)
    (hold : first.heap.HoldSame second.heap related h k) :
    (runProgram (layer host below) (takeSlice h start stop step)).Agree
      (runProgram (layer host below) (takeSlice k start stop step)) first second
      fun heap other => heap.HoldSame other related := by
  obtain ⟨cut, heap, made, isSlice, grows⟩ := run_makeSlice host below hasSlice start stop step
  obtain ⟨cut', heap', made', isSlice', grows'⟩ :=
    run_makeSlice host below hasSlice' start stop step
  unfold takeSlice
  rw [runProgram_bind, runProgram_bind]
  have makes : (runProgram (layer host below) (makeSlice start stop step)).Agree
      (runProgram (layer host below) (makeSlice start stop step)) first second
      fun heap other a b => heap.kind? a = some (.slice start stop step) ∧
        other.kind? b = some (.slice start stop step) :=
    ⟨_, _, _, _, made, made', .ofHeap grows, .ofHeap grows', .ok ⟨isSlice, isSlice'⟩⟩
  refine makes.bind fun a b mid other moves moves' both => ?_
  exact agree_getItem ((hold.extends moves.heap moves'.heap).agree_slice both.1 both.2)

end Machine

/-! ### Iterations -/

namespace Heap

variable {heap other : Heap κ} {related : Handle → Handle → Prop} {h k : Handle}

/-- What holds the same is no iterator, and is a sequence or not in both heaps. -/
theorem HoldSame.isSequence (hold : heap.HoldSame other related h k) :
    Machine.isIterator heap h = false ∧ Machine.isIterator other k = false ∧
      Machine.isSequence heap h = Machine.isSequence other k := by
  obtain ⟨kind, twin, found, found', same⟩ := hold
  cases same with
  | sequence type same =>
      obtain ⟨notIterator, isSequence⟩ := isSequence_of_kind found
      obtain ⟨notIterator', isSequence'⟩ := isSequence_of_kind found'
      exact ⟨notIterator, notIterator', isSequence.trans isSequence'.symm⟩
  | dict same =>
      obtain ⟨attributes, present⟩ := cell?_of_kind? found
      obtain ⟨attributes', present'⟩ := cell?_of_kind? found'
      unfold Machine.isIterator Machine.isSequence
      rw [present, present']
      exact ⟨rfl, rfl, rfl⟩

/-- What holds the same cannot be asked for a next item. -/
theorem HoldSame.next_eq (hold : heap.HoldSame other related h k) :
    ∃ fault, heap.next h = (.error fault, heap) ∧ other.next k = (.error fault, other) := by
  obtain ⟨kind, twin, found, found', same⟩ := hold
  obtain ⟨attributes, present⟩ := cell?_of_kind? found
  obtain ⟨attributes', present'⟩ := cell?_of_kind? found'
  unfold Heap.next
  rw [present, present']
  cases same with
  | sequence type same => cases type <;> exact ⟨_, rfl, rfl⟩
  | dict same => exact ⟨_, rfl, rfl⟩

end Heap

namespace Iteration

variable {host : Host κ σ} {below : Handler κ σ} {first second : World κ σ}
  {related : Handle → Handle → Prop} {h k : Handle}

/-- The iterations go on alike from alike results. -/
theorem settle_same (h k : Handle) (next : IterationState) {heap other : Heap κ}
    {result twin : Except Error (Option (Object κ))} (common : next.Common)
    (same : heap.SameResult other (Option.Rel (Object.Twin related)) result twin) :
    ∃ given twin' state, settle h next result = (given, ⟨h, state⟩) ∧
      settle k next twin = (twin', ⟨k, state⟩) ∧ state.Common ∧
      Option.Rel (heap.SameResult other (Object.Twin related)) given twin' := by
  cases same with
  | error same => exact ⟨_, _, .finished, rfl, rfl, trivial, .some (.error same)⟩
  | ok same =>
      cases same with
      | none => exact ⟨_, _, .finished, rfl, rfl, trivial, .none⟩
      | some same => exact ⟨_, _, next, rfl, rfl, common, .some (.ok same)⟩

theorem agree_itemAt (hasLen : first.HasBuiltin .len) (hasLen' : second.HasBuiltin .len)
    (hold : first.heap.HoldSame second.heap related h k)
    (wraps : ∀ a b, related a b → ∀ later other, first.Moves Heap.Extends later →
      second.Moves Heap.Extends other →
      (runProgram (layer host below) (Bridge.wrap a)).Agree
        (runProgram (layer host below) (Bridge.wrap b)) later other
        fun _ _ => Object.Twin related)
    (cursor : Nat) :
    (runProgram (layer host below) (itemAt h cursor)).Agree
      (runProgram (layer host below) (itemAt k cursor)) first second
      fun _ _ => Option.Rel (Object.Twin related) := by
  unfold itemAt
  rw [Machine.runProgram_bind, Machine.runProgram_bind]
  refine (Machine.agree_lengthOf hasLen hasLen' hold).bind ?_
  rintro length _ asked asked' moves moves' rfl
  split
  · exact Exec.agree_pure .none
  rw [Machine.runProgram_bind, Machine.runProgram_bind]
  have stays := hold.extends moves.heap moves'.heap
  refine (Machine.agree_getItem (stays.agree_ofInt cursor)).bind ?_
  intro a b mid other early early' same
  rw [Machine.runProgram_bind, Machine.runProgram_bind]
  refine (wraps a b same mid other (moves.trans early) (moves'.trans early')).bind ?_
  intro object twin _ _ _ _ alike
  exact Exec.agree_pure (.some alike)

/-- A list, a tuple or a dict is no iterator. -/
theorem agree_steppedItem (host : Host κ σ) (below : Handler κ σ)
    (hold : first.heap.HoldSame second.heap related h k) :
    (runProgram (layer host below) (steppedItem h)).Agree
      (runProgram (layer host below) (steppedItem k)) first second
      fun _ _ => Option.Rel (Object.Twin related) := by
  obtain ⟨fault, refused, refused'⟩ := hold.next_eq
  have fails {world : World κ σ} {h : Handle}
      (refused : world.heap.next h = (.error fault, world.heap)) :
      (runProgram (layer host below) h.next).run world =
        some (.error (world.heap.raise fault).1,
          { world with heap := (world.heap.raise fault).2 }) := by
    rw [Machine.runProgram_next]
    refine Run.bind_eq_some_iff.mpr ⟨.error fault, world, ?_, rfl⟩
    unfold Run.onHeap
    dsimp only
    rw [refused]
  unfold steppedItem
  rw [Machine.runProgram_bind, Machine.runProgram_bind]
  exact ⟨_, _, _, _, Exec.run_bind_of_error (fails refused),
    Exec.run_bind_of_error (fails refused'), .ofHeap (Heap.along_raise _ fault),
    .ofHeap (Heap.along_raise _ fault), .error (Error.same_raise _ _ fault)⟩

theorem agree_start {p q : Proxy κ} (sameType : p.typeInfo = q.typeInfo)
    (hold : first.heap.HoldSame second.heap related p.handle q.handle) :
    (runProgram (layer host below) (start p)).Agree (runProgram (layer host below) (start q))
      first second
      fun _ _ i j => ∃ state, state.Common ∧ i = ⟨p.handle, state⟩ ∧ j = ⟨q.handle, state⟩ := by
  obtain ⟨notIterator, notIterator', sequence⟩ := hold.isSequence
  refine ⟨_, _, first, second, run_start host below notIterator,
    run_start host below notIterator', .refl first, .refl second, .ok ⟨_, ?_, rfl, ?_⟩⟩
  · split
    · trivial
    · trivial
  · rw [sequence, sameType]

end Iteration

/-! ### Reading from counterparts -/

section Counterparts

variable {host : Host κ σ} {layers : Nat} {first second : World κ σ}
  {related : Handle → Handle → Prop} {p q : Proxy κ}

namespace Proxy.Counterparts

theorem agree_wrap (same : p.Counterparts host layers related q first second) {a b : Handle}
    (alike : related a b) (later other : World κ σ) (moves : first.Moves Heap.Extends later)
    (moves' : second.Moves Heap.Extends other) :
    (runProgram (answer host layers) (Bridge.wrap a)).Agree
      (runProgram (answer host layers) (Bridge.wrap b)) later other
      fun _ _ => Object.Twin related := by
  refine (same.elements a b alike later other moves moves').mono fun _ _ _ _ _ _ agree => ?_
  exact agree.mono fun _ _ ⟨isFirst, isSecond⟩ => isFirst ▸ isSecond ▸ alike

theorem agree_next (same : p.Counterparts host (layers + 1) related q first second)
    {state : IterationState} (common : state.Common) :
    Iteration.AgreeNext (answer host (layers + 1)) related ⟨p.handle, state⟩ ⟨q.handle, state⟩
      first second := by
  have hasLen := same.reachableFirst.hasBuiltin .len
  have hasLen' := same.reachableSecond.hasBuiltin .len
  have wraps := fun a b (alike : related a b) => same.agree_wrap alike
  cases state with
  | finished => exact ⟨none, none, .finished, first, second, rfl, rfl, trivial, .none⟩
  | refused error =>
      cases error with
      | foreign exception => cases common
      | type fault =>
          exact ⟨_, _, .finished, first, second, rfl, rfl, trivial, .some (.error (.type fault))⟩
  | stepping =>
      obtain ⟨result, twin, after, later, here, there, _, _, alike⟩ :=
        Iteration.agree_steppedItem host (answer host layers) same.contents
      obtain ⟨given, given', state, settled, settled', common, agree⟩ :=
        Iteration.settle_same p.handle q.handle .stepping trivial alike
      exact ⟨given, given', state, after, later,
        Iteration.next_stepping_eq_some_iff.mpr ⟨result, here, settled⟩,
        Iteration.next_stepping_eq_some_iff.mpr ⟨twin, there, settled'⟩, common, agree⟩
  | reading cursor =>
      obtain ⟨result, twin, after, later, here, there, _, _, alike⟩ :=
        Iteration.agree_itemAt hasLen hasLen' same.contents wraps cursor
      obtain ⟨given, given', state, settled, settled', common, agree⟩ :=
        Iteration.settle_same p.handle q.handle (.reading (cursor + 1)) trivial alike
      exact ⟨given, given', state, after, later,
        Iteration.next_reading_eq_some_iff.mpr ⟨result, here, settled⟩,
        Iteration.next_reading_eq_some_iff.mpr ⟨twin, there, settled'⟩, common, agree⟩

theorem agree_length (same : p.Counterparts host (layers + 1) related q first second) :
    (runProgram (answer host (layers + 1)) p.length).Agree
      (runProgram (answer host (layers + 1)) q.length) first second fun _ _ a b => a = b :=
  Machine.agree_lengthOf (same.reachableFirst.hasBuiltin .len)
    (same.reachableSecond.hasBuiltin .len) same.contents

theorem agree_isEmpty (same : p.Counterparts host (layers + 1) related q first second) :
    (runProgram (answer host (layers + 1)) p.isEmpty).Agree
      (runProgram (answer host (layers + 1)) q.isEmpty) first second fun _ _ a b => a = b := by
  unfold Proxy.isEmpty
  rw [Machine.runProgram_bind, Machine.runProgram_bind]
  refine same.agree_length.bind ?_
  rintro length _ _ _ _ _ rfl
  exact Exec.agree_pure rfl

theorem agree_delegated (same : p.Counterparts host (layers + 1) related q first second)
    {method : Method κ} (tells : method.code = .length) (args others : List (Object κ)) :
    (runProgram (answer host (layers + 1)) ((Object.method (.member p method)).call args)).Agree
      (runProgram (answer host (layers + 1)) ((Object.method (.member q method)).call others))
      first second fun _ _ a b => a = b := by
  have called (receiver : Proxy κ) (args : List (Object κ)) :
      ((Object.method (.member receiver method)).call args : Program κ σ (Object κ)) = do
        return .ofPrimitive (Method.call.lengthPrimitive (← receiver.length)) := by
    rw [Object.call.eq_def]
    dsimp only
    unfold Method.call
    rw [tells]
  rw [called, called, Machine.runProgram_bind, Machine.runProgram_bind]
  refine same.agree_length.bind ?_
  rintro length _ _ _ _ _ rfl
  exact Exec.agree_pure rfl

theorem agree_sliced (same : p.Counterparts host (layers + 1) related q first second)
    (start stop step : Option Int64) :
    (runProgram (answer host (layers + 1)) (p.slice start stop step)).Agree
      (runProgram (answer host (layers + 1)) (q.slice start stop step)) first second
      fun heap other => Object.Twin (heap.HoldSame other related) := by
  rw [Proxy.slice_eq, Proxy.slice_eq, Machine.runProgram_bind, Machine.runProgram_bind]
  refine (Machine.agree_takeSlice (same.reachableFirst.hasBuiltin .slice)
    (same.reachableSecond.hasBuiltin .slice) same.contents).bind ?_
  intro a b mid other moves moves' hold
  have wraps := same.sections mid other a b moves moves' hold mid other (.refl mid) (.refl other)
  refine wraps.mono fun heap twin object view grows grows' alike => alike.mono ?_
  rintro _ _ ⟨rfl, rfl⟩
  exact hold.extends grows grows'

theorem readSame (same : p.Counterparts host (layers + 1) related q first second) :
    p.ReadSame host (layers + 1) related q first second where
  length := same.agree_length
  isEmpty := same.agree_isEmpty
  delegated _ args others tells := same.agree_delegated tells args others
  slice := same.agree_sliced
  start := Iteration.agree_start same.typeInfo same.contents
  next _ common := same.agree_next common

end Proxy.Counterparts

/-- What calls on an iteration give, each made in a world of its own and given with the heap then:
between two calls anything may have happened. -/
inductive Iteration.CalledIn (below : Handler κ σ) : Iteration → List (World κ σ) →
    List (Option (Except Error (Object κ)) × Heap κ) → Prop
  | nil {iteration : Iteration} : CalledIn below iteration [] []
  | cons {iteration rest : Iteration} {world after : World κ σ} {worlds : List (World κ σ)}
      {given : Option (Except Error (Object κ))}
      {answers : List (Option (Except Error (Object κ)) × Heap κ)}
      (called : iteration.next.run below world = some ((given, rest), after))
      (more : CalledIn below rest worlds answers) :
      CalledIn below iteration (world :: worlds) ((given, after.heap) :: answers)

/-- Two iterations in one state give the same, call by call, as long as the values hold the same
whenever they are called. -/
theorem Iteration.calledIn_same {worlds others : List (World κ σ)}
    (same : List.Forall₂ (p.Counterparts host (layers + 1) related q) worlds others)
    {state : IterationState} (common : state.Common) :
    ∃ answers twins,
      CalledIn (answer host (layers + 1)) ⟨p.handle, state⟩ worlds answers ∧
      CalledIn (answer host (layers + 1)) ⟨q.handle, state⟩ others twins ∧
      List.Forall₂ (fun a b => Option.Rel (a.2.SameResult b.2 (Object.Twin related)) a.1 b.1)
        answers twins := by
  induction same generalizing state with
  | nil => exact ⟨[], [], .nil, .nil, .nil⟩
  | cons first _ ih =>
      obtain ⟨given, twin, next, after, later, called, called', common, agree⟩ :=
        first.agree_next common
      obtain ⟨answers, twins, more, more', rest⟩ := ih common
      exact ⟨_, _, .cons called more, .cons called' more', .cons agree rest⟩

/-! ### The standard registry -/

theorem Heap.HoldSame.regular {heap other : Heap κ} {h k : Handle}
    (hold : heap.HoldSame other related h k) : heap.Regular h ∧ other.Regular k := by
  obtain ⟨kind, twin, found, found', same⟩ := hold
  have of_plain {heap : Heap κ} {h : Handle} {kind : Kind κ} (found : heap.kind? h = some kind)
      (classed : heap.HasClass kind) (silent : kind.isCallable = false) : heap.Regular h := by
    intro object present
    cases (Heap.kind?_of_cell? present).symm.trans found
    refine ⟨classed, fun callable => ?_⟩
    rw [silent] at callable
    cases callable
  cases same with
  | sequence type same =>
      cases type with
      | list => exact ⟨of_plain found nofun rfl, of_plain found' nofun rfl⟩
      | tuple => exact ⟨of_plain found nofun rfl, of_plain found' nofun rfl⟩
  | dict same => exact ⟨of_plain found nofun rfl, of_plain found' nofun rfl⟩

theorem World.wrapSame_of_lookSame {h k : Handle} (regular : first.heap.Regular h)
    (regular' : second.heap.Regular k) (standard : first.loader = .standard)
    (standard' : second.loader = .standard) (look : first.heap.LookSame second.heap h k) :
    first.WrapSame host (layers + 2) second h k := by
  intro later other moves moves'
  obtain ⟨kind, twin, found, found', _⟩ := id look
  exact Machine.agree_wrap (regular.extends found moves.heap) (regular'.extends found' moves'.heap)
    (moves.loader.trans standard) (moves'.loader.trans standard')
    (look.extends regular regular' moves.heap moves'.heap)

theorem Proxy.counterparts_of_standard (reachable : first.Reachable host)
    (reachable' : second.Reachable host) (standard : first.loader = .standard)
    (standard' : second.loader = .standard) (sameType : p.typeInfo = q.typeInfo)
    (hold : first.heap.HoldSame second.heap related p.handle q.handle)
    (look : ∀ h k, related h k → first.heap.LookSame second.heap h k) :
    p.Counterparts host (layers + 2) related q first second where
  reachableFirst := reachable
  reachableSecond := reachable'
  typeInfo := sameType
  contents := hold
  elements h k alike :=
    World.wrapSame_of_lookSame (reachable.sound.regular h) (reachable'.sound.regular k) standard
      standard' (look h k alike)
  sections _ _ _ _ moves moves' hold :=
    World.wrapSame_of_lookSame hold.regular.1 hold.regular.2 (moves.loader.trans standard)
      (moves'.loader.trans standard') hold.lookSame

end Counterparts

/-! ### Names in evaluated code -/

namespace World

variable {host : Host κ σ} {world later : World κ σ} {name : String}

theorem global?_of_dict {entries : OrderedMap Handle}
    (isDict : world.heap.kind? world.globals = some (.dict entries)) (name : String) :
    world.global? name = entries.get? name := by
  obtain ⟨attributes, present⟩ := Heap.cell?_of_kind? isDict
  unfold global?
  cases stands : entries.get? name with
  | some value => rw [Heap.item_entry present rfl stands]
  | none =>
      obtain ⟨fault, refused⟩ := Heap.item_absent present rfl stands
      rw [refused]

/-- The shared namespace stays a dict, and the names that it binds stay bound. -/
theorem globals_dict_later (evolves : world.heap.Evolves later.heap)
    (same : later.globals = world.globals) {entries : OrderedMap Handle}
    (isDict : world.heap.kind? world.globals = some (.dict entries)) :
    ∃ others, later.heap.kind? later.globals = some (.dict others) ∧
      ∀ key, (entries.get? key).isSome = true → (others.get? key).isSome = true := by
  obtain ⟨kind, found, turns⟩ := evolves.kind? isDict
  obtain ⟨others, rfl, kept⟩ := turns.dict
  exact ⟨others, same ▸ found, fun key bound =>
    OrderedMap.contains_iff.mpr (kept.subset (OrderedMap.contains_iff.mp bound))⟩

theorem Reachable.globals_dict (reachable : world.Reachable host) :
    ∃ entries, world.heap.kind? world.globals = some (.dict entries) := by
  apply reachable.induct Heap.Evolves
  · exact fun settings loader state => ⟨.empty, rfl⟩
  · exact fun _ _ isDict => isDict
  · rintro world after ⟨entries, isDict⟩ moves
    obtain ⟨others, found, _⟩ := globals_dict_later moves.heap moves.globals isDict
    exact ⟨others, found⟩

end World

namespace Script.Scope

variable {scope : Scope κ σ} {along : Heap κ → Heap κ → Prop} {world there after : World κ σ}
  {expr : Expr} {exprs : List Expr} {statements : List Statement} {log : Entries Handle}

theorem Moves.invokes (invoked : scope.Moves along) :
    scope.Invokes fun _ x => Run.Moves along x.run :=
  fun h args _ => invoked h args

variable [Heap.Evolving along]

theorem Visits.moves (invoked : scope.Moves along) (visits : scope.Visits expr there exprs world) :
    world.Moves along there := by
  induction visits with
  | here => exact .refl _
  | inside _ ih => exact ih
  | later evaluated _ ih =>
      have early := good_eval (Exec.closed_moves along) invoked.invokes _ _ _ _ evaluated
      exact early.trans ih

theorem Logs.moves (invoked : scope.Moves along) (logs : scope.Logs statements world log after) :
    world.Moves along after := by
  induction logs with
  | nil => exact .refl _
  | expr evaluated _ ih =>
      exact (good_eval (Exec.closed_moves along) invoked.invokes _ _ _ _ evaluated).trans ih
  | assign evaluated assigned _ ih =>
      have early := good_eval (Exec.closed_moves along) invoked.invokes _ _ _ _ evaluated
      have late := good_assign (Exec.closedWriting_moves along) invoked.invokes _ _ _ _ _ assigned
      exact early.trans (late.trans ih)

theorem Evaluates.moves (invoked : scope.Moves along)
    (evaluates : scope.Evaluates statements world log expr there) : world.Moves along there := by
  obtain ⟨done, statement, rest, mid, _, logs, visits⟩ := evaluates
  exact (logs.moves invoked).trans (visits.moves invoked)

end Script.Scope

/-- How a source that is evaluated in the shared namespace finds a name. -/
structure World.Shadows (host : Host κ σ) (layers : Nat) (world : World κ σ) (name : String) :
    Prop where
  /-- The text of a source without values runs in the shared namespace as it is then. -/
  runs : ∀ (later : World κ σ) (source : String),
    (runProgram (answer host (layers + 1)) (Bridge.evaluate (.plain source))).run later =
      ((scopeIn host layers later.globals).exec
        (if later.settings.dedent then dedent source else source) >>= fun value =>
          runProgram (answer host (layers + 1)) (Bridge.wrap value)).run later
  /-- A name that is not bound stands for the builtin. -/
  unbound : world.global? name = none →
    (scopeIn host layers world.globals).Resolves name (world.builtins.get? name) world
  /-- An assignment binds the name. -/
  assigned : ∀ value after,
    ((scopeIn host layers world.globals).assign (.name name) value).run world =
      some (.ok (), after) → after.global? name = some value
  /-- A name that is bound stays bound. Wherever a later run evaluates it, it gives what it is bound
  to then, and never the builtin. -/
  bound : (world.global? name).isSome = true → ∀ later, world.heap.Evolves later.heap →
    later.globals = world.globals → ∀ statements log there,
      (scopeIn host layers later.globals).Evaluates statements later log (.name name) there →
      ∃ value, there.global? name = some value ∧
        ((scopeIn host layers later.globals).eval (.name name)).run there = some (.ok value, there)

theorem World.Reachable.shadows {host : Host κ σ} {world : World κ σ}
    (reachable : world.Reachable host) (layers : Nat) (name : String) :
    world.Shadows host layers name := by
  obtain ⟨entries, isDict⟩ := reachable.globals_dict
  constructor
  case runs => exact fun later source => Machine.run_evaluate_plain host layers later source
  case unbound =>
    intro absent
    have resolves := (scopeIn host layers world.globals).resolves rfl isDict name
    rw [← global?_of_dict isDict, absent] at resolves
    exact resolves
  case assigned =>
    intro value after assigned
    obtain ⟨attributes, found⟩ := Heap.cell?_of_kind? isDict
    let cell : Cell κ := .object ⟨.dict (entries.insert name value), attributes⟩
    have set : world.heap.setItem (scopeIn host layers world.globals).locals (.string name)
        (.handle value) = (.ok, world.heap.write world.globals cell) :=
      Heap.setItem_of_dict found rfl rfl
    rw [Script.run_assign_name, set, Script.run_accepted rfl] at assigned
    cases assigned
    have written := Heap.kind?_of_cell? (Heap.cell?_write_self found cell)
    rw [global?_of_dict written, OrderedMap.get?_insert, if_pos rfl]
  case bound =>
    intro bound later evolves same statements log there evaluates
    have invoked : (scopeIn host layers later.globals).Moves Heap.Evolves :=
      fun h args => Machine.evolves_answer host layers (.invoke h args)
    have runs := evaluates.moves invoked
    obtain ⟨others, isDict', kept⟩ :=
      globals_dict_later (evolves.trans runs.heap) (runs.globals.trans same) isDict
    rw [global?_of_dict isDict] at bound
    obtain ⟨value, stands⟩ := Option.isSome_iff_exists.mp (kept name bound)
    refine ⟨value, (global?_of_dict isDict' name).trans stands, ?_⟩
    rw [runs.globals] at isDict'
    rw [Script.Scope.eval]
    exact Exec.run_tryCatch_of_ok (Script.Scope.run_getItem_bound isDict' stands)

/-- Evaluated code cannot redirect the bridge. Take two runs of one host that may have evaluated,
called and assigned anything, and a list, a tuple or a dict in each, so that both hold the same.
Then the length of their proxies, whether they are empty, the method for the length, every slice and
every step of an iteration are the same in both runs, up to what is made anew, also if they are the
same error; and an iteration gives the same call by call, as long as the contents are the same
whenever it is called. All that the runs need to have in common besides is that the elements and the
slices are wrapped the same. Under the standard registry it is enough for this that elements look
the same, and what both runs have from a common past does.

In evaluated code it is otherwise: once a name is bound in the shared namespace, it stays bound, and
stands in every later evaluation for what it is bound to and never for a builtin. -/
theorem Bridge.steadfast (host : Host κ σ) (layers : Nat) :
    (∀ (related : Handle → Handle → Prop) (p q : Proxy κ),
      (∀ first second, p.Counterparts host (layers + 1) related q first second →
        p.ReadSame host (layers + 1) related q first second) ∧
      ∀ worlds others state, state.Common →
        List.Forall₂ (p.Counterparts host (layers + 1) related q) worlds others →
        ∃ answers twins,
          Iteration.CalledIn (answer host (layers + 1)) ⟨p.handle, state⟩ worlds answers ∧
          Iteration.CalledIn (answer host (layers + 1)) ⟨q.handle, state⟩ others twins ∧
          List.Forall₂ (fun a b => Option.Rel (a.2.SameResult b.2 (Object.Twin related)) a.1 b.1)
            answers twins) ∧
    (∀ first second : World κ σ, first.Reachable host → second.Reachable host →
      first.loader = .standard → second.loader = .standard →
      (∀ (related : Handle → Handle → Prop) (p q : Proxy κ), p.typeInfo = q.typeInfo →
        first.heap.HoldSame second.heap related p.handle q.handle →
        (∀ h k, related h k → first.heap.LookSame second.heap h k) →
        p.Counterparts host (layers + 2) related q first second) ∧
      ∀ past : World κ σ, past.Reachable host → past.heap.Evolves first.heap →
        past.heap.Evolves second.heap → ∀ h kind, past.heap.kind? h = some kind →
        first.heap.LookSame second.heap h h) ∧
    ∀ (world : World κ σ) (name : String), world.Reachable host →
      world.Shadows host layers name := by
  refine ⟨fun related p q => ⟨?_, ?_⟩, ?_, ?_⟩
  · exact fun first second same => same.readSame
  · exact fun worlds others state common same => Iteration.calledIn_same same common
  · intro first second reachable reachable' standard standard'
    refine ⟨fun related p q sameType hold look => ?_, ?_⟩
    · exact Proxy.counterparts_of_standard reachable reachable' standard standard' sameType hold
        look
    · intro past reachable here there h kind found
      exact Heap.lookSame_of_past reachable.sound here there found
  · exact fun world name reachable => reachable.shadows layers name

/-- A list of one item in a run that has not evaluated anything, and in one that has bound `len` to
a number and set an attribute on the builtin. -/
theorem Bridge.steadfast_rebound :
    let host := Host.answeringNone
    let start : World Unit Unit := .start {} .standard ()
    let first := { start with heap :=
      (start.heap.push (.object ⟨.int 5, .empty⟩)).push (.object ⟨.list [⟨7⟩], .empty⟩) }
    let p : Proxy Unit := .mk ⟨8⟩ ⟨"builtins", "list"⟩ [("len", .method ⟨"len", .length⟩)]
    ∃ evaluated second value,
      answer host 1 (.exec "len = 9" first.globals first.globals) first =
        some (.ok value, evaluated) ∧
      answer host 1 (.setAttr ⟨1⟩ "__call__" (.int 0)) evaluated = some (.ok, second) ∧
      (∃ after, (runProgram (answer host 2) p.length).run second = some (.ok 1, after)) ∧
      ∃ nine, second.heap.kind? nine = some (.int 9) ∧
        ((scopeIn host 1 second.globals).eval (.name "len")).run second =
          some (.ok nine, second) := by
  intro host start first p
  have parsed : Script.parseSource "len = 9" = .ok [.assign (.name "len") (.int 9)] := by cbv
  let bound : OrderedMap Handle := .ofEntries [("len", ⟨9⟩)]
  let nine := first.heap.push (.object ⟨.int 9, .empty⟩)
  let shared := nine.write ⟨0⟩ (.object ⟨.dict bound, .empty⟩)
  let evaluated := { first with heap := shared.push (.object ⟨.none, .empty⟩) }
  let zero := evaluated.heap.push (.object ⟨.int 0, .empty⟩)
  let set : OrderedMap Handle := .ofEntries [("__call__", ⟨11⟩)]
  let second := { evaluated with
    heap := zero.write ⟨1⟩ (.object ⟨.function "len" (.builtin .len), set⟩) }
  have made : answer host 1 (.create (.int 5)) start =
    some (⟨7⟩, { start with heap := start.heap.push (.object ⟨.int 5, .empty⟩) }) := rfl
  have listed : answer host 1 (.create (.list [⟨7⟩]))
    { start with heap := start.heap.push (.object ⟨.int 5, .empty⟩) } = some (⟨8⟩, first) := rfl
  have ran : answer host 1 (.exec "len = 9" first.globals first.globals) first =
      some (.ok ⟨10⟩, evaluated) := by
    change ((scopeIn host 0 first.globals).exec "len = 9").run first = _
    rw [Script.Scope.exec_of_parsed parsed]
    rfl
  have assigned : answer host 1 (.setAttr ⟨1⟩ "__call__" (.int 0)) evaluated =
    some (.ok, second) := rfl
  have reachable : first.Reachable host :=
    ((World.Reachable.start {} .standard ()).answer made).answer listed
  have reachable' : second.Reachable host := (reachable.answer ran).answer assigned
  have early : first.Moves Heap.Evolves evaluated := Machine.evolves_answer host 1 _ _ _ _ ran
  have late : evaluated.Moves Heap.Evolves second := Machine.evolves_answer host 1 _ _ _ _ assigned
  refine ⟨evaluated, second, ⟨10⟩, ran, assigned, ?_, ⟨9⟩, rfl, ?_⟩
  · have isList : first.heap.kind? ⟨8⟩ = some (SequenceType.list.kind [⟨7⟩]) := rfl
    have isList' : second.heap.kind? ⟨8⟩ = some (SequenceType.list.kind [⟨7⟩]) := rfl
    have items : List.Forall₂ (fun h k => h = k ∧ h = ⟨7⟩) [(⟨7⟩ : Handle)] [⟨7⟩] :=
      .cons ⟨rfl, rfl⟩ .nil
    obtain ⟨counterparts, past⟩ :=
      (Bridge.steadfast host 0).2.1 first second reachable reachable' rfl rfl
    have look : ∀ h k, h = k ∧ h = ⟨7⟩ → first.heap.LookSame second.heap h k := by
      rintro h _ ⟨rfl, rfl⟩
      exact past first reachable .refl (early.trans late).heap ⟨7⟩ (.int 5) rfl
    have same := counterparts _ p p rfl ⟨_, _, isList, isList', .sequence .list items⟩ look
    have reads := ((Bridge.steadfast host 1).1 _ p p).1 first second same
    obtain ⟨result, twin, _, after, here, there, _, _, agree⟩ := reads.length
    have one : (runProgram (answer host 2) p.length).run first =
        some (.ok 1, first.lengthAsked 1) :=
      Machine.run_lengthOf host (answer host 1) (reachable.hasBuiltin .len) isList rfl (by decide)
    cases here.symm.trans one
    cases agree with
    | ok told =>
        cases told
        exact ⟨after, there⟩
  · obtain ⟨_, _, shadows⟩ := Bridge.steadfast host 1
    have bound := (shadows second "len" reachable').bound rfl second .refl rfl
    obtain ⟨value, stands, gives⟩ := bound [.expr (.name "len")] [] second
      ⟨[], .expr (.name "len"), [], second, rfl, .nil, .here⟩
    cases stands
    exact gives

end Interop
