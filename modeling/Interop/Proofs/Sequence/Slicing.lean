import Interop.Proofs.Bridge.RoundTrip
import Interop.Proofs.Iteration.Live
import Interop.Proofs.Sequence.Selection
/-!
Slices of lists and tuples through a proxy. The bounds go to the foreign side as values of their
own, a slice is made of them there, and the sequence gives a new one for it.
-/

set_option autoImplicit false

namespace Interop

variable {κ σ : Type}

inductive SequenceType
  | list
  | tuple

namespace SequenceType

def name : SequenceType → String
  | list => "list"
  | tuple => "tuple"

def kind : SequenceType → List Handle → Kind κ
  | list, items => .list items
  | tuple, items => .tuple items

def part : SequenceType → List Handle → Item
  | list, items => .listSection items
  | tuple, items => .tupleSection items

end SequenceType

namespace Heap

variable {heap : Heap κ} {h : Handle} {start stop step : Option Int64}

/-! ### A slice as a foreign value -/

def boundArg : Option Int64 → Arg κ
  | none => .none
  | some bound => .int bound

theorem exists_marshal_bound (heap : Heap κ) (bound : Option Int64) :
    ∃ h made, (marshal (boundArg bound)).run heap = .ok (h, made) ∧ heap.Extends made ∧
      ∀ after : Heap κ, made.Extends after → after.sliceBound h = .ok bound := by
  cases bound with
  | none =>
      refine ⟨_, _, rfl, .push _ _, ?_⟩
      intro after extends_
      have found : after.kind? heap.fresh = some .none :=
        extends_.kind? (kind?_fresh heap _)
      rw [sliceBound, found]
  | some bound =>
      refine ⟨_, _, rfl, .push _ _, ?_⟩
      intro after extends_
      have found : after.kind? heap.fresh = some (.int bound) :=
        extends_.kind? (kind?_fresh heap _)
      rw [sliceBound, found]

/-- The builtin makes a slice of three bounds that were marshalled. -/
theorem exists_slice (heap : Heap κ) (start stop step : Option Int64) :
    ∃ handles made cut after,
      (marshalAll [boundArg start, boundArg stop, boundArg step]).run heap = .ok (handles, made) ∧
      (callBuiltin .slice handles).run made = .ok (cut, after) ∧
      after.kind? cut = some (.slice start stop step) ∧ heap.Extends after := by
  obtain ⟨first, one, madeFirst, early, readsFirst⟩ := exists_marshal_bound heap start
  obtain ⟨second, two, madeSecond, later, readsSecond⟩ := exists_marshal_bound one stop
  obtain ⟨third, three, madeThird, latest, readsThird⟩ := exists_marshal_bound two step
  have all : (marshalAll [boundArg start, boundArg stop, boundArg step]).run heap =
      .ok ([first, second, third], three) := by
    refine Op.bind_eq_ok_iff.mpr ⟨first, one, madeFirst, ?_⟩
    refine Op.bind_eq_ok_iff.mpr ⟨_, _, ?_, rfl⟩
    refine Op.bind_eq_ok_iff.mpr ⟨second, two, madeSecond, ?_⟩
    refine Op.bind_eq_ok_iff.mpr ⟨_, _, ?_, rfl⟩
    exact Op.bind_eq_ok_iff.mpr ⟨third, three, madeThird, rfl⟩
  refine ⟨_, three, three.fresh, three.push (.object ⟨.slice start stop step, .empty⟩), all, ?_,
    kind?_fresh three _, ((early.trans later).trans latest).trans (.push _ _)⟩
  -- what was marshalled first is still there when all three are
  have bounds : three.sliceBound first = .ok start ∧ three.sliceBound second = .ok stop ∧
      three.sliceBound third = .ok step :=
    ⟨readsFirst three (later.trans latest), readsSecond three latest, readsThird three (.refl _)⟩
  obtain ⟨isStart, isStop, isStep⟩ := bounds
  refine Op.bind_eq_ok_iff.mpr ⟨three, three, rfl, ?_⟩
  dsimp only
  rw [isStart, isStop, isStep]
  rfl

/-! ### The section of a sequence -/

variable {type : SequenceType} {items : List Handle} {cut : Handle}

theorem sequencePart_of_slice (isSlice : heap.kind? cut = some (.slice start stop step))
    (sequence : String) :
    heap.sequencePart sequence items (.handle cut) =
      (fun positions => .inr (positions.filterMap (items[·]?))) <$>
        slicePositions items.length start stop step := by
  unfold sequencePart
  dsimp only
  rw [isSlice]
  dsimp only
  cases slicePositions items.length start stop step with
  | error fault => rfl
  | ok positions => rfl

/-- A slice is no primitive, so that it stays the key that it is. -/
theorem plainKey_of_slice (isSlice : heap.kind? cut = some (.slice start stop step)) :
    heap.plainKey (.handle cut) = .handle cut := by
  unfold plainKey
  dsimp only
  rw [isSlice]

/-- An item of a sequence is one of its items, or a new sequence of some of them. -/
theorem item_of_sequence (found : heap.kind? h = some (type.kind items))
    {key : Arg κ} (plain : heap.plainKey key = key) :
    heap.item h key = (heap.sequencePart type.name items key).map
      (Sum.elim .object type.part) := by
  obtain ⟨attributes, present⟩ := cell?_of_kind? found
  unfold item
  rw [present, plain]
  cases type with
  | list =>
      dsimp only [SequenceType.kind, SequenceType.name]
      rcases heap.sequencePart "list" items key with _ | _ | _ <;> rfl
  | tuple =>
      dsimp only [SequenceType.kind, SequenceType.name]
      rcases heap.sequencePart "tuple" items key with _ | _ | _ <;> rfl

theorem item_slice (found : heap.kind? h = some (type.kind items))
    (isSlice : heap.kind? cut = some (.slice start stop step)) :
    heap.item h (.handle cut) = (fun positions => type.part (positions.filterMap (items[·]?))) <$>
      slicePositions items.length start stop step := by
  rw [item_of_sequence found (plainKey_of_slice isSlice), sequencePart_of_slice isSlice]
  cases slicePositions items.length start stop step with
  | error fault => rfl
  | ok positions => rfl

theorem getItem_slice {positions : List Nat} (found : heap.kind? h = some (type.kind items))
    (isSlice : heap.kind? cut = some (.slice start stop step))
    (selects : slicePositions items.length start stop step = .ok positions) :
    (getItem h (.handle cut)).run heap = .ok (heap.fresh,
      heap.push (.object ⟨type.kind (positions.filterMap (items[·]?)), .empty⟩)) := by
  have item := item_slice found isSlice
  rw [selects] at item
  cases type with
  | list => exact getItem_of_ok item
  | tuple => exact getItem_of_ok item

theorem getItem_slice_error {fault : Fault} (found : heap.kind? h = some (type.kind items))
    (isSlice : heap.kind? cut = some (.slice start stop step))
    (refused : slicePositions items.length start stop step = .error fault) :
    (getItem h (.handle cut) : Op κ Handle).run heap = .error fault := by
  have item := item_slice found isSlice
  rw [refused] at item
  exact getItem_of_error item

end Heap

namespace Machine

variable (host : Host κ σ) (below : Handler κ σ) {world : World κ σ}

open Heap (boundArg)

/-- The program that makes a slice of its bounds. -/
def makeSlice (start stop step : Option Int64) : Program κ σ Handle := do
  (← Program.builtin "slice").invoke [boundArg start, boundArg stop, boundArg step]

theorem run_makeSlice (hasSlice : world.HasBuiltin .slice) (start stop step : Option Int64) :
    ∃ cut heap, (runProgram (layer host below) (makeSlice start stop step)).run world =
        some (.ok cut, { world with heap := heap }) ∧
      heap.kind? cut = some (.slice start stop step) ∧ world.heap.Extends heap := by
  obtain ⟨f, bound, isBuiltin⟩ := hasSlice
  obtain ⟨handles, made, cut, heap, marshalled, called, isSlice, extends_⟩ :=
    Heap.exists_slice world.heap start stop step
  refine ⟨cut, heap, ?_, isSlice, extends_⟩
  have positional : Arg.splitKeywords [boundArg start, boundArg stop, boundArg step] =
      ([boundArg start, boundArg stop, boundArg step], ([] : Entries (Arg κ))) := by
    cases start <;> cases stop <;> cases step <;> rfl
  have bound : world.builtins.get? "slice" = some f := bound
  unfold makeSlice
  rw [run_bind_of_ok _ (run_builtin host below bound)]
  exact run_invoke_marshalled host below isBuiltin positional marshalled called

end Machine

/-! ### What a slice holds -/

/-- The items at the positions that a loop takes, in order. -/
theorem getElem?_filterMap_of_takenBy {step stop index : Int} {positions : List Nat}
    (taken : TakenBy step stop index positions) {items : List Handle}
    (inside : ∀ p ∈ positions, p < items.length) (k : Nat) :
    (positions.filterMap (items[·]?))[k]? =
      if Before step stop (index + k * step) then items[(index + k * step).toNat]? else none := by
  have picked : ∀ (positions : List Nat), (∀ p ∈ positions, p < items.length) → ∀ k : Nat,
      (positions.filterMap (items[·]?))[k]? = positions[k]?.bind (items[·]?) := by
    intro positions inside
    induction positions with
    | nil => simp
    | cons p rest ih =>
        intro k
        obtain ⟨here, behind⟩ := List.forall_mem_cons.mp inside
        rw [List.filterMap_cons, List.getElem?_eq_getElem here]
        cases k with
        | zero => simp [here]
        | succ k => simpa using ih behind k
  rw [picked positions inside k, taken k]
  split
  · rfl
  · rfl

/-- The error is an exception of a builtin type with a message. -/
def Heap.IsException (heap : Heap κ) (error : Error) (kind message : String) : Prop :=
  ∃ exception, error = .foreign exception ∧
    heap.kind? exception.excType = some (.type ⟨"builtins", kind⟩) ∧
    exception.message = kind ++ ": " ++ message

theorem Heap.isException_raise (heap : Heap κ) {fault : Fault} {kind message : String}
    (reported : fault.report = .exception kind message) (nonempty : message ≠ "") :
    (heap.raise fault).2.IsException (heap.raise fault).1 kind message := by
  unfold raise
  rw [reported]
  refine ⟨_, rfl, ?_, ?_⟩
  · exact kind?_push (kind?_push (kind?_push (kind?_fresh heap _) _) _) _
  · exact if_neg nonempty

namespace Machine

variable (host : Host κ σ) (below : Handler κ σ) {world : World κ σ} {h : Handle}
  {type : SequenceType} {items : List Handle} {start stop step : Option Int64}

def takeSlice (h : Handle) (start stop step : Option Int64) : Program κ σ Handle := do
  h.getItem (.handle (← makeSlice start stop step))

theorem run_takeSlice {positions : List Nat} (hasSlice : world.HasBuiltin .slice)
    (found : world.heap.kind? h = some (type.kind items))
    (selects : slicePositions items.length start stop step = .ok positions) :
    ∃ heap, world.heap.Extends heap ∧
      (runProgram (layer host below) (takeSlice h start stop step)).run world =
        some (.ok heap.fresh, { world with
          heap := heap.push (.object ⟨type.kind (positions.filterMap (items[·]?)), .empty⟩) }) := by
  obtain ⟨cut, heap, made, isSlice, extends_⟩ := run_makeSlice host below hasSlice start stop step
  refine ⟨heap, extends_, ?_⟩
  unfold takeSlice
  rw [run_bind_of_ok _ made, runProgram_getItem]
  exact Run.attempt_of_ok (Heap.getItem_slice (extends_.kind? found) isSlice selects)

theorem run_takeSlice_error {fault : Fault} (hasSlice : world.HasBuiltin .slice)
    (found : world.heap.kind? h = some (type.kind items))
    (refused : slicePositions items.length start stop step = .error fault) :
    ∃ heap, world.heap.Extends heap ∧
      (runProgram (layer host below) (takeSlice h start stop step)).run world =
        some (.error (heap.raise fault).1, { world with heap := (heap.raise fault).2 }) := by
  obtain ⟨cut, heap, made, isSlice, extends_⟩ := run_makeSlice host below hasSlice start stop step
  refine ⟨heap, extends_, ?_⟩
  unfold takeSlice
  rw [run_bind_of_ok _ made, runProgram_getItem]
  exact Run.attempt_of_error (Heap.getItem_slice_error (extends_.kind? found) isSlice refused)

end Machine

theorem Proxy.slice_eq (p : Proxy κ) (start stop step : Option Int64) :
    (p.slice start stop step : Program κ σ (Object κ)) =
      Machine.takeSlice p.handle start stop step >>= Bridge.wrap := by
  unfold Proxy.slice Machine.takeSlice Machine.makeSlice
  rw [bind_assoc, bind_assoc]
  apply congrArg
  funext f
  rfl

/-! ### Slicing through a proxy -/

section Slices

variable {host : Host κ σ} {world : World κ σ} {type : SequenceType} {items : List Handle}

theorem takeSlice_selects (hasSlice : world.HasBuiltin .slice) {h : Handle}
    (found : world.heap.kind? h = some (type.kind items)) (fits : FitsWord items.length)
    {start stop step : Option Int64} (nonzero : step ≠ some 0) (layers : Nat) :
    let indices := sliceIndices items.length (start.map Int64.toInt) (stop.map Int64.toInt)
      (step.map Int64.toInt)
    ∃ new selected mid,
      (Machine.runProgram (Machine.answer host (layers + 1))
        (Machine.takeSlice h start stop step)).run world = some (.ok new, mid) ∧
      world.heap.cell? new = none ∧ mid.heap.kind? new = some (type.kind selected) ∧
      (∀ k : Nat, selected[k]? =
        if Before indices.step indices.last (indices.first + k * indices.step)
        then items[(indices.first + k * indices.step).toNat]? else none) ∧
      world.Moves Heap.Extends mid := by
  have nonzeroStep : step.getD 1 ≠ 0 := by
    cases step with
    | none => decide
    | some step => exact fun zero => nonzero (congrArg some zero)
  obtain ⟨positions, selects, taken⟩ :=
    @slicePositions_eq_ok items.length start stop step fits nonzeroStep
  have free := sliceIndices_unhindered fits (start.map Int64.toInt) (stop.map Int64.toInt)
    (step.map Int64.toInt)
  have inside : ∀ p ∈ positions, p < items.length := by
    intro p among
    obtain ⟨k, isPlace, before⟩ := (taken.mem_iff free p).mp among
    rw [isPlace] at before
    have below := (sliceIndices_inside before).2
    omega
  obtain ⟨heap, extends_, finished⟩ :=
    Machine.run_takeSlice host (Machine.answer host layers) hasSlice found selects
  have isFresh := extends_.cell?_eq_none (Heap.cell?_fresh heap)
  exact ⟨_, _, _, finished, isFresh, Heap.kind?_fresh heap _,
    getElem?_filterMap_of_takenBy taken inside, .ofHeap (extends_.trans (.push heap _))⟩

/-- With the standard registry the host has a proxy for every list and every tuple. -/
theorem wrap_sequence (reachable : world.Reachable host) (standard : world.loader = .standard)
    {h : Handle} (found : world.heap.kind? h = some (type.kind items)) (layers : Nat) :
    ∃ q after, (Machine.runProgram (Machine.answer host (layers + 2)) (Bridge.wrap h)).run world =
        some (.ok (.proxy q), after) ∧
      q.handle = h ∧ q.typeInfo = ⟨"builtins", type.name⟩ ∧ world.Moves Heap.Extends after := by
  have info : world.heap.typeInfo (type.kind items) = ⟨"builtins", type.name⟩ := by
    cases type with
    | list => rfl
    | tuple => rfl
  have viewed : world.heap.view? h (type.kind items) = some (.proxy
      (.mk h (world.heap.typeInfo (type.kind items))
        ((type.kind items).members (world.heap.typeInfo (type.kind items))))) := by
    refine Heap.view?_eq_proxy_iff.mpr ⟨?_, ?_, rfl⟩
    · rw [info]
      cases type with
      | list => decide
      | tuple => decide
    · rw [info]
      cases type with
      | list => decide
      | tuple => decide
  obtain ⟨after, finished, moves⟩ := Bridge.wrap_of_view layers reachable standard found viewed
  exact ⟨_, after, finished, rfl, info, moves⟩

/-- Slicing a list or a tuple whose length is a word. A step of zero is refused with a `ValueError`.
For any other step the sequence gives a new one of its type: its items are those at the places whole
steps from the first bound that come before the last, all of which are positions of the sequence.
Nothing else on the heap changes, the bounds are computed without overflow, and with the standard
registry the result is the proxy of the new sequence. -/
theorem Proxy.slice_selects (reachable : world.Reachable host) {p : Proxy κ}
    (found : world.heap.kind? p.handle = some (type.kind items)) (fits : FitsWord items.length)
    (start stop step : Option Int64) (layers : Nat) :
    let size := Int64.ofInt items.length
    let indices := sliceIndices items.length (start.map Int64.toInt) (stop.map Int64.toInt)
      (step.map Int64.toInt)
    let place (k : Nat) := indices.first + k * indices.step
    let run := (Machine.runProgram (Machine.answer host (layers + 2))
      (p.slice start stop step)).run world
    (step = some 0 → ∃ error after, run = some (.error error, after) ∧
      after.heap.IsException error "ValueError" "slice step cannot be zero" ∧
      world.Moves Heap.Extends after) ∧
    (step ≠ some 0 → ∃ new selected mid,
      run = (Machine.runProgram (Machine.answer host (layers + 2)) (Bridge.wrap new)).run mid ∧
      world.heap.cell? new = none ∧ mid.heap.kind? new = some (type.kind selected) ∧
      (∀ k, selected[k]? = if Before indices.step indices.last (place k)
        then items[(place k).toNat]? else none) ∧
      world.Moves Heap.Extends mid ∧
      (world.loader = .standard → ∃ q after, run = some (.ok (.proxy q), after) ∧
        q.handle = new ∧ q.typeInfo = ⟨"builtins", type.name⟩ ∧ mid.Moves Heap.Extends after)) ∧
    (∀ k, Before indices.step indices.last (place k) → 0 ≤ place k ∧ place k < items.length) ∧
    (∀ bound : Int64, bound < 0 → (bound + size).toInt = bound.toInt + items.length) ∧
    (size - 1).toInt = items.length - 1 := by
  intro size indices place run
  have hasSlice := reachable.hasBuiltin .slice
  have sizeIs : size.toInt = items.length := toInt_ofInt_of_fitsWord fits
  have natural : 0 ≤ size.toInt := by omega
  have asked : run = (Machine.runProgram (Machine.answer host (layers + 2))
      (Machine.takeSlice p.handle start stop step >>= Bridge.wrap)).run world := by
    rw [← Proxy.slice_eq]
  refine ⟨?_, ?_, fun k before => sliceIndices_inside before, ?_, ?_⟩
  · rintro rfl
    have refused : slicePositions items.length start stop (some 0) = .error .zeroStep :=
      slicePositions_zeroStep fits Int64.toInt_zero
    obtain ⟨heap, extends_, failed⟩ :=
      Machine.run_takeSlice_error host (Machine.answer host (layers + 1)) hasSlice found refused
    have raised : (heap.raise .zeroStep).2.IsException (heap.raise .zeroStep).1 "ValueError"
        "slice step cannot be zero" := heap.isException_raise rfl (by decide)
    refine ⟨_, _, ?_, raised, .ofHeap (extends_.trans (Heap.along_raise heap .zeroStep))⟩
    rw [asked, Machine.runProgram_bind]
    exact Exec.run_bind_of_error failed
  · intro nonzero
    obtain ⟨new, selected, mid, finished, isFresh, isNew, holds, moves⟩ :=
      takeSlice_selects hasSlice found fits nonzero (layers + 1)
    have wraps := asked.trans (Machine.run_bind_of_ok _ finished)
    refine ⟨new, selected, mid, wraps, isFresh, isNew, holds, moves, ?_⟩
    intro standard
    obtain ⟨q, after, wrapped, same, info, later⟩ :=
      wrap_sequence (reachable.run finished) (moves.loader.trans standard) isNew layers
    exact ⟨q, after, wraps.trans wrapped, same, info, later⟩
  · intro bound negative
    rw [toInt_add_size negative natural, sizeIs]
  · rw [toInt_sub_one natural, sizeIs]

end Slices

/-- Every other item of a list, from its end on. -/
theorem Proxy.slice_selects_backwards :
    let start : World Unit Unit := .start {} .standard ()
    let world := { start with heap := start.heap.push (.object ⟨.list [⟨1⟩, ⟨2⟩, ⟨3⟩], .empty⟩) }
    let p : Proxy Unit := .mk ⟨7⟩ ⟨"builtins", "list"⟩ []
    ∃ q after, (Machine.runProgram (Machine.answer Host.answeringNone 2)
        (p.slice none none (some (-2)))).run world = some (.ok (.proxy q), after) ∧
      after.heap.kind? q.handle = some (.list [⟨3⟩, ⟨1⟩]) := by
  intro start world p
  have listed : Machine.answer Host.answeringNone 1 (.create (.list [⟨1⟩, ⟨2⟩, ⟨3⟩])) start =
      some (⟨7⟩, world) := rfl
  have reachable : world.Reachable Host.answeringNone :=
    (World.Reachable.start {} .standard ()).answer listed
  have found : world.heap.kind? p.handle = some (SequenceType.list.kind [⟨1⟩, ⟨2⟩, ⟨3⟩]) := rfl
  obtain ⟨_, takes, _⟩ := Proxy.slice_selects reachable found (by decide) none none (some (-2)) 0
  obtain ⟨new, selected, mid, _, _, isNew, holds, _, proxied⟩ := takes (by decide)
  obtain ⟨q, after, finished, same, _, later⟩ := proxied rfl
  have items : selected = [⟨3⟩, ⟨1⟩] := by
    apply List.ext_getElem?
    intro k
    rw [holds k]
    match k with
    | 0 => decide
    | 1 => decide
    | k + 2 =>
        have ended : ¬ Before (-2) (-1) (2 + (k + 2 : Nat) * (-2)) := by
          unfold Before
          omega
        exact if_neg ended
  refine ⟨q, after, finished, ?_⟩
  rw [same, ← items]
  exact later.heap.kind? isNew

end Interop
