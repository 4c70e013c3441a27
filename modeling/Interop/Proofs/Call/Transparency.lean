import Interop.Proofs.Bridge.Passing
import Interop.Proofs.Call.Body
import Interop.Proofs.Iteration.Shared
import Interop.Proofs.Proxy.Assignment
/-!
Capabilities in the hands of foreign code. A key or a value that foreign code gives to a capability
is wrapped, handed on, and marshalled again before the primitive operation sees it. The operation
does the same as with the value itself: it goes by what a key stands for, which is the same for a
value and for what it is handed on as.
-/

set_option autoImplicit false

namespace Interop

variable {κ σ : Type}

/-! ### What a key stands for -/

/-- What a key stands for when an item is read or stored. -/
inductive ItemKey
  | position (index : Int64)
  | text (text : String)
  | part (start stop step : Option Int64)
  /-- Nothing that a value has an item for. -/
  | other

/-- The slot of an object that a key stands for. -/
def Kind.slotAt? (kind : Kind κ) : ItemKey → Option Slot
  | .position index =>
    match kind with
    | .list items => (resolveIndex? index items.length).map .position
    | _ => Option.none
  | .text text =>
    match kind with
    | .dict _ => some (.entry text)
    | _ => Option.none
  | _ => Option.none

/-- An object with a value in a slot, if there is one. -/
def HeapObject.put (object : HeapObject κ) (slot? : Option Slot) (stored : Handle) :
    HeapObject κ :=
  match slot? with
  | some slot => object.fill slot stored
  | none => object

/-- The type of exception that a fault is reported as. -/
def Fault.exceptionType? (fault : Fault) : Option String :=
  match fault.report with
  | .exception kind _ => some kind
  | .typeError _ => none

namespace Heap

def keyOf (heap : Heap κ) : Arg κ → ItemKey
  | .int index => .position index
  | .string text => .text text
  | .handle h =>
    match heap.kind? h with
    | some (.int index) => .position index
    | some (.string text) => .text text
    | some (.slice start stop step) => .part start stop step
    | _ => .other
  | _ => .other

/-- A key that is already read as what it is. -/
inductive IsPlain (heap : Heap κ) : Arg κ → ItemKey → Prop
  | position (index : Int64) : IsPlain heap (.int index) (.position index)
  | text (text : String) : IsPlain heap (.string text) (.text text)
  | part {h : Handle} {start stop step : Option Int64}
      (isSlice : heap.kind? h = some (.slice start stop step)) :
      IsPlain heap (.handle h) (.part start stop step)
  | object {h : Handle}
      (noSlice : ∀ start stop step, heap.kind? h ≠ some (.slice start stop step)) :
      IsPlain heap (.handle h) .other
  | other {key : Arg κ} (noInt : ∀ index, key ≠ .int index) (noText : ∀ text, key ≠ .string text)
      (noHandle : ∀ h, key ≠ .handle h) : IsPlain heap key .other

theorem isPlain_plainKey (heap : Heap κ) (key : Arg κ) :
    heap.IsPlain (heap.plainKey key) (heap.keyOf key) := by
  cases key with
  | int index => exact .position index
  | string text => exact .text text
  | handle h =>
      unfold plainKey keyOf
      dsimp only
      cases found : heap.kind? h with
      | none => exact .object fun _ _ _ isSlice => nomatch found.symm.trans isSlice
      | some kind =>
          cases kind with
          | int index => exact .position index
          | string text => exact .text text
          | slice start stop step => exact .part found
          | _ => exact .object fun _ _ _ isSlice => nomatch found.symm.trans isSlice
  | _ => exact .other (by simp [plainKey]) (by simp [plainKey]) (by simp [plainKey])

/-- The part of a sequence at a key. -/
def partUnder (sequence : String) (items : List Handle) :
    ItemKey → Except Fault (Handle ⊕ List Handle)
  | .position index =>
    match (resolveIndex? index items.length).bind (items[·]?) with
    | some item => .ok (.inl item)
    | none => .error (.indexOutOfRange sequence)
  | .part start stop step => do
    let positions ← slicePositions items.length start stop step
    return .inr (positions.filterMap (items[·]?))
  | _ => .error (.invalidIndex sequence)

variable {heap after : Heap κ} {o : Handle} {object : HeapObject κ} {plain : Arg κ} {key : ItemKey}

theorem IsPlain.sequencePart_eq (isPlain : heap.IsPlain plain key) (sequence : String)
    (items : List Handle) :
    heap.sequencePart sequence items plain = partUnder sequence items key := by
  cases isPlain with
  | position index => rfl
  | text text => rfl
  | part isSlice =>
      unfold sequencePart
      dsimp only
      rw [isSlice]
      rfl
  | object noSlice =>
      unfold sequencePart
      dsimp only
      split
      · rename_i isSlice
        exact absurd isSlice (noSlice _ _ _)
      · rfl
  | other noInt noText noHandle =>
      unfold sequencePart
      split
      · exact absurd rfl (noInt _)
      · exact absurd rfl (noHandle _)
      · rfl

theorem IsPlain.storing_eq (isPlain : heap.IsPlain plain key) (object : HeapObject κ)
    (stored : Handle) :
    (object.kind.storing plain stored).map (fun kind => { object with kind := kind }) =
      (object.kind.slotAt? key).map (object.fill · stored) := by
  obtain ⟨kind, attributes⟩ := object
  cases isPlain with
  | position index =>
      cases kind with
      | list items =>
          dsimp only [Kind.storing, Kind.slotAt?]
          cases resolveIndex? index items.length with
          | none => rfl
          | some place => rfl
      | _ => rfl
  | text text => cases kind <;> rfl
  | part isSlice => cases kind <;> rfl
  | object noSlice => cases kind <;> rfl
  | other noInt noText noHandle =>
      unfold Kind.storing
      split
      · exact absurd rfl (noInt _)
      · exact absurd rfl (noText _)
      · rfl

theorem setItem_eq_assign (found : heap.cell? o = some (.object object)) (key value : Arg κ) :
    heap.setItem o key value =
      heap.assign o object (object.kind.slotAt? (heap.keyOf key)) value :=
  setItem_eq found ((heap.isPlain_plainKey key).storing_eq object) value

/-- The item of an object at what a key stands for. Two texts of errors are given. -/
def itemAt (kind : Kind κ) (missing typeName : String) (key : ItemKey) : Except Fault Item :=
  match kind, key with
  | .list items, key => do
    match ← partUnder "list" items key with
    | .inl item => return .object item
    | .inr items => return .listSection items
  | .tuple items, key => do
    match ← partUnder "tuple" items key with
    | .inl item => return .object item
    | .inr items => return .tupleSection items
  | .bytes data, .position index =>
    match (resolveIndex? index data.length).bind (data[·]?) with
    | some byte => .ok (.byte byte)
    | none => .error .byteIndexOutOfRange
  | .dict entries, .text text =>
    match entries.get? text with
    | some value => .ok (.object value)
    | none => .error (.noEntry missing)
  | .dict _, _ => .error (.noEntry missing)
  | _, _ => .error (.notSubscriptable typeName)

theorem item_eq_itemAt (found : heap.cell? o = some (.object object)) (key : Arg κ) :
    ∃ missing, heap.item o key =
      itemAt object.kind missing (heap.typeName object.kind) (heap.keyOf key) := by
  have isPlain := heap.isPlain_plainKey key
  unfold item
  rw [found]
  dsimp only
  generalize heap.plainKey key = plain at isPlain
  generalize heap.keyOf key = what at isPlain
  obtain ⟨kind, attributes⟩ := object
  cases kind with
  | list items =>
      refine ⟨"", ?_⟩
      dsimp only
      rw [isPlain.sequencePart_eq]
      rfl
  | tuple items =>
      refine ⟨"", ?_⟩
      dsimp only
      rw [isPlain.sequencePart_eq]
      rfl
  | bytes data =>
      refine ⟨"", ?_⟩
      cases isPlain with
      | @other plain noInt _ _ =>
          cases plain with
          | int index => exact absurd rfl (noInt index)
          | _ => rfl
      | _ => rfl
  | dict entries =>
      cases isPlain with
      | @other plain _ noText _ =>
          cases plain with
          | string text => exact absurd rfl (noText text)
          | _ => exact ⟨_, rfl⟩
      | _ => exact ⟨_, rfl⟩
  | _ => exact ⟨"", rfl⟩

/-- The type of the exception that an error is. -/
def errorType? (heap : Heap κ) : Error → Option TypeInfo
  | .foreign exception =>
    match heap.kind? exception.excType with
    | some (.type info) => some info
    | _ => none
  | .type _ => none

theorem errorType?_raise (heap : Heap κ) (fault : Fault) :
    (heap.raise fault).2.errorType? (heap.raise fault).1 =
      fault.exceptionType?.map (⟨"builtins", ·⟩) := by
  unfold raise Fault.exceptionType?
  cases fault.report with
  | typeError message => rfl
  | exception kind message =>
      have isType : (heap.addException kind message).2.kind?
          (heap.addException kind message).1.excType = some (.type ⟨"builtins", kind⟩) :=
        kind?_push (kind?_push (kind?_push (kind?_fresh heap _) _) _) _
      dsimp only [errorType?]
      rw [isType]
      rfl

/-- The same item, or two faults that are reported as exceptions of the same type. -/
inductive SameItem : Except Fault Item → Except Fault Item → Prop
  | ok (item : Item) : SameItem (.ok item) (.ok item)
  | error {fault other : Fault} (same : fault.exceptionType? = other.exceptionType?) :
      SameItem (.error fault) (.error other)

theorem SameItem.refl (result : Except Fault Item) : SameItem result result := by
  cases result with
  | ok item => exact .ok item
  | error fault => exact .error rfl

theorem sameItem_itemAt (kind : Kind κ) (missing other typeName otherName : String)
    (key : ItemKey) :
    SameItem (itemAt kind missing typeName key) (itemAt kind other otherName key) := by
  cases kind with
  | list | tuple => exact .refl _
  | bytes data => cases key <;> first | exact .refl _ | exact .error rfl
  | dict entries =>
      cases key with
      | text text =>
          unfold itemAt
          dsimp only
          cases entries.get? text with
          | some value => exact .ok _
          | none => exact .error rfl
      | _ => exact .error rfl
  | _ => exact .error rfl

/-- An object has the same item at two keys that stand for the same. -/
theorem sameItem_of_keyOf (found : heap.cell? o = some (.object object))
    (foundAfter : after.cell? o = some (.object object)) {key other : Arg κ}
    (same : heap.keyOf key = after.keyOf other) :
    SameItem (heap.item o key) (after.item o other) := by
  obtain ⟨missing, first⟩ := item_eq_itemAt found key
  obtain ⟨missing', second⟩ := item_eq_itemAt foundAfter other
  rw [first, second, same]
  exact sameItem_itemAt _ _ _ _ _ _

theorem PassedAs.keyOf_eq {k : Handle} {arg : Arg κ} (passed : heap.PassedAs k arg) :
    heap.keyOf arg = heap.keyOf (.handle k) := by
  cases passed with
  | handle => rfl
  | @plain kind _ found makes =>
      cases kind <;> cases makes <;> simp [keyOf, found]

theorem Extends.keyOf_handle (extends_ : heap.Extends after) {k : Handle} {kind : Kind κ}
    (there : heap.kind? k = some kind) : after.keyOf (.handle k) = heap.keyOf (.handle k) := by
  unfold keyOf
  dsimp only
  rw [there, extends_.kind? there]

/-! ### The same effect -/

/-- What is stored in place of a value: the value itself, or a new plain value of the same kind. -/
def Copies (heap : Heap κ) (v : Handle) (after : Heap κ) (copy : Handle) : Prop :=
  copy = v ∨ heap.cell? copy = none ∧ ∃ kind, kind.plainArg?.isSome = true ∧
    heap.kind? v = some kind ∧ after.kind? copy = some kind

/-- Two ways to store `v` in `o` have had the same effect on the values that there were: the same
slot of `o` holds `v` or a copy of it, and everything else is as before. -/
structure SameStore (heap : Heap κ) (o v : Handle) (status : Status) (direct other : Heap κ) :
    Prop where
  others : ∀ k cell, k ≠ o → heap.cell? k = some cell →
    direct.cell? k = some cell ∧ other.cell? k = some cell
  target : ∃ object slot? copy, heap.cell? o = some (.object object) ∧
    (slot?.isSome = true ↔ status.isOk = true) ∧
    direct.cell? o = some (.object (object.put slot? v)) ∧
    other.cell? o = some (.object (object.put slot? copy)) ∧ heap.Copies v other copy

/-- Two ways to fetch an item have had the same outcome: the same object, or two new objects of the
same kind, or exceptions of the same type; and what there was is as before. -/
inductive SameFetch (heap : Heap κ) : Except Error Handle → Heap κ → Except Error Handle → Heap κ →
    Prop
  | object {direct other : Heap κ} (item : Handle) (kept : heap.Extends direct)
      (kept' : heap.Extends other) : SameFetch heap (.ok item) direct (.ok item) other
  | new {direct other : Heap κ} {item item' : Handle} {kind : Kind κ} (kept : heap.Extends direct)
      (kept' : heap.Extends other) (isNew : heap.cell? item = none)
      (isNew' : heap.cell? item' = none) (found : direct.kind? item = some kind)
      (found' : other.kind? item' = some kind) : SameFetch heap (.ok item) direct (.ok item') other
  | failed {direct other : Heap κ} {error error' : Error} (kept : heap.Extends direct)
      (kept' : heap.Extends other) (same : direct.errorType? error = other.errorType? error') :
      SameFetch heap (.error error) direct (.error error') other

theorem sameFetch_fetched (extends_ : heap.Extends after) (item : Item) :
    heap.SameFetch (.ok (heap.fetched item).1) (heap.fetched item).2 (.ok (after.fetched item).1)
      (after.fetched item).2 := by
  have new : ∀ kind : Kind κ, heap.SameFetch (.ok heap.fresh) (heap.add kind).2
      (.ok after.fresh) (after.add kind).2 := fun kind =>
    .new (.push _ _) (extends_.trans (.push _ _)) (cell?_fresh _)
      (extends_.cell?_eq_none (cell?_fresh _)) (kind?_fresh _ kind) (kind?_fresh _ kind)
  cases item with
  | object value => exact .object value (.refl heap) extends_
  | byte value => exact new _
  | listSection items => exact new _
  | tupleSection items => exact new _

/-- Fetching by a key that stands for the same has the same outcome. -/
theorem sameFetch_getItem {start mid : World κ σ} (extends_ : start.heap.Extends mid.heap)
    (found : start.heap.cell? o = some (.object object)) {key other : Arg κ}
    (same : start.heap.keyOf key = mid.heap.keyOf other) :
    ∃ result direct result' via,
      Run.attempt (getItem o key) start = some (result, { start with heap := direct }) ∧
      Run.attempt (getItem o other) mid = some (result', { mid with heap := via }) ∧
      start.heap.SameFetch result direct result' via := by
  have items := sameItem_of_keyOf found (extends_ o _ found) same
  generalize first : start.heap.item o key = one at items
  generalize second : mid.heap.item o other = two at items
  cases items with
  | ok item =>
      exact ⟨_, _, _, _, Run.attempt_of_ok (getItem_of_ok first),
        Run.attempt_of_ok (getItem_of_ok second), sameFetch_fetched extends_ item⟩
  | @error fault fault' same =>
      refine ⟨_, _, _, _, Run.attempt_of_error (getItem_of_error first),
        Run.attempt_of_error (getItem_of_error second),
        .failed (along_raise _ fault) (extends_.trans (along_raise _ fault')) ?_⟩
      rw [errorType?_raise, errorType?_raise, same]

/-- What is handed on for a value is marshalled to the value or to a copy of it. -/
theorem exists_marshal_passed {v : Handle} {kind : Kind κ} {arg : Arg κ}
    (extends_ : heap.Extends after) (there : heap.kind? v = some kind)
    (passed : after.PassedAs v arg) :
    ∃ copy made, (marshal arg).run after = .ok (copy, made) ∧ after.Extends made ∧
      heap.Copies v made copy := by
  cases passed with
  | handle => exact ⟨v, after, rfl, .refl after, .inl rfl⟩
  | plain found makes =>
      rw [extends_.kind? there] at found
      cases found
      refine ⟨after.fresh, after.push (.object ⟨kind, .empty⟩), ?_, .push _ _, .inr ?_⟩
      · rw [marshal_plain makes]
        rfl
      · refine ⟨extends_.cell?_eq_none (cell?_fresh after), kind, ?_, there, kind?_fresh _ _⟩
        rw [makes]
        rfl

/-- A copy stays one when an object that was there is changed and a value is added. -/
theorem Copies.write_push {v copy : Handle} (copies : heap.Copies v after copy)
    (found : heap.cell? o = some (.object object)) (changed cell : Cell κ) :
    heap.Copies v ((after.write o changed).push cell) copy := by
  rcases copies with same | ⟨isNew, kind, plain, there, present⟩
  · exact .inl same
  · refine .inr ⟨isNew, kind, plain, there, kind?_push ?_ cell⟩
    have other : copy ≠ o := by
      rintro rfl
      cases isNew.symm.trans found
    obtain ⟨attributes, content⟩ := cell?_of_kind? present
    exact kind?_of_cell? ((cell?_write_of_ne other changed).trans content)

/-- Storing in the same slot has the same effect, whether a value is given or what it is handed on
as. -/
theorem sameStore_assign {v : Handle} {kind : Kind κ} {arg : Arg κ}
    (extends_ : heap.Extends after) (found : heap.cell? o = some (.object object))
    (there : heap.kind? v = some kind) (passed : after.PassedAs v arg) (slot? : Option Slot)
    (cell : Cell κ) :
    let direct := heap.assign o object slot? (.handle v)
    let via := after.assign o object slot? arg
    via.1 = direct.1 ∧ heap.SameStore o v direct.1 direct.2 (via.2.push cell) := by
  intro direct via
  cases slot? with
  | none =>
      have kept : heap.Extends (after.push cell) := extends_.trans (.push _ _)
      refine ⟨rfl, ⟨fun k content _ present => ⟨present, kept k content present⟩, ?_⟩⟩
      have refused : ¬ direct.1.isOk = true := show ¬ Status.failure.isOk = true by decide
      exact ⟨object, none, v, found, iff_of_false nofun refused, found, kept o _ found, .inl rfl⟩
  | some slot =>
      obtain ⟨copy, made, marshalled, grown, copies⟩ := exists_marshal_passed extends_ there passed
      have isVia : via = (.ok, made.write o (.object (object.fill slot copy))) :=
        assign_of_ok marshalled
      have kept : heap.Extends made := extends_.trans grown
      refine ⟨by rw [isVia]; rfl, ?_, ?_⟩
      · intro k content other present
        rw [isVia]
        refine ⟨(cell?_write_of_ne other _).trans present, cell?_push_of_found ?_ cell⟩
        exact (cell?_write_of_ne other _).trans (kept k content present)
      · rw [isVia]
        exact ⟨object, some slot, copy, found, iff_of_true rfl rfl, cell?_write_self found _,
          cell?_push_of_found (cell?_write_self (kept o _ found) _) cell,
          copies.write_push found _ cell⟩

/-! ### What foreign code holds of a capability -/

/-- The value is the function that a capability of a proxy is marshalled to. -/
def IsCapability (heap : Heap κ) (c : Handle) (p : Proxy κ) (capability : Capability) : Prop :=
  heap.kind? c = some (.callback (BoundMethod.capability p capability).toCallback)

theorem isCapability_marshal (heap : Heap κ) (p : Proxy κ) (capability : Capability) :
    ∃ c made, (marshal (Object.method (.capability p capability)).toArg).run heap = .ok (c, made) ∧
      made.IsCapability c p capability := by
  have callback : (marshal (Object.method (.capability p capability)).toArg : Op κ Handle) =
      Op.alloc (.callback (BoundMethod.capability p capability).toCallback) := rfl
  obtain ⟨c, made, finished, _, found⟩ := marshal_alloc callback heap
  exact ⟨c, made, finished, found⟩

theorem marshalAll_handles (handles : List Handle) :
    (marshalAll (handles.map Arg.handle) : Op κ _) = pure handles := by
  induction handles with
  | nil => rfl
  | cons h rest ih =>
      rw [List.map_cons, marshalAll, ih]
      rfl

end Heap

theorem Arg.splitKeywords_handles (handles : List Handle) :
    splitKeywords (handles.map (Arg.handle (κ := κ))) = (handles.map .handle, []) := by
  have positional : (handles.map (Arg.handle (κ := κ))).filter isPositional =
      handles.map .handle := by
    apply List.filter_eq_self.mpr
    intro arg among
    obtain ⟨h, _, rfl⟩ := List.mem_map.mp among
    rfl
  have noEntries : (handles.map (Arg.handle (κ := κ))).flatMap keywordEntries = [] := by
    apply List.flatMap_eq_nil_iff.mpr
    intro arg among
    obtain ⟨h, _, rfl⟩ := List.mem_map.mp among
    rfl
  rw [splitKeywords, positional, noEntries]
  rfl

namespace Machine

variable (host : Host κ σ) (below : Handler κ σ) {world mid : World κ σ} {c : Handle} {p : Proxy κ}
  {capability : Capability} {objects : List (Object κ)}

/-- An object that is no instance of a class named like the type of none. -/
def IsOrdinary (heap : Heap κ) (h : Handle) : Prop :=
  ∃ kind, heap.kind? h = some kind ∧
    (kind.isInstance = true → (heap.typeInfo kind).name ≠ "NoneType")

theorem IsOrdinary.evolves {heap after : Heap κ} {h : Handle} (ordinary : IsOrdinary heap h)
    (sound : heap.Sound) (evolves : heap.Evolves after) : IsOrdinary after h := by
  obtain ⟨kind, found, named⟩ := ordinary
  obtain ⟨later, present, turns⟩ := evolves.kind? found
  refine ⟨later, present, ?_⟩
  rw [evolves.typeInfo (sound.hasClass found) turns,
    turns.keeps (f := Kind.isInstance) fun becomes => by cases becomes <;> rfl]
  exact named

/-- Every value is handed on as itself after all of them were wrapped. -/
theorem passedAs_of_wrapAll {layers : Nat} {handles : List Handle} (sound : world.heap.Sound)
    (ordinary : ∀ h ∈ handles, IsOrdinary world.heap h)
    (wrapped : (runProgram (answer host (layers + 1)) (Bridge.wrapAll handles)).run world =
      some (.ok objects, mid)) :
    List.Forall₂ (fun h object => mid.heap.PassedAs h object.toArg) handles objects ∧
      world.Moves Heap.Evolves mid ∧
      (world.loader.Own → world.Moves Heap.Extends mid) := by
  induction handles generalizing world objects with
  | nil =>
      cases wrapped
      exact ⟨.nil, .refl _, fun _ => .refl _⟩
  | cons h rest ih =>
      obtain ⟨object, next, first, wrapped⟩ := run_bind_eq_ok_iff.mp wrapped
      obtain ⟨others, last, second, finished⟩ := run_bind_eq_ok_iff.mp wrapped
      cases finished
      have moves : world.Moves Heap.Evolves next :=
        evolves_runProgram (evolves_answer host _) _ _ _ _ first
      have keeps : world.Moves Heap.KeepsSound next :=
        evolves_runProgram (evolves_answer host _) _ _ _ _ first
      obtain ⟨passed, later, own⟩ := ih (keeps.heap sound)
        (fun k among => (ordinary k (List.mem_cons_of_mem h among)).evolves sound moves.heap) second
      obtain ⟨kind, found, named⟩ := ordinary h List.mem_cons_self
      obtain ⟨view, viewed, alike⟩ := alike_of_wrap (sound.hasClass found) found first
      have here := Heap.passedAs_of_view found viewed fun isInstance =>
        beq_eq_false_iff_ne.mpr (named isInstance)
      rw [← alike.toArg_eq] at here
      refine ⟨.cons ((here.evolves moves.heap).evolves later.heap) passed, moves.trans later, ?_⟩
      intro isOwn
      have extends_ := extends_wrap host _ world isOwn h _ next first
      exact extends_.trans (own (extends_.loader ▸ isOwn))

/-- Foreign code that calls a capability has its arguments wrapped; then the capability runs, and
its answer is marshalled. -/
theorem invoke_capability (isCapability : world.heap.IsCapability c p capability)
    {handles : List Handle}
    (wrapped : (runProgram below (Bridge.wrapAll handles)).run world = some (.ok objects, mid)) :
    layer host below (.invoke c (handles.map .handle)) world =
      (do
        let object ← runProgram below ((Object.method (.capability p capability)).call objects)
        Exec.ofOp (Heap.marshal object.toArg) : Exec κ σ Handle).run mid := by
  have entered := run_invoke_body host below isCapability rfl (handles.map .handle)
  rw [runProgram_invoke, Arg.splitKeywords_handles, Heap.marshalAll_handles] at entered
  have called : (runProgram below ((BoundMethod.capability p capability).callRaw handles)).run
      world = (runProgram below do
        return (← (Object.method (.capability p capability)).call objects).toArg).run mid :=
    run_bind_of_ok below wrapped
  have marshalled : ((pure handles : Heap.Op κ _)).run world.heap = .ok (handles, world.heap) := rfl
  have noKeywords : (Heap.marshalEntries []).run world.heap = .ok ([], world.heap) := rfl
  refine entered.trans ?_
  rw [Exec.run_ofOp_bind_of_ok marshalled, Exec.run_ofOp_bind_of_ok noKeywords, Body.enter_eq_run]
  · refine (Exec.run_bind_of_same called).trans ?_
    rw [runProgram_bind, bind_assoc]
    rfl
  · exact fun _ _ => rfl

/-- Fetching through the capability is fetching by what the key is handed on as. -/
theorem run_getItem_capability (key : Object κ) :
    (do
      let object ← runProgram (layer host below)
        ((Object.method (.capability p .getItem)).call [key])
      Exec.ofOp (Heap.marshal object.toArg) : Exec κ σ Handle).run mid =
      Run.attempt (Heap.getItem p.handle key.toArg) mid := by
  have performed : (Object.method (.capability p .getItem)).call [key] =
      (do return .handle (← p.handle.getItem key.toArg) : Program κ σ (Object κ)) := by
    rw [Object.call.eq_def]
    rfl
  rw [performed, runProgram_bind, runProgram_getItem, bind_assoc]
  cases fetched : (Heap.getItem p.handle key.toArg).run mid.heap with
  | error fault =>
      rw [Run.attempt_of_error fetched]
      exact Exec.run_bind_of_error (Run.attempt_of_error fetched)
  | ok pair =>
      have got : (ExceptT.mk (layer host below (.getItem p.handle key.toArg))).run mid =
          some (.ok pair.1, { mid with heap := pair.2 }) := Run.attempt_of_ok fetched
      rw [Run.attempt_of_ok fetched, Exec.run_bind_of_ok got]
      rfl

/-- A status goes back to foreign code as a new integer. -/
def answeringStatus (world : World κ σ) (given : Status × Heap κ) :
    Option (Except Error Handle × World κ σ) :=
  some (.ok given.2.fresh,
    { world with heap := given.2.push (.object ⟨.int (Int64.ofInt given.1.code), .empty⟩) })

theorem run_setItem_capability (key value : Object κ) :
    (do
      let object ← runProgram (layer host below)
        ((Object.method (.capability p .setItem)).call [key, value])
      Exec.ofOp (Heap.marshal object.toArg) : Exec κ σ Handle).run mid =
      answeringStatus mid (mid.heap.setItem p.handle key.toArg value.toArg) := by
  rw [Object.call.eq_def]
  rfl

theorem run_setAttr_capability (name : String) (value : Object κ) :
    (do
      let object ← runProgram (layer host below)
        ((Object.method (.capability p .setAttr)).call [.string name, value])
      Exec.ofOp (Heap.marshal object.toArg) : Exec κ σ Handle).run mid =
      answeringStatus mid (mid.heap.setAttr p.handle name value.toArg) := by
  rw [Object.call.eq_def]
  rfl

/-! ### The capability and the direct call -/

/-- Wrapping the arguments of foreign code succeeds, and leads to a world. -/
def Wraps (host : Host κ σ) (layers : Nat) (handles : List Handle) (world mid : World κ σ) : Prop :=
  ∃ objects, (runProgram (answer host layers) (Bridge.wrapAll handles)).run world =
    some (.ok objects, mid)

/-- Where a direct call is compared with a call through a capability that wraps its arguments first:
after the arguments were wrapped, or before, if no host code has a part in wrapping. -/
def Compares (world mid start : World κ σ) : Prop :=
  start = mid ∨ start = world ∧ world.loader.Own

/-- A direct call fetches what a call of foreign code fetches. -/
def FetchesAlike (direct : Run κ σ (Except Error Handle)) (start : World κ σ)
    (via : Run κ σ (Except Error Handle)) (world : World κ σ) : Prop :=
  ∃ result after result' after', direct start = some (result, after) ∧
    via world = some (result', after') ∧
    start.heap.SameFetch result after.heap result' after'.heap

/-- A direct call stores `v` in `o` as a call of foreign code does, which answers the status. -/
def StoresAlike (o v : Handle) (direct : Run κ σ Status) (start : World κ σ)
    (via : Run κ σ (Except Error Handle)) (world : World κ σ) : Prop :=
  ∃ status after told after', direct start = some (status, after) ∧
    via world = some (.ok told, after') ∧
    after'.heap.kind? told = some (.int (Int64.ofInt status.code)) ∧
    start.heap.SameStore o v status after.heap after'.heap

/-- What both calls find where they are made. -/
theorem Compares.found {start : World κ σ} (compares : Compares world mid start)
    (moves : world.Moves Heap.Evolves mid)
    (own : world.loader.Own → world.Moves Heap.Extends mid) :
    start.heap.Extends mid.heap ∧
      ∀ h kind, world.heap.kind? h = some kind → ∃ later, start.heap.kind? h = some later := by
  rcases compares with rfl | ⟨rfl, isOwn⟩
  · refine ⟨.refl _, fun h kind there => ?_⟩
    obtain ⟨later, present, _⟩ := moves.heap.kind? there
    exact ⟨later, present⟩
  · exact ⟨(own isOwn).heap, fun h kind there => ⟨kind, there⟩⟩

variable {host} {start : World κ σ} {k v n : Handle} {name : String} {layers : Nat}

theorem getItem_alike (sound : world.heap.Sound) {kind : Kind κ}
    (isObject : world.heap.kind? p.handle = some kind) (ordinary : IsOrdinary world.heap k)
    (isCapability : world.heap.IsCapability c p .getItem)
    (wraps : Wraps host (layers + 1) [k] world mid) (compares : Compares world mid start)
    (depth : Nat) :
    FetchesAlike (answer host (depth + 1) (.getItem p.handle (.handle k))) start
      (answer host (layers + 2) (.invoke c [.handle k])) world := by
  obtain ⟨objects, wrapped⟩ := wraps
  obtain ⟨passed, moves, own⟩ :=
    passedAs_of_wrapAll host sound (List.forall_mem_singleton.mpr ordinary) wrapped
  obtain ⟨extends_, there⟩ := compares.found moves own
  obtain ⟨_, ofObject⟩ := there _ _ isObject
  obtain ⟨attributes, found⟩ := Heap.cell?_of_kind? ofObject
  obtain ⟨kindOf, isKey, _⟩ := ordinary
  obtain ⟨_, ofKey⟩ := there _ _ isKey
  obtain ⟨key, _, passedKey, none, rfl⟩ := List.forall₂_cons_left_iff.mp passed
  obtain rfl := List.forall₂_nil_left_iff.mp none
  have same : start.heap.keyOf (.handle k) = mid.heap.keyOf key.toArg :=
    (passedKey.keyOf_eq.trans (extends_.keyOf_handle ofKey)).symm
  obtain ⟨result, direct, result', via, first, second, fetches⟩ :=
    Heap.sameFetch_getItem extends_ found same
  refine ⟨result, { start with heap := direct }, result', { mid with heap := via }, first, ?_,
    fetches⟩
  have called := invoke_capability host (answer host (layers + 1)) isCapability wrapped
  rw [show answer host (layers + 1) = layer host (answer host layers) from rfl,
    run_getItem_capability host _ key] at called
  exact called.trans second

/-- Both calls store in the same slot. -/
theorem storesAlike_of_assign {o : Handle} {object : HeapObject κ} {kind : Kind κ} {arg : Arg κ}
    {slot? : Option Slot} {direct : Run κ σ Status} {via : Run κ σ (Except Error Handle)}
    (extends_ : start.heap.Extends mid.heap)
    (found : start.heap.cell? o = some (.object object)) (there : start.heap.kind? v = some kind)
    (passed : mid.heap.PassedAs v arg)
    (isDirect : direct start = some ((start.heap.assign o object slot? (.handle v)).1,
      { start with heap := (start.heap.assign o object slot? (.handle v)).2 }))
    (isVia : via world = answeringStatus mid (mid.heap.assign o object slot? arg)) :
    StoresAlike o v direct start via world := by
  obtain ⟨status, same⟩ := Heap.sameStore_assign extends_ found there passed slot?
    (.object ⟨.int (Int64.ofInt (mid.heap.assign o object slot? arg).1.code), .empty⟩)
  refine ⟨_, _, _, _, isDirect, isVia, ?_, same⟩
  rw [← status]
  exact Heap.kind?_fresh _ _

theorem setItem_alike (sound : world.heap.Sound) {kind : Kind κ}
    (isObject : world.heap.kind? p.handle = some kind) (ordinaryKey : IsOrdinary world.heap k)
    (ordinary : IsOrdinary world.heap v) (isCapability : world.heap.IsCapability c p .setItem)
    (wraps : Wraps host (layers + 1) [k, v] world mid) (compares : Compares world mid start)
    (depth : Nat) :
    StoresAlike p.handle v (answer host (depth + 1) (.setItem p.handle (.handle k) (.handle v)))
      start (answer host (layers + 2) (.invoke c [.handle k, .handle v])) world := by
  obtain ⟨objects, wrapped⟩ := wraps
  obtain ⟨passed, moves, own⟩ := passedAs_of_wrapAll host sound
    (List.forall_mem_cons.mpr ⟨ordinaryKey, List.forall_mem_singleton.mpr ordinary⟩) wrapped
  obtain ⟨extends_, there⟩ := compares.found moves own
  obtain ⟨_, ofObject⟩ := there _ _ isObject
  obtain ⟨attributes, found⟩ := Heap.cell?_of_kind? ofObject
  obtain ⟨_, isKey, _⟩ := ordinaryKey
  obtain ⟨_, ofKey⟩ := there _ _ isKey
  obtain ⟨_, isValue, _⟩ := ordinary
  obtain ⟨_, ofValue⟩ := there _ _ isValue
  obtain ⟨key, _, passedKey, rest, rfl⟩ := List.forall₂_cons_left_iff.mp passed
  obtain ⟨value, _, passedValue, none, rfl⟩ := List.forall₂_cons_left_iff.mp rest
  obtain rfl := List.forall₂_nil_left_iff.mp none
  have same : mid.heap.keyOf key.toArg = start.heap.keyOf (.handle k) :=
    passedKey.keyOf_eq.trans (extends_.keyOf_handle ofKey)
  have called := invoke_capability host (answer host (layers + 1)) isCapability wrapped
  rw [show answer host (layers + 1) = layer host (answer host layers) from rfl,
    run_setItem_capability host _ key value, Heap.setItem_eq_assign (extends_ _ _ found),
    same] at called
  refine storesAlike_of_assign extends_ found ofValue passedValue ?_ called
  rw [← Heap.setItem_eq_assign found]
  rfl

/-- A text is wrapped to a text. -/
theorem eq_string_of_wrapAll {first : Object κ} {rest : List (Object κ)} {handles : List Handle}
    (isName : world.heap.kind? n = some (.string name))
    (wrapped : (runProgram (answer host (layers + 1)) (Bridge.wrapAll (n :: handles))).run world =
      some (.ok (first :: rest), mid)) : first = .string name := by
  obtain ⟨object, _, wraps, wrapped⟩ := run_bind_eq_ok_iff.mp wrapped
  obtain ⟨others, _, _, finished⟩ := run_bind_eq_ok_iff.mp wrapped
  cases finished
  obtain ⟨last, expected, _⟩ :=
    (wrap_answers_string host (answer host layers) isName).finishes
  cases expected.symm.trans wraps
  rfl

theorem setAttr_alike (sound : world.heap.Sound) {kind : Kind κ}
    (isObject : world.heap.kind? p.handle = some kind)
    (isName : world.heap.kind? n = some (.string name)) (ordinary : IsOrdinary world.heap v)
    (isCapability : world.heap.IsCapability c p .setAttr)
    (wraps : Wraps host (layers + 1) [n, v] world mid) (compares : Compares world mid start)
    (depth : Nat) :
    StoresAlike p.handle v (answer host (depth + 1) (.setAttr p.handle name (.handle v))) start
      (answer host (layers + 2) (.invoke c [.handle n, .handle v])) world := by
  obtain ⟨objects, wrapped⟩ := wraps
  have ordinaryName : IsOrdinary world.heap n := ⟨_, isName, nofun⟩
  obtain ⟨passed, moves, own⟩ := passedAs_of_wrapAll host sound
    (List.forall_mem_cons.mpr ⟨ordinaryName, List.forall_mem_singleton.mpr ordinary⟩) wrapped
  obtain ⟨extends_, there⟩ := compares.found moves own
  obtain ⟨_, ofObject⟩ := there _ _ isObject
  obtain ⟨attributes, found⟩ := Heap.cell?_of_kind? ofObject
  obtain ⟨_, isValue, _⟩ := ordinary
  obtain ⟨_, ofValue⟩ := there _ _ isValue
  obtain ⟨first, _, _, rest, rfl⟩ := List.forall₂_cons_left_iff.mp passed
  obtain ⟨value, _, passedValue, none, rfl⟩ := List.forall₂_cons_left_iff.mp rest
  obtain rfl := List.forall₂_nil_left_iff.mp none
  obtain rfl := eq_string_of_wrapAll isName wrapped
  have called := invoke_capability host (answer host (layers + 1)) isCapability wrapped
  rw [show answer host (layers + 1) = layer host (answer host layers) from rfl,
    run_setAttr_capability host _ name value, Heap.setAttr_eq (extends_ _ _ found)] at called
  refine storesAlike_of_assign extends_ found ofValue passedValue ?_ called
  rw [← Heap.setAttr_eq found]
  rfl

/-- Capabilities are transparent to foreign code. Take the function that an object's capability to
fetch an item, to store an item or to set an attribute is marshalled to, and let foreign code call
it on values that wrap. The call has the outcome that the primitive operation has on the values
themselves: it fetches the same object or a new one of the same kind, answers the same status, fails
with an exception of the same type, and changes the same slot of the same object, where a plain
value may be stored as a copy. -/
theorem capability_transparent {kind : Kind κ} (reachable : world.Reachable host)
    (isObject : world.heap.kind? p.handle = some kind) (ordinaryKey : IsOrdinary world.heap k)
    (ordinary : IsOrdinary world.heap v) (isName : world.heap.kind? n = some (.string name))
    (layers depth : Nat) :
    (∀ c mid start, world.heap.IsCapability c p .getItem →
      Wraps host (layers + 1) [k] world mid → Compares world mid start →
      FetchesAlike (answer host (depth + 1) (.getItem p.handle (.handle k))) start
        (answer host (layers + 2) (.invoke c [.handle k])) world) ∧
    (∀ c mid start, world.heap.IsCapability c p .setItem →
      Wraps host (layers + 1) [k, v] world mid → Compares world mid start →
      StoresAlike p.handle v (answer host (depth + 1) (.setItem p.handle (.handle k) (.handle v)))
        start (answer host (layers + 2) (.invoke c [.handle k, .handle v])) world) ∧
    (∀ c mid start, world.heap.IsCapability c p .setAttr →
      Wraps host (layers + 1) [n, v] world mid → Compares world mid start →
      StoresAlike p.handle v (answer host (depth + 1) (.setAttr p.handle name (.handle v))) start
        (answer host (layers + 2) (.invoke c [.handle n, .handle v])) world) := by
  have sound := reachable.sound
  refine ⟨fun c mid start isCapability wraps compares => ?_,
    fun c mid start isCapability wraps compares => ?_,
    fun c mid start isCapability wraps compares => ?_⟩
  · exact getItem_alike sound isObject ordinaryKey isCapability wraps compares depth
  · exact setItem_alike sound isObject ordinaryKey ordinary isCapability wraps compares depth
  · exact setAttr_alike sound isObject isName ordinary isCapability wraps compares depth

/-- Foreign code stores 7 under a key in the namespace of globals, and the runtime does so directly:
both times the entry is accepted and the dict has it. -/
theorem capability_transparent_globals :
    let host := Host.answeringNone
    ∃ world : World Unit Unit, ∃ c k v told after direct,
      world.heap.kind? k = some (.string "count") ∧ world.heap.kind? v = some (.int 7) ∧
      answer host 3 (.invoke c [.handle k, .handle v]) world = some (.ok told, after) ∧
      after.heap.kind? told = some (.int 0) ∧
      answer host 1 (.setItem world.globals (.handle k) (.handle v)) world = some (.ok, direct) ∧
      world.heap.SameStore world.globals v .ok direct.heap after.heap := by
  intro host
  let p : Proxy Unit := .mk ⟨0⟩ ⟨"builtins", "dict"⟩ []
  let add (world : World Unit Unit) (kind : Kind Unit) : World Unit Unit :=
    { world with heap := world.heap.push (.object ⟨kind, .empty⟩) }
  let keyed := add (.start {} .standard ()) (.string "count")
  let valued := add keyed (.int 7)
  let world := add valued (.callback (BoundMethod.capability p .setItem).toCallback)
  have reachable : world.Reachable host := by
    have first : answer host 1 (.create (.string "count")) (.start {} .standard ()) =
      some (⟨7⟩, keyed) := rfl
    have second : answer host 1 (.create (.int 7)) keyed = some (⟨8⟩, valued) := rfl
    have third : answer host 1 (.marshal (Object.method (.capability p .setItem)).toArg) valued =
      some (.ok ⟨9⟩, world) := rfl
    exact (((World.Reachable.start {} .standard ()).answer first).answer second).answer third
  have isKey : world.heap.kind? ⟨7⟩ = some (.string "count") := rfl
  have isValue : world.heap.kind? ⟨8⟩ = some (.int 7) := rfl
  obtain ⟨mid, wraps⟩ : ∃ mid, Wraps host 2 [⟨7⟩, ⟨8⟩] world mid := by
    have views : List.Forall₂ world.heap.HasView [⟨7⟩, ⟨8⟩] [.string "count", .int 7] :=
      .cons ⟨_, rfl, rfl⟩ (.cons ⟨_, rfl, rfl⟩ .nil)
    obtain ⟨mid, wrapped, _⟩ :=
      (wrapAll_answers host (answer host 0) rfl reachable.sound views).finishes
    exact ⟨mid, _, wrapped⟩
  obtain ⟨status, after, told, after', direct, via, tells, same⟩ :=
    (capability_transparent reachable
      (show world.heap.kind? p.handle = some (.dict .empty) from rfl)
      ⟨_, isKey, nofun⟩ ⟨_, isValue, nofun⟩ isKey 1 0).2.1 ⟨9⟩ mid world rfl wraps
        (.inr ⟨rfl, Registry.own_standard⟩)
  obtain ⟨stored, accepted⟩ : ∃ stored, answer host 1
      (.setItem world.globals (.handle ⟨7⟩) (.handle ⟨8⟩)) world = some (.ok, stored) := ⟨_, rfl⟩
  obtain ⟨rfl, rfl⟩ := Prod.mk.inj (Option.some.inj (accepted.symm.trans direct))
  exact ⟨world, ⟨9⟩, ⟨7⟩, ⟨8⟩, told, after', stored, isKey, isValue, via, tells, accepted, same⟩

end Machine

end Interop
