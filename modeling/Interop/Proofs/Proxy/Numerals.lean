import Interop.Proofs.Proxy.Assignment
import Interop.Proofs.Sequence.Slicing
/-!
Names that are numbers. A name of digits stands for the position that it denotes if a signed word
holds this number, however many zeros it begins with; then neither attributes nor keys are looked
at. A larger number is a name like any other.
-/

set_option autoImplicit false

namespace Interop

variable {κ σ : Type}

/-! ### Numerals -/

/-- A text of digits, at least one. -/
def IsNumeral (name : String) : Prop := name ≠ "" ∧ ∀ c ∈ name.toList, c.isDigit = true

/-- The number that a numeral denotes. -/
def numeral (name : String) : Nat := Nat.ofDigitChars 10 name.toList 0

theorem toList_toString (n : Nat) : (toString n).toList = Nat.toDigits 10 n := by
  change n.repr.toList = _
  rw [Nat.repr_eq_ofList_toDigits, String.toList_ofList]

theorem isNumeral_toString (n : Nat) : IsNumeral (toString n) := by
  constructor
  · intro empty
    have digits := toList_toString n
    rw [empty] at digits
    exact Nat.toDigits_ne_nil digits.symm
  · intro c among
    rw [toList_toString] at among
    exact Nat.isDigit_of_mem_toDigits (by decide) (by decide) among

theorem numeral_toString (n : Nat) : numeral (toString n) = n := by
  unfold numeral
  rw [toList_toString]
  exact Nat.ofDigitChars_ten_toDigits

theorem fitsWord_natCast_iff (n : Nat) : FitsWord n ↔ n < 2 ^ 63 := by
  unfold FitsWord
  rw [show Int.pow 2 63 = 9223372036854775808 from rfl]
  omega

theorem position?_of_isNumeral {name : String} (isNumeral : IsNumeral name) :
    position? name = word? (numeral name) := by
  have value : ∀ (digits : List Char) (start : Nat),
      digits.foldl (fun (value : Int) digit => 10 * value + (digit.toNat - '0'.toNat : Nat)) start =
        Nat.ofDigitChars 10 digits start := by
    intro digits
    induction digits with
    | nil => exact fun start => rfl
    | cons digit rest ih =>
        intro start
        exact ih (10 * start + (digit.toNat - '0'.toNat))
  unfold position?
  rw [if_pos]
  · exact congrArg word? (value name.toList 0)
  · exact Bool.and_eq_true_iff.mpr
      ⟨decide_eq_true isNumeral.1, List.all_eq_true.mpr isNumeral.2⟩

theorem position?_of_small {name : String} (isNumeral : IsNumeral name)
    (small : numeral name < 2 ^ 63) : position? name = some (Int64.ofInt (numeral name)) := by
  rw [position?_of_isNumeral isNumeral, word?, if_pos ((fitsWord_natCast_iff _).mpr small)]

theorem position?_of_large {name : String} (isNumeral : IsNumeral name)
    (large : 2 ^ 63 ≤ numeral name) : position? name = none := by
  rw [position?_of_isNumeral isNumeral, word?, if_neg]
  rw [fitsWord_natCast_iff]
  exact Nat.not_lt.mpr large

/-- The names of capabilities begin with a dollar sign. -/
theorem Capability.ofMemberName?_of_isNumeral {name : String} (isNumeral : IsNumeral name) :
    ofMemberName? name = none := by
  refine List.find?_eq_none.mpr ?_
  intro c _ same
  have named : "$" ++ c.name = name := beq_iff_eq.mp same
  have dollar : '$' ∈ name.toList := by
    rw [← named, String.toList_append]
    exact List.mem_append_left _ List.mem_cons_self
  exact absurd (isNumeral.2 '$' dollar) (by decide)

/-! ### Positions -/

theorem resolveIndex?_natCast {n : Nat} (small : n < 2 ^ 63) (length : Nat) :
    resolveIndex? (Int64.ofInt n) length = if n < length then some n else none := by
  have fits := (fitsWord_natCast_iff n).mpr small
  unfold resolveIndex?
  rw [if_neg (not_ofInt_neg fits), toInt_ofInt_of_fitsWord fits]
  dsimp only
  by_cases inside : n < length
  · rw [if_pos inside, if_pos (by omega), Int.toNat_natCast]
  · rw [if_neg inside, if_neg (by omega)]

namespace Heap

variable {heap : Heap κ} {h : Handle} {object : HeapObject κ} {n : Nat}

theorem sequencePart_natCast (small : n < 2 ^ 63) (sequence : String) (items : List Handle) :
    heap.sequencePart sequence items (.int (Int64.ofInt n)) =
      match items[n]? with
      | some item => .ok (.inl item)
      | none => .error (.indexOutOfRange sequence) := by
  unfold sequencePart
  dsimp only
  rw [resolveIndex?_natCast small]
  by_cases inside : n < items.length
  · rewrite [if_pos inside, Option.bind_some]
    rfl
  · rw [if_neg inside, List.getElem?_eq_none (Nat.le_of_not_lt inside), Option.bind_none]

theorem item_natCast (small : n < 2 ^ 63) (found : heap.cell? h = some (.object object))
    {type : SequenceType} {items : List Handle} (isSequence : object.kind = type.kind items) :
    heap.item h (.int (Int64.ofInt n)) =
      match items[n]? with
      | some item => .ok (.object item)
      | none => .error (.indexOutOfRange type.name) := by
  unfold item
  rw [found]
  dsimp only
  rw [isSequence, show heap.plainKey (.int (Int64.ofInt n)) = .int (Int64.ofInt n) from rfl]
  cases type with
  | list =>
      dsimp only [SequenceType.kind]
      rw [sequencePart_natCast small]
      cases items[n]? with
      | none => rfl
      | some item => rfl
  | tuple =>
      dsimp only [SequenceType.kind]
      rw [sequencePart_natCast small]
      cases items[n]? with
      | none => rfl
      | some item => rfl

/-- The keys of a dict are texts. -/
theorem item_int_of_dict (found : heap.cell? h = some (.object object))
    {entries : OrderedMap Handle} (isDict : object.kind = .dict entries) (key : Int64) :
    heap.item h (.int key) = .error (.noEntry ("Int(" ++ toString key.toInt ++ ")")) := by
  unfold item
  rw [found]
  dsimp only
  rw [isDict]
  rfl

/-- Only dicts have entries under a text. -/
theorem item_string (found : heap.cell? h = some (.object object)) (key : String) :
    match object.held? (.entry key) with
    | some item => heap.item h (.string key) = .ok (.object item)
    | none => ∃ fault, heap.item h (.string key) = .error fault := by
  unfold item HeapObject.held?
  rw [found]
  dsimp only
  rw [show heap.plainKey (.string key) = .string key from rfl]
  cases object.kind with
  | dict entries =>
      dsimp only
      cases entries.get? key with
      | none => exact ⟨_, rfl⟩
      | some item => rfl
  | _ => exact ⟨_, rfl⟩

/-! ### The slots of numerals -/

variable {name : String} {slot : Slot}

theorem slotFor?_natCast_iff (small : n < 2 ^ 63)
    (isPosition : position? name = some (Int64.ofInt n)) :
    heap.slotFor? h object.kind name = some slot ↔ slot = .position n ∧ object.Offers slot := by
  unfold slotFor?
  rw [isPosition]
  constructor
  · intro found
    cases sort : object.kind with
    | list items =>
        rw [sort] at found
        dsimp only at found
        rw [resolveIndex?_natCast small] at found
        by_cases inside : n < items.length
        · rw [if_pos inside] at found
          cases found
          exact ⟨rfl, items, sort, inside⟩
        · rw [if_neg inside] at found
          cases found
    | _ =>
        rw [sort] at found
        cases found
  · rintro ⟨rfl, items, isList, inside⟩
    rw [isList]
    dsimp only
    rw [resolveIndex?_natCast small, if_pos inside]
    rfl

theorem slotFor?_of_noPosition_iff (noPosition : position? name = none) :
    heap.slotFor? h object.kind name = some slot ↔
      (slot = .entry name ∧ heap.hasAttr h name = false ∨ slot = .named name) ∧
        object.Offers slot := by
  constructor
  · intro found
    refine ⟨?_, offers_of_slotFor? found⟩
    unfold slotFor? at found
    rw [noPosition] at found
    split at found
    · rename_i impossible _
      cases impossible
    · cases found
    · by_cases has : heap.hasAttr h name = true
      · rw [if_pos has] at found
        cases found
      · rw [if_neg has] at found
        cases found
        exact .inl ⟨rfl, Bool.eq_false_of_not_eq_true has⟩
    · split at found
      · cases found
        exact .inr rfl
      · cases found
  · rintro ⟨⟨rfl, noAttribute⟩ | rfl, offers⟩
    · obtain ⟨entries, isDict⟩ := offers
      unfold slotFor?
      rw [noPosition, isDict]
      dsimp only
      rw [noAttribute, if_neg Bool.false_ne_true]
    · have accepts : object.kind.acceptsAttributes = true := offers
      unfold slotFor?
      rw [noPosition]
      cases sort : object.kind with
      | dict entries =>
          rw [sort] at accepts
          cases accepts
      | _ =>
          rw [sort] at accepts
          exact if_pos accepts

end Heap

theorem Machine.run_getItem_error (host : Host κ σ) (below : Handler κ σ) {world : World κ σ}
    {h : Handle} {key : Arg κ} {fault : Fault} (refused : world.heap.item h key = .error fault) :
    (runProgram (layer host below) (h.getItem key)).run world =
      some (.error (world.heap.raise fault).1,
        { world with heap := (world.heap.raise fault).2 }) := by
  rw [runProgram_getItem]
  exact Run.attempt_of_error (Heap.getItem_of_error refused)

/-! ### Reading and writing under a numeral -/

open Machine (runProgram layer)

namespace Proxy

/-- Reading fails with an exception of a builtin type, for which there are only new cells. -/
def FailsToGet (p : Proxy κ) (host : Host κ σ) (below : Handler κ σ) (world : World κ σ)
    (name kind message : String) : Prop :=
  ∃ error after, (runProgram (layer host below) (p.get name)).run world =
      some (.error error, after) ∧
    after.heap.IsException error kind message ∧ world.Moves Heap.Extends after

/-- Writing fills one of some slots if there is one and the value can be marshalled, and else does
nothing and says so. -/
def Assigns (p : Proxy κ) (host : Host κ σ) (below : Handler κ σ) (world : World κ σ)
    (name : String) (slots : Slot → Prop) : Prop :=
  ∀ value, ∃ accepted after,
    (runProgram (layer host below) (p.set name value)).run world =
      some (.ok accepted, { world with heap := after }) ∧
    (accepted = true ↔ (∃ slot, slots slot) ∧ ∀ n ∈ value.bigs, FitsWord n) ∧
    (accepted = true → ∃ slot, slots slot ∧ world.heap.Assigned p.handle slot value after) ∧
    (accepted = false → after = world.heap)

/-- A name is a position: the value is asked for the item there and for nothing else. A sequence has
its elements below its length and nothing beyond, a dict has nothing at all, and only a list takes a
value, at a position that it has. -/
structure Indexes (p : Proxy κ) (host : Host κ σ) (below : Handler κ σ) (world : World κ σ)
    (object : HeapObject κ) (name : String) (n : Nat) : Prop where
  get_eq : (p.get name : Program κ σ _) = do
    return some (← Bridge.wrap (← p.handle.getItem (.int (Int64.ofInt n))))
  set_eq : ∀ value, (p.set name value : Program κ σ Bool) = do
    return (← p.handle.setItem (.int (Int64.ofInt n)) value).isOk
  element : ∀ (type : SequenceType) items item, object.kind = type.kind items →
    items[n]? = some item → (runProgram (layer host below) (p.get name)).run world =
      (runProgram (layer host below) (some <$> Bridge.wrap item)).run world
  outside : ∀ (type : SequenceType) items, object.kind = type.kind items → items.length ≤ n →
    p.FailsToGet host below world name "IndexError" (type.name ++ " index out of range")
  noEntry : ∀ entries, object.kind = .dict entries →
    p.FailsToGet host below world name "KeyError" ("Int(" ++ toString n ++ ")")
  assigns : p.Assigns host below world name fun slot => slot = .position n ∧ object.Offers slot

/-- A name is looked up among the attributes, and else among the keys of a dict; if there is
neither, the member is absent. A value is taken as an entry or as an attribute. -/
structure LooksUp (p : Proxy κ) (host : Host κ σ) (below : Handler κ σ) (world : World κ σ)
    (object : HeapObject κ) (name : String) : Prop where
  named : world.heap.hasAttr p.handle name = true →
    (runProgram (layer host below) (p.get name)).run world =
      (runProgram (layer host below) do
        return some (← Bridge.wrap (← p.handle.getAttr name))).run world
  entry : world.heap.hasAttr p.handle name = false → ∀ item,
    object.held? (.entry name) = some item →
    (runProgram (layer host below) (p.get name)).run world =
      (runProgram (layer host below) (some <$> Bridge.wrap item)).run world
  absent : world.heap.hasAttr p.handle name = false → object.held? (.entry name) = none →
    ∃ after, (runProgram (layer host below) (p.get name)).run world =
      some (.ok none, after) ∧ world.Moves Heap.Extends after
  assigns : p.Assigns host below world name fun slot =>
    (slot = .entry name ∧ world.heap.hasAttr p.handle name = false ∨ slot = .named name) ∧
      object.Offers slot

variable {host : Host κ σ} {below : Handler κ σ} {p : Proxy κ} {world : World κ σ}
  {object : HeapObject κ} {name : String}

theorem assigns_of_slotFor? (found : world.heap.cell? p.handle = some (.object object))
    {slots : Slot → Prop}
    (same : ∀ slot, world.heap.slotFor? p.handle object.kind name = some slot ↔ slots slot) :
    p.Assigns host below world name slots := by
  intro value
  refine ⟨_, _, Machine.run_set_assign host below found name value, ?_, ?_,
    Heap.assign_of_not_isOk⟩
  · rw [Heap.assign_isOk_iff, Option.isSome_iff_exists]
    simp only [same]
  · intro accepted
    obtain ⟨slot, named, assigned⟩ :=
      Heap.assigned_of_isOk found (fun slot named => Heap.offers_of_slotFor? named) accepted
    exact ⟨slot, (same slot).mp named, assigned⟩

theorem get_of_position {index : Int64} (noMember : p.members.get? name = none)
    (noCapability : Capability.ofMemberName? name = none)
    (isPosition : position? name = some index) :
    (p.get name : Program κ σ _) = do
      return some (← Bridge.wrap (← p.handle.getItem (.int index))) := by
  unfold get
  rw [noMember, noCapability, isPosition]

/-- A position that is refused makes reading fail. -/
theorem failsToGet_of_item {n : Nat} {fault : Fault} {kind message : String}
    (asked : (p.get name : Program κ σ _) = do
      return some (← Bridge.wrap (← p.handle.getItem (.int (Int64.ofInt n)))))
    (refused : world.heap.item p.handle (.int (Int64.ofInt n)) = .error fault)
    (reported : fault.report = .exception kind message) (nonempty : message ≠ "") :
    p.FailsToGet host below world name kind message := by
  refine ⟨_, _, ?_, world.heap.isException_raise reported nonempty,
    .ofHeap (Heap.along_raise world.heap fault)⟩
  rw [asked, Machine.runProgram_bind]
  exact Exec.run_bind_of_error (Machine.run_getItem_error host below refused)

theorem indexes_of_small (found : world.heap.cell? p.handle = some (.object object))
    (isNumeral : IsNumeral name) (noMember : p.members.get? name = none)
    (small : numeral name < 2 ^ 63) :
    p.Indexes host below world object name (numeral name) := by
  have isPosition := position?_of_small isNumeral small
  have asked : (p.get name : Program κ σ _) = _ :=
    get_of_position noMember (Capability.ofMemberName?_of_isNumeral isNumeral) isPosition
  constructor
  case get_eq => exact asked
  case set_eq =>
    intro value
    unfold set
    rw [isPosition]
  case element =>
    intro type items item isSequence there
    have read : world.heap.item p.handle (.int (Int64.ofInt (numeral name))) =
        .ok (.object item) := by
      rw [Heap.item_natCast small found isSequence, there]
    rw [asked, Machine.run_bind_of_ok _ (Machine.run_getItem host below read), bind_pure_comp]
  case outside =>
    intro type items isSequence outside
    have refused := Heap.item_natCast small found isSequence
    rw [List.getElem?_eq_none outside] at refused
    refine failsToGet_of_item asked refused rfl ?_
    cases type with
    | list => decide
    | tuple => decide
  case noEntry =>
    intro entries isDict
    have refused := Heap.item_int_of_dict found isDict (Int64.ofInt (numeral name))
    rw [toInt_ofInt_of_fitsWord ((fitsWord_natCast_iff _).mpr small)] at refused
    refine failsToGet_of_item asked refused rfl ?_
    intro empty
    have length := congrArg String.length empty
    rw [String.length_append] at length
    exact absurd length (by simp)
  case assigns =>
    exact assigns_of_slotFor? found fun slot => Heap.slotFor?_natCast_iff small isPosition

theorem looksUp_of_noPosition (found : world.heap.cell? p.handle = some (.object object))
    (noMember : p.members.get? name = none) (noCapability : Capability.ofMemberName? name = none)
    (noPosition : position? name = none) :
    p.LooksUp host below world object name := by
  have has := Machine.run_hasAttr host below world p.handle name
  have item := Heap.item_string found name
  constructor
  case named =>
    intro isAttribute
    rw [isAttribute] at has
    unfold get
    rw [noMember, noCapability, noPosition]
    dsimp only
    rw [Machine.run_bind_of_ok _ has, if_pos rfl]
  case entry =>
    intro noAttribute item' held
    rw [noAttribute] at has
    rw [held] at item
    have got := Machine.run_attempt _ (Machine.run_getItem host below item)
    unfold get
    rw [noMember, noCapability, noPosition]
    dsimp only
    rw [Machine.run_bind_of_ok _ has, if_neg Bool.false_ne_true, Machine.run_bind_of_ok _ got]
    exact congrArg (fun f => (runProgram (layer host below) f).run world)
      (bind_pure_comp some (Bridge.wrap item'))
  case absent =>
    intro noAttribute held
    rw [noAttribute] at has
    rw [held] at item
    obtain ⟨fault, refused⟩ := item
    have failed := Machine.run_attempt _ (Machine.run_getItem_error host below refused)
    refine ⟨_, ?_, .ofHeap (Heap.along_raise world.heap fault)⟩
    unfold get
    rw [noMember, noCapability, noPosition]
    dsimp only
    rw [Machine.run_bind_of_ok _ has, if_neg Bool.false_ne_true, Machine.run_bind_of_ok _ failed]
    rfl
  case assigns =>
    exact assigns_of_slotFor? found fun slot => Heap.slotFor?_of_noPosition_iff noPosition

/-- A proxy takes a name of digits for the position that it denotes as long as the number is below
2 ^ 63. From there on it looks the name up like any other: what should be an index is found among
attributes and keys, is absent, or becomes a key. -/
theorem numerals_index (host : Host κ σ) (below : Handler κ σ) {p : Proxy κ} {world : World κ σ}
    {object : HeapObject κ} (isObject : world.heap.object? p.handle = some object) {name : String}
    (isNumeral : IsNumeral name) (noMember : p.members.get? name = none) :
    (numeral name < 2 ^ 63 → p.Indexes host below world object name (numeral name)) ∧
    (2 ^ 63 ≤ numeral name → p.LooksUp host below world object name) := by
  have found := Heap.cell?_of_object? isObject
  constructor
  · intro small
    exact indexes_of_small found isNumeral noMember small
  · intro large
    exact looksUp_of_noPosition found noMember (Capability.ofMemberName?_of_isNumeral isNumeral)
      (position?_of_large isNumeral large)

/-- A list of two integers, read and written at its second position under a name with zeros in
front. -/
theorem numerals_index_list :
    let start : World Unit Unit := .start {} .standard ()
    let world := { start with heap :=
      (start.heap.push (.object ⟨.int 5, .empty⟩)).push (.object ⟨.list [⟨0⟩, ⟨7⟩], .empty⟩) }
    let below := Machine.answer Host.answeringNone 1
    let p : Proxy Unit := .mk ⟨8⟩ ⟨"builtins", "list"⟩ []
    (runProgram (layer Host.answeringNone below) (p.get "001")).run world =
        (runProgram (layer Host.answeringNone below) (some <$> Bridge.wrap ⟨7⟩)).run world ∧
      (∃ after, (runProgram (layer Host.answeringNone below) (p.set "001" .none)).run world =
        some (.ok true, { world with heap := after }) ∧
        world.heap.Assigned ⟨8⟩ (.position 1) .none after) ∧
      p.FailsToGet Host.answeringNone below world "2" "IndexError" "list index out of range" := by
  intro start world below p
  have isObject : world.heap.object? p.handle = some ⟨.list [⟨0⟩, ⟨7⟩], .empty⟩ := rfl
  have second : IsNumeral "001" := ⟨by decide, List.all_eq_true.mp (by decide)⟩
  have third : IsNumeral "2" := ⟨by decide, List.all_eq_true.mp (by decide)⟩
  have indexes :=
    (numerals_index Host.answeringNone below isObject second rfl).1 (by decide)
  refine ⟨indexes.element .list _ _ rfl rfl, ?_, ?_⟩
  · obtain ⟨accepted, after, finished, iff, fills, _⟩ := indexes.assigns .none
    have isTrue : accepted = true :=
      iff.mpr ⟨⟨.position 1, rfl, _, rfl, by decide⟩, List.forall_mem_nil _⟩
    obtain ⟨slot, ⟨rfl, _⟩, assigned⟩ := fills isTrue
    rw [isTrue] at finished
    exact ⟨after, finished, assigned⟩
  · have indexes :=
      (numerals_index Host.answeringNone below isObject third rfl).1 (by decide)
    exact indexes.outside .list _ rfl (by decide)

/-- The first number beyond a signed word: no member of a list, where every other position beyond
the end is an error, and a key of a dict. -/
theorem large_numeral_not_index :
    let start : World Unit Unit := .start {} .standard ()
    let world := { start with heap := start.heap.push (.object ⟨.list [⟨0⟩], .empty⟩) }
    let below := Machine.answer Host.answeringNone 1
    let name := "9223372036854775808"
    let list : Proxy Unit := .mk ⟨7⟩ ⟨"builtins", "list"⟩ []
    let dict : Proxy Unit := .mk world.globals ⟨"builtins", "dict"⟩ []
    IsNumeral name ∧
      (∃ after, (runProgram (layer Host.answeringNone below) (list.get name)).run world =
        some (.ok none, after)) ∧
      ¬ list.FailsToGet Host.answeringNone below world name "IndexError"
        "list index out of range" ∧
      ∃ after, (runProgram (layer Host.answeringNone below) (dict.set name (.int 1))).run world =
        some (.ok true, { world with heap := after }) ∧
        world.heap.Assigned dict.handle (.entry name) (.int 1) after := by
  intro start world below name list dict
  have isNumeral : IsNumeral name := ⟨by decide, List.all_eq_true.mp (by decide)⟩
  have noPosition : position? name = none := position?_of_large isNumeral (by decide)
  have isList : world.heap.cell? list.handle = some (.object ⟨.list [⟨0⟩], .empty⟩) := rfl
  have isDict : world.heap.cell? dict.handle = some (.object ⟨.dict .empty, .empty⟩) := rfl
  have listed : list.LooksUp Host.answeringNone below world _ name :=
    looksUp_of_noPosition isList rfl (by decide) noPosition
  have named : dict.LooksUp Host.answeringNone below world _ name :=
    looksUp_of_noPosition isDict rfl (by decide) noPosition
  obtain ⟨after, absent, _⟩ := listed.absent (by decide) rfl
  refine ⟨isNumeral, ⟨after, absent⟩, ?_, ?_⟩
  · rintro ⟨error, _, failed, _⟩
    rw [absent] at failed
    cases failed
  · obtain ⟨accepted, after, finished, iff, fills, _⟩ := named.assigns (.int 1)
    have isTrue : accepted = true :=
      iff.mpr ⟨⟨.entry name, .inl ⟨rfl, by decide⟩, _, rfl⟩, List.forall_mem_nil _⟩
    obtain ⟨slot, ⟨⟨rfl, _⟩ | rfl, offers⟩, assigned⟩ := fills isTrue
    · rw [isTrue] at finished
      exact ⟨after, finished, assigned⟩
    · cases offers

end Proxy

end Interop
