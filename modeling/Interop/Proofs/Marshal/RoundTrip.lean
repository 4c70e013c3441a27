import Mathlib.Algebra.Group.Int.Defs
import Mathlib.Data.List.Find
import Interop.Json.Codec
import Interop.Proofs.Marshal.ReadBack
/-!
Marshalling and reading back. A tree of plain values can be marshalled unless it holds an integer
that no word holds, and then it reads back as it was; the first such integer is the one that is
refused. The same holds for the trees that JSON values become.
-/

set_option autoImplicit false

namespace Interop

variable {κ α β : Type}

/-! ### Trees -/

namespace Arg

mutual

/-- The tree that an argument comes back as: every integer is a word, and keyword arguments are a
dict. -/
def plain : Arg κ → Arg κ
  | .big value => .int (Int64.ofInt value)
  | .list items => .list (plainAll items)
  | .dict entries => .dict (plainEntries entries)
  | .keywords entries => .dict (plainEntries entries)
  | arg => arg

def plainAll : List (Arg κ) → List (Arg κ)
  | [] => []
  | arg :: rest => arg.plain :: plainAll rest

def plainEntries : List (String × Arg κ) → List (String × Arg κ)
  | [] => []
  | (key, arg) :: rest => (key, arg.plain) :: plainEntries rest

end

mutual

/-- The big integers of a tree, depth first and from left to right. -/
def bigs : Arg κ → List Int
  | .big value => [value]
  | .list items => bigsAll items
  | .dict entries => bigsEntries entries
  | .keywords entries => bigsEntries entries
  | _ => []

def bigsAll : List (Arg κ) → List Int
  | [] => []
  | arg :: rest => arg.bigs ++ bigsAll rest

def bigsEntries : List (String × Arg κ) → List Int
  | [] => []
  | (_, arg) :: rest => arg.bigs ++ bigsEntries rest

end

/-- A tree of plain values. As in memory, no collection has more elements than a word counts, and no
mapping has a key twice. -/
inductive IsData : Arg κ → Prop
  | none : IsData .none
  | bool (value : Bool) : IsData (.bool value)
  | int (value : Int64) : IsData (.int value)
  | big (value : Int) : IsData (.big value)
  | float (value : Binary64) : IsData (.float value)
  | string (value : String) : IsData (.string value)
  | bytes (data : List UInt8) : IsData (.bytes data)
  | list {items : List (Arg κ)} (counted : FitsWord items.length)
      (each : ∀ item ∈ items, IsData item) : IsData (.list items)
  | dict {entries : List (String × Arg κ)} (counted : FitsWord entries.length)
      (distinct : (Entries.keys entries).Nodup) (each : ∀ entry ∈ entries, IsData entry.2) :
      IsData (.dict entries)
  | keywords {entries : List (String × Arg κ)} (counted : FitsWord entries.length)
      (distinct : (Entries.keys entries).Nodup) (each : ∀ entry ∈ entries, IsData entry.2) :
      IsData (.keywords entries)

mutual

/-- The JSON value that a tree stands for, if it is one. -/
def toJson? : Arg κ → Option Json.Value
  | .none => some .null
  | .bool value => some (.bool value)
  | .int value => some (.int value.toInt)
  | .float value => some (.number (.float value))
  | .string value => some (.string value)
  | .list items => (toJsonItems? items).map .array
  | .dict entries => (toJsonEntries? entries).map .object
  | _ => Option.none

def toJsonItems? : List (Arg κ) → Option (List Json.Value)
  | [] => some []
  | arg :: rest => do return (← arg.toJson?) :: (← toJsonItems? rest)

def toJsonEntries? : List (String × Arg κ) → Option (List (String × Json.Value))
  | [] => some []
  | (key, arg) :: rest => do return (key, ← arg.toJson?) :: (← toJsonEntries? rest)

end

end Arg

namespace Json.Value

mutual

/-- The integers of a value, depth first and from left to right. -/
def integers : Value → List Int
  | .number (.int value) => [value]
  | .array items => integersOfItems items
  | .object entries => integersOfEntries entries
  | _ => []

def integersOfItems : List Value → List Int
  | [] => []
  | item :: rest => item.integers ++ integersOfItems rest

def integersOfEntries : List (String × Value) → List Int
  | [] => []
  | (_, value) :: rest => value.integers ++ integersOfEntries rest

end

/-- A value as JSON has it: integers have at most 64 bits, and no object has a key twice. -/
inductive WellFormed : Value → Prop
  | null : WellFormed .null
  | bool (value : Bool) : WellFormed (.bool value)
  | int {value : Int} (least : -2 ^ 63 ≤ value) (greatest : value < 2 ^ 64) :
      WellFormed (.number (.int value))
  | float (value : Binary64) : WellFormed (.number (.float value))
  | string (value : String) : WellFormed (.string value)
  | array {items : List Value} (counted : FitsWord items.length)
      (each : ∀ item ∈ items, WellFormed item) : WellFormed (.array items)
  | object {entries : List (String × Value)} (counted : FitsWord entries.length)
      (distinct : (Entries.keys entries).Nodup) (each : ∀ entry ∈ entries, WellFormed entry.2) :
      WellFormed (.object entries)

end Json.Value

/-! ### Maps with distinct keys -/

theorem Entries.insert_of_not_mem {entries : Entries α} {key : String} (value : α)
    (new : key ∉ Entries.keys entries) :
    Entries.insert entries key value = entries ++ [(key, value)] := by
  induction entries with
  | nil => rfl
  | cons entry rest ih =>
      obtain ⟨first, old⟩ := entry
      rw [Entries.keys_cons, List.mem_cons, not_or] at new
      rw [Entries.insert, if_neg (Ne.symm new.1), ih new.2, List.cons_append]

theorem Entries.merge_of_nodup (entries : Entries α) {writes : Entries α}
    (distinct : (Entries.keys (entries ++ writes)).Nodup) :
    Entries.merge entries writes = entries ++ writes := by
  induction writes generalizing entries with
  | nil => exact (List.append_nil entries).symm
  | cons entry rest ih =>
      obtain ⟨key, value⟩ := entry
      have split : entries ++ (key, value) :: rest = (entries ++ [(key, value)]) ++ rest := by
        rw [List.append_assoc, List.singleton_append]
      have new : key ∉ Entries.keys entries := by
        intro member
        rw [Entries.keys, List.map_append, List.nodup_append] at distinct
        exact distinct.2.2 key member key List.mem_cons_self rfl
      change Entries.merge (Entries.insert entries key value) rest = _
      rw [Entries.insert_of_not_mem value new, split]
      rw [split] at distinct
      exact ih _ distinct

theorem OrderedMap.entries_ofEntries {writes : Entries α}
    (distinct : (Entries.keys writes).Nodup) : (OrderedMap.ofEntries writes).entries = writes :=
  Entries.merge_of_nodup [] distinct

/-! ### Refusals -/

namespace Heap

/-- The operation is refused for the first of some numbers that no word holds, and succeeds if all
of them fit. -/
def Op.RefusesFirst (op : Op κ α) (numbers : List Int) : Prop :=
  ∀ heap, match numbers.find? fun n => ¬ FitsWord n with
    | none => ∃ a after, op.run heap = .ok (a, after)
    | some n => op.run heap = .error (.integerTooLarge n)

namespace Op

theorem refusesFirst_pure (a : α) : (pure a : Op κ α).RefusesFirst [] :=
  fun heap => ⟨a, heap, rfl⟩

theorem refusesFirst_alloc (kind : Kind κ) : (alloc kind).RefusesFirst [] :=
  fun _ => ⟨_, _, rfl⟩

theorem RefusesFirst.bind {x : Op κ α} {f : α → Op κ β} {early late : List Int}
    (first : x.RefusesFirst early) (rest : ∀ a, (f a).RefusesFirst late) :
    (x >>= f).RefusesFirst (early ++ late) := by
  intro heap
  have begins := first heap
  rw [List.find?_append]
  cases unfit : early.find? fun n => ¬ FitsWord n with
  | some n =>
      rw [unfit] at begins
      exact run_bind_of_error begins
  | none =>
      rw [unfit] at begins
      obtain ⟨a, mid, finished⟩ := begins
      have ends := rest a mid
      rw [Option.none_or]
      rw [StateT.run_bind, finished]
      exact ends

theorem RefusesFirst.bind_last {x : Op κ α} {f : α → Op κ β} {numbers : List Int}
    (first : x.RefusesFirst numbers) (rest : ∀ a, (f a).RefusesFirst []) :
    (x >>= f).RefusesFirst numbers := by
  have both := first.bind rest
  rw [List.append_nil] at both
  exact both

end Op

mutual

theorem refusesFirst_marshal : (arg : Arg κ) → (marshal arg).RefusesFirst arg.bigs
  | .none | .bool _ | .int _ | .float _ | .string _ | .bytes _ | .callback _ =>
      Op.refusesFirst_alloc _
  | .handle h => Op.refusesFirst_pure h
  | .big value => by
      intro heap
      rw [marshal, Arg.bigs]
      by_cases fits : FitsWord value
      · rw [List.find?_cons_of_neg (by simpa using fits), List.find?_nil, word?, if_pos fits]
        exact ⟨_, _, rfl⟩
      · rw [List.find?_cons_of_pos (by simpa using fits), word?, if_neg fits]
        rfl
  | .list items => by
      rw [marshal, Arg.bigs]
      exact (refusesFirst_marshalAll items).bind_last fun _ => Op.refusesFirst_alloc _
  | .dict entries => by
      rw [marshal, Arg.bigs]
      exact (refusesFirst_marshalEntries entries).bind_last fun _ => Op.refusesFirst_alloc _
  | .keywords entries => by
      rw [marshal, Arg.bigs]
      exact (refusesFirst_marshalEntries entries).bind_last fun _ => Op.refusesFirst_alloc _

theorem refusesFirst_marshalAll : (args : List (Arg κ)) →
    (marshalAll args).RefusesFirst (Arg.bigsAll args)
  | [] => Op.refusesFirst_pure []
  | arg :: rest => by
      rw [marshalAll, Arg.bigsAll]
      exact (refusesFirst_marshal arg).bind fun _ =>
        (refusesFirst_marshalAll rest).bind_last fun _ => Op.refusesFirst_pure _

theorem refusesFirst_marshalEntries : (entries : List (String × Arg κ)) →
    (marshalEntries entries).RefusesFirst (Arg.bigsEntries entries)
  | [] => Op.refusesFirst_pure []
  | (_, arg) :: rest => by
      rw [marshalEntries, Arg.bigsEntries]
      exact (refusesFirst_marshal arg).bind fun _ =>
        (refusesFirst_marshalEntries rest).bind_last fun _ => Op.refusesFirst_pure _

end

/-! ### Reading back what was marshalled -/

theorem readsAs_alloc {kind : Kind κ} {heap after : Heap κ} {h : Handle} {arg : Arg κ}
    (reads : ∀ {heap : Heap κ} {h : Handle}, heap.kind? h = some kind → heap.ReadsAs h arg)
    (made : (Op.alloc kind).run heap = .ok (h, after)) : after.ReadsAs h arg := by
  cases made
  exact reads (kind?_fresh heap kind)

/-- Whatever the argument is marshalled to reads back as the argument's tree. -/
def ComesBack (arg : Arg κ) : Prop :=
  ∀ heap h after, (marshal arg).run heap = .ok (h, after) → after.ReadsAs h arg.plain

theorem readsAs_marshalAll {args : List (Arg κ)} (each : ∀ arg ∈ args, ComesBack arg)
    {heap after : Heap κ} {handles : List Handle}
    (made : (marshalAll args).run heap = .ok (handles, after)) :
    List.Forall₂ after.ReadsAs handles (Arg.plainAll args) := by
  induction args generalizing heap handles with
  | nil =>
      cases made
      exact .nil
  | cons arg rest ih =>
      rw [marshalAll] at made
      obtain ⟨h, mid, first, made⟩ := Op.bind_eq_ok_iff.mp made
      obtain ⟨others, last, later, made⟩ := Op.bind_eq_ok_iff.mp made
      cases made
      have kept : mid.Extends after := moves_marshalAll rest mid others after later
      have reads := each arg List.mem_cons_self heap h mid first
      have readsRest := ih (fun other member => each other (List.mem_cons_of_mem arg member)) later
      exact .cons (reads.later kept) readsRest

theorem readsAs_marshalEntries {args : List (String × Arg κ)}
    (each : ∀ entry ∈ args, ComesBack entry.2) {heap after : Heap κ} {entries : Entries Handle}
    (made : (marshalEntries args).run heap = .ok (entries, after)) :
    List.Forall₂ (fun entry arg => entry.1 = arg.1 ∧ after.ReadsAs entry.2 arg.2) entries
      (Arg.plainEntries args) := by
  induction args generalizing heap entries with
  | nil =>
      cases made
      exact .nil
  | cons entry rest ih =>
      obtain ⟨key, arg⟩ := entry
      rw [marshalEntries] at made
      obtain ⟨h, mid, first, made⟩ := Op.bind_eq_ok_iff.mp made
      obtain ⟨others, last, later, made⟩ := Op.bind_eq_ok_iff.mp made
      cases made
      have kept : mid.Extends after := moves_marshalEntries rest mid others after later
      have reads := each (key, arg) List.mem_cons_self heap h mid first
      have readsRest := ih (fun other member => each other (List.mem_cons_of_mem _ member)) later
      exact .cons ⟨rfl, reads.later kept⟩ readsRest

theorem length_plainAll (args : List (Arg κ)) : (Arg.plainAll args).length = args.length := by
  induction args with
  | nil => rfl
  | cons arg rest ih => rw [Arg.plainAll, List.length_cons, List.length_cons, ih]

theorem keys_plainEntries (args : List (String × Arg κ)) :
    Entries.keys (Arg.plainEntries args) = Entries.keys args := by
  induction args with
  | nil => rfl
  | cons entry rest ih =>
      obtain ⟨key, arg⟩ := entry
      rw [Arg.plainEntries, Entries.keys_cons, Entries.keys_cons, ih]

theorem keys_of_forall₂ {relation : Handle → Arg κ → Prop} {entries : Entries Handle}
    {args : List (String × Arg κ)}
    (related : List.Forall₂ (fun entry arg => entry.1 = arg.1 ∧ relation entry.2 arg.2) entries
      args) : Entries.keys entries = Entries.keys args := by
  induction related with
  | nil => rfl
  | cons first _ ih => exact congrArg₂ List.cons first.1 ih

/-- Entries with distinct keys become a dict as they are. -/
theorem readsAs_allocDict {args : List (String × Arg κ)} (counted : FitsWord args.length)
    (distinct : (Entries.keys args).Nodup) (each : ∀ entry ∈ args, ComesBack entry.2)
    {heap after : Heap κ} {h : Handle}
    (made : (marshalEntries args >>= fun entries =>
      Op.alloc (.dict (.ofEntries entries))).run heap = .ok (h, after)) :
    after.ReadsAs h (.dict (Arg.plainEntries args)) := by
  obtain ⟨entries, mid, parts, made⟩ := Op.bind_eq_ok_iff.mp made
  have reads := readsAs_marshalEntries each parts
  have keys : Entries.keys entries = Entries.keys args :=
    (keys_of_forall₂ reads).trans (keys_plainEntries args)
  have same : (OrderedMap.ofEntries entries).entries = entries := by
    apply OrderedMap.entries_ofEntries
    rw [keys]
    exact distinct
  have size : (OrderedMap.ofEntries entries).size = args.length := by
    have lengths := congrArg List.length keys
    rw [Entries.keys, Entries.keys, List.length_map, List.length_map] at lengths
    unfold OrderedMap.size
    rw [same, lengths]
  cases made
  refine readsAs_dict (kind?_fresh mid _) (by rw [size]; exact counted) ?_
  rw [same]
  refine reads.imp ?_
  rintro entry arg ⟨sameKey, reads⟩
  exact ⟨sameKey, reads.later (.push mid _)⟩

theorem comesBack_of_isData {arg : Arg κ} (data : arg.IsData) : ComesBack arg := by
  induction data with
  | none => exact fun heap h after made => readsAs_alloc readsAs_none made
  | bool value =>
      exact fun heap h after made =>
        readsAs_alloc (readsAs_primitive (.bool value) · rfl) made
  | int value =>
      exact fun heap h after made =>
        readsAs_alloc (readsAs_primitive (.int value) · rfl) made
  | float value =>
      exact fun heap h after made =>
        readsAs_alloc (readsAs_primitive (.float value) · rfl) made
  | string value =>
      exact fun heap h after made =>
        readsAs_alloc (readsAs_primitive (.string value) · rfl) made
  | bytes data => exact fun heap h after made => readsAs_alloc readsAs_bytes made
  | big value =>
      intro heap h after made
      rw [marshal, word?] at made
      by_cases fits : FitsWord value
      · rw [if_pos fits] at made
        exact readsAs_alloc (readsAs_primitive (.int (Int64.ofInt value)) · rfl) made
      · rw [if_neg fits] at made
        cases made
  | @list items counted _ ih =>
      intro heap h after made
      rw [marshal] at made
      obtain ⟨handles, mid, parts, made⟩ := Op.bind_eq_ok_iff.mp made
      have reads := readsAs_marshalAll ih parts
      have length : handles.length = items.length := by
        rw [reads.length_eq, length_plainAll]
      cases made
      refine readsAs_list (kind?_fresh mid _) (by rw [length]; exact counted) ?_
      exact reads.imp fun _ _ reads => reads.later (.push mid _)
  | dict counted distinct _ ih =>
      intro heap h after made
      rw [marshal] at made
      exact readsAs_allocDict counted distinct ih made
  | keywords counted distinct _ ih =>
      intro heap h after made
      rw [marshal] at made
      exact readsAs_allocDict counted distinct ih made

end Heap

/-! ### JSON values -/

namespace Arg

theorem ofJsonItems_eq_map (items : List Json.Value) :
    (ofJsonItems items : List (Arg κ)) = items.map ofJson := by
  induction items with
  | nil => rfl
  | cons item rest ih => rw [ofJsonItems, ih, List.map_cons]

theorem ofJsonEntries_eq_map (entries : List (String × Json.Value)) :
    (ofJsonEntries entries : List (String × Arg κ)) =
      entries.map fun entry => (entry.1, ofJson entry.2) := by
  induction entries with
  | nil => rfl
  | cons entry rest ih =>
      obtain ⟨key, value⟩ := entry
      rw [ofJsonEntries, ih, List.map_cons]

theorem isData_ofInt (value : Int) : (ofInt value : Arg κ).IsData := by
  unfold ofInt
  cases word? value with
  | some word => exact .int word
  | none => exact .big value

theorem isData_ofJson {value : Json.Value} (wellFormed : value.WellFormed) :
    (ofJson value : Arg κ).IsData := by
  induction wellFormed with
  | null => exact .none
  | bool value => exact .bool value
  | @int value _ _ => exact isData_ofInt value
  | float value => exact .float value
  | string value => exact .string value
  | array counted _ ih =>
      rw [ofJson, ofJsonItems_eq_map]
      refine .list (by rw [List.length_map]; exact counted) ?_
      intro arg member
      obtain ⟨item, among, rfl⟩ := List.mem_map.mp member
      exact ih item among
  | @object entries counted distinct _ ih =>
      rw [ofJson, ofJsonEntries_eq_map]
      refine .dict (by rw [List.length_map]; exact counted) ?_ ?_
      · have keys : Entries.keys (entries.map fun entry => (entry.1, (ofJson entry.2 : Arg κ))) =
            Entries.keys entries := by
          rw [Entries.keys, List.map_map]
          rfl
        rw [keys]
        exact distinct
      · intro arg member
        obtain ⟨entry, among, rfl⟩ := List.mem_map.mp member
        exact ih entry among

mutual

/-- The big integers of a JSON value's tree are its integers that do not fit. -/
theorem bigs_ofJson : (value : Json.Value) →
    (ofJson value : Arg κ).bigs = value.integers.filter fun n => ¬ FitsWord n
  | .null | .bool _ | .number (.float _) | .string _ => rfl
  | .number (.int value) => by
      rw [ofJson, ofInt, word?, Json.Value.integers]
      by_cases fits : FitsWord value
      · rw [if_pos fits, List.filter_cons_of_neg (by simpa using fits)]
        rfl
      · rw [if_neg fits, List.filter_cons_of_pos (by simpa using fits)]
        rfl
  | .array items => by
      rw [ofJson, Json.Value.integers, bigs]
      exact bigs_ofJsonItems items
  | .object entries => by
      rw [ofJson, Json.Value.integers, bigs]
      exact bigs_ofJsonEntries entries

theorem bigs_ofJsonItems : (items : List Json.Value) →
    bigsAll (ofJsonItems items : List (Arg κ)) =
      (Json.Value.integersOfItems items).filter fun n => ¬ FitsWord n
  | [] => rfl
  | item :: rest => by
      rw [ofJsonItems, bigsAll, Json.Value.integersOfItems, List.filter_append, bigs_ofJson item,
        bigs_ofJsonItems rest]

theorem bigs_ofJsonEntries : (entries : List (String × Json.Value)) →
    bigsEntries (ofJsonEntries entries : List (String × Arg κ)) =
      (Json.Value.integersOfEntries entries).filter fun n => ¬ FitsWord n
  | [] => rfl
  | (_, value) :: rest => by
      rw [ofJsonEntries, bigsEntries, Json.Value.integersOfEntries, List.filter_append,
        bigs_ofJson value, bigs_ofJsonEntries rest]

end

mutual

/-- The tree of a JSON value whose integers fit stands for that value. -/
theorem toJson?_plain_ofJson : (value : Json.Value) → (∀ n ∈ value.integers, FitsWord n) →
    (ofJson value : Arg κ).plain.toJson? = some value
  | .null, _ | .bool _, _ | .number (.float _), _ | .string _, _ => rfl
  | .number (.int value), fits => by
      have fits : FitsWord value := fits value List.mem_cons_self
      rw [ofJson, ofInt_of_fitsWord fits]
      change some (Json.Value.int (Int64.ofInt value).toInt) = _
      rw [toInt_ofInt_of_fitsWord fits]
      rfl
  | .array items, fits => by
      rw [ofJson, plain, toJson?, toJsonItems?_plain_ofJsonItems items fits]
      rfl
  | .object entries, fits => by
      rw [ofJson, plain, toJson?, toJsonEntries?_plain_ofJsonEntries entries fits]
      rfl

theorem toJsonItems?_plain_ofJsonItems : (items : List Json.Value) →
    (∀ n ∈ Json.Value.integersOfItems items, FitsWord n) →
    toJsonItems? (plainAll (ofJsonItems items : List (Arg κ))) = some items
  | [], _ => rfl
  | item :: rest, fits => by
      rw [Json.Value.integersOfItems, List.forall_mem_append] at fits
      rw [ofJsonItems, plainAll, toJsonItems?, toJson?_plain_ofJson item fits.1,
        toJsonItems?_plain_ofJsonItems rest fits.2]
      rfl

theorem toJsonEntries?_plain_ofJsonEntries : (entries : List (String × Json.Value)) →
    (∀ n ∈ Json.Value.integersOfEntries entries, FitsWord n) →
    toJsonEntries? (plainEntries (ofJsonEntries entries : List (String × Arg κ))) = some entries
  | [], _ => rfl
  | (key, value) :: rest, fits => by
      rw [Json.Value.integersOfEntries, List.forall_mem_append] at fits
      rw [ofJsonEntries, plainEntries, toJsonEntries?, toJson?_plain_ofJson value fits.1,
        toJsonEntries?_plain_ofJsonEntries rest fits.2]
      rfl

end

end Arg

namespace Json.Value

theorem mem_integersOfItems {items : List Value} {n : Int} :
    n ∈ integersOfItems items ↔ ∃ item ∈ items, n ∈ item.integers := by
  induction items with
  | nil => simp [integersOfItems]
  | cons item rest ih => simp [integersOfItems, ih]

theorem mem_integersOfEntries {entries : List (String × Value)} {n : Int} :
    n ∈ integersOfEntries entries ↔ ∃ entry ∈ entries, n ∈ entry.2.integers := by
  induction entries with
  | nil => simp [integersOfEntries]
  | cons entry rest ih => simp [integersOfEntries, ih]

/-- No integer of a JSON value is too small for a word. -/
theorem WellFormed.least {value : Value} (wellFormed : value.WellFormed) :
    ∀ n ∈ value.integers, -2 ^ 63 ≤ n := by
  induction wellFormed with
  | int least _ =>
      intro n member
      rw [List.mem_singleton.mp member]
      exact least
  | array _ _ ih =>
      intro n member
      obtain ⟨item, among, member⟩ := mem_integersOfItems.mp member
      exact ih item among n member
  | object _ _ _ ih =>
      intro n member
      obtain ⟨entry, among, member⟩ := mem_integersOfEntries.mp member
      exact ih entry among n member
  | _ => exact List.forall_mem_nil _

theorem WellFormed.fitsWord_iff {value : Value} (wellFormed : value.WellFormed) {n : Int}
    (member : n ∈ value.integers) : FitsWord n ↔ n < 2 ^ 63 :=
  ⟨fun fits => fits.2, fun small => ⟨wellFormed.least n member, small⟩⟩

/-- The first integer that is refused is the first that is too large. -/
theorem WellFormed.find?_bigs {value : Value} (wellFormed : value.WellFormed) :
    ((Arg.ofJson value : Arg κ).bigs.find? fun n => ¬ FitsWord n) =
      value.integers.find? fun n => 2 ^ 63 ≤ n := by
  rw [Arg.bigs_ofJson, List.find?_filter]
  apply List.find?_congr
  intro n member
  simp only [wellFormed.fitsWord_iff member, Int.not_lt, decide_eq_true_eq, and_self]

end Json.Value

/-! ### The round trip -/

namespace Heap

theorem marshal_eq_ok_iff (arg : Arg κ) (heap : Heap κ) :
    (∃ h after, (marshal arg).run heap = .ok (h, after)) ↔ ∀ n ∈ arg.bigs, FitsWord n := by
  have outcome := refusesFirst_marshal arg heap
  cases unfit : arg.bigs.find? fun n => ¬ FitsWord n with
  | none =>
      rw [unfit] at outcome
      refine iff_of_true outcome ?_
      simpa using unfit
  | some n =>
      rw [unfit] at outcome
      refine iff_of_false ?_ ?_
      · rintro ⟨h, after, made⟩
        rw [outcome] at made
        cases made
      · intro fits
        have member := List.mem_of_find?_eq_some unfit
        have large := List.find?_some unfit
        simp [fits n member] at large

theorem marshal_eq_error_iff (arg : Arg κ) (heap : Heap κ) (fault : Fault) :
    (marshal arg).run heap = .error fault ↔
      ∃ n, (arg.bigs.find? fun n => ¬ FitsWord n) = some n ∧ fault = .integerTooLarge n := by
  have outcome := refusesFirst_marshal arg heap
  cases unfit : arg.bigs.find? fun n => ¬ FitsWord n with
  | none =>
      rw [unfit] at outcome
      obtain ⟨h, after, made⟩ := outcome
      rw [made]
      refine iff_of_false nofun ?_
      rintro ⟨n, impossible, _⟩
      cases impossible
  | some n =>
      rw [unfit] at outcome
      rw [outcome]
      constructor
      · intro same
        cases same
        exact ⟨n, rfl, rfl⟩
      · rintro ⟨m, same, rfl⟩
        cases same
        rfl

theorem ReadsAs.unique {heap : Heap κ} {h : Handle} {first second : Arg κ}
    (reads : heap.ReadsAs h first) (readsToo : heap.ReadsAs h second) : first = second := by
  obtain ⟨needed, answers⟩ := reads
  obtain ⟨neededToo, answersToo⟩ := readsToo
  obtain ⟨last, read, _⟩ := answers (max needed neededToo) (Nat.le_max_left _ _) heap (.refl heap)
  obtain ⟨lastToo, readToo, _⟩ :=
    answersToo (max needed neededToo) (Nat.le_max_right _ _) heap (.refl heap)
  rw [read] at readToo
  cases readToo
  rfl

/-- An argument is marshalled exactly if every big integer in it fits in a word, and otherwise
refused for the first that does not; what a tree of plain values was marshalled to reads back as
that tree. A JSON value without an integer above the greatest word comes back as it was, and one
with such an integer is refused for the first. -/
theorem marshal_readBack :
    (∀ (arg : Arg κ) (heap : Heap κ),
      ((∃ h after, (marshal arg).run heap = .ok (h, after)) ↔ ∀ n ∈ arg.bigs, FitsWord n) ∧
      ∀ fault, (marshal arg).run heap = .error fault ↔
        ∃ n, (arg.bigs.find? fun n => ¬ FitsWord n) = some n ∧ fault = .integerTooLarge n) ∧
    (∀ n, (Fault.integerTooLarge n).report =
      .exception "OverflowError" ("int too large: " ++ toString n)) ∧
    (∀ (arg : Arg κ) (heap after : Heap κ) (h : Handle), arg.IsData →
      (marshal arg).run heap = .ok (h, after) →
      heap.Extends after ∧ ∀ read, after.ReadsAs h read ↔ read = arg.plain) ∧
    ∀ (value : Json.Value) (heap : Heap κ), value.WellFormed →
      ((∀ n ∈ value.integers, n < 2 ^ 63) → ∃ h after read,
        (marshal (Arg.ofJson value)).run heap = .ok (h, after) ∧ after.ReadsAs h read ∧
          read.toJson? = some value) ∧
      ∀ n, (value.integers.find? fun n => 2 ^ 63 ≤ n) = some n →
        (marshal (Arg.ofJson value)).run heap = .error (.integerTooLarge n) := by
  refine ⟨?_, fun n => rfl, ?_, ?_⟩
  · exact fun arg heap => ⟨marshal_eq_ok_iff arg heap, marshal_eq_error_iff arg heap⟩
  · intro arg heap after h data made
    have reads := comesBack_of_isData data heap h after made
    refine ⟨moves_marshal arg heap h after made, fun read => ⟨fun other => other.unique reads, ?_⟩⟩
    rintro rfl
    exact reads
  · intro value heap wellFormed
    constructor
    · intro small
      have fits : ∀ n ∈ value.integers, FitsWord n :=
        fun n member => (wellFormed.fitsWord_iff member).mpr (small n member)
      have noBigs : ∀ n ∈ (Arg.ofJson value : Arg κ).bigs, FitsWord n := by
        intro n member
        rw [Arg.bigs_ofJson] at member
        exact fits n (List.mem_of_mem_filter member)
      obtain ⟨h, after, made⟩ := (marshal_eq_ok_iff (Arg.ofJson value) heap).mpr noBigs
      have reads := comesBack_of_isData (Arg.isData_ofJson wellFormed) heap h after made
      exact ⟨h, after, _, made, reads, Arg.toJson?_plain_ofJson value fits⟩
    · intro n first
      rw [← wellFormed.find?_bigs] at first
      exact (marshal_eq_error_iff (Arg.ofJson value) heap _).mpr ⟨n, first, rfl⟩

theorem marshal_readBack_nested :
    let negativeNaN : Binary64 := ⟨0xFFF8000000000001⟩
    let tree : Arg Unit := .list [.big (2 ^ 62), .keywords
      [("data", .bytes [0, 255]), ("each", .list [.float negativeNaN])]]
    let refused : Arg Unit := .list [.int 1, .dict [("big", .big (2 ^ 63))], .big (2 ^ 64)]
    let value : Json.Value := .object [("n", .int (2 ^ 63 - 1)), ("none", .array [.null])]
    (∃ h after, (marshal tree).run .empty = .ok (h, after) ∧
      ∀ read, after.ReadsAs h read ↔ read = .list [.int (2 ^ 62), .dict
        [("data", .bytes [0, 255]), ("each", .list [.float negativeNaN])]]) ∧
    (marshal refused).run .empty = .error (.integerTooLarge (2 ^ 63)) ∧
    ∃ h after read, (marshal (Arg.ofJson value : Arg Unit)).run .empty = .ok (h, after) ∧
      after.ReadsAs h read ∧ read.toJson? = some value := by
  intro negativeNaN tree refused value
  obtain ⟨outcome, -, reads, json⟩ := marshal_readBack (κ := Unit)
  refine ⟨?_, ?_, ?_⟩
  · obtain ⟨h, after, made⟩ := (outcome tree .empty).1.mpr (by decide)
    have single : ∀ item ∈ [Arg.float (κ := Unit) negativeNaN], item.IsData :=
      List.forall_mem_singleton.mpr (.float negativeNaN)
    have entries : ∀ entry ∈ [("data", Arg.bytes (κ := Unit) [0, 255]),
        ("each", .list [.float negativeNaN])], entry.2.IsData :=
      List.forall_mem_cons.mpr ⟨.bytes [0, 255],
        List.forall_mem_singleton.mpr (.list (by decide) single)⟩
    have data : tree.IsData :=
      .list (by decide) (List.forall_mem_cons.mpr ⟨.big (2 ^ 62),
        List.forall_mem_singleton.mpr (.keywords (by decide) (by decide) entries)⟩)
    have word : Int64.ofInt (2 ^ 62) = 2 ^ 62 := by decide +kernel
    refine ⟨h, after, made, ?_⟩
    rw [← word]
    exact (reads tree .empty after h data made).2
  · exact ((outcome refused .empty).2 _).mpr ⟨2 ^ 63, by decide, rfl⟩
  · have items : ∀ item ∈ [Json.Value.null], item.WellFormed :=
      List.forall_mem_singleton.mpr .null
    have wellFormed : value.WellFormed :=
      .object (by decide) (by decide) (List.forall_mem_cons.mpr
        ⟨.int (by decide) (by decide), List.forall_mem_singleton.mpr (.array (by decide) items)⟩)
    exact (json value .empty wellFormed).1 (by decide)

end Heap

end Interop
