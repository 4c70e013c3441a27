import Interop.Proofs.Marshal.RoundTrip
import Interop.Proofs.Repr.Scanning
import Interop.Proofs.Script.Arithmetic
/-!
Quoted text as a source. The tokens of a datum derive one expression, and this makes a value that
represents the datum again. So what is shown of a value can be read back, or is refused.
-/

set_option autoImplicit false

namespace Interop

open Script

variable {κ σ : Type}

/-! ### Data as expressions -/

namespace Datum

/-- The expression that the tokens derive. -/
def expr : Datum → Expr
  | none => .none
  | bool value => .bool value
  | int value =>
    if value.toInt < 0 then .neg (.int (Int64.ofInt (-value.toInt))) else .int value
  | string value => .string value
  | list items => .list (items.map expr)
  | dict entries => .dict (entries.map fun entry => (entry.1, expr entry.2))
termination_by datum => sizeOf datum
decreasing_by
  · exact @sizeOf_lt_of_mem_parts (list items) _ ‹_›
  · exact @sizeOf_lt_of_mem_parts (dict entries) _ (List.mem_map_of_mem ‹_›)

theorem derives_items {items : List Datum}
    (each : ∀ item ∈ items, Derives (.signed item.expr) item.tokens) :
    Derives (.items (items.map expr)) ([.op ','].intercalate (items.map tokens)) := by
  induction items with
  | nil => exact .noItems
  | cons item items ih =>
      obtain ⟨here, there⟩ := List.forall_mem_cons.mp each
      have sum : Derives (.sum item.expr) item.tokens := .ofProduct (.ofSigned here)
      cases items with
      | nil =>
          rw [List.map_singleton, List.map_singleton, List.intercalate_singleton]
          exact .lastItem sum
      | cons next items =>
          simp only [List.map_cons, List.intercalate_cons_cons, List.append_assoc]
          exact .moreItems sum (ih there)

theorem derives_entries {entries : List (String × Datum)}
    (each : ∀ entry ∈ entries, Derives (.signed entry.2.expr) entry.2.tokens) :
    Derives (.entries (entries.map fun entry => (entry.1, entry.2.expr)))
      ([.op ','].intercalate
        (entries.map fun entry => .string entry.1 :: .op ':' :: entry.2.tokens)) := by
  induction entries with
  | nil => exact .noEntries
  | cons entry entries ih =>
      obtain ⟨here, there⟩ := List.forall_mem_cons.mp each
      have sum : Derives (.sum entry.2.expr) entry.2.tokens := .ofProduct (.ofSigned here)
      cases entries with
      | nil =>
          rw [List.map_singleton, List.map_singleton, List.intercalate_singleton]
          exact .lastEntry sum
      | cons next entries =>
          simp only [List.map_cons, List.intercalate_cons_cons, List.append_assoc]
          exact .moreEntries sum (ih there)

/-- The tokens of a datum derive its expression, which has a sign at most. -/
theorem derives_expr (datum : Datum) : Derives (.signed datum.expr) datum.tokens := by
  induction datum using induct_parts with
  | step datum ih =>
      cases datum with
      | none =>
          rw [expr, tokens]
          exact .ofAccess (.ofAtom (.name "None"))
      | bool value =>
          rw [expr, tokens]
          cases value with
          | false => exact .ofAccess (.ofAtom (.name "False"))
          | true => exact .ofAccess (.ofAtom (.name "True"))
      | int value =>
          rw [expr, tokens]
          by_cases negative : value.toInt < 0
          · rw [if_pos negative, if_pos negative]
            exact .neg (.ofAccess (.ofAtom (.int _)))
          · rw [if_neg negative, if_neg negative]
            exact .ofAccess (.ofAtom (.int value))
      | string value =>
          rw [expr, tokens]
          exact .ofAccess (.ofAtom (.string value))
      | list items =>
          rw [expr, tokens]
          exact .ofAccess (.ofAtom (.list (derives_items ih)))
      | dict entries =>
          rw [expr, tokens]
          have each : ∀ entry ∈ entries, Derives (.signed entry.2.expr) entry.2.tokens :=
            fun entry among => ih entry.2 (List.mem_map_of_mem among)
          exact .ofAccess (.ofAtom (.dict (derives_entries each)))

end Datum

/-! ### Data as values -/

/-- The computation gives a value that represents a datum, and does no more than make objects. -/
def Exec.Builds (x : Exec κ σ Handle) (world : World κ σ) (datum : Datum) : Prop :=
  ∃ h after, x.run world = some (.ok h, after) ∧ after.heap.Represents h datum ∧
    world.Moves Heap.Extends after

theorem Exec.Builds.bind {α : Type} {x : Exec κ σ α} {f : α → Exec κ σ Handle} {a : α}
    {world mid : World κ σ} {datum : Datum} (finished : x.run world = some (.ok a, mid))
    (early : world.Moves Heap.Extends mid) (builds : (f a).Builds mid datum) :
    (x >>= f).Builds world datum := by
  obtain ⟨h, after, finished', represents, late⟩ := builds
  exact ⟨h, after, (run_bind_of_ok finished).trans finished', represents, early.trans late⟩

namespace Script.Scope

variable {scope : Scope κ σ} {world : World κ σ}

theorem builds_all {data : List Datum}
    (each : ∀ datum ∈ data, ∀ world, (scope.eval datum.expr).Builds world datum)
    (world : World κ σ) : ∃ handles after,
      (scope.evalAll (data.map Datum.expr)).run world = some (.ok handles, after) ∧
      List.Forall₂ after.heap.Represents handles data ∧ world.Moves Heap.Extends after := by
  induction data generalizing world with
  | nil => exact ⟨[], world, rfl, .nil, .refl world⟩
  | cons datum data ih =>
      obtain ⟨here, there⟩ := List.forall_mem_cons.mp each
      obtain ⟨h, mid, evaluated, represents, early⟩ := here world
      obtain ⟨handles, after, evaluatedAll, representsAll, late⟩ := ih there mid
      refine ⟨h :: handles, after, ?_, ?_, early.trans late⟩
      · rw [List.map_cons, evalAll, Exec.run_bind_of_ok evaluated,
          Exec.run_bind_of_ok evaluatedAll]
        rfl
      · exact .cons (represents.later late.heap) representsAll

theorem builds_alloc {kind : Kind κ} {datum : Datum}
    (represents : (world.heap.push (.object ⟨kind, .empty⟩)).Represents world.heap.fresh datum) :
    (Exec.ofOp (Heap.Op.alloc kind) : Exec κ σ Handle).Builds world datum :=
  ⟨world.heap.fresh, _, rfl, represents, .ofHeap (.push _ _)⟩

theorem builds_int {value : Int64} (large : value ≠ Int64.minValue) (world : World κ σ) :
    (scope.eval (Datum.int value).expr).Builds world (.int value) := by
  have bound := value.le_toInt
  have bound' := value.toInt_lt
  have gives : (scope.eval (Datum.int value).expr).GivesInt world value.toInt := by
    rw [Datum.expr]
    by_cases negative : value.toInt < 0
    -- a negative integer is the negation of one that a word holds, as it is not the least
    · have least : value.toInt ≠ -2 ^ 63 := fun same => large (Int64.toInt_inj.mp same)
      have word : FitsWord (-value.toInt) := by
        unfold FitsWord
        rw [show Int.pow 2 63 = 9223372036854775808 from rfl]
        omega
      have standsFor := Expr.StandsFor.neg (.int (Int64.ofInt (-value.toInt)))
      rw [toInt_ofInt_of_fitsWord word, Int.neg_neg] at standsFor
      rw [if_pos negative]
      refine (scope.givesIntIf_eval standsFor world).gives ?_
      exact (Expr.fitsThroughout_iff standsFor).mpr
        ⟨List.forall_mem_singleton.mpr (Expr.fitsThroughout_int _), bound, bound'⟩
    · rw [if_neg negative]
      exact (scope.givesIntIf_eval (.int value) world).gives (Expr.fitsThroughout_int value)
  obtain ⟨h, after, evaluated, ⟨word, found, same⟩, moves⟩ := gives
  obtain rfl := Int64.toInt_inj.mp same
  exact ⟨h, after, evaluated, .int found, moves⟩

theorem builds_dict {entries : List (String × Datum)} {handles : List Handle}
    (distinct : (entries.map Prod.fst).Nodup)
    (each : List.Forall₂ world.heap.Represents handles (entries.map Prod.snd)) :
    (Exec.ofOp (Heap.Op.alloc (.dict (.ofEntries ((entries.map Prod.fst).zip handles)))) :
      Exec κ σ Handle).Builds world (.dict entries) := by
  have lengths := each.length_eq
  rw [List.length_map] at lengths
  have keys : ((entries.map Prod.fst).zip handles).map Prod.fst = entries.map Prod.fst :=
    List.map_fst_zip (by rw [List.length_map, lengths])
  have values : ((entries.map Prod.fst).zip handles).map Prod.snd = handles :=
    List.map_snd_zip (by rw [List.length_map, lengths])
  have made : (OrderedMap.ofEntries ((entries.map Prod.fst).zip handles)).entries =
      (entries.map Prod.fst).zip handles := by
    apply OrderedMap.entries_ofEntries
    rw [Entries.keys, keys]
    exact distinct
  refine builds_alloc (.dict (Heap.kind?_fresh _ _) ?_ ?_)
  · rw [OrderedMap.keys, made]
    exact keys
  · rw [OrderedMap.values, made, values]
    exact each.imp fun _ _ represents => represents.later (.push _ _)

/-- The expression of a datum makes a value that represents it. -/
theorem builds_expr {datum : Datum} (legible : datum.Legible)
    (distinct : datum.Every fun datum => datum.keys.Nodup) (world : World κ σ) :
    (scope.eval datum.expr).Builds world datum := by
  induction datum using Datum.induct_parts generalizing world with
  | step datum ih =>
      obtain ⟨_, legibleParts⟩ := Datum.legible_iff.mp legible
      obtain ⟨here, distinctParts⟩ := Datum.every_iff.mp distinct
      have parts (world : World κ σ) :=
        builds_all (fun part among => ih part among (legibleParts part among)
          (distinctParts part among)) world
      cases datum with
      | none =>
          rw [Datum.expr, eval]
          exact builds_alloc (.none (Heap.kind?_fresh _ _))
      | bool value =>
          rw [Datum.expr, eval]
          exact builds_alloc (.bool (Heap.kind?_fresh _ _))
      | int value => exact builds_int ((Datum.legible_int_iff value).mp legible) world
      | string value =>
          rw [Datum.expr, eval]
          exact builds_alloc (.string (Heap.kind?_fresh _ _))
      | list items =>
          obtain ⟨handles, mid, evaluated, each, early⟩ := parts world
          rw [Datum.expr, eval_eq]
          refine .bind evaluated early (builds_alloc (.list (Heap.kind?_fresh _ _) ?_))
          exact each.imp fun _ _ represents => represents.later (.push _ _)
      | dict entries =>
          obtain ⟨handles, mid, evaluated, each, early⟩ := parts world
          have sameKeys : (entries.map fun entry => (entry.1, entry.2.expr)).map Prod.fst =
              entries.map Prod.fst := List.map_map
          have sameParts : (entries.map fun entry => (entry.1, entry.2.expr)).map Prod.snd =
              (entries.map Prod.snd).map Datum.expr := by rw [List.map_map, List.map_map]; rfl
          rw [Datum.expr, eval_eq, Expr.parts, sameParts]
          refine .bind evaluated early ?_
          rw [operate, sameKeys]
          exact builds_dict here each

end Script.Scope

/-! ### Reading back -/

/-- The computation is refused as no source, and does no more than make the exception. -/
def Exec.RefusesSource (x : Exec κ σ Handle) (world : World κ σ) : Prop :=
  ∃ error message after, x.run world = some (.error error, after) ∧
    message ∈ ["unterminated string literal (line 1)",
      "invalid number literal '9223372036854775808'"] ∧
    after.heap.IsException error "SyntaxError" message ∧ world.Moves Heap.Extends after

theorem Exec.Builds.unique {x : Exec κ σ Handle} {world : World κ σ} {datum other : Datum}
    (builds : x.Builds world datum) (buildsToo : x.Builds world other) : datum = other := by
  obtain ⟨h, after, finished, represents, _⟩ := builds
  obtain ⟨k, later, finishedToo, representsToo, _⟩ := buildsToo
  cases finished.symm.trans finishedToo
  exact represents.unique representsToo

theorem Illegible.isException {fault : SourceFault} (illegible : Illegible 1 fault)
    (heap : Heap κ) :
    fault.message ∈ ["unterminated string literal (line 1)",
      "invalid number literal '9223372036854775808'"] ∧
    (heap.raise (.source fault)).2.IsException (heap.raise (.source fault)).1 "SyntaxError"
      fault.message := by
  cases illegible with
  | string =>
      exact ⟨List.mem_cons_self, heap.isException_raise rfl (by decide)⟩
  | number =>
      exact ⟨List.mem_cons_of_mem _ List.mem_cons_self, heap.isException_raise rfl (by decide)⟩

namespace Script.Scope

variable {scope : Scope κ σ} {datum : Datum}

theorem builds_text (plain : datum.KeysAvoid ['\'', '\\']) (legible : datum.Legible)
    (distinct : datum.Every fun datum => datum.keys.Nodup) (world : World κ σ) :
    (scope.exec datum.text).Builds world datum := by
  have divided : tokenize datum.text = .ok datum.tokens := by
    rw [datum.tokenize_text, (Datum.scansIf_text plain).scans legible apart_nil, scan.eq_def]
    simp [Functor.map, Except.map]
  have parsed : parseSource datum.text = .ok [.expr datum.expr] := by
    unfold parseSource
    rw [divided]
    exact (DerivesStatements.last (.expr (.ofProduct (.ofSigned datum.derives_expr)))).parse
  rw [scope.exec_of_parsed_expr parsed]
  exact builds_expr legible distinct world

theorem refuses_text (plain : datum.KeysAvoid ['\'', '\\']) (unreadable : ¬ datum.Legible)
    (world : World κ σ) : (scope.exec datum.text).RefusesSource world := by
  obtain ⟨fault, failed, illegible⟩ : ∃ fault,
      scan 0 1 false (datum.text.toList ++ []) = .error fault ∧ Illegible 1 fault :=
    (Datum.scansIf_text plain).refused unreadable apart_nil
  have refused : parseSource datum.text = .error fault := by
    unfold parseSource
    rw [datum.tokenize_text, failed]
    rfl
  have raised : scope.exec datum.text = Exec.fault (.source fault) := by
    unfold exec
    rw [refused]
  obtain ⟨message, isException⟩ := illegible.isException world.heap
  rw [raised]
  exact ⟨_, _, _, rfl, message, isException,
    .ofHeap (Heap.along_raise world.heap (.source fault))⟩

end Script.Scope

/-- What is shown of a value that is nothing but data can be read back. If the keys of its dicts
have no quotes and no backslashes, evaluating its quoted text, in any scope, makes a value of the
same structure, unless there is a line feed in a string or a key, or an integer is the least word:
then the text is refused as no source. Different such data are shown differently, and for this it
is enough that the keys have no quotes. -/
theorem repr_reads_back {heap : Heap κ} {h : Handle} {datum : Datum}
    (represents : heap.Represents h datum) :
    heap.describe h = "MemoryObject(" ++ heap.repr h ++ ")" ∧
    (datum.KeysAvoid ['\'', '\\'] → ∀ (scope : Scope κ σ) (world : World κ σ),
      (datum.Legible → (scope.exec (heap.repr h)).Builds world datum) ∧
      (¬ datum.Legible → (scope.exec (heap.repr h)).RefusesSource world)) ∧
    ∀ (other : Heap κ) (k : Handle) (datum' : Datum), other.Represents k datum' →
      datum.KeysAvoid ['\''] → datum'.KeysAvoid ['\''] →
        (heap.repr h = other.repr k ↔ datum = datum') := by
  refine ⟨represents.describe_eq, ?_, ?_⟩
  · intro plain scope world
    rw [represents.repr_eq]
    exact ⟨fun legible => scope.builds_text plain legible represents.distinct world,
      fun unreadable => scope.refuses_text plain unreadable world⟩
  · intro other k datum' representsToo plain plainToo
    rw [represents.repr_eq, representsToo.repr_eq]
    exact ⟨Datum.text_inj plain plainToo, congrArg Datum.text⟩

/-- A dict with a list in it is read back, the least word is not, and a string is not shown like the
list of its characters. -/
theorem repr_reads_back_nested :
    let entries : OrderedMap Handle := .ofEntries [("n", ⟨2⟩)]
    let heap : Heap Unit := ⟨#[.object ⟨.int (-7), .empty⟩, .object ⟨.string "it's", .empty⟩,
      .object ⟨.list [⟨0⟩, ⟨1⟩], .empty⟩, .object ⟨.dict entries, .empty⟩,
      .object ⟨.int Int64.minValue, .empty⟩]⟩
    let datum : Datum := .dict [("n", .list [.int (-7), .string "it's"])]
    ∀ (scope : Scope Unit Unit) (world : World Unit Unit),
      (scope.exec (heap.repr ⟨3⟩)).Builds world datum ∧
      (scope.exec (heap.repr ⟨4⟩)).RefusesSource world ∧ heap.repr ⟨0⟩ ≠ heap.repr ⟨1⟩ := by
  intro entries heap datum scope world
  have first : heap.Represents ⟨0⟩ (.int (-7)) := .int rfl
  have second : heap.Represents ⟨1⟩ (.string "it's") := .string rfl
  have list : heap.Represents ⟨2⟩ (.list [.int (-7), .string "it's"]) :=
    .list rfl (.cons first (.cons second .nil))
  have dict : heap.Represents ⟨3⟩ datum := .dict rfl rfl (.cons list .nil)
  have least : heap.Represents ⟨4⟩ (.int Int64.minValue) := .int rfl
  have plainInt (chars : List Char) (value : Int64) : (Datum.int value).KeysAvoid chars :=
    .intro nofun nofun
  have plainString (chars : List Char) (value : String) : (Datum.string value).KeysAvoid chars :=
    .intro nofun nofun
  refine ⟨?_, ?_, ?_⟩
  · have plain : datum.KeysAvoid ['\'', '\\'] := by
      refine .intro (by simp [datum, Datum.keys])
        (List.forall_mem_singleton.mpr (.intro nofun ?_))
      exact List.forall_mem_cons.mpr ⟨plainInt _ _, List.forall_mem_singleton.mpr (plainString _ _)⟩
    have legible : datum.Legible := by
      refine (Datum.legible_dict_iff _).mpr (List.forall_mem_singleton.mpr ⟨by decide, ?_⟩)
      refine (Datum.legible_list_iff _).mpr (List.forall_mem_cons.mpr ⟨?_, ?_⟩)
      · exact (Datum.legible_int_iff _).mpr (by decide +kernel)
      · exact List.forall_mem_singleton.mpr ((Datum.legible_string_iff _).mpr (by decide))
    exact ((repr_reads_back dict).2.1 plain scope world).1 legible
  · refine ((repr_reads_back least).2.1 (plainInt _ _) scope world).2 fun legible => ?_
    exact (Datum.legible_int_iff _).mp legible rfl
  · intro same
    have impossible := ((repr_reads_back (σ := Unit) first).2.2 heap _ _ second
      (plainInt _ _) (plainString _ _)).mp same
    cases impossible

/-- A key with quotes is shown as if it were more of the dict: a dict of one entry is shown like one
of two, and this is what its text makes. -/
theorem not_repr_reads_back_quoted_key :
    let single : Datum := .dict [("a': 1, 'b", .int 2)]
    let double : Datum := .dict [("a", .int 1), ("b", .int 2)]
    let heap : Heap Unit := ⟨#[.object ⟨.int 1, .empty⟩, .object ⟨.int 2, .empty⟩,
      .object ⟨.dict (.ofEntries [("a': 1, 'b", ⟨1⟩)]), .empty⟩,
      .object ⟨.dict (.ofEntries [("a", ⟨0⟩), ("b", ⟨1⟩)]), .empty⟩]⟩
    heap.Represents ⟨2⟩ single ∧ heap.Represents ⟨3⟩ double ∧ single ≠ double ∧
      heap.repr ⟨2⟩ = "\x7b'a': 1, 'b': 2\x7d" ∧ heap.repr ⟨2⟩ = heap.repr ⟨3⟩ ∧
      ∀ (scope : Scope Unit Unit) (world : World Unit Unit),
        (scope.exec (heap.repr ⟨2⟩)).Builds world double ∧
        ¬ (scope.exec (heap.repr ⟨2⟩)).Builds world single := by
  intro single double heap
  have one : heap.Represents ⟨0⟩ (.int 1) := .int rfl
  have two : heap.Represents ⟨1⟩ (.int 2) := .int rfl
  have representsSingle : heap.Represents ⟨2⟩ single := .dict rfl rfl (.cons two .nil)
  have representsDouble : heap.Represents ⟨3⟩ double := .dict rfl rfl (.cons one (.cons two .nil))
  have different : single ≠ double := by
    intro same
    exact absurd (congrArg (fun datum : Datum => datum.keys.length) same) (by decide)
  have shown : heap.repr ⟨2⟩ = "\x7b'a': 1, 'b': 2\x7d" := by decide +kernel
  have same : heap.repr ⟨2⟩ = heap.repr ⟨3⟩ := by decide +kernel
  refine ⟨representsSingle, representsDouble, different, shown, same, fun scope world => ?_⟩
  have builds : (scope.exec (heap.repr ⟨2⟩)).Builds world double := by
    have plain : double.KeysAvoid ['\'', '\\'] := by
      refine .intro (by simp [double, Datum.keys])
        (List.forall_mem_cons.mpr ⟨.intro nofun nofun, ?_⟩)
      exact List.forall_mem_singleton.mpr (.intro nofun nofun)
    have legible : double.Legible := by
      refine (Datum.legible_dict_iff _).mpr (List.forall_mem_cons.mpr ⟨⟨by decide, ?_⟩, ?_⟩)
      · exact (Datum.legible_int_iff _).mpr (by decide +kernel)
      · refine List.forall_mem_singleton.mpr ⟨by decide, ?_⟩
        exact (Datum.legible_int_iff _).mpr (by decide +kernel)
    rw [same, representsDouble.repr_eq]
    exact scope.builds_text plain legible representsDouble.distinct world
  exact ⟨builds, fun likewise => different (likewise.unique builds)⟩

end Interop
