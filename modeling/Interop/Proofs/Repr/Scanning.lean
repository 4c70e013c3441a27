import Interop.Proofs.Proxy.Numerals
import Interop.Proofs.Repr.Distinct
/-!
The tokens of quoted text. Wherever the text of a datum stands in a source, it is divided into the
tokens of the datum, unless there is a line feed in a string or an integer is the least word: a
literal does not run over the end of a line, and a numeral has no sign.

This is so where the keys of dicts hold no quotes and no backslashes. A string is escaped, but a key
stands between its quotes as it is.
-/

set_option autoImplicit false

namespace Interop

open Script

/-! ### Strings in a source -/

theorem quotedChar_eq_escaped {c : Char} (noFeed : c ≠ '\n') : quotedChar c = escaped c := by
  unfold quotedChar escaped
  split
  · rename_i slash
    subst slash
    rfl
  · split
    · rename_i quote
      subst quote
      rfl
    · rename_i noSlash noQuote
      split
      · exact absurd rfl noSlash
      · exact absurd rfl noQuote
      · exact absurd rfl noFeed
      · rfl

theorem flatMap_quotedChar {text : List Char} (noFeed : '\n' ∉ text) :
    text.flatMap quotedChar = text.flatMap escaped := by
  refine List.flatMap_congr fun c among => quotedChar_eq_escaped ?_
  rintro rfl
  exact noFeed among

/-- A line feed in a string stands for itself, and ends the line. -/
theorem scanString_lineFeed {text rest : List Char} (feed : '\n' ∈ text) :
    scanString '\'' (text.flatMap quotedChar ++ rest) = none := by
  induction text with
  | nil => cases feed
  | cons c text ih =>
      rw [List.flatMap_cons, List.append_assoc]
      by_cases isFeed : c = '\n'
      · subst isFeed
        rfl
      · have later : '\n' ∈ text := (List.mem_cons.mp feed).resolve_left (Ne.symm isFeed)
        rw [quotedChar_eq_escaped isFeed, scanString_escaped, ih later]
        rfl

theorem apart_nil : Apart [] := nofun

theorem apart_of_comma (rest : List Char) : Apart (',' :: rest) := by
  rintro c ⟨⟩
  decide

theorem apart_of_colon (rest : List Char) : Apart (':' :: rest) := by
  rintro c ⟨⟩
  decide

/-! ### Scanning under a condition -/

/-- The faults of the texts of data: a line feed in a string, and the digits of the least word. -/
inductive Illegible (line : Nat) : SourceFault → Prop
  | string : Illegible line (.unterminatedString line)
  | number : Illegible line (.invalidNumber "9223372036854775808")

/-- Wherever a text stands, it is divided into some tokens under a condition, and otherwise it is
refused. -/
structure ScansIf (text : List Char) (tokens : List Token) (legible : Prop) : Prop where
  scans : legible → ∀ {opened line : Nat} {rest : List Char}, Apart rest →
    scan opened line false (text ++ rest) = (tokens ++ ·) <$> scan opened line false rest
  refused : ¬ legible → ∀ {opened line : Nat} {rest : List Char}, Apart rest →
    ∃ fault, scan opened line false (text ++ rest) = .error fault ∧ Illegible line fault

namespace ScansIf

variable {text more : List Char} {tokens others : List Token} {first second : Prop}

theorem congr (scans : ScansIf text tokens first) (same : first ↔ second) :
    ScansIf text tokens second := by
  rwa [propext same] at scans

theorem append (early : ScansIf text tokens first) (late : ScansIf more others second)
    (apart : ∀ rest, Apart (more ++ rest)) :
    ScansIf (text ++ more) (tokens ++ others) (first ∧ second) := by
  constructor
  · rintro ⟨readable, readableToo⟩ opened line rest ends
    rw [List.append_assoc, early.scans readable (apart rest), late.scans readableToo ends]
    cases scan opened line false rest with
    | error fault => rfl
    | ok tail => exact congrArg Except.ok (List.append_assoc tokens others tail).symm
  · intro unreadable opened line rest ends
    rw [List.append_assoc]
    by_cases readable : first
    · obtain ⟨fault, failed, illegible⟩ :=
        late.refused (fun readableToo => unreadable ⟨readable, readableToo⟩) ends
      refine ⟨fault, ?_, illegible⟩
      rw [early.scans readable (apart rest), failed]
      rfl
    · exact early.refused readable (apart rest)

theorem after_space (scans : ScansIf text tokens first) : ScansIf (' ' :: text) tokens first := by
  constructor
  · intro readable opened line rest ends
    rw [List.cons_append, scan_space]
    exact scans.scans readable ends
  · intro unreadable opened line rest ends
    rw [List.cons_append, scan_space]
    exact scans.refused unreadable ends

theorem after_operator {symbol : Char} (isOperator : symbol ∈ operators)
    (scans : ScansIf text tokens first) :
    ScansIf (symbol :: text) (.op symbol :: tokens) first := by
  have isSymbol : symbol ∈ symbols := by simp [symbols, isOperator]
  have step (opened line : Nat) (rest : List Char) : scan opened line false (symbol :: rest) =
      (Token.op symbol :: ·) <$> scan opened line false rest :=
    scan_op isSymbol (by rw [opens_op_of_operator isOperator, Int.add_zero])
  constructor
  · intro readable opened line rest ends
    rw [List.cons_append, step, scans.scans readable ends, Functor.map_map]
    rfl
  · intro unreadable opened line rest ends
    obtain ⟨fault, failed, illegible⟩ := scans.refused unreadable ends
    refine ⟨fault, ?_, illegible⟩
    rw [List.cons_append, step, failed]
    rfl

theorem enclosed {opening closing : Char} (opens : opening ∈ openingBrackets)
    (closes : closing ∈ closingBrackets) (scans : ScansIf text tokens first) :
    ScansIf (opening :: (text ++ [closing])) (.op opening :: (tokens ++ [.op closing])) first := by
  have isOpening : opening ∈ symbols := by simp [symbols, opens]
  have isClosing : closing ∈ symbols := by simp [symbols, closes]
  have apart (rest : List Char) : Apart (closing :: rest) := by
    have outside : ∀ c ∈ closingBrackets, isNumberChar c = false ∧ isNameChar c = false := by
      refine List.forall_mem_cons.mpr ⟨by decide, List.forall_mem_cons.mpr ⟨by decide, ?_⟩⟩
      exact List.forall_mem_singleton.mpr (by decide)
    rintro c ⟨⟩
    exact outside closing closes
  have enter (opened line : Nat) (rest : List Char) : scan opened line false (opening :: rest) =
      (Token.op opening :: ·) <$> scan (opened + 1) line false rest :=
    scan_op isOpening (by rw [opens_op_of_opening opens]; rfl)
  have leave (opened line : Nat) (rest : List Char) :
      scan (opened + 1) line false (closing :: rest) =
        (Token.op closing :: ·) <$> scan opened line false rest :=
    scan_op isClosing (by rw [opens_op_of_closing closes]; omega)
  constructor
  · intro readable opened line rest _
    rw [List.cons_append, List.append_assoc, enter, List.singleton_append,
      scans.scans readable (apart rest), leave]
    cases scan opened line false rest with
    | error fault => rfl
    | ok tail => simp [Functor.map, Except.map]
  · intro unreadable opened line rest _
    obtain ⟨fault, failed, illegible⟩ := scans.refused unreadable (apart rest)
    refine ⟨fault, ?_, illegible⟩
    rw [List.cons_append, List.append_assoc, enter, List.singleton_append, failed]
    rfl

theorem always {token : Token} (scans : ∀ {opened line : Nat} {rest : List Char}, Apart rest →
    scan opened line false (text ++ rest) = (token :: ·) <$> scan opened line false rest) :
    ScansIf text [token] True :=
  ⟨fun _ => scans, fun impossible => absurd trivial impossible⟩

theorem intercalate {α : Type} {text : α → List Char} {tokens : α → List Token}
    {legible : α → Prop} {items : List α}
    (each : ∀ item ∈ items, ScansIf (text item) (tokens item) (legible item)) :
    ScansIf ([',', ' '].intercalate (items.map text)) ([.op ','].intercalate (items.map tokens))
      (∀ item ∈ items, legible item) := by
  induction items with
  | nil =>
      refine ⟨fun _ _ _ rest _ => ?_, fun impossible => absurd nofun impossible⟩
      exact (id_map (scan _ _ false rest)).symm
  | cons item items ih =>
      obtain ⟨here, there⟩ := List.forall_mem_cons.mp each
      cases items with
      | nil =>
          rw [List.map_singleton, List.map_singleton, List.intercalate_singleton,
            List.intercalate_singleton]
          exact here.congr List.forall_mem_singleton.symm
      | cons next items =>
          have commaIsOperator : ',' ∈ operators := by decide
          have both := here.append ((ih there).after_space.after_operator commaIsOperator)
            fun rest => apart_of_comma _
          rw [List.map_cons, List.map_cons, List.map_cons, List.map_cons,
            List.intercalate_cons_cons, List.intercalate_cons_cons]
          simpa using both.congr List.forall_mem_cons.symm

/-- The text of a string between quotes. -/
theorem quoted (text : String) : ScansIf (singleQuoted text).toList [.string text]
    ('\n' ∉ text.toList) := by
  rw [toList_singleQuoted]
  constructor
  · intro noFeed opened line rest _
    rw [flatMap_quotedChar noFeed, List.cons_append, List.append_assoc]
    refine (scan_string text.toList).trans ?_
    rw [String.ofList_toList]
    rfl
  · intro feed opened line rest _
    rw [List.cons_append, List.append_assoc]
    rw [scan_quote, scanString_lineFeed (not_not.mp feed)]
    exact ⟨_, rfl, .string⟩

theorem digits {n : Nat} (bounded : n ≤ 2 ^ 63) :
    ScansIf (Nat.toDigits 10 n) [.int (Int64.ofInt n)] (n < 2 ^ 63) := by
  constructor
  · intro small opened line rest ends
    rw [scan_digits n ends, word?, if_pos ((fitsWord_natCast_iff n).mpr small)]
    rfl
  · intro large opened line rest ends
    obtain rfl : n = 2 ^ 63 := by omega
    rw [scan_digits _ ends, word?, if_neg (mt (fitsWord_natCast_iff _).mp large)]
    have shown : String.ofList (Nat.toDigits 10 (2 ^ 63)) = "9223372036854775808" := by
      decide +kernel
    rw [shown]
    exact ⟨_, rfl, .number⟩

end ScansIf

/-! ### Data -/

namespace Datum

/-- What the text of a datum is divided into. -/
def tokens : Datum → List Token
  | none => [.name "None"]
  | bool value => [.name (if value then "True" else "False")]
  | int value =>
    if value.toInt < 0 then [.op '-', .int (Int64.ofInt (-value.toInt))] else [.int value]
  | string value => [.string value]
  | list items => .op '[' :: ([.op ','].intercalate (items.map tokens) ++ [.op ']'])
  | dict entries =>
    .op '\x7b' :: ([.op ','].intercalate
      (entries.map fun entry => .string entry.1 :: .op ':' :: tokens entry.2) ++ [.op '\x7d'])
termination_by datum => sizeOf datum
decreasing_by
  · exact @sizeOf_lt_of_mem_parts (list items) _ ‹_›
  · exact @sizeOf_lt_of_mem_parts (dict entries) _ (List.mem_map_of_mem ‹_›)

/-- The strings in a datum, apart from those in its parts. -/
def strings : Datum → List String
  | string value => [value]
  | datum => datum.keys

/-- There are no line feeds in a datum, and no integer is the least word. -/
def Legible : Datum → Prop :=
  Every fun datum => (∀ text ∈ datum.strings, '\n' ∉ text.toList) ∧ datum ≠ .int Int64.minValue

theorem legible_iff {datum : Datum} : datum.Legible ↔
    ((∀ text ∈ datum.strings, '\n' ∉ text.toList) ∧ datum ≠ .int Int64.minValue) ∧
      ∀ part ∈ datum.parts, part.Legible :=
  every_iff

theorem legible_none : none.Legible := legible_iff.mpr ⟨⟨nofun, nofun⟩, nofun⟩

theorem legible_bool (value : Bool) : (bool value).Legible :=
  legible_iff.mpr ⟨⟨nofun, nofun⟩, nofun⟩

theorem legible_int_iff (value : Int64) : (int value).Legible ↔ value ≠ Int64.minValue := by
  rw [legible_iff]
  constructor
  · rintro ⟨⟨_, large⟩, _⟩ rfl
    exact large rfl
  · intro large
    exact ⟨⟨nofun, fun same => large (int.inj same)⟩, nofun⟩

theorem legible_string_iff (value : String) : (string value).Legible ↔ '\n' ∉ value.toList := by
  rw [legible_iff]
  constructor
  · rintro ⟨⟨noFeed, _⟩, _⟩
    exact noFeed value List.mem_cons_self
  · intro noFeed
    exact ⟨⟨List.forall_mem_singleton.mpr noFeed, nofun⟩, nofun⟩

theorem legible_list_iff (items : List Datum) :
    (list items).Legible ↔ ∀ item ∈ items, item.Legible := by
  rw [legible_iff]
  constructor
  · rintro ⟨_, inside⟩
    exact inside
  · intro inside
    exact ⟨⟨nofun, nofun⟩, inside⟩

theorem legible_dict_iff (entries : List (String × Datum)) : (dict entries).Legible ↔
    ∀ entry ∈ entries, '\n' ∉ entry.1.toList ∧ entry.2.Legible := by
  rw [legible_iff]
  constructor
  · rintro ⟨⟨noFeed, _⟩, inside⟩ entry among
    exact ⟨noFeed entry.1 (List.mem_map_of_mem among), inside entry.2 (List.mem_map_of_mem among)⟩
  · intro each
    exact ⟨⟨List.forall_mem_map.mpr fun entry among => (each entry among).1, nofun⟩,
      List.forall_mem_map.mpr fun entry among => (each entry among).2⟩

theorem scansIf_int (value : Int64) : ScansIf (int value).text.toList (int value).tokens
    (value ≠ Int64.minValue) := by
  have least : value.toInt = -2 ^ 63 ↔ value = Int64.minValue := by
    rw [← Int64.toInt_inj]
    rfl
  have bound := value.le_toInt
  have bound' := value.toInt_lt
  rw [text, toList_toString_int, tokens]
  by_cases negative : value.toInt < 0
  · rw [if_pos negative, if_pos negative]
    have same : -value.toInt = (value.toInt.natAbs : Int) := by omega
    rw [same]
    refine ((ScansIf.digits (by omega)).after_operator (by decide)).congr ?_
    rw [ne_eq, ← least]
    omega
  · rw [if_neg negative, if_neg negative]
    have small : value.toInt.natAbs < 2 ^ 63 := by omega
    have same : (value.toInt.natAbs : Int) = value.toInt := by omega
    have read := ScansIf.digits (Nat.le_of_lt small)
    rw [same, Int64.ofInt_toInt] at read
    refine read.congr (iff_of_true small ?_)
    rw [ne_eq, ← least]
    omega

/-- A key without quotes and backslashes is shown like a string. -/
theorem entryText_eq {key : String} (plain : ∀ c ∈ ['\'', '\\'], c ∉ key.toList)
    (value : String) : (entryText key value).toList =
      (singleQuoted key).toList ++ ':' :: ' ' :: value.toList := by
  have noQuote := plain '\'' List.mem_cons_self
  have noSlash := plain '\\' (List.mem_cons_of_mem _ List.mem_cons_self)
  have kept : key.toList.flatMap quotedChar = key.toList := by
    refine (List.flatMap_congr fun c among => ?_).trans (List.flatMap_singleton' key.toList)
    rw [quotedChar_eq, if_neg]
    rintro (rfl | rfl)
    · exact noSlash among
    · exact noQuote among
  rw [toList_entryText, toList_singleQuoted, kept]
  simp

/-- The text of a datum is read as its tokens, if it is legible. -/
theorem scansIf_text {datum : Datum} (plain : datum.KeysAvoid ['\'', '\\']) :
    ScansIf datum.text.toList datum.tokens datum.Legible := by
  induction datum using induct_parts with
  | step datum ih =>
      cases datum with
      | none =>
          rw [text, tokens]
          have isWord : IsWord "None".toList := by decide
          have read := ScansIf.always fun apart => scan_name isWord apart
          exact read.congr (iff_of_true trivial legible_none)
      | bool value =>
          rw [text, tokens]
          have isWord : IsWord (if value then "True" else "False").toList := by
            cases value with
            | false => decide
            | true => decide
          have read := ScansIf.always fun apart => scan_name isWord apart
          exact read.congr (iff_of_true trivial (legible_bool value))
      | int value => exact (scansIf_int value).congr (legible_int_iff value).symm
      | string value =>
          rw [text, tokens]
          exact (ScansIf.quoted value).congr (legible_string_iff value).symm
      | list items =>
          rw [toList_text_list, tokens]
          obtain ⟨_, inside⟩ := every_iff.mp plain
          have each : ∀ item ∈ items, ScansIf item.text.toList item.tokens item.Legible :=
            fun item among => ih item among (inside item among)
          have read := (ScansIf.intercalate each).enclosed (show '[' ∈ openingBrackets by decide)
            (show ']' ∈ closingBrackets by decide)
          exact read.congr (legible_list_iff items).symm
      | dict entries =>
          rw [toList_text_dict, tokens]
          have each : ∀ entry ∈ entries, ScansIf (entryText entry.1 entry.2.text).toList
              (.string entry.1 :: .op ':' :: entry.2.tokens)
              ('\n' ∉ entry.1.toList ∧ entry.2.Legible) := by
            intro entry among
            obtain ⟨plainKey, plainValue⟩ := plain.entries entry among
            have value := ih entry.2 (List.mem_map_of_mem among) plainValue
            rw [entryText_eq plainKey]
            exact (ScansIf.quoted entry.1).append (value.after_space.after_operator (by decide))
              fun rest => apart_of_colon _
          have read := (ScansIf.intercalate each).enclosed (show '\x7b' ∈ openingBrackets by decide)
            (show '\x7d' ∈ closingBrackets by decide)
          exact read.congr (legible_dict_iff entries).symm

/-- No text of a datum begins with a space, so that none is indented. -/
theorem tokenize_text (datum : Datum) :
    tokenize datum.text = scan 0 1 false (datum.text.toList ++ []) := by
  obtain ⟨first, rest, begins, _, notBlank, _⟩ := datum.exists_first
  unfold tokenize
  rw [List.append_nil, begins, scan.eq_def, scan.eq_def]
  dsimp only
  rw [not_isIndented_of_not_isBlank notBlank]
  rfl

end Datum

end Interop
