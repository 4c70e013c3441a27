import Interop.Proofs.Repr.Datum
import Interop.Proofs.Script.Tokenizing
/-!
Different data have different texts. The first character of a text tells the shape of the datum, and
a text shows where it ends: if a comma, a closing bracket or nothing follows, it is the beginning of
no other text.

A key stands between its quotes as it is, so that this is so of data whose keys have no quotes.
-/

set_option autoImplicit false

namespace Interop

open Script (takeWhile_append_apart toList_toString_int)

/-! ### Numbers -/

theorem toDigits_inj {m n : Nat} (same : Nat.toDigits 10 m = Nat.toDigits 10 n) : m = n := by
  rw [← Nat.ofDigitChars_ten_toDigits (n := m), same, Nat.ofDigitChars_ten_toDigits]

/-- The characters that integers are written with. -/
def isSignOrDigit (c : Char) : Bool := c == '-' || c.isDigit

theorem isSignOrDigit_of_mem_toDigits {n : Nat} {c : Char} (among : c ∈ Nat.toDigits 10 n) :
    isSignOrDigit c = true := by
  have isDigit := Nat.isDigit_of_mem_toDigits (by decide) (by decide) among
  simp [isSignOrDigit, isDigit]

theorem isSignOrDigit_of_mem_toString {i : Int} {c : Char} (among : c ∈ (toString i).toList) :
    isSignOrDigit c = true := by
  rw [toList_toString_int] at among
  split at among
  · rcases List.mem_cons.mp among with rfl | among
    · rfl
    · exact isSignOrDigit_of_mem_toDigits among
  · exact isSignOrDigit_of_mem_toDigits among

theorem toString_int_inj {i j : Int} (same : (toString i).toList = (toString j).toList) :
    i = j := by
  have noMinus {n : Nat} {rest : List Char} : Nat.toDigits 10 n ≠ '-' :: rest := by
    intro written
    have among : '-' ∈ Nat.toDigits 10 n := written ▸ List.mem_cons_self
    exact absurd (Nat.isDigit_of_mem_toDigits (by decide) (by decide) among) (by decide)
  rw [toList_toString_int, toList_toString_int] at same
  split at same
  · split at same
    · have digits := toDigits_inj (List.cons.inj same).2
      omega
    · exact absurd same.symm noMinus
  · split at same
    · exact absurd same noMinus
    · have digits := toDigits_inj same
      omega

/-- What follows a text is no part of a number. -/
def Stops (rest : List Char) : Prop := ∀ c ∈ rest.head?, isSignOrDigit c = false

theorem stops_nil : Stops [] := nofun

theorem toString_append_inj {i j : Int} {rest other : List Char} (stops : Stops rest)
    (stopsToo : Stops other)
    (same : (toString i).toList ++ rest = (toString j).toList ++ other) : i = j ∧ rest = other := by
  obtain ⟨word, after⟩ :=
    takeWhile_append_apart (fun _ => isSignOrDigit_of_mem_toString (i := i)) stops
  obtain ⟨word', after'⟩ :=
    takeWhile_append_apart (fun _ => isSignOrDigit_of_mem_toString (i := j)) stopsToo
  rw [same] at word after
  exact ⟨toString_int_inj (word.symm.trans word'), after.symm.trans after'⟩

/-! ### Strings -/

/-- A character of a string as it is shown: backslashes and single quotes are escaped. -/
def quotedChar (c : Char) : List Char :=
  if c = '\\' then ['\\', '\\'] else if c = '\'' then ['\\', '\''] else [c]

theorem toList_singleQuoted (text : String) :
    (singleQuoted text).toList = '\'' :: (text.toList.flatMap quotedChar ++ ['\'']) := by
  have shown (c : Char) : (if c = '\\' then "\\\\" else if c = '\'' then "\\'"
      else String.singleton c).toList = quotedChar c := by
    unfold quotedChar
    split
    · rfl
    · split
      · rfl
      · exact String.toList_singleton c
  unfold singleQuoted
  rw [String.toList_append, String.toList_append, String.toList_join, List.flatMap_map]
  simp only [shown]
  rfl

theorem quotedChar_eq (c : Char) :
    quotedChar c = if c = '\\' ∨ c = '\'' then ['\\', c] else [c] := by
  unfold quotedChar
  by_cases slash : c = '\\'
  · rw [if_pos slash, if_pos (.inl slash), slash]
  · by_cases quote : c = '\''
    · rw [if_neg slash, if_pos quote, if_pos (.inr quote), quote]
    · rw [if_neg slash, if_neg quote, if_neg (not_or.mpr ⟨slash, quote⟩)]

theorem quotedChar_append_inj {c d : Char} {rest other : List Char}
    (same : quotedChar c ++ rest = quotedChar d ++ other) : c = d ∧ rest = other := by
  rw [quotedChar_eq, quotedChar_eq] at same
  split at same
  · split at same
    · simpa using same
    · rename_i plain
      exact absurd (.inl (List.cons.inj same).1.symm) plain
  · rename_i plain
    split at same
    · exact absurd (.inl (List.cons.inj same).1) plain
    · exact List.cons.inj same

theorem quotedChar_append_ne (c : Char) (rest other : List Char) :
    quotedChar c ++ rest ≠ '\'' :: other := by
  intro same
  rw [quotedChar_eq] at same
  split at same
  · exact absurd (List.cons.inj same).1 (by decide)
  · rename_i plain
    exact plain (.inr (List.cons.inj same).1)

/-- The first quote that is not escaped ends a string. -/
theorem quoted_append_inj {text text' rest other : List Char}
    (same : text.flatMap quotedChar ++ '\'' :: rest = text'.flatMap quotedChar ++ '\'' :: other) :
    text = text' ∧ rest = other := by
  induction text generalizing text' with
  | nil =>
      cases text' with
      | nil => exact ⟨rfl, (List.cons.inj same).2⟩
      | cons d text' =>
          rw [List.flatMap_cons, List.append_assoc] at same
          exact absurd same.symm (quotedChar_append_ne d _ rest)
  | cons c text ih =>
      rw [List.flatMap_cons, List.append_assoc] at same
      cases text' with
      | nil => exact absurd same (quotedChar_append_ne c _ other)
      | cons d text' =>
          rw [List.flatMap_cons, List.append_assoc] at same
          obtain ⟨rfl, more⟩ := quotedChar_append_inj same
          obtain ⟨rfl, ends⟩ := ih more
          exact ⟨rfl, ends⟩

/-- The first quote after a key without any ends the key. -/
theorem key_append_inj {key key' rest other : List Char} (plain : '\'' ∉ key)
    (plainToo : '\'' ∉ key') (same : key ++ '\'' :: rest = key' ++ '\'' :: other) :
    key = key' ∧ rest = other := by
  have taken {key rest : List Char} (plain : '\'' ∉ key) :
      (key ++ '\'' :: rest).takeWhile (· ≠ '\'') = key := by
    refine (takeWhile_append_apart ?_ ?_).1
    · intro c among
      exact decide_eq_true fun isQuote => plain (isQuote ▸ among)
    · rintro c ⟨⟩
      rfl
  have keys := (taken plain).symm.trans ((congrArg _ same).trans (taken plainToo))
  subst keys
  exact ⟨rfl, (List.cons.inj (List.append_cancel_left same)).2⟩

/-! ### Lists -/

section Intercalated

variable {α : Type} {p : α → Prop} {text : α → List Char} {closing : Char}

/-- What follows the first of some items that stand between commas, before a closing bracket. -/
def following (text : α → List Char) (closing : Char) (items : List α) (rest : List Char) :
    List Char :=
  match items with
  | [] => closing :: rest
  | next :: items =>
    ',' :: ' ' :: ([',', ' '].intercalate ((next :: items).map text) ++ closing :: rest)

theorem intercalate_cons_append (item : α) (items : List α) (rest : List Char) :
    [',', ' '].intercalate ((item :: items).map text) ++ closing :: rest =
      text item ++ following text closing items rest := by
  cases items with
  | nil => exact congrArg (· ++ closing :: rest) List.intercalate_singleton
  | cons next items =>
      rw [List.map_cons, List.map_cons, List.intercalate_cons_cons, following, List.map_cons,
        List.append_assoc, List.append_assoc]
      rfl

/-- Items that can be told from one another and from the bracket can be told one after the other. -/
theorem intercalate_append_inj (noComma : closing ≠ ',') (closes : isSignOrDigit closing = false)
    (opens : ∀ item, p item → ∀ rest other, text item ++ rest ≠ closing :: other)
    {items others : List α}
    (each : ∀ item ∈ items, ∀ other, p other → ∀ rest rest', Stops rest → Stops rest' →
      text item ++ rest = text other ++ rest' → item = other ∧ rest = rest')
    (holds : ∀ item ∈ items, p item) (holdsToo : ∀ item ∈ others, p item) {rest rest' : List Char}
    (same : [',', ' '].intercalate (items.map text) ++ closing :: rest =
      [',', ' '].intercalate (others.map text) ++ closing :: rest') :
    items = others ∧ rest = rest' := by
  have stops (items : List α) (rest : List Char) : Stops (following text closing items rest) := by
    cases items with
    | nil =>
        rintro c ⟨⟩
        exact closes
    | cons item items =>
        rintro c ⟨⟩
        rfl
  induction items generalizing others with
  | nil =>
      cases others with
      | nil => exact ⟨rfl, (List.cons.inj same).2⟩
      | cons other others =>
          rw [intercalate_cons_append] at same
          exact absurd same.symm (opens other (holdsToo other List.mem_cons_self) _ rest)
  | cons item items ih =>
      rw [intercalate_cons_append] at same
      cases others with
      | nil => exact absurd same (opens item (holds item List.mem_cons_self) _ rest')
      | cons other others =>
          rw [intercalate_cons_append] at same
          -- the first items are the same, and what follows tells whether there are more
          obtain ⟨rfl, after⟩ := each item List.mem_cons_self other
            (holdsToo other List.mem_cons_self) _ _ (stops items rest) (stops others rest') same
          have goOn := ih (fun item among => each item (List.mem_cons_of_mem _ among))
            (fun item among => holds item (List.mem_cons_of_mem _ among))
            (fun item among => holdsToo item (List.mem_cons_of_mem _ among))
          cases items with
          | nil =>
              cases others with
              | nil => exact ⟨rfl, (List.cons.inj after).2⟩
              | cons next others => exact absurd (List.cons.inj after).1 noComma
          | cons next items =>
              cases others with
              | nil => exact absurd (List.cons.inj after).1.symm noComma
              | cons next' others =>
                  obtain ⟨tails, ends⟩ := goOn (List.cons.inj (List.cons.inj after).2).2
                  exact ⟨congrArg _ tails, ends⟩

end Intercalated

/-! ### Data -/

/-- What is told by the first character of a text. -/
inductive Shape
  | none
  | bool
  | int
  | string
  | list
  | dict
  deriving DecidableEq

namespace Datum

def shape : Datum → Shape
  | none => .none
  | bool _ => .bool
  | int _ => .int
  | string _ => .string
  | list _ => .list
  | dict _ => .dict

/-- The shape of the data whose texts begin with a character. -/
def shapeOf : Char → Shape
  | 'N' => .none
  | 'T' | 'F' => .bool
  | '\'' => .string
  | '[' => .list
  | '\x7b' => .dict
  | _ => .int

/-- The text of a container between its brackets. -/
theorem toList_text_list (items : List Datum) : (list items).text.toList =
    '[' :: ([',', ' '].intercalate (items.map fun item => item.text.toList) ++ [']']) := by
  rw [text, Text.commaSeparated, String.toList_append, String.toList_append,
    String.toList_intercalate, List.map_map]
  rfl

theorem toList_text_dict (entries : List (String × Datum)) : (dict entries).text.toList =
    '\x7b' :: ([',', ' '].intercalate
      (entries.map fun entry => (entryText entry.1 entry.2.text).toList) ++ ['\x7d']) := by
  rw [text, Text.commaSeparated, String.toList_append, String.toList_append,
    String.toList_intercalate, List.map_map]
  rfl

theorem toList_entryText (key value : String) :
    (entryText key value).toList = '\'' :: (key.toList ++ '\'' :: ':' :: ' ' :: value.toList) := by
  unfold entryText
  rw [String.toList_append, String.toList_append, String.toList_append, List.append_assoc,
    List.append_assoc]
  rfl

theorem shapeOf_of_isDigit {c : Char} (isDigit : c.isDigit = true) :
    shapeOf c = .int ∧ Text.isBlank c = false ∧ c ≠ ']' := by
  have between : 48 ≤ c.toNat ∧ c.toNat ≤ 57 := Char.isDigit_iff_toNat.mp isDigit
  have tried : ∀ code ∈ List.range' 48 10, shapeOf (Char.ofNat code) = .int ∧
      Text.isBlank (Char.ofNat code) = false ∧ Char.ofNat code ≠ ']' := by decide
  have known := tried c.toNat (List.mem_range'_1.mpr (by omega))
  rwa [Char.ofNat_toNat] at known

theorem exists_first (datum : Datum) : ∃ first rest, datum.text.toList = first :: rest ∧
    shapeOf first = datum.shape ∧ Text.isBlank first = false ∧ first ≠ ']' := by
  cases datum with
  | none =>
      rw [text]
      exact ⟨'N', _, rfl, rfl, by decide, by decide⟩
  | bool value =>
      rw [text]
      cases value with
      | false => exact ⟨'F', _, rfl, rfl, by decide, by decide⟩
      | true => exact ⟨'T', _, rfl, rfl, by decide, by decide⟩
  | int value =>
      rw [text, toList_toString_int]
      split
      · exact ⟨'-', _, rfl, rfl, by decide, by decide⟩
      · cases written : Nat.toDigits 10 value.toInt.natAbs with
        | nil => exact absurd written Nat.toDigits_ne_nil
        | cons first rest =>
            have among : first ∈ Nat.toDigits 10 value.toInt.natAbs := by
              rw [written]
              exact List.mem_cons_self
            exact ⟨first, rest, rfl, shapeOf_of_isDigit
              (Nat.isDigit_of_mem_toDigits (by decide) (by decide) among)⟩
  | string value =>
      rw [text, toList_singleQuoted]
      exact ⟨'\'', _, rfl, rfl, by decide, by decide⟩
  | list items =>
      rw [toList_text_list]
      exact ⟨'[', _, rfl, rfl, by decide, by decide⟩
  | dict entries =>
      rw [toList_text_dict]
      exact ⟨'\x7b', _, rfl, rfl, by decide, by decide⟩

theorem shape_eq_of_text_append {datum other : Datum} {rest rest' : List Char}
    (same : datum.text.toList ++ rest = other.text.toList ++ rest') :
    datum.shape = other.shape := by
  obtain ⟨first, _, begins, shape, _⟩ := datum.exists_first
  obtain ⟨first', _, begins', shape', _⟩ := other.exists_first
  rw [begins, begins', List.cons_append, List.cons_append] at same
  rw [← shape, ← shape', (List.cons.inj same).1]

theorem text_append_ne_square (datum : Datum) (rest other : List Char) :
    datum.text.toList ++ rest ≠ ']' :: other := by
  intro same
  obtain ⟨first, _, begins, _, _, apart⟩ := datum.exists_first
  rw [begins, List.cons_append] at same
  exact apart (List.cons.inj same).1

/-- No key of a dict has one of some characters. -/
def KeysAvoid (chars : List Char) : Datum → Prop :=
  Every fun datum => ∀ key ∈ datum.keys, ∀ c ∈ chars, c ∉ key.toList

theorem KeysAvoid.entries {chars : List Char} {entries : List (String × Datum)}
    (plain : (dict entries).KeysAvoid chars) :
    ∀ entry ∈ entries, (∀ c ∈ chars, c ∉ entry.1.toList) ∧ entry.2.KeysAvoid chars := by
  obtain ⟨here, inside⟩ := plain
  intro entry among
  exact ⟨here entry.1 (List.mem_map_of_mem among), inside entry.2 (List.mem_map_of_mem among)⟩

theorem entryText_append_ne_curly (entry : String × Datum) (rest other : List Char) :
    (entryText entry.1 entry.2.text).toList ++ rest ≠ '\x7d' :: other := by
  intro same
  rw [toList_entryText] at same
  exact absurd (List.cons.inj same).1 (by decide)

theorem entry_append_inj {entry other : String × Datum} {rest rest' : List Char}
    (plain : ∀ c ∈ ['\''], c ∉ entry.1.toList) (plainToo : ∀ c ∈ ['\''], c ∉ other.1.toList)
    (values : entry.2.text.toList ++ rest = other.2.text.toList ++ rest' →
      entry.2 = other.2 ∧ rest = rest')
    (same : (entryText entry.1 entry.2.text).toList ++ rest =
      (entryText other.1 other.2.text).toList ++ rest') : entry = other ∧ rest = rest' := by
  rw [toList_entryText, toList_entryText] at same
  simp only [List.cons_append, List.append_assoc] at same
  obtain ⟨keys, more⟩ := key_append_inj (plain '\'' List.mem_cons_self)
    (plainToo '\'' List.mem_cons_self) (List.cons.inj same).2
  obtain ⟨sameValue, ends⟩ := values (List.cons.inj (List.cons.inj more).2).2
  exact ⟨Prod.ext (String.toList_inj.mp keys) sameValue, ends⟩

theorem bool_append_inj {value value' : Bool} {rest rest' : List Char}
    (same : (if value then "True" else "False").toList ++ rest =
      (if value' then "True" else "False").toList ++ rest') : value = value' ∧ rest = rest' := by
  cases value with
  | false =>
      cases value' with
      | false => exact ⟨rfl, List.append_cancel_left same⟩
      | true => exact absurd (List.cons.inj same).1 (by decide)
  | true =>
      cases value' with
      | false => exact absurd (List.cons.inj same).1 (by decide)
      | true => exact ⟨rfl, List.append_cancel_left same⟩

/-- No text of a datum is the beginning of another, where nothing that follows goes on a number. -/
theorem text_append_inj {datum other : Datum} (plain : datum.KeysAvoid ['\''])
    (plainToo : other.KeysAvoid ['\'']) {rest rest' : List Char} (stops : Stops rest)
    (stopsToo : Stops rest') (same : datum.text.toList ++ rest = other.text.toList ++ rest') :
    datum = other ∧ rest = rest' := by
  induction datum using induct_parts generalizing other rest rest' with
  | step datum ih =>
      -- the first characters agree, so that only data of the same shape are compared
      have shapes := shape_eq_of_text_append same
      obtain ⟨_, inside⟩ := every_iff.mp plain
      obtain ⟨_, insideToo⟩ := every_iff.mp plainToo
      cases datum with
      | none =>
          cases other with
          | none => exact ⟨rfl, List.append_cancel_left same⟩
          | _ => cases shapes
      | bool value =>
          cases other with
          | bool value' =>
              rw [text, text] at same
              obtain ⟨rfl, ends⟩ := bool_append_inj same
              exact ⟨rfl, ends⟩
          | _ => cases shapes
      | int value =>
          cases other with
          | int value' =>
              rw [text, text] at same
              obtain ⟨values, ends⟩ := toString_append_inj stops stopsToo same
              exact ⟨congrArg int (Int64.toInt_inj.mp values), ends⟩
          | _ => cases shapes
      | string value =>
          cases other with
          | string value' =>
              rw [text, text, toList_singleQuoted, toList_singleQuoted] at same
              simp only [List.cons_append, List.append_assoc, List.nil_append] at same
              obtain ⟨values, ends⟩ := quoted_append_inj (List.cons.inj same).2
              exact ⟨congrArg string (String.toList_inj.mp values), ends⟩
          | _ => cases shapes
      | list items =>
          cases other with
          | list items' =>
              rw [toList_text_list, toList_text_list] at same
              simp only [List.cons_append, List.append_assoc, List.nil_append] at same
              obtain ⟨parts, ends⟩ := intercalate_append_inj (by decide) (by decide)
                (p := KeysAvoid ['\'']) (fun item _ => item.text_append_ne_square)
                (fun item among other plainToo _ _ stops stopsToo =>
                  ih item among (inside item among) plainToo stops stopsToo)
                inside insideToo (List.cons.inj same).2
              exact ⟨congrArg list parts, ends⟩
          | _ => cases shapes
      | dict entries =>
          cases other with
          | dict entries' =>
              rw [toList_text_dict, toList_text_dict] at same
              simp only [List.cons_append, List.append_assoc, List.nil_append] at same
              obtain ⟨parts, ends⟩ := intercalate_append_inj (by decide) (by decide)
                (fun entry _ => entryText_append_ne_curly entry)
                (fun entry among other plainToo rest rest' stops stopsToo => entry_append_inj
                  (plain.entries entry among).1 plainToo.1
                  (ih entry.2 (List.mem_map_of_mem among) (plain.entries entry among).2 plainToo.2
                    stops stopsToo))
                plain.entries plainToo.entries (List.cons.inj same).2
              exact ⟨congrArg dict parts, ends⟩
          | _ => cases shapes

theorem text_inj {datum other : Datum} (plain : datum.KeysAvoid ['\''])
    (plainToo : other.KeysAvoid ['\'']) (same : datum.text = other.text) : datum = other := by
  have sameChars := congrArg (fun text : String => text.toList ++ []) same
  exact (text_append_inj plain plainToo stops_nil stops_nil sameChars).1

end Datum

end Interop
