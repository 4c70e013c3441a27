import Interop.Proofs.Script.Spelling
import Mathlib.Data.List.TakeDrop
import Mathlib.Data.List.TakeWhile
/-!
A written text is divided into the tokens it was written for.

Characters are told apart first: which of them begin a token, and which end a number or a name that
goes before. A token is then read from its written form with anything apart from it behind it, and a
text token by token. In the other direction, the division of any source keeps count of its brackets.
-/

set_option autoImplicit false

namespace Interop.Script

/-! ### Characters -/

theorem not_isIndented_of_not_isBlank {c : Char} {rest : List Char}
    (notBlank : Text.isBlank c = false) : isIndented (c :: rest) = false := by
  have noSpace : c ≠ ' ' := by rintro rfl; revert notBlank; decide
  have noTab : c ≠ '\t' := by rintro rfl; revert notBlank; decide
  simp [isIndented, noSpace, noTab]

/-- A character that begins a token: it is not skipped, and ends no line. -/
structure BeginsToken (c : Char) : Prop where
  notBlank : Text.isBlank c = false
  notSeparator : c ≠ ';'
  notComment : c ≠ '#'

theorem BeginsToken.ne_lineFeed {c : Char} (begins : BeginsToken c) : c ≠ '\n' := by
  rintro rfl
  have impossible := begins.notBlank
  revert impossible
  decide

/-- Blank characters are few: what holds of all of them is found by trying each. -/
theorem forall_isBlank {p : Char → Bool}
    (tried : ∀ range ∈ Text.blankRanges, ∀ code ∈ List.range' range.1 (range.2 + 1 - range.1),
      p (Char.ofNat code) = true) (c : Char) (blank : Text.isBlank c = true) : p c = true := by
  obtain ⟨range, among, least, greatest⟩ := Text.inRanges_iff.mp blank
  have known := tried range among c.toNat (List.mem_range'_1.mpr (by omega))
  rwa [Char.ofNat_toNat] at known

/-- No blank character is a letter. -/
theorem not_isLetter_of_isBlank {c : Char} (blank : Text.isBlank c = true) :
    Text.isLetter c = false := by
  have outside := forall_isBlank (p := fun c => !Text.isLetter c) (by decide +kernel) c blank
  simpa using outside

theorem BeginsToken.of_isNameStart {c : Char} (starts : isNameStart c = true) : BeginsToken c := by
  have notBlank : Text.isBlank c = false := by
    by_contra blank
    rw [Bool.not_eq_false] at blank
    have underscore : c = '_' := by
      simpa [isNameStart, not_isLetter_of_isBlank blank] using starts
    subst underscore
    revert blank
    decide
  refine ⟨notBlank, ?_, ?_⟩
  · rintro rfl
    revert starts
    decide
  · rintro rfl
    revert starts
    decide

theorem BeginsToken.of_isDigit {c : Char} (isDigit : c.isDigit = true) : BeginsToken c := by
  have between : 48 ≤ c.toNat ∧ c.toNat ≤ 57 := Char.isDigit_iff_toNat.mp isDigit
  refine ⟨?_, ?_, ?_⟩
  · by_contra blank
    rw [Bool.not_eq_false] at blank
    obtain ⟨range, among, lower, upper⟩ := Text.inRanges_iff.mp blank
    have apart : ∀ range ∈ Text.blankRanges, range.2 < 48 ∨ 57 < range.1 := by decide
    have outside := apart range among
    omega
  · rintro rfl
    revert isDigit
    decide
  · rintro rfl
    revert isDigit
    decide

theorem not_isLetter_of_isDigit {c : Char} (isDigit : c.isDigit = true) :
    Text.isLetter c = false := by
  have between : 48 ≤ c.toNat ∧ c.toNat ≤ 57 := Char.isDigit_iff_toNat.mp isDigit
  have ascii : c.toNat < 0x80 := by omega
  rw [Text.isLetter, if_pos ascii]
  have apart : ∀ code ∈ List.range' 48 10, (Char.ofNat code).isAlpha = false := by decide
  have known := apart c.toNat (List.mem_range'_1.mpr (by omega))
  rw [Char.ofNat_toNat] at known
  exact known

theorem not_isDigit_of_isNameStart {c : Char} (starts : isNameStart c = true) :
    c.isDigit = false := by
  by_contra isDigit
  rw [Bool.not_eq_false] at isDigit
  have underscore : c = '_' := by
    simpa [isNameStart, not_isLetter_of_isDigit isDigit] using starts
  subst underscore
  revert isDigit
  decide

/-! ### Parts of a written text -/

/-- A text that goes on with something that is part of no number and of no name. -/
def Apart (text : List Char) : Prop :=
  ∀ c ∈ text.head?, isNumberChar c = false ∧ isNameChar c = false

theorem takeWhile_append_apart {p : Char → Bool} {word rest : List Char}
    (inside : ∀ c ∈ word, p c = true) (apart : ∀ c ∈ rest.head?, p c = false) :
    (word ++ rest).takeWhile p = word ∧ (word ++ rest).dropWhile p = rest := by
  rw [List.takeWhile_append_of_pos inside, List.dropWhile_append_of_pos inside]
  cases rest with
  | nil => simp
  | cons c rest =>
      have outside := apart c rfl
      simp [outside]

/-- One character is read back from its written form. -/
theorem scanString_escaped (c : Char) (rest : List Char) :
    scanString '\'' (escaped c ++ rest) =
      (scanString '\'' rest).map fun read => (c :: read.1, read.2) := by
  unfold escaped
  split
  · simp [scanString]
  · simp [scanString]
  · simp [scanString]
  · rename_i noSlash noQuote noFeed
    rw [List.singleton_append, scanString, if_neg noQuote, if_neg noFeed]
    all_goals
      intros
      simp_all

/-- A string is read back from what is written between the quotes. -/
theorem scanString_written (text rest : List Char) :
    scanString '\'' (text.flatMap escaped ++ '\'' :: rest) = some (text, rest) := by
  induction text with
  | nil => simp [scanString]
  | cons c text ih =>
      rw [List.flatMap_cons, List.append_assoc, scanString_escaped, ih]
      rfl

theorem decimalValue_toDigits (n : Nat) : decimalValue (Nat.toDigits 10 n) = n :=
  Nat.ofDigitChars_eq_foldl.symm.trans Nat.ofDigitChars_ten_toDigits

theorem toList_toString_int (i : Int) : (toString i).toList =
    if i < 0 then '-' :: Nat.toDigits 10 i.natAbs else Nat.toDigits 10 i.natAbs := by
  cases i with
  | ofNat n =>
      rw [if_neg (show ¬ Int.ofNat n < 0 from Int.not_lt.mpr (Int.natCast_nonneg n))]
      change n.repr.toList = _
      rw [Nat.repr_eq_ofList_toDigits, String.toList_ofList]
      rfl
  | negSucc n =>
      rw [if_pos (Int.negSucc_lt_zero n)]
      change ("-" ++ (n + 1).repr).toList = _
      rw [String.toList_append, Nat.repr_eq_ofList_toDigits, String.toList_ofList,
        String.toList_ofList]
      rfl

theorem numberToken_toDigits (n : Nat) :
    numberToken (Nat.toDigits 10 n) = (word? n).map .int := by
  have noPoint : ∀ c ∈ Nat.toDigits 10 n, decide (c ≠ '.') = true := by
    intro c among
    have isDigit := Nat.isDigit_of_mem_toDigits (by decide) (by decide) among
    apply decide_eq_true
    rintro rfl
    revert isDigit
    decide
  have whole := takeWhile_append_apart noPoint (show ∀ c ∈ ([] : List Char).head?, _ from nofun)
  rw [List.append_nil] at whole
  unfold numberToken
  rw [List.span_eq_takeWhile_dropWhile, whole.1, whole.2]
  dsimp only
  rw [decimalValue_toDigits]

/-! ### Reading one token -/

section Reading

variable {opened now line : Nat} {fresh : Bool} {rest : List Char}

/-- Nothing is skipped before a token. -/
theorem scan_quote : scan opened line fresh ('\'' :: rest) =
    match scanString '\'' rest with
    | none => .error (.unterminatedString line)
    | some (content, after) =>
      (Token.string (String.ofList content) :: ·) <$> scan opened line false after := by
  have begins : BeginsToken '\'' := ⟨by decide, by decide, by decide⟩
  rw [scan.eq_def]
  dsimp only
  rw [not_isIndented_of_not_isBlank begins.notBlank]
  simp only [Bool.and_false, Bool.false_eq_true, if_false, begins.notBlank, begins.notSeparator,
    begins.notComment, begins.ne_lineFeed, false_and, true_or, if_true]
  split
  · rename_i read
    rw [read]
  · rename_i read
    rw [read]

theorem scan_string (text : List Char) :
    scan opened line fresh ('\'' :: (text.flatMap escaped ++ '\'' :: rest)) =
      (Token.string (String.ofList text) :: ·) <$> scan opened line false rest := by
  rw [scan_quote, scanString_written]

/-- Digits are read as the number that they are written for, if a word holds it. -/
theorem scan_digits (n : Nat) (apart : Apart rest) :
    scan opened line fresh (Nat.toDigits 10 n ++ rest) =
      match word? n with
      | none => .error (.invalidNumber (String.ofList (Nat.toDigits 10 n)))
      | some value => (Token.int value :: ·) <$> scan opened line false rest := by
  have read := numberToken_toDigits n
  have digits : ∀ c ∈ Nat.toDigits 10 n, c.isDigit = true :=
    fun c among => Nat.isDigit_of_mem_toDigits (by decide) (by decide) among
  cases written : Nat.toDigits 10 n with
  | nil => exact absurd written Nat.toDigits_ne_nil
  | cons first more =>
      rw [written] at read digits
      have isDigit := digits first List.mem_cons_self
      have begins := BeginsToken.of_isDigit isDigit
      have noQuote : ¬ (first = '\'' ∨ first = '"') := by
        rintro (rfl | rfl)
        · revert isDigit; decide
        · revert isDigit; decide
      have inside : ∀ c ∈ more, isNumberChar c = true := by
        intro c among
        simp [isNumberChar, digits c (List.mem_cons_of_mem _ among)]
      have kept : (first :: more).filter (fun c => decide (c ≠ '_')) = first :: more := by
        apply List.filter_eq_self.mpr
        intro c among
        have isDigit := digits c among
        apply decide_eq_true
        rintro rfl
        revert isDigit
        decide
      have taken := takeWhile_append_apart inside fun c head => (apart c head).1
      rw [List.cons_append, scan.eq_def]
      dsimp only
      rw [not_isIndented_of_not_isBlank begins.notBlank]
      simp only [Bool.and_false, Bool.false_eq_true, if_false, begins.notBlank, begins.notSeparator,
        begins.notComment, begins.ne_lineFeed, false_and, noQuote, isDigit, if_true, taken, kept,
        read]
      cases word? n with
      | none => rfl
      | some value => rfl

theorem scan_int {value : Int64} (natural : 0 ≤ value.toInt) (apart : Apart rest) :
    scan opened line fresh ((toString value.toInt).toList ++ rest) =
      (Token.int value :: ·) <$> scan opened line false rest := by
  have same : (value.toInt.natAbs : Int) = value.toInt := Int.natAbs_of_nonneg natural
  rw [toList_toString_int, if_neg (Int.not_lt.mpr natural), scan_digits _ apart, same, word?,
    if_pos ⟨value.le_toInt, value.toInt_lt⟩, Int64.ofInt_toInt]

theorem scan_name {text : String} (isWord : IsWord text.toList) (apart : Apart rest) :
    scan opened line fresh (text.toList ++ rest) =
      (Token.name text :: ·) <$> scan opened line false rest := by
  cases written : text.toList with
  | nil =>
      rw [written] at isWord
      exact absurd isWord id
  | cons first more =>
      rw [written] at isWord
      obtain ⟨starts, inside⟩ := isWord
      have begins := BeginsToken.of_isNameStart starts
      have noQuote : ¬ (first = '\'' ∨ first = '"') := by
        rintro (rfl | rfl)
        · revert starts; decide
        · revert starts; decide
      have taken := takeWhile_append_apart inside fun c head => (apart c head).2
      rw [List.cons_append, scan.eq_def]
      dsimp only
      rw [not_isIndented_of_not_isBlank begins.notBlank]
      simp only [Bool.and_false, Bool.false_eq_true, if_false, begins.notBlank,
        begins.notSeparator, begins.notComment, begins.ne_lineFeed, false_and, noQuote,
        not_isDigit_of_isNameStart starts, starts, if_true, taken]
      rw [← written, String.ofList_toList]

theorem scan_op {symbol : Char} (isSymbol : symbol ∈ symbols)
    (counted : (now : Int) = opened + (Token.op symbol).opens) :
    scan opened line fresh (symbol :: rest) =
      (Token.op symbol :: ·) <$> scan now line false rest := by
  have plain : symbols.all (fun symbol => decide (Text.isBlank symbol = false ∧ symbol ≠ ';' ∧
      symbol ≠ '#' ∧ ¬ (symbol = '\'' ∨ symbol = '"') ∧ symbol.isDigit = false ∧
      isNameStart symbol = false ∧ symbol ≠ '\n')) = true := by decide
  obtain ⟨notBlank, notSeparator, notComment, noQuote, notDigit, notName, noFeed⟩ :=
    of_decide_eq_true (List.all_eq_true.mp plain symbol isSymbol)
  rw [scan.eq_def]
  dsimp only
  rw [not_isIndented_of_not_isBlank notBlank]
  simp only [Bool.and_false, Bool.false_eq_true, if_false, notBlank, notSeparator, notComment,
    noFeed, false_and, noQuote, notDigit, notName]
  simp only [Token.opens] at counted
  split at counted
  · rename_i opening
    rw [if_pos opening, show opened + 1 = now by omega]
  · rename_i notOpening
    rw [if_neg notOpening]
    split at counted
    · rename_i closing
      rw [if_pos closing]
      cases opened with
      | zero => omega
      | succ opened => rw [show opened = now by omega]
    · rename_i notClosing
      have isOperator : symbol ∈ operators := by
        simpa [symbols, notOpening, notClosing] using isSymbol
      rw [if_neg notClosing, if_pos isOperator, show opened = now by omega]

theorem scan_space : scan opened line false (' ' :: rest) = scan opened line false rest := by
  have blank : Text.isBlank ' ' = true := by decide
  rw [scan.eq_def]
  simp [blank]

end Reading

/-- Every token but a line's end is read back from its written form, if what follows is apart. -/
theorem scan_written {token : Token} (plain : token.IsPlain) (noLine : token ≠ .newline)
    {opened now line : Nat} {fresh : Bool} {rest : List Char}
    (counted : (now : Int) = opened + token.opens) (apart : Apart rest) :
    scan opened line fresh (token.written ++ rest) = (token :: ·) <$> scan now line false rest := by
  cases token with
  | op symbol => exact scan_op plain counted
  | newline => exact absurd rfl noLine
  | float value => exact absurd plain id
  | int value =>
      obtain rfl : now = opened := by simp [Token.opens] at counted; omega
      exact scan_int plain apart
  | name text =>
      obtain rfl : now = opened := by simp [Token.opens] at counted; omega
      exact scan_name plain apart
  | string text =>
      obtain rfl : now = opened := by simp [Token.opens] at counted; omega
      have read : scan now line fresh _ = _ <$> scan now line false rest := scan_string text.toList
      rw [String.ofList_toList] at read
      simpa [Token.written] using read

theorem scan_newline {line : Nat} {fresh : Bool} {rest : List Char} :
    scan 0 line fresh ('\n' :: rest) =
      (Token.newline :: ·) <$> scan 0 (line + 1) true rest := by
  have notIndented : isIndented ('\n' :: rest) = false := by simp [isIndented]
  rw [scan.eq_def]
  dsimp only
  rw [notIndented]
  simp

/-! ### Reading all tokens -/

/-- What follows a token is apart from it. -/
theorem apart_separator (token : Token) (noLine : token ≠ .newline) (rest : List Token) :
    Apart (separator token rest ++ write rest) := by
  have space : isNumberChar ' ' = false ∧ isNameChar ' ' = false := by decide
  have feed : isNumberChar '\n' = false ∧ isNameChar '\n' = false := by decide
  unfold separator
  split
  · exact absurd rfl noLine
  · simp [Apart, write]
  · simpa [Apart, write, Token.written] using feed
  · simpa [Apart] using space

/-- A written text is read again, whatever stands before it. -/
theorem scan_write {tokens : List Token} (plain : ∀ token ∈ tokens, token.IsPlain) {opened : Nat}
    (nested : Nested opened tokens) (line : Nat) (fresh : Bool) :
    scan opened line fresh (write tokens) = .ok tokens := by
  induction tokens generalizing opened line fresh with
  | nil =>
      have closed := nested_nil_iff.mp nested
      rw [write, scan.eq_def]
      simp [closed]
  | cons token rest ih =>
      have plainRest : ∀ token ∈ rest, token.IsPlain :=
        fun token among => plain token (List.mem_cons_of_mem _ among)
      obtain ⟨outside, now, counted, nestedRest⟩ := nested_cons_iff.mp nested
      have readRest := ih plainRest nestedRest
      by_cases ends : token = .newline
      · subst ends
        obtain rfl := outside rfl
        obtain rfl : now = 0 := by simp [Token.opens] at counted; omega
        simp only [write, Token.written, separator, List.append_nil, List.singleton_append]
        rw [scan_newline, readRest]
        rfl
      · have skipped : scan now line false (separator token rest ++ write rest) = .ok rest := by
          unfold separator
          split
          · exact absurd rfl ends
          · exact readRest line false
          · exact readRest line false
          · rw [List.singleton_append, scan_space, readRest]
        have apart := apart_separator token ends rest
        rw [write, List.append_assoc,
          scan_written (plain token List.mem_cons_self) ends counted apart, skipped]
        rfl

/-! ### What is read -/

/-- What a source can be divided into. -/
def Token.IsRead (token : Token) : Prop := token.IsPlain ∨ ∃ value, token = .float value

theorem map_eq_ok_iff {ε α β : Type} {f : α → β} {outcome : Except ε α} {result : β} :
    f <$> outcome = .ok result ↔ ∃ a, outcome = .ok a ∧ f a = result := by
  cases outcome with
  | error fault => simp [Functor.map, Except.map]
  | ok a => simp [Functor.map, Except.map]

/-- What a number's characters stand for is read, and is neither a bracket nor a line's end. -/
theorem isRead_of_numberToken {text : List Char} {token : Token}
    (read : numberToken text = some token) :
    token.IsRead ∧ token ≠ .newline ∧ token.opens = 0 := by
  unfold numberToken at read
  split at read
  · rename_i whole _
    obtain ⟨value, small, rfl⟩ := Option.map_eq_some_iff.mp read
    have natural : 0 ≤ value.toInt := by
      rw [toInt_of_word? small]
      omega
    exact ⟨.inl natural, nofun, rfl⟩
  · split at read
    · cases read
    · cases read
      exact ⟨.inr ⟨_, rfl⟩, nofun, rfl⟩

theorem opens_op_of_opening {symbol : Char} (opening : symbol ∈ openingBrackets) :
    (Token.op symbol).opens = 1 := by
  simp [Token.opens, opening]

theorem opens_op_of_closing {symbol : Char} (closing : symbol ∈ closingBrackets) :
    (Token.op symbol).opens = -1 := by
  have apart : closingBrackets.all (fun symbol => decide (symbol ∉ openingBrackets)) = true := by
    decide
  simp [Token.opens, of_decide_eq_true (List.all_eq_true.mp apart symbol closing), closing]

theorem opens_op_of_operator {symbol : Char} (isOperator : symbol ∈ operators) :
    (Token.op symbol).opens = 0 := by
  have apart : operators.all (fun symbol =>
      decide (symbol ∉ openingBrackets ∧ symbol ∉ closingBrackets)) = true := by decide
  simp [Token.opens, of_decide_eq_true (List.all_eq_true.mp apart symbol isOperator)]

/-- Tokens that a source can be divided into when some brackets are open already. -/
structure Legible (opened : Nat) (tokens : List Token) : Prop where
  read : ∀ token ∈ tokens, token.IsRead
  nested : Nested opened tokens

/-- One token is read before the others. -/
theorem Legible.of_map_cons {opened now : Nat} {token : Token} {tokens : List Token}
    {others : Except SourceFault (List Token)} (read : (token :: ·) <$> others = .ok tokens)
    (after : ∀ {rest}, others = .ok rest → Legible now rest) (isRead : token.IsRead)
    (outside : token = .newline → opened = 0) (counted : (now : Int) = opened + token.opens) :
    Legible opened tokens := by
  obtain ⟨rest, ended, rfl⟩ := map_eq_ok_iff.mp read
  have legible := after ended
  constructor
  · exact List.forall_mem_cons.mpr ⟨isRead, legible.read⟩
  · exact nested_cons_iff.mpr ⟨outside, now, counted, legible.nested⟩

/-- The division of a source counts the open brackets, and every character starts a token that can
be read, or is skipped. -/
theorem legible_of_scan {opened line : Nat} {fresh : Bool} {text : List Char} {tokens : List Token}
    (read : scan opened line fresh text = .ok tokens) : Legible opened tokens := by
  fun_induction scan opened line fresh text generalizing tokens with
  | case1 line fresh =>
      cases read
      exact ⟨nofun, nested_nil_iff.mpr rfl⟩
  | case2 => cases read
  | case3 => cases read
  | case4 line fresh rest _ ih =>
      exact .of_map_cons read ih (.inl trivial) (fun _ => rfl) rfl
  | case5 opened line fresh rest _ _ ih => exact ih read
  | case6 opened line fresh c rest _ _ separates ih =>
      exact .of_map_cons read ih (.inl trivial) (fun _ => separates.2) (by simp [Token.opens])
  | case7 opened line fresh c rest _ _ _ _ ih => exact ih read
  | case8 opened line fresh rest _ _ _ _ ih => exact ih read
  | case9 => cases read
  | case10 opened line fresh c rest _ _ _ _ _ _ content after _ ih =>
      exact .of_map_cons read ih (.inl trivial) nofun (by simp [Token.opens])
  | case11 => cases read
  | case12 opened line fresh c rest _ _ _ _ _ _ _ number token isNumber =>
      rename_i ih
      have ⟨isRead, noLine, opensNone⟩ := isRead_of_numberToken isNumber
      exact .of_map_cons read ih isRead (fun ends => absurd ends noLine) (by omega)
  | case13 opened line fresh c rest _ _ _ _ _ _ _ starts ih =>
      have isWord : IsWord (String.ofList (c :: rest.takeWhile isNameChar)).toList := by
        rw [String.toList_ofList]
        exact ⟨starts, fun _ among => List.mem_takeWhile_imp among⟩
      exact .of_map_cons read ih (.inl isWord) nofun (by simp [Token.opens])
  | case14 opened line fresh c rest _ _ _ _ _ _ _ _ opening ih =>
      have isSymbol : c ∈ symbols := by simp [symbols, opening]
      have counted := opens_op_of_opening opening
      exact .of_map_cons read ih (.inl isSymbol) nofun (by omega)
  | case15 => cases read
  | case16 line fresh c rest _ _ _ _ _ _ _ _ closing opened _ ih =>
      have isSymbol : c ∈ symbols := by simp [symbols, closing]
      have counted := opens_op_of_closing closing
      exact .of_map_cons read ih (.inl isSymbol) nofun (by omega)
  | case17 opened line fresh c rest _ _ _ _ _ _ _ _ _ _ isOperator ih =>
      have isSymbol : c ∈ symbols := by simp [symbols, isOperator]
      have counted := opens_op_of_operator isOperator
      exact .of_map_cons read ih (.inl isSymbol) nofun (by omega)
  | case18 => cases read

/-- Plain tokens whose brackets nest are read again from what is written for them; and no source has
other tokens, floats apart. -/
theorem tokenize_write :
    (∀ tokens : List Token, (∀ token ∈ tokens, token.IsPlain) → Nested 0 tokens →
      tokenize (String.ofList (write tokens)) = .ok tokens) ∧
    ∀ (source : String) (tokens : List Token), tokenize source = .ok tokens →
      (∀ token ∈ tokens, token.IsPlain ∨ ∃ value, token = .float value) ∧ Nested 0 tokens := by
  constructor
  · intro tokens plain nested
    rw [tokenize, String.toList_ofList]
    exact scan_write plain nested 1 true
  · intro source tokens read
    have legible := legible_of_scan read
    exact ⟨legible.read, legible.nested⟩

/-- What stands in the quotes looks like the end of a string, a comment and another line. -/
theorem tokenize_write_call :
    ∃ tokens, tokens = [Token.name "_f1", .op '(', .string "a'\\\n#;\"", .op ',',
        .int 9223372036854775807, .op '.', .int 0, .op ')', .newline, .newline, .op '-', .int 7] ∧
      tokenize "_f1 ( 'a\\'\\\\\\n#;\"' , 9223372036854775807 . 0 )\n\n- 7" = .ok tokens ∧
      (∀ token ∈ tokens, token.IsPlain ∨ ∃ value, token = .float value) ∧ Nested 0 tokens := by
  refine ⟨_, rfl, ?_⟩
  have read := tokenize_write.1 [Token.name "_f1", .op '(', .string "a'\\\n#;\"", .op ',',
    .int 9223372036854775807, .op '.', .int 0, .op ')', .newline, .newline, .op '-', .int 7]
    (by decide +kernel) (by decide +kernel)
  have text : String.ofList (write [Token.name "_f1", .op '(', .string "a'\\\n#;\"", .op ',',
      .int 9223372036854775807, .op '.', .int 0, .op ')', .newline, .newline, .op '-', .int 7]) =
      "_f1 ( 'a\\'\\\\\\n#;\"' , 9223372036854775807 . 0 )\n\n- 7" := by decide +kernel
  rw [text] at read
  exact ⟨read, tokenize_write.2 _ _ read⟩

end Interop.Script
