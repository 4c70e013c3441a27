import Interop.Proofs.Script.Tokenizing
/-!
The division of a text into tokens as a relation. At each place something can be taken from the
front of what is left, or there is an objection to it; the scanner takes the one or reports the
other, and counts the line feeds that it takes.
-/

set_option autoImplicit false

namespace Interop.Script

/-! ### Classes of characters -/

/-- A character of a class is none outside of it. -/
theorem ne_of_class {p : Char → Bool} {c d : Char} (outside : p d = false) (inside : p c = true) :
    c ≠ d := by
  rintro rfl
  exact Bool.noConfusion (outside.symm.trans inside)

theorem not_quote {p : Char → Bool} (noSingle : p '\'' = false) (noDouble : p '"' = false)
    {c : Char} (inside : p c = true) : ¬ (c = '\'' ∨ c = '"') :=
  not_or.mpr ⟨ne_of_class noSingle inside, ne_of_class noDouble inside⟩

theorem BeginsToken.of_isQuote {c : Char} (isQuote : c = '\'' ∨ c = '"') : BeginsToken c := by
  rcases isQuote with rfl | rfl
  · exact ⟨by decide, by decide, by decide⟩
  · exact ⟨by decide, by decide, by decide⟩

/-! ### What is taken -/

/-- What the division of a text takes from its front: a token, or something that is skipped. The
number of open brackets, and whether a line outside of brackets starts there, are told before and
after. -/
inductive Takes : Nat → Bool → List Char → List Token → Nat → Bool → List Char → Prop
  | lineFeed {fresh : Bool} {rest : List Char} :
      Takes 0 fresh ('\n' :: rest) [.newline] 0 true rest
  | innerLineFeed {depth : Nat} {fresh : Bool} {rest : List Char} (inside : depth ≠ 0) :
      Takes depth fresh ('\n' :: rest) [] depth false rest
  | separator {fresh : Bool} {rest : List Char} :
      Takes 0 fresh (';' :: rest) [.newline] 0 false rest
  | blank {depth : Nat} {fresh : Bool} {c : Char} {rest : List Char}
      (level : (fresh && isIndented (c :: rest)) = false) (noFeed : c ≠ '\n')
      (isBlank : Text.isBlank c = true) :
      Takes depth fresh (c :: rest) [] depth false rest
  | comment {depth : Nat} {fresh : Bool} {rest : List Char} :
      Takes depth fresh ('#' :: rest) [] depth false (rest.dropWhile (· ≠ '\n'))
  | string {depth : Nat} {fresh : Bool} {quote : Char} {rest content after : List Char}
      (isQuote : quote = '\'' ∨ quote = '"')
      (read : scanString quote rest = some (content, after)) :
      Takes depth fresh (quote :: rest) [.string (String.ofList content)] depth false after
  | number {depth : Nat} {fresh : Bool} {c : Char} {rest : List Char} {token : Token}
      (isDigit : c.isDigit = true)
      (isNumber : numberToken ((c :: rest.takeWhile isNumberChar).filter (· ≠ '_')) =
        some token) :
      Takes depth fresh (c :: rest) [token] depth false (rest.dropWhile isNumberChar)
  | name {depth : Nat} {fresh : Bool} {c : Char} {rest : List Char}
      (starts : isNameStart c = true) :
      Takes depth fresh (c :: rest) [.name (String.ofList (c :: rest.takeWhile isNameChar))] depth
        false (rest.dropWhile isNameChar)
  | symbol {depth now : Nat} {fresh : Bool} {c : Char} {rest : List Char}
      (isSymbol : c ∈ symbols) (counted : (now : Int) = depth + (Token.op c).opens) :
      Takes depth fresh (c :: rest) [.op c] now false rest

/-- Tokens that a text can be divided into from a place on. -/
inductive Divides : Nat → Bool → List Char → List Token → Prop
  | done {fresh : Bool} : Divides 0 fresh [] []
  | more {depth now : Nat} {fresh start : Bool} {text rest : List Char} {taken others : List Token}
      (takes : Takes depth fresh text taken now start rest)
      (divides : Divides now start rest others) : Divides depth fresh text (taken ++ others)

/-- The number of the line behind what is taken from the front of a text. -/
def lineAfter (line : Nat) (text : List Char) : Nat :=
  if text.head? = some '\n' then line + 1 else line

theorem lineAfter_lineFeed (line : Nat) (rest : List Char) :
    lineAfter line ('\n' :: rest) = line + 1 := if_pos rfl

theorem lineAfter_of_ne {c : Char} (noFeed : c ≠ '\n') (line : Nat) (rest : List Char) :
    lineAfter line (c :: rest) = line := if_neg (by simpa using noFeed)

/-- The front of a text is taken apart, with something left of it. The number of open brackets, the
number of the line and whether one starts there are told before and after. -/
inductive Passes : Nat → Nat → Bool → List Char → List Token → Nat → Nat → Bool → List Char → Prop
  | here {depth line : Nat} {fresh : Bool} {text : List Char} :
      Passes depth line fresh text [] depth line fresh text
  | more {depth line now last lastLine : Nat} {fresh start lastFresh : Bool}
      {text rest left : List Char} {taken others : List Token}
      (takes : Takes depth fresh text taken now start rest)
      (passes : Passes now (lineAfter line text) start rest others last lastLine lastFresh left) :
      Passes depth line fresh text (taken ++ others) last lastLine lastFresh left

theorem ne_lineFeed_of_symbol {c : Char} (isSymbol : c ∈ symbols) : c ≠ '\n' := by
  rintro rfl
  revert isSymbol
  decide

/-- The division goes on behind what it takes from the front. -/
theorem Takes.scan {depth now : Nat} {fresh start : Bool} {text rest : List Char}
    {taken : List Token} (takes : Takes depth fresh text taken now start rest) (line : Nat) :
    scan depth line fresh text = (taken ++ ·) <$> scan now (lineAfter line text) start rest := by
  cases takes with
  | lineFeed => exact scan_newline
  | @innerLineFeed _ _ rest inside =>
      have level : isIndented ('\n' :: rest) = false := by simp [isIndented]
      rw [lineAfter_lineFeed, scan.eq_def]
      simp [level, inside]
  | separator =>
      rw [lineAfter_of_ne (by decide), scan.eq_def]
      dsimp only
      rw [not_isIndented_of_not_isBlank (by decide)]
      simp
  | blank level noFeed isBlank =>
      rw [lineAfter_of_ne noFeed, scan.eq_def]
      dsimp only
      have noSeparator : ∀ c, Text.isBlank c = true → c ≠ ';' := by
        rintro _ isBlank rfl
        revert isBlank
        decide
      simp [level, noFeed, isBlank, noSeparator _ isBlank]
  | comment =>
      have notBlank : Text.isBlank '#' = false := by decide
      rw [lineAfter_of_ne (by decide), scan.eq_def]
      dsimp only
      rw [not_isIndented_of_not_isBlank notBlank]
      simp [notBlank]
  | string isQuote read =>
      have begins := BeginsToken.of_isQuote isQuote
      rw [lineAfter_of_ne begins.ne_lineFeed, scan.eq_def]
      dsimp only
      rw [not_isIndented_of_not_isBlank begins.notBlank]
      simp only [Bool.and_false, Bool.false_eq_true, if_false, begins.notBlank,
        begins.notSeparator, begins.notComment, begins.ne_lineFeed, false_and, isQuote, if_true]
      split
      · rename_i unclosed
        cases read.symm.trans unclosed
      · rename_i again
        cases read.symm.trans again
        rfl
  | number isDigit isNumber =>
      have begins := BeginsToken.of_isDigit isDigit
      have noQuote := not_quote (by decide) (by decide) isDigit
      rw [lineAfter_of_ne begins.ne_lineFeed, scan.eq_def]
      dsimp only
      rw [not_isIndented_of_not_isBlank begins.notBlank]
      simp only [Bool.and_false, Bool.false_eq_true, if_false, begins.notBlank,
        begins.notSeparator, begins.notComment, begins.ne_lineFeed, false_and, noQuote, isDigit,
        if_true, isNumber, List.singleton_append]
  | name starts =>
      have begins := BeginsToken.of_isNameStart starts
      have noQuote := not_quote (by decide) (by decide) starts
      rw [lineAfter_of_ne begins.ne_lineFeed, scan.eq_def]
      dsimp only
      rw [not_isIndented_of_not_isBlank begins.notBlank]
      simp only [Bool.and_false, Bool.false_eq_true, if_false, begins.notBlank,
        begins.notSeparator, begins.notComment, begins.ne_lineFeed, false_and, noQuote,
        not_isDigit_of_isNameStart starts, starts, if_true, List.singleton_append]
  | symbol isSymbol counted =>
      rw [lineAfter_of_ne (ne_lineFeed_of_symbol isSymbol)]
      exact scan_op isSymbol counted

/-! ### What is objected to -/

/-- A character that nothing begins with. -/
structure Foreign (depth : Nat) (c : Char) : Prop where
  notBlank : Text.isBlank c = false
  notSeparator : ¬ (c = ';' ∧ depth = 0)
  notComment : c ≠ '#'
  notQuote : ¬ (c = '\'' ∨ c = '"')
  notDigit : c.isDigit = false
  notName : isNameStart c = false
  notSymbol : c ∉ symbols

/-- Why nothing can be taken from the front of a text, as it is reported on a line. -/
inductive Objects : Nat → Bool → List Char → (Nat → SourceFault) → Prop
  | unclosed {depth : Nat} {fresh : Bool} (inside : depth ≠ 0) :
      Objects depth fresh [] fun _ => .unclosedBracket
  | indented {depth : Nat} {text : List Char} (indented : isIndented text = true) :
      Objects depth true text .unexpectedIndent
  | string {depth : Nat} {fresh : Bool} {quote : Char} {rest : List Char}
      (isQuote : quote = '\'' ∨ quote = '"') (unread : scanString quote rest = none) :
      Objects depth fresh (quote :: rest) .unterminatedString
  | number {depth : Nat} {fresh : Bool} {c : Char} {rest : List Char} (isDigit : c.isDigit = true)
      (noNumber : numberToken ((c :: rest.takeWhile isNumberChar).filter (· ≠ '_')) = none) :
      Objects depth fresh (c :: rest) fun _ =>
        .invalidNumber (String.ofList ((c :: rest.takeWhile isNumberChar).filter (· ≠ '_')))
  | bracket {fresh : Bool} {c : Char} {rest : List Char} (closing : c ∈ closingBrackets) :
      Objects 0 fresh (c :: rest) (.unmatchedBracket c)
  | character {depth : Nat} {fresh : Bool} {c : Char} {rest : List Char}
      (foreign : Foreign depth c) : Objects depth fresh (c :: rest) (.invalidCharacter c)

/-- An objection is reported, with the line on which it is found. -/
theorem Objects.scan {depth : Nat} {fresh : Bool} {text : List Char} {objection : Nat → SourceFault}
    (objects : Objects depth fresh text objection) (line : Nat) :
    Script.scan depth line fresh text = .error (objection line) := by
  cases objects with
  | unclosed inside =>
      rw [scan.eq_def]
      simp [inside]
  | indented indented =>
      cases text with
      | nil => cases indented
      | cons c rest =>
          rw [scan.eq_def]
          simp [indented]
  | string isQuote unread =>
      have begins := BeginsToken.of_isQuote isQuote
      rw [scan.eq_def]
      dsimp only
      rw [not_isIndented_of_not_isBlank begins.notBlank]
      simp only [Bool.and_false, Bool.false_eq_true, if_false, begins.notBlank,
        begins.notSeparator, begins.notComment, begins.ne_lineFeed, false_and, isQuote, if_true]
      split
      · rfl
      · rename_i read
        cases unread.symm.trans read
  | number isDigit noNumber =>
      have begins := BeginsToken.of_isDigit isDigit
      have noQuote := not_quote (by decide) (by decide) isDigit
      rw [scan.eq_def]
      dsimp only
      rw [not_isIndented_of_not_isBlank begins.notBlank]
      simp only [Bool.and_false, Bool.false_eq_true, if_false, begins.notBlank,
        begins.notSeparator, begins.notComment, begins.ne_lineFeed, false_and, noQuote, isDigit,
        if_true, noNumber]
  | @bracket _ c _ closing =>
      have plain : closingBrackets.all (fun c => decide (Text.isBlank c = false ∧ c ≠ ';' ∧
          c ≠ '#' ∧ ¬ (c = '\'' ∨ c = '"') ∧ c.isDigit = false ∧ isNameStart c = false ∧
          c ≠ '\n' ∧ c ∉ openingBrackets)) = true := by decide
      obtain ⟨notBlank, notSeparator, notComment, noQuote, notDigit, notName, noFeed, notOpening⟩ :=
        of_decide_eq_true (List.all_eq_true.mp plain c closing)
      rw [scan.eq_def]
      dsimp only
      rw [not_isIndented_of_not_isBlank notBlank]
      simp only [Bool.and_false, Bool.false_eq_true, if_false, notBlank, notSeparator, notComment,
        noFeed, false_and, noQuote, notDigit, notName, notOpening, closing, if_true]
  | @character _ _ c _ foreign =>
      have noFeed : c ≠ '\n' := by
        rintro rfl
        exact Bool.noConfusion foreign.notBlank
      have noSymbol := foreign.notSymbol
      simp only [symbols, List.mem_append, not_or] at noSymbol
      rw [scan.eq_def]
      dsimp only
      rw [not_isIndented_of_not_isBlank foreign.notBlank]
      simp only [Bool.and_false, Bool.false_eq_true, if_false, foreign.notBlank,
        foreign.notSeparator, foreign.notComment, noFeed, foreign.notQuote, foreign.notDigit,
        foreign.notName, noSymbol]

/-! ### One or the other -/

theorem takes_or_objects_of_symbol (depth : Nat) (fresh : Bool) {c : Char} (rest : List Char)
    (isSymbol : c ∈ symbols) :
    (∃ taken now start left, Takes depth fresh (c :: rest) taken now start left) ∨
      ∃ objection, Objects depth fresh (c :: rest) objection := by
  by_cases opening : c ∈ openingBrackets
  · have counted := opens_op_of_opening opening
    exact .inl ⟨_, depth + 1, _, _, .symbol isSymbol (by omega)⟩
  by_cases closing : c ∈ closingBrackets
  · have counted := opens_op_of_closing closing
    cases depth with
    | zero => exact .inr ⟨_, .bracket closing⟩
    | succ depth => exact .inl ⟨_, depth, _, _, .symbol isSymbol (by omega)⟩
  · have isOperator : c ∈ operators := by simpa [symbols, opening, closing] using isSymbol
    have counted := opens_op_of_operator isOperator
    exact .inl ⟨_, depth, _, _, .symbol isSymbol (by omega)⟩

/-- Something can be taken from the front of a text, or there is an objection to it. -/
theorem takes_or_objects (depth : Nat) (fresh : Bool) (c : Char) (rest : List Char) :
    (∃ taken now start left, Takes depth fresh (c :: rest) taken now start left) ∨
      ∃ objection, Objects depth fresh (c :: rest) objection := by
  by_cases level : (fresh && isIndented (c :: rest)) = true
  · obtain ⟨rfl, indented⟩ := Bool.and_eq_true_iff.mp level
    exact .inr ⟨_, .indented indented⟩
  by_cases feed : c = '\n'
  · subst feed
    by_cases outside : depth = 0
    · subst outside
      exact .inl ⟨_, _, _, _, .lineFeed⟩
    · exact .inl ⟨_, _, _, _, .innerLineFeed outside⟩
  by_cases separates : c = ';' ∧ depth = 0
  · obtain ⟨rfl, rfl⟩ := separates
    exact .inl ⟨_, _, _, _, .separator⟩
  by_cases isBlank : Text.isBlank c = true
  · exact .inl ⟨_, _, _, _, .blank (eq_false_of_ne_true level) feed isBlank⟩
  by_cases comment : c = '#'
  · subst comment
    exact .inl ⟨_, _, _, _, .comment⟩
  by_cases isQuote : c = '\'' ∨ c = '"'
  · cases read : scanString c rest with
    | none => exact .inr ⟨_, .string isQuote read⟩
    | some result => exact .inl ⟨_, _, _, _, .string isQuote read⟩
  by_cases isDigit : c.isDigit = true
  · cases read : numberToken ((c :: rest.takeWhile isNumberChar).filter (· ≠ '_')) with
    | none => exact .inr ⟨_, .number isDigit read⟩
    | some token => exact .inl ⟨_, _, _, _, .number isDigit read⟩
  by_cases starts : isNameStart c = true
  · exact .inl ⟨_, _, _, _, .name starts⟩
  by_cases isSymbol : c ∈ symbols
  · exact takes_or_objects_of_symbol depth fresh rest isSymbol
  · exact .inr ⟨_, .character ⟨eq_false_of_ne_true isBlank, separates, comment, isQuote,
      eq_false_of_ne_true isDigit, eq_false_of_ne_true starts, isSymbol⟩⟩

theorem Takes.length_lt {depth now : Nat} {fresh start : Bool} {text rest : List Char}
    {taken : List Token} (takes : Takes depth fresh text taken now start rest) :
    rest.length < text.length := by
  cases takes with
  | lineFeed | innerLineFeed | separator | blank | symbol => exact Nat.lt_succ_self _
  | comment | number | name => exact Nat.lt_succ_of_le (length_dropWhile_le _ _)
  | string _ read => exact Nat.lt_succ_of_le (length_scanString read)

/-- A text can be divided as a whole, or up to an objection. -/
theorem divides_or_objects (depth line : Nat) (fresh : Bool) (text : List Char) :
    (∃ tokens, Divides depth fresh text tokens) ∨ ∃ taken now last start rest objection,
      Passes depth line fresh text taken now last start rest ∧
        Objects now start rest objection := by
  cases text with
  | nil =>
      by_cases outside : depth = 0
      · subst outside
        exact .inl ⟨[], .done⟩
      · exact .inr ⟨_, _, _, _, _, _, .here, .unclosed outside⟩
  | cons c rest =>
      rcases takes_or_objects depth fresh c rest with
        ⟨taken, now, start, left, takes⟩ | ⟨objection, objects⟩
      · have shorter := takes.length_lt
        rcases divides_or_objects now (lineAfter line (c :: rest)) start left with
          ⟨tokens, divides⟩ | ⟨others, _, _, _, _, objection, passes, objects⟩
        · exact .inl ⟨_, .more takes divides⟩
        · exact .inr ⟨_, _, _, _, _, _, .more takes passes, objects⟩
      · exact .inr ⟨_, _, _, _, _, _, .here, objects⟩
termination_by text.length
decreasing_by exact shorter

/-! ### The scanner -/

section Scan

variable {depth line now last : Nat} {fresh start : Bool} {text rest : List Char}
  {taken tokens : List Token}

theorem Divides.scan (divides : Divides depth fresh text tokens) (line : Nat) :
    Script.scan depth line fresh text = .ok tokens := by
  induction divides generalizing line with
  | done => simp [scan.eq_def]
  | more takes _ ih =>
      rw [takes.scan, ih]
      rfl

theorem Passes.scan (passes : Passes depth line fresh text taken now last start rest) :
    Script.scan depth line fresh text = (taken ++ ·) <$> Script.scan now last start rest := by
  induction passes with
  | here => exact (id_map _).symm
  | @more _ _ _ _ _ _ _ _ _ _ _ taken others takes _ ih =>
      rw [takes.scan, ih, ← comp_map]
      exact congrArg (· <$> _) (funext fun more => (List.append_assoc taken others more).symm)

theorem Passes.scan_of_objects {objection : Nat → SourceFault}
    (passes : Passes depth line fresh text taken now last start rest)
    (objects : Objects now start rest objection) :
    Script.scan depth line fresh text = .error (objection last) := by
  rw [passes.scan, objects.scan]
  rfl

/-- The number of the line on which a text starts only matters for errors. -/
theorem scan_eq_ok_iff :
    scan depth line fresh text = .ok tokens ↔ Divides depth fresh text tokens := by
  constructor
  · intro read
    rcases divides_or_objects depth line fresh text with
      ⟨tokens, divides⟩ | ⟨_, _, _, _, _, objection, passes, objects⟩
    · obtain rfl := Except.ok.inj ((divides.scan line).symm.trans read)
      exact divides
    · cases (passes.scan_of_objects objects).symm.trans read
  · exact fun divides => divides.scan line

/-- A text is refused for what is objected to behind what can be taken from it. -/
theorem scan_eq_error_iff {fault : SourceFault} :
    scan depth line fresh text = .error fault ↔ ∃ taken now last start rest objection,
      Passes depth line fresh text taken now last start rest ∧ Objects now start rest objection ∧
        fault = objection last := by
  constructor
  · intro failed
    rcases divides_or_objects depth line fresh text with
      ⟨tokens, divides⟩ | ⟨_, _, _, _, _, objection, passes, objects⟩
    · cases (divides.scan line).symm.trans failed
    · obtain rfl := Except.error.inj ((passes.scan_of_objects objects).symm.trans failed)
      exact ⟨_, _, _, _, _, objection, passes, objects, rfl⟩
  · rintro ⟨_, _, _, _, _, _, passes, objects, rfl⟩
    exact passes.scan_of_objects objects

end Scan

end Interop.Script
