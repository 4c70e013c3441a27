import Interop.Proofs.Script.Literals
/-!
Blanks at the ends of lines mean nothing. A blank, and a carriage return or a line feed is one, can
be left out of a source if nothing but blanks comes after it on its line, or on the next line if it
is a line feed. The source is then divided into the same tokens but for newlines in front of other
newlines or at the end, and those separate no statements.

No such blank stands inside a string literal that is closed: a line ends inside of one only where a
backslash stands in front of the line feed.
-/

set_option autoImplicit false

namespace Interop.Script

/-! ### Leaving blanks out -/

/-- Blanks are left out of a text, each of them where nothing but blanks comes after it on the line;
for a line feed, this is the line that it begins. -/
inductive Trims : List Char → List Char → Prop
  | nil : Trims [] []
  | keep (c : Char) {text trimmed : List Char} (rest : Trims text trimmed) :
      Trims (c :: text) (c :: trimmed)
  | drop {c : Char} {text trimmed : List Char} (isBlank : Text.isBlank c = true)
      (nothing : firstInLine? text = none) (rest : Trims text trimmed) : Trims (c :: text) trimmed

namespace Trims

variable {text trimmed : List Char}

theorem refl (text : List Char) : Trims text text := by
  induction text with
  | nil => exact .nil
  | cons c rest ih => exact .keep c ih

theorem firstInLine? (trims : Trims text trimmed) :
    Script.firstInLine? trimmed = Script.firstInLine? text := by
  induction trims with
  | nil => rfl
  | keep c rest ih => simp [Script.firstInLine?, ih]
  | drop isBlank nothing rest ih =>
      rw [firstInLine?_of_isBlank isBlank nothing, ih, nothing]

theorem isIndented (trims : Trims text trimmed) (c : Char) :
    Script.isIndented (c :: trimmed) = Script.isIndented (c :: text) := by
  rw [isIndented_eq, isIndented_eq, (keep c trims).firstInLine?]

theorem word (trims : Trims text trimmed) {p : Char → Bool}
    (noBlank : ∀ c, Text.isBlank c = true → p c = false) :
    trimmed.takeWhile p = text.takeWhile p ∧ Trims (text.dropWhile p) (trimmed.dropWhile p) := by
  induction trims with
  | nil => exact ⟨rfl, .nil⟩
  | @keep c text trimmed rest ih =>
      cases inside : p c with
      | false => simpa [inside] using keep c rest
      | true => simpa [inside] using ih
  | @drop c text trimmed isBlank nothing rest ih =>
      -- the word has ended already, and nothing that is left can go on with it
      have outside : ∀ d ∈ trimmed.head?, p d = false := by
        intro d first
        rw [← rest.firstInLine?] at nothing
        cases trimmed with
        | nil => cases first
        | cons e more =>
            obtain rfl : e = d := by simpa using first
            exact noBlank e (isBlank_of_firstInLine? nothing)
      have here := noBlank c isBlank
      cases trimmed with
      | nil => simpa [here] using drop isBlank nothing rest
      | cons d more =>
          have next := outside d rfl
          simpa [here, next] using drop isBlank nothing rest

/-- All of a blank line can be left out. -/
theorem blankLine (trims : Trims text trimmed) (nothing : Script.firstInLine? text = none) :
    Trims text (trimmed.dropWhile (· ≠ '\n')) := by
  induction trims with
  | nil => exact .nil
  | @keep c text trimmed rest ih =>
      by_cases ends : c = '\n'
      · simpa [ends] using keep '\n' rest
      · have isBlank := isBlank_of_firstInLine? nothing
        have nothing : Script.firstInLine? text = none := by
          simpa [Script.firstInLine?, ends, isBlank] using nothing
        simpa [ends] using drop isBlank nothing (ih nothing)
  | drop isBlank here rest ih => exact drop isBlank here (ih here)

/-- A comment is skipped with the blanks at its end. -/
theorem restOfLine (trims : Trims text trimmed) :
    Trims (text.dropWhile (· ≠ '\n')) (trimmed.dropWhile (· ≠ '\n')) := by
  induction trims with
  | nil => exact .nil
  | @keep c text trimmed rest ih =>
      by_cases ends : c = '\n'
      · simpa [ends] using keep '\n' rest
      · simpa [ends] using ih
  | @drop c text trimmed isBlank nothing rest ih =>
      by_cases ends : c = '\n'
      · simpa [ends] using drop isBlank_lineFeed nothing (rest.blankLine nothing)
      · simpa [ends] using ih

end Trims

/-! ### String literals -/

section Closing

/- What ends a literal: its quote, or a backslash. -/
variable {quote closing : Char} {raw content after trimmed : List Char}
  (visible : Text.isBlank closing = false)

include visible

theorem Spells.firstInLine?_ne_none (spells : Spells quote raw content) :
    firstInLine? (raw ++ closing :: after) ≠ none := by
  induction spells with
  | nil =>
      rw [List.nil_append, firstInLine?_of_visible visible]
      exact Option.some_ne_none closing
  | escape c rest ih =>
      rw [List.cons_append, firstInLine?_of_visible (by decide)]
      exact Option.some_ne_none '\\'
  | @plain c raw text noEscape noQuote noFeed rest ih =>
      rw [List.cons_append, firstInLine?, if_neg noFeed]
      split
      · exact ih
      · exact Option.some_ne_none c

/-- No blank is left out of a literal, since something visible comes after all of them. -/
theorem Trims.of_spells (spells : Spells quote raw content)
    (trims : Trims (raw ++ closing :: after) trimmed) :
    ∃ left, trimmed = raw ++ closing :: left ∧ Trims after left := by
  induction spells generalizing trimmed with
  | nil =>
      cases trims with
      | drop isBlank => simp [visible] at isBlank
      | keep _ rest => exact ⟨_, rfl, rest⟩
  | escape c spells ih =>
      cases trims with
      | drop isBlank => exact absurd isBlank (by decide)
      | keep _ rest =>
          cases rest with
          | drop _ nothing => exact absurd nothing (spells.firstInLine?_ne_none visible)
          | keep _ rest =>
              obtain ⟨left, rfl, trims⟩ := ih rest
              exact ⟨left, rfl, trims⟩
  | plain noEscape noQuote noFeed spells ih =>
      cases trims with
      | drop _ nothing => exact absurd nothing (spells.firstInLine?_ne_none visible)
      | keep _ rest =>
          obtain ⟨left, rfl, trims⟩ := ih rest
          exact ⟨left, rfl, trims⟩

end Closing

theorem Trims.scanString {quote : Char} (isQuote : quote = '\'' ∨ quote = '"')
    {text trimmed content after : List Char} (trims : Trims text trimmed)
    (read : Script.scanString quote text = some (content, after)) :
    ∃ left, Script.scanString quote trimmed = some (content, left) ∧ Trims after left := by
  have noEscape := ne_backslash_of_isQuote isQuote
  obtain ⟨raw, spells, rfl | ⟨rfl, rfl⟩⟩ := spells_of_scanString read
  · obtain ⟨left, rfl, behind⟩ := trims.of_spells (BeginsToken.of_isQuote isQuote).notBlank spells
    exact ⟨left, (spells.scanString noEscape left).1, behind⟩
  · obtain ⟨left, rfl, behind⟩ := trims.of_spells (by decide) spells
    cases behind
    exact ⟨[], (spells.scanString noEscape []).2, .nil⟩

/-! ### Tokens -/

theorem Takes.of_not_isIndented {depth now : Nat} {fresh start : Bool} {text rest : List Char}
    {taken : List Token} (takes : Takes depth fresh text taken now start rest)
    (level : isIndented text = false) (also : Bool) :
    Takes depth also text taken now start rest := by
  cases takes with
  | lineFeed => exact .lineFeed
  | innerLineFeed inside => exact .innerLineFeed inside
  | separator => exact .separator
  | blank _ noFeed isBlank => exact .blank (by simp [level]) noFeed isBlank
  | comment => exact .comment
  | string isQuote read => exact .string isQuote read
  | number isDigit isNumber => exact .number isDigit isNumber
  | name starts => exact .name starts
  | symbol isSymbol counted => exact .symbol isSymbol counted

/-- Where a line is not indented it does not matter whether it starts there. -/
theorem Divides.of_not_isIndented {depth : Nat} {fresh : Bool} {text : List Char}
    {tokens : List Token} (divides : Divides depth fresh text tokens)
    (level : isIndented text = false) (also : Bool) : Divides depth also text tokens := by
  cases divides with
  | done => exact .done
  | more takes rest => exact .more (takes.of_not_isIndented level also) rest

/-- Tokens that no statement begins with: there are none, or the first of them is a newline. -/
def EndStatement (tokens : List Token) : Prop := ∀ token ∈ tokens.head?, token = .newline

theorem Takes.of_isBlank {depth now : Nat} {fresh start : Bool} {c : Char} {text rest : List Char}
    {taken : List Token} (takes : Takes depth fresh (c :: text) taken now start rest)
    (isBlank : Text.isBlank c = true) :
    rest = text ∧ now = depth ∧ ((taken = [] ∧ start = false ∧ (c = '\n' → depth ≠ 0)) ∨
      (taken = [.newline] ∧ depth = 0 ∧ start = true ∧ c = '\n')) := by
  generalize same : c :: text = all at takes
  cases takes with
  | lineFeed =>
      cases same
      exact ⟨rfl, rfl, .inr ⟨rfl, rfl, rfl, rfl⟩⟩
  | innerLineFeed inside =>
      cases same
      exact ⟨rfl, rfl, .inl ⟨rfl, rfl, fun _ => inside⟩⟩
  | separator =>
      cases same
      exact absurd isBlank (by decide)
  | blank level noFeed _ =>
      cases same
      exact ⟨rfl, rfl, .inl ⟨rfl, rfl, fun ends => absurd ends noFeed⟩⟩
  | comment =>
      cases same
      exact absurd isBlank (by decide)
  | string isQuote read =>
      cases same
      exact absurd (BeginsToken.of_isQuote isQuote).notBlank (by simp [isBlank])
  | number isDigit isNumber =>
      cases same
      exact absurd (BeginsToken.of_isDigit isDigit).notBlank (by simp [isBlank])
  | name starts =>
      cases same
      exact absurd (BeginsToken.of_isNameStart starts).notBlank (by simp [isBlank])
  | symbol isSymbol counted =>
      cases same
      have visible : symbols.all (fun symbol => !Text.isBlank symbol) = true := by decide
      have notBlank := List.all_eq_true.mp visible c isSymbol
      simp [isBlank] at notBlank

theorem not_isNumberChar_of_isBlank (c : Char) (isBlank : Text.isBlank c = true) :
    isNumberChar c = false := by
  have outside := forall_isBlank (p := fun c => !isNumberChar c) (by decide +kernel) c isBlank
  simpa using outside

theorem not_isNameChar_of_isBlank (c : Char) (isBlank : Text.isBlank c = true) :
    isNameChar c = false := by
  have outside := forall_isBlank (p := fun c => !isNameChar c) (by decide +kernel) c isBlank
  simpa using outside

/-- What is taken from the front of a text is taken from it still where blanks are left out; or it
is such a blank itself. -/
theorem Takes.trims {depth now : Nat} {fresh start : Bool} {text rest trimmed : List Char}
    {taken : List Token} (takes : Takes depth fresh text taken now start rest)
    (trims : Trims text trimmed) :
    (∃ left, Takes depth fresh trimmed taken now start left ∧ Trims rest left) ∨
      (Trims rest trimmed ∧ firstInLine? rest = none ∧ now = depth ∧
        (taken = [] ∨ (taken = [.newline] ∧ depth = 0))) := by
  cases trims with
  | nil => cases takes
  | drop isBlank nothing behind =>
      obtain ⟨rfl, rfl, ⟨none, _⟩ | ⟨one, outside, _⟩⟩ := takes.of_isBlank isBlank
      · exact .inr ⟨behind, nothing, rfl, .inl none⟩
      · exact .inr ⟨behind, nothing, rfl, .inr ⟨one, outside⟩⟩
  | keep c behind =>
      cases takes with
      | lineFeed => exact .inl ⟨_, .lineFeed, behind⟩
      | innerLineFeed inside => exact .inl ⟨_, .innerLineFeed inside, behind⟩
      | separator => exact .inl ⟨_, .separator, behind⟩
      | blank level noFeed isBlank =>
          rw [← behind.isIndented] at level
          exact .inl ⟨_, .blank level noFeed isBlank, behind⟩
      | comment => exact .inl ⟨_, .comment, behind.restOfLine⟩
      | string isQuote read =>
          obtain ⟨left, found, trims⟩ := behind.scanString isQuote read
          exact .inl ⟨left, .string isQuote found, trims⟩
      | number isDigit isNumber =>
          obtain ⟨same, trims⟩ := behind.word not_isNumberChar_of_isBlank
          rw [← same] at isNumber
          exact .inl ⟨_, .number isDigit isNumber, trims⟩
      | name starts =>
          obtain ⟨same, trims⟩ := behind.word not_isNameChar_of_isBlank
          rw [← same]
          exact .inl ⟨_, .name starts, trims⟩
      | symbol isSymbol counted => exact .inl ⟨_, .symbol isSymbol counted, behind⟩

/-- Behind the blanks of a line outside of brackets no statement begins. -/
theorem Divides.endStatement {fresh : Bool} {text : List Char} {tokens : List Token}
    (divides : Divides 0 fresh text tokens) (nothing : firstInLine? text = none) :
    EndStatement tokens := by
  generalize outside : 0 = depth at divides
  induction divides with
  | done => simp [EndStatement]
  | @more depth now fresh start text rest taken others takes divides ih =>
      subst outside
      cases text with
      | nil => cases takes
      | cons c text =>
          have isBlank := isBlank_of_firstInLine? nothing
          obtain ⟨rfl, rfl, ⟨rfl, _, inside⟩ | ⟨rfl, _⟩⟩ := takes.of_isBlank isBlank
          · have noFeed : c ≠ '\n' := fun feed => inside feed rfl
            exact ih (by simpa [firstInLine?, noFeed, isBlank] using nothing) rfl
          · simp [EndStatement]

/-- Newlines are left out of tokens where another newline follows, or nothing. -/
inductive Thins : List Token → List Token → Prop
  | nil : Thins [] []
  | keep (token : Token) {tokens others : List Token} (rest : Thins tokens others) :
      Thins (token :: tokens) (token :: others)
  | drop {tokens others : List Token} (ends : EndStatement tokens) (rest : Thins tokens others) :
      Thins (.newline :: tokens) others

theorem Thins.append (taken : List Token) {tokens others : List Token}
    (thins : Thins tokens others) : Thins (taken ++ tokens) (taken ++ others) := by
  induction taken with
  | nil => exact thins
  | cons token taken ih => exact .keep token ih

/-- Leaving blanks out of a text leaves newlines out of its tokens, and nothing else. -/
theorem Divides.trims {depth : Nat} {fresh : Bool} {text trimmed : List Char} {tokens : List Token}
    (divides : Divides depth fresh text tokens) (trims : Trims text trimmed) :
    ∃ others, Divides depth fresh trimmed others ∧ Thins tokens others := by
  induction divides generalizing trimmed with
  | done =>
      cases trims
      exact ⟨[], .done, .nil⟩
  | more takes divides ih =>
      rcases takes.trims trims with ⟨left, again, behind⟩ | ⟨behind, nothing, rfl, skipped⟩
      · obtain ⟨others, dividesLeft, thins⟩ := ih behind
        exact ⟨_, .more again dividesLeft, thins.append _⟩
      · -- The text goes on in the same line or behind it, but it starts no line that is indented.
        obtain ⟨others, dividesLeft, thins⟩ := ih behind
        have level : isIndented trimmed = false := by
          apply not_isIndented_of_firstInLine?
          rw [behind.firstInLine?, nothing]
        refine ⟨others, dividesLeft.of_not_isIndented level _, ?_⟩
        rcases skipped with rfl | ⟨rfl, rfl⟩
        · exact thins
        · exact .drop (divides.endStatement nothing) thins

/-! ### Statements -/

theorem Derives.newline_not_mem {phrase : Phrase} {tokens : List Token}
    (derives : Derives phrase tokens) : Token.newline ∉ tokens := by
  induction derives with
  | _ => simp_all

theorem DerivesStatement.newline_not_mem {statement : Statement} {tokens : List Token}
    (derives : DerivesStatement statement tokens) : Token.newline ∉ tokens := by
  cases derives with
  | expr h => exact h.newline_not_mem
  | assign left _ right => simp [left.newline_not_mem, right.newline_not_mem]

theorem DerivesStatements.of_newline {statements : List Statement} {tokens : List Token}
    (derives : DerivesStatements statements (.newline :: tokens)) :
    DerivesStatements statements tokens := by
  have parsed := derives.parse
  rw [parse_newline] at parsed
  exact derivesStatements_of_parse parsed

namespace Thins

theorem endStatement {tokens others : List Token} (thins : Thins tokens others)
    (ends : EndStatement tokens) : EndStatement others := by
  induction thins with
  | nil => exact ends
  | keep token rest ih => exact ends
  | drop behind rest ih => exact ih behind

theorem of_append {front tokens others : List Token} (noNewline : Token.newline ∉ front)
    (thins : Thins (front ++ tokens) others) :
    ∃ left, others = front ++ left ∧ Thins tokens left := by
  induction front generalizing others with
  | nil => exact ⟨others, rfl, thins⟩
  | cons token front ih =>
      obtain ⟨first, noNewline⟩ := not_or.mp (mt List.mem_cons.mpr noNewline)
      cases thins with
      | keep _ rest =>
          obtain ⟨left, rfl, behind⟩ := ih noNewline rest
          exact ⟨left, rfl, behind⟩
      | drop => exact absurd rfl first

/-- The same statements are read from tokens where newlines are left out. -/
theorem derivesStatements {statements : List Statement} {tokens others : List Token}
    (thins : Thins tokens others) (derives : DerivesStatements statements tokens) :
    DerivesStatements statements others := by
  -- a newline that is left out stood in front of a newline or at the end, never inside a statement
  induction derives generalizing others with
  | none =>
      cases thins
      exact .none
  | newline rest ih =>
      cases thins with
      | keep _ behind => exact .newline (ih behind)
      | drop _ behind => exact ih behind
  | @last statement tokens h =>
      rw [← List.append_nil tokens] at thins
      obtain ⟨left, rfl, behind⟩ := thins.of_append h.newline_not_mem
      cases behind
      rw [List.append_nil]
      exact .last h
  | more first rest ih =>
      obtain ⟨left, rfl, behind⟩ := thins.of_append first.newline_not_mem
      cases behind with
      | keep _ behind => exact .more first (ih behind)
      -- the newline between two statements can only go if another one follows, or no statement
      | drop ends behind =>
          have derives := ih behind
          have endsLeft := behind.endStatement ends
          cases left with
          | nil =>
              have none := derives.parse
              rw [parse_nil] at none
              cases none
              rw [List.append_nil]
              exact .last first
          | cons token left =>
              obtain rfl : token = .newline := endsLeft token rfl
              exact .more first derives.of_newline

end Thins

end Interop.Script
