import Interop.Proofs.Script.Composition
/-!
String literals and the quotes that close them.

A literal that is read goes up to the first quote of its own kind with no backslash in front of it.
The last literal of a source may do without: a backslash that is the very last character counts as
the closing quote. So a source that ends inside a literal is refused, unless it ends in such a
backslash; and then it is read as if the backslash were the quote.
-/

set_option autoImplicit false

namespace Interop.Script

/-! ### One literal -/

/-- What a backslash and a character stand for inside of a literal. -/
def unescaped : Char → Char
  | 'n' => '\n'
  | 't' => '\t'
  | c => c

/-- What can stand between the quotes of a literal, and the text that it stands for. -/
inductive Spells (quote : Char) : List Char → List Char → Prop
  | nil : Spells quote [] []
  | escape (c : Char) {raw text : List Char} (rest : Spells quote raw text) :
      Spells quote ('\\' :: c :: raw) (unescaped c :: text)
  | plain {c : Char} {raw text : List Char} (noEscape : c ≠ '\\') (noQuote : c ≠ quote)
      (noFeed : c ≠ '\n') (rest : Spells quote raw text) : Spells quote (c :: raw) (c :: text)

section Literal

variable {quote : Char} {raw text content after : List Char}

theorem ne_backslash_of_isQuote (isQuote : quote = '\'' ∨ quote = '"') : quote ≠ '\\' := by
  rcases isQuote with rfl | rfl
  · decide
  · decide

theorem scanString_escape (quote c : Char) (rest : List Char) :
    scanString quote ('\\' :: c :: rest) =
      (scanString quote rest).map fun read => (unescaped c :: read.1, read.2) := by
  unfold unescaped
  split
  · rw [scanString]
  · rw [scanString]
  · rename_i notFeed notTab
    rw [scanString]
    · exact notFeed
    · exact notTab

/-- A literal is read up to its closing quote, or up to a backslash at the end of the source. -/
theorem Spells.scanString (noEscape : quote ≠ '\\') (spells : Spells quote raw content)
    (after : List Char) :
    Script.scanString quote (raw ++ quote :: after) = some (content, after) ∧
      Script.scanString quote (raw ++ ['\\']) = some (content, []) := by
  induction spells with
  | nil =>
      constructor
      · rw [List.nil_append, scanString_plain noEscape, if_pos rfl]
      · rw [List.nil_append, Script.scanString]
  | escape c rest ih => simp [scanString_escape, ih]
  | plain noEscape noQuote noFeed rest ih =>
      simp [scanString_plain noEscape, noQuote, noFeed, ih]

theorem spells_of_scanString (read : scanString quote text = some (content, after)) :
    ∃ raw, Spells quote raw content ∧
      (text = raw ++ quote :: after ∨ (text = raw ++ ['\\'] ∧ after = [])) := by
  have escaped : ∀ (c : Char) {rest inside : List Char},
      (∃ raw, Spells quote raw inside ∧
        (rest = raw ++ quote :: after ∨ (rest = raw ++ ['\\'] ∧ after = []))) →
      ∃ raw, Spells quote raw (unescaped c :: inside) ∧ ('\\' :: c :: rest = raw ++ quote :: after ∨
        ('\\' :: c :: rest = raw ++ ['\\'] ∧ after = [])) := by
    rintro c rest inside ⟨raw, spells, ends⟩
    exact ⟨'\\' :: c :: raw, .escape c spells, by simpa using ends⟩
  -- by the recursion of the scanner, which has three cases for the one rule about escapes
  fun_induction scanString quote text generalizing content with
  | case1 => cases read
  | case2 rest ih =>
      obtain ⟨⟨inside, _⟩, readRest, same⟩ := Option.map_eq_some_iff.mp read
      cases same
      exact escaped 'n' (ih readRest)
  | case3 rest ih =>
      obtain ⟨⟨inside, _⟩, readRest, same⟩ := Option.map_eq_some_iff.mp read
      cases same
      exact escaped 't' (ih readRest)
  | case4 c rest notFeed notTab ih =>
      obtain ⟨⟨inside, _⟩, readRest, same⟩ := Option.map_eq_some_iff.mp read
      cases same
      have itself : unescaped c = c := by
        unfold unescaped
        split
        · exact absurd rfl notFeed
        · exact absurd rfl notTab
        · rfl
      simpa [itself] using escaped c (ih readRest)
  | case5 =>
      cases read
      exact ⟨[], .nil, .inr ⟨rfl, rfl⟩⟩
  | case6 rest =>
      cases read
      exact ⟨[], .nil, .inl rfl⟩
  | case7 => cases read
  | case8 c rest notFeed notTab notEscape notLast notQuote notEnd ih =>
      obtain ⟨⟨inside, _⟩, readRest, same⟩ := Option.map_eq_some_iff.mp read
      cases same
      obtain ⟨raw, spells, ends⟩ := ih readRest
      have noEscape : c ≠ '\\' := ne_backslash notEscape notLast
      exact ⟨c :: raw, .plain noEscape notQuote notEnd spells, by simpa using ends⟩

theorem scanString_eq_some_iff (noEscape : quote ≠ '\\') :
    scanString quote text = some (content, after) ↔ ∃ raw, Spells quote raw content ∧
      (text = raw ++ quote :: after ∨ (text = raw ++ ['\\'] ∧ after = [])) := by
  constructor
  · exact spells_of_scanString
  · rintro ⟨raw, spells, rfl | ⟨rfl, rfl⟩⟩
    · exact (spells.scanString noEscape after).1
    · exact (spells.scanString noEscape []).2

theorem Spells.atEnd (spells : Spells quote raw content) :
    (Place.literal quote).atEnd raw = .literal quote := by
  induction spells with
  | nil => rfl
  | escape c rest ih =>
      rw [Place.atEnd_cons, Place.atEnd_cons, Place.after, if_pos rfl]
      exact ih
  | plain noEscape noQuote noFeed rest ih =>
      rw [Place.atEnd_cons, Place.after, if_neg noEscape, if_neg noQuote]
      exact ih

end Literal

theorem Place.atEnd_append (place : Place) (text more : List Char) :
    place.atEnd (text ++ more) = (place.atEnd text).atEnd more := List.foldl_append

theorem Place.after_quote {quote : Char} (isQuote : quote = '\'' ∨ quote = '"') :
    Place.code.after quote = .literal quote := by
  rcases isQuote with rfl | rfl
  · rfl
  · rfl

def Place.Opened : Place → Prop
  | .code | .comment => True
  | .literal quote | .escape quote => quote = '\'' ∨ quote = '"'

theorem Place.Opened.after {place : Place} (opened : place.Opened) (c : Char) :
    (place.after c).Opened := by
  fun_cases Place.after place c with
  | case1 => trivial
  | case2 _ _ isQuote => exact isQuote
  | case3 => trivial
  | case4 => trivial
  | case5 => trivial
  | case6 => exact opened
  | case7 => trivial
  | case8 => exact opened
  | case9 => exact opened

theorem Place.Opened.atEnd {place : Place} (opened : place.Opened) (text : List Char) :
    (place.atEnd text).Opened := by
  induction text generalizing place with
  | nil => exact opened
  | cons c rest ih => exact ih (opened.after c)

theorem Place.isQuote_of_atEnd {text : List Char} {quote : Char}
    (inside : Place.code.atEnd text = .literal quote) : quote = '\'' ∨ quote = '"' := by
  have started : Place.code.Opened := trivial
  have opened := started.atEnd text
  rw [inside] at opened
  exact opened

theorem Place.after_closing {quote : Char} (noEscape : quote ≠ '\\') :
    (Place.literal quote).after quote = .code := by
  rw [Place.after, if_neg noEscape, if_pos rfl]

/-! ### All literals of a text -/

/-- The literals of a text from a place on that is outside of all literals, each told by the text
that it stands for. The text is gone through from left to right and comments are skipped. Every
literal has a closing quote; but the last one may end in a backslash with nothing behind it. -/
inductive Literals : Place → List Char → List String → Prop
  | done {place : Place} (outside : place.Closed) : Literals place [] []
  | skip {place : Place} {c : Char} {rest : List Char} {contents : List String}
      (outside : place.Closed) (stays : (place.after c).Closed)
      (more : Literals (place.after c) rest contents) : Literals place (c :: rest) contents
  | closed {quote : Char} {raw content after : List Char} {contents : List String}
      (isQuote : quote = '\'' ∨ quote = '"') (spells : Spells quote raw content)
      (more : Literals .code after contents) :
      Literals .code (quote :: (raw ++ quote :: after)) (String.ofList content :: contents)
  | cut {quote : Char} {raw content : List Char} (isQuote : quote = '\'' ∨ quote = '"')
      (spells : Spells quote raw content) :
      Literals .code (quote :: (raw ++ ['\\'])) [String.ofList content]

def Token.text? : Token → Option String
  | .string text => some text
  | _ => none

namespace Literals

variable {place : Place} {text : List Char} {contents : List String}

theorem code {c : Char} (stays : Place.code.after c = .code)
    (more : Literals .code text contents) : Literals .code (c :: text) contents := by
  rw [← stays] at more
  exact skip (.inl rfl) (.inl stays) more

theorem word {p : Char → Bool} (noComment : p '#' = false) (noSingle : p '\'' = false)
    (noDouble : p '"' = false) (more : Literals .code (text.dropWhile p) contents) :
    Literals .code text contents := by
  induction text with
  | nil => exact more
  | cons c rest ih =>
      cases inside : p c with
      | false => simpa [inside] using more
      | true =>
          rw [List.dropWhile_cons_of_pos inside] at more
          exact code (Place.after_class noComment noSingle noDouble inside) (ih more)

theorem comment (more : Literals .code (text.dropWhile (· ≠ '\n')) contents) :
    Literals .comment text contents := by
  induction text with
  | nil =>
      cases more
      exact done (.inr rfl)
  | cons c rest ih =>
      by_cases ends : c = '\n'
      · subst ends
        have more : Literals .code ('\n' :: rest) contents := by simpa using more
        generalize same : '\n' :: rest = all at more
        cases more with
        | done => cases same
        | skip _ _ more =>
            cases same
            exact skip (.inr rfl) (.inl rfl) more
        -- a line feed opens no literal
        | closed isQuote =>
            cases same
            exact absurd isQuote (by decide)
        | cut isQuote =>
            cases same
            exact absurd isQuote (by decide)
      · have stays : Place.comment.after c = .comment := by simp [Place.after, ends]
        have behind : Literals .comment rest contents := ih (by simpa [ends] using more)
        rw [← stays] at behind
        exact skip (.inr rfl) (.inr stays) behind

/-- Where the literals of a text leave off: outside of all, or in one that ends in a backslash. -/
theorem atEnd (literals : Literals place text contents) :
    (place.atEnd text).Closed ∨ ∃ before quote raw content,
      text = before ++ quote :: (raw ++ ['\\']) ∧ place.atEnd before = .code ∧
        (quote = '\'' ∨ quote = '"') ∧ Spells quote raw content := by
  induction literals with
  | done outside => exact .inl outside
  | skip outside stays more ih =>
      rcases ih with ended | ⟨before, quote, raw, content, rfl, inCode, isQuote, spells⟩
      · exact .inl ended
      · exact .inr ⟨_ :: before, quote, raw, content, rfl, inCode, isQuote, spells⟩
  | @closed quote raw content after contents isQuote spells more ih =>
      -- a literal with both of its quotes leads from code to code
      have passed : Place.code.atEnd (quote :: (raw ++ [quote])) = .code := by
        rw [Place.atEnd_cons, Place.after_quote isQuote, Place.atEnd_append, spells.atEnd]
        exact Place.after_closing (ne_backslash_of_isQuote isQuote)
      have split : quote :: (raw ++ quote :: after) = quote :: (raw ++ [quote]) ++ after := by simp
      rw [split, Place.atEnd_append, passed]
      rcases ih with ended | ⟨before, last, left, other, rfl, inCode, isLast, spellsLast⟩
      · exact .inl ended
      · refine .inr ⟨quote :: (raw ++ [quote]) ++ before, last, left, other, by simp, ?_, isLast,
          spellsLast⟩
        rw [Place.atEnd_append, passed, inCode]
  | @cut quote raw content isQuote spells =>
      exact .inr ⟨[], quote, raw, content, rfl, rfl, isQuote, spells⟩

theorem atEnd_ne_literal (literals : Literals .code text contents) (quote : Char) :
    Place.code.atEnd text ≠ .literal quote := by
  intro inside
  rcases literals.atEnd with ended | ⟨before, own, raw, content, rfl, inCode, isQuote, spells⟩
  · rw [inside] at ended
    rcases ended with ended | ended
    · cases ended
    · cases ended
  · rw [Place.atEnd_append, inCode, Place.atEnd_cons, Place.after_quote isQuote,
      Place.atEnd_append, spells.atEnd] at inside
    cases inside

end Literals

theorem text?_of_numberToken {text : List Char} {token : Token}
    (isNumber : numberToken text = some token) : token.text? = none := by
  unfold numberToken at isNumber
  split at isNumber
  · obtain ⟨value, _, rfl⟩ := Option.map_eq_some_iff.mp isNumber
    rfl
  · split at isNumber
    · cases isNumber
    · cases isNumber
      rfl

theorem Takes.literals {depth now : Nat} {fresh start : Bool} {text rest : List Char}
    {taken : List Token} {contents : List String}
    (takes : Takes depth fresh text taken now start rest) (more : Literals .code rest contents) :
    Literals .code text (taken.filterMap Token.text? ++ contents) := by
  cases takes with
  | lineFeed => exact .code rfl more
  | innerLineFeed => exact .code rfl more
  | separator => exact .code rfl more
  | blank _ _ isBlank => exact .code (Place.after_blank isBlank) more
  | comment => exact .skip (.inl rfl) (.inr rfl) (.comment more)
  | string isQuote read =>
      obtain ⟨raw, spells, rfl | ⟨rfl, rfl⟩⟩ := spells_of_scanString read
      · exact .closed isQuote spells more
      · cases more
        exact .cut isQuote spells
  | number isDigit isNumber =>
      have behind : Literals .code _ contents := more.word (by decide) (by decide) (by decide)
      simpa [text?_of_numberToken isNumber] using behind.code (Place.after_digit isDigit)
  | name starts =>
      have behind : Literals .code _ contents := more.word (by decide) (by decide) (by decide)
      exact behind.code (Place.after_nameStart starts)
  | symbol isSymbol _ => exact .code (Place.after_symbol isSymbol) more

/-- The string tokens of a text are its literals, in order. -/
theorem Divides.literals {depth : Nat} {fresh : Bool} {text : List Char} {tokens : List Token}
    (divides : Divides depth fresh text tokens) :
    Literals .code text (tokens.filterMap Token.text?) := by
  induction divides with
  | done => exact .done (.inl rfl)
  | more takes rest ih =>
      rw [List.filterMap_append]
      exact takes.literals ih

/-! ### Lines -/

/-- The first character of a line that is not blank. -/
def firstInLine? : List Char → Option Char
  | [] => none
  | c :: rest => if c = '\n' then none else if Text.isBlank c then firstInLine? rest else some c

theorem isBlank_lineFeed : Text.isBlank '\n' = true := by decide

theorem firstInLine?_eq_head? (text : List Char) :
    firstInLine? text = ((text.takeWhile (· ≠ '\n')).dropWhile Text.isBlank).head? := by
  induction text with
  | nil => rfl
  | cons c rest ih =>
      by_cases ends : c = '\n'
      · simp [firstInLine?, ends]
      · by_cases isBlank : Text.isBlank c = true
        · simp [firstInLine?, ends, isBlank, ih]
        · simp [firstInLine?, ends, isBlank]

theorem head?_trim (line : List Char) :
    (Text.trim line).head? = (line.dropWhile Text.isBlank).head? := by
  unfold Text.trim
  cases left : line.dropWhile Text.isBlank with
  | nil => rfl
  | cons first rest =>
      have visible : Text.isBlank first = false := by
        have outside := List.head?_dropWhile_not Text.isBlank line
        simpa [left] using outside
      rw [List.reverse_cons, List.dropWhile_append]
      split
      · simp [visible]
      · simp

/-- A line is indented if it starts with a space or a tab, and anything but a comment follows. -/
theorem isIndented_eq (c : Char) (rest : List Char) :
    isIndented (c :: rest) = ((c == ' ' || c == '\t') &&
      match firstInLine? (c :: rest) with
      | none => false
      | some first => first != '#') := by
  rw [firstInLine?_eq_head?, ← head?_trim]
  unfold isIndented
  dsimp only
  cases Text.trim ((c :: rest).takeWhile (· ≠ '\n')) with
  | nil => rfl
  | cons first more => rfl

theorem not_isIndented_of_firstInLine? {text : List Char} (nothing : firstInLine? text = none) :
    isIndented text = false := by
  cases text with
  | nil => rfl
  | cons c rest => simp [isIndented_eq, nothing]

theorem firstInLine?_of_visible {c : Char} (visible : Text.isBlank c = false) (rest : List Char) :
    firstInLine? (c :: rest) = some c := by
  have noFeed : c ≠ '\n' := by
    rintro rfl
    exact Bool.noConfusion (isBlank_lineFeed.symm.trans visible)
  simp [firstInLine?, noFeed, visible]

theorem isBlank_of_firstInLine? {c : Char} {rest : List Char}
    (nothing : firstInLine? (c :: rest) = none) : Text.isBlank c = true := by
  cases isBlank : Text.isBlank c with
  | true => rfl
  | false => cases (firstInLine?_of_visible isBlank rest).symm.trans nothing

theorem firstInLine?_of_isBlank {c : Char} {rest : List Char} (isBlank : Text.isBlank c = true)
    (nothing : firstInLine? rest = none) : firstInLine? (c :: rest) = none := by
  simp [firstInLine?, isBlank, nothing]

/-! ### The last character -/

/-- A line with a visible character looks the same with more behind it; and before a visible
character there is no literal. -/
theorem firstInLine?_append (text more : List Char) :
    firstInLine? (text ++ more) = firstInLine? text ∨ Place.code.atEnd text = .code := by
  induction text with
  | nil => exact .inr rfl
  | cons c rest ih =>
      rw [List.cons_append, firstInLine?, firstInLine?]
      split
      · exact .inl rfl
      · split
        · rename_i isBlank
          rw [Place.atEnd_cons, Place.after_blank isBlank]
          exact ih
        · exact .inl rfl

theorem isIndented_append {c : Char} {text : List Char}
    (notCode : Place.code.atEnd (c :: text) ≠ .code) (more : List Char) :
    isIndented (c :: (text ++ more)) = isIndented (c :: text) := by
  rw [isIndented_eq, isIndented_eq]
  rcases firstInLine?_append (c :: text) more with same | inCode
  · rw [← same]
    rfl
  · exact absurd inCode notCode

section Last

/- The last character of a text stands inside of a literal with the quote. It is the quote or a
backslash; so the literal ends with it, and it could as well be the other of the two. -/
variable {quote x : Char} (isQuote : quote = '\'' ∨ quote = '"') (isLast : x = quote ∨ x = '\\')

include isQuote isLast

theorem scanString_concat {own y : Char} {text content after : List Char}
    (isOwn : own = '\'' ∨ own = '"') (other : y = quote ∨ y = '\\')
    (inside : (Place.literal own).atEnd text = .literal quote)
    (read : scanString own (text ++ [x]) = some (content, after)) :
    (after = [] ∧ scanString own (text ++ [y]) = some (content, [])) ∨
      ∃ left, after = left ++ [x] ∧ scanString own (text ++ [y]) = some (content, left ++ [y]) ∧
        Place.code.atEnd left = .literal quote := by
  have noEscape := ne_backslash_of_isQuote isOwn
  obtain ⟨raw, spells, ends⟩ := spells_of_scanString read
  have whole : text = raw → scanString own (text ++ [y]) = some (content, []) := by
    rintro rfl
    rw [spells.atEnd] at inside
    obtain rfl : own = quote := Place.literal.inj inside
    rcases other with rfl | rfl
    · exact (spells.scanString noEscape []).1
    · exact (spells.scanString noEscape []).2
  rcases ends with ends | ⟨ends, rfl⟩
  · rcases List.eq_nil_or_concat after with rfl | ⟨left, last, rfl⟩
    · exact .inl ⟨rfl, whole (List.append_inj_left' ends rfl)⟩
    · rw [List.concat_eq_append, ← List.cons_append, ← List.append_assoc] at ends
      obtain ⟨rfl, same⟩ := List.append_inj' ends rfl
      obtain rfl : x = last := by simpa using same
      rw [Place.atEnd_append, spells.atEnd, Place.atEnd_cons, Place.after_closing noEscape] at inside
      have found := (spells.scanString noEscape (left ++ [y])).1
      exact .inr ⟨left, List.concat_eq_append, by simpa using found, inside⟩
  · exact .inl ⟨rfl, whole (List.append_inj_left' ends rfl)⟩

/-- What is taken from the front of the text does not depend on which of the two it ends with. -/
theorem Takes.concat {depth now : Nat} {fresh start : Bool} {y : Char} {text rest : List Char}
    {taken : List Token} (other : y = quote ∨ y = '\\')
    (inside : Place.code.atEnd text = .literal quote)
    (takes : Takes depth fresh (text ++ [x]) taken now start rest) :
    (rest = [] ∧ Takes depth fresh (text ++ [y]) taken now start []) ∨
      ∃ left, rest = left ++ [x] ∧ Takes depth fresh (text ++ [y]) taken now start (left ++ [y]) ∧
        Place.code.atEnd left = .literal quote := by
  have outside : ∀ {p : Char → Bool}, p '\'' = false → p '"' = false → p '\\' = false →
      ∀ {z : Char}, z = quote ∨ z = '\\' → p z = false := by
    intro p noSingle noDouble noEscape z isLast
    rcases isLast with rfl | rfl
    · rcases isQuote with rfl | rfl
      · exact noSingle
      · exact noDouble
    · exact noEscape
  cases text with
  | nil => cases inside
  | cons c text =>
      rw [List.cons_append] at takes ⊢
      rw [Place.atEnd_cons] at inside
      generalize same : c :: (text ++ [x]) = all at takes
      cases takes with
      | lineFeed =>
          cases same
          exact .inr ⟨text, rfl, .lineFeed, inside⟩
      | innerLineFeed isOpen =>
          cases same
          exact .inr ⟨text, rfl, .innerLineFeed isOpen, inside⟩
      | separator =>
          cases same
          exact .inr ⟨text, rfl, .separator, inside⟩
      | blank level noFeed isBlank =>
          cases same
          rw [Place.after_blank isBlank] at inside
          have notCode : Place.code.atEnd (c :: text) ≠ .code := by
            rw [Place.atEnd_cons, Place.after_blank isBlank, inside]
            exact nofun
          -- there is more on the line than the last character, so that it does not matter here
          rw [isIndented_append notCode, ← isIndented_append notCode [y]] at level
          exact .inr ⟨text, rfl, .blank level noFeed isBlank, inside⟩
      | comment =>
          cases same
          change Place.comment.atEnd text = .literal quote at inside
          rw [Place.atEnd_comment] at inside
          split at inside
          · cases inside
          · rename_i something
            have left : ∀ z, (text ++ [z]).dropWhile (· ≠ '\n') =
                text.dropWhile (· ≠ '\n') ++ [z] := by
              intro z
              rw [List.dropWhile_append, if_neg (by simpa using something)]
            refine .inr ⟨_, left x, ?_, inside⟩
            rw [← left y]
            exact .comment
      | string isOwn read =>
          cases same
          rw [Place.after_quote isOwn] at inside
          rcases scanString_concat isQuote isLast isOwn other inside read with
            ⟨rfl, found⟩ | ⟨left, rfl, found, inside⟩
          · exact .inl ⟨rfl, .string isOwn found⟩
          · exact .inr ⟨left, rfl, .string isOwn found, inside⟩
      | number isDigit isNumber =>
          cases same
          have noNumber : ∀ {z : Char}, z = quote ∨ z = '\\' → isNumberChar z = false :=
            outside (by decide) (by decide) (by decide)
          rw [Place.after_digit isDigit,
            Place.atEnd_word (p := isNumberChar) (by decide) (by decide) (by decide)] at inside
          rw [takeWhile_append_cons (noNumber isLast), ← takeWhile_append_cons (noNumber other)]
            at isNumber
          refine .inr ⟨_, dropWhile_append_cons (noNumber isLast) text, ?_, inside⟩
          rw [← dropWhile_append_cons (noNumber other)]
          exact .number isDigit isNumber
      | name starts =>
          cases same
          have noName : ∀ {z : Char}, z = quote ∨ z = '\\' → isNameChar z = false :=
            outside (by decide) (by decide) (by decide)
          rw [Place.after_nameStart starts,
            Place.atEnd_word (p := isNameChar) (by decide) (by decide) (by decide)] at inside
          refine .inr ⟨_, dropWhile_append_cons (noName isLast) text, ?_, inside⟩
          rw [takeWhile_append_cons (noName isLast), ← takeWhile_append_cons (noName other),
            ← dropWhile_append_cons (noName other)]
          exact .name starts
      | symbol isSymbol counted =>
          cases same
          rw [Place.after_symbol isSymbol] at inside
          exact .inr ⟨text, rfl, .symbol isSymbol counted, inside⟩

theorem Divides.concat {depth : Nat} {fresh : Bool} {y : Char} {text : List Char}
    {tokens : List Token} (other : y = quote ∨ y = '\\')
    (inside : Place.code.atEnd text = .literal quote)
    (divides : Divides depth fresh (text ++ [x]) tokens) :
    Divides depth fresh (text ++ [y]) tokens := by
  generalize same : text ++ [x] = all at divides
  induction divides generalizing text with
  | done => cases List.append_ne_nil_of_right_ne_nil text (List.cons_ne_nil x []) same
  | more takes rest ih =>
      subst same
      -- either the literal with the last character is taken, or something in front of it
      rcases takes.concat isQuote isLast other inside with ⟨rfl, again⟩ | ⟨left, rfl, again, inside⟩
      · exact .more again rest
      · exact .more again (ih inside rfl)

end Last

/-! ### Sources -/

/-- A source that ends inside of a literal is refused. The string tokens of a source that is not
refused are its literals, and all of them have a closing quote but for one that ends in a backslash
at the end of the source. Such a backslash always counts as the quote. -/
theorem tokenize_literals (source : String) :
    (∀ quote, Place.code.atEnd source.toList = .literal quote →
      ∃ fault, tokenize source = .error fault) ∧
    (∀ tokens, tokenize source = .ok tokens →
      Literals .code source.toList (tokens.filterMap Token.text?)) ∧
    (∀ quote tokens, Place.code.atEnd source.toList = .literal quote →
      (tokenize (source ++ "\\") = .ok tokens ↔ tokenize (source.push quote) = .ok tokens)) := by
  have literals : ∀ tokens, tokenize source = .ok tokens →
      Literals .code source.toList (tokens.filterMap Token.text?) :=
    fun tokens read => (scan_eq_ok_iff.mp read).literals
  refine ⟨?_, literals, ?_⟩
  · intro quote inside
    cases read : tokenize source with
    | error fault => exact ⟨fault, rfl⟩
    | ok tokens => exact absurd inside ((literals tokens read).atEnd_ne_literal quote)
  · intro quote tokens inside
    have isQuote := Place.isQuote_of_atEnd inside
    have cut : (source ++ "\\").toList = source.toList ++ ['\\'] := by simp
    have closed : (source.push quote).toList = source.toList ++ [quote] := by simp
    rw [tokenize, tokenize, cut, closed, scan_eq_ok_iff, scan_eq_ok_iff]
    exact ⟨Divides.concat isQuote (.inr rfl) (.inl rfl) inside,
      Divides.concat isQuote (.inl rfl) (.inr rfl) inside⟩

/-- A literal that is not closed, that is closed, and that a backslash closes. -/
theorem tokenize_literals_assignment :
    (∃ fault, tokenize "x = 'abc" = .error fault) ∧
    Literals .code "x = 'abc'".toList ["abc"] ∧
    ∀ tokens, tokenize ("x = 'abc" ++ "\\") = .ok tokens ↔
      tokenize ("x = 'abc".push '\'') = .ok tokens := by
  have inside : Place.code.atEnd "x = 'abc".toList = .literal '\'' := by decide +kernel
  have read : tokenize "x = 'abc'" = .ok [.name "x", .op '=', .string "abc"] := by decide +kernel
  refine ⟨(tokenize_literals "x = 'abc").1 _ inside, ?_, ?_⟩
  · exact (tokenize_literals "x = 'abc'").2.1 _ read
  · intro tokens
    exact (tokenize_literals "x = 'abc").2.2 _ tokens inside

theorem unclosed_literal_accepted :
    ¬ ClosesLiterals "'abc\\" ∧ tokenize "'abc\\" = .ok [.string "abc"] := by
  constructor
  · decide
  · decide +kernel

end Interop.Script
