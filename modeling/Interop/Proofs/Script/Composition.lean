import Interop.Proofs.Execution
import Interop.Proofs.Script.Parsing
import Interop.Proofs.Script.Division
/-!
Two sources with a line feed between them are one source: its tokens are those of the first, a
newline and those of the second, its statements are those of both, and it runs them in order.

The line feed ends a comment, a number and a name as the end of the source does, but inside a
string literal it would be a part of the literal or an error. Whether a literal is open at the end
of a text is told from the text alone, one character after the other.
-/

set_option autoImplicit false

namespace Interop.Script

variable {κ σ : Type}

/-! ### String literals -/

/-- Where in a source a character stands. -/
inductive Place
  | code
  | comment
  /-- Inside a string literal. -/
  | literal (quote : Char)
  /-- After a backslash inside a string literal. -/
  | escape (quote : Char)
  deriving DecidableEq

/-- The place after a character. -/
def Place.after : Place → Char → Place
  | .code, c =>
    if c = '#' then .comment
    else if c = '\'' ∨ c = '"' then .literal c
    else .code
  | .comment, c => if c = '\n' then .code else .comment
  | .literal quote, c =>
    if c = '\\' then .escape quote
    else if c = quote then .code
    else .literal quote
  | .escape quote, _ => .literal quote

/-- The place after a text. -/
def Place.atEnd (place : Place) (text : List Char) : Place := text.foldl Place.after place

/-- No string literal is open at the place. -/
def Place.Closed (place : Place) : Prop := place = .code ∨ place = .comment

instance (place : Place) : Decidable place.Closed := by
  unfold Place.Closed
  infer_instance

/-- Every string literal of the source is closed in it. -/
def ClosesLiterals (source : String) : Prop := (Place.code.atEnd source.toList).Closed

instance (source : String) : Decidable (ClosesLiterals source) := by
  unfold ClosesLiterals
  infer_instance

theorem Place.atEnd_cons (place : Place) (c : Char) (text : List Char) :
    place.atEnd (c :: text) = (place.after c).atEnd text := rfl

/-- Characters that do not change the place can be left out. -/
theorem Place.atEnd_dropWhile {place : Place} {p : Char → Bool}
    (stays : ∀ c, p c = true → place.after c = place) (text : List Char) :
    place.atEnd text = place.atEnd (text.dropWhile p) := by
  induction text with
  | nil => rfl
  | cons c text ih =>
      cases inside : p c with
      | false => rw [List.dropWhile_cons_of_neg (by simp [inside])]
      | true => rw [List.dropWhile_cons_of_pos inside, Place.atEnd_cons, stays c inside, ih]

theorem Place.after_code {c : Char} (noComment : c ≠ '#') (noQuote : ¬ (c = '\'' ∨ c = '"')) :
    Place.code.after c = .code := by
  simp only [Place.after, if_neg noComment, if_neg noQuote]

/-- A character of a class without quotes and comment signs is code. -/
theorem Place.after_class {p : Char → Bool} (noComment : p '#' = false) (noSingle : p '\'' = false)
    (noDouble : p '"' = false) {c : Char} (inside : p c = true) : Place.code.after c = .code :=
  Place.after_code (ne_of_class noComment inside) (not_quote noSingle noDouble inside)

theorem Place.after_blank {c : Char} (isBlank : Text.isBlank c = true) :
    Place.code.after c = .code :=
  Place.after_class (by decide) (by decide) (by decide) isBlank

theorem Place.after_digit {c : Char} (isDigit : c.isDigit = true) : Place.code.after c = .code :=
  Place.after_class (by decide) (by decide) (by decide) isDigit

theorem Place.after_nameStart {c : Char} (starts : isNameStart c = true) :
    Place.code.after c = .code :=
  Place.after_class (by decide) (by decide) (by decide) starts

theorem Place.after_symbol {c : Char} (isSymbol : c ∈ symbols) : Place.code.after c = .code := by
  have plain : symbols.all (fun c => decide (Place.code.after c = .code)) = true := by decide
  exact of_decide_eq_true (List.all_eq_true.mp plain c isSymbol)

/-- The rest of a word is code. -/
theorem Place.atEnd_word {p : Char → Bool} (noComment : p '#' = false) (noSingle : p '\'' = false)
    (noDouble : p '"' = false) (text : List Char) :
    Place.code.atEnd text = Place.code.atEnd (text.dropWhile p) := by
  apply Place.atEnd_dropWhile
  exact fun c inside => Place.after_class noComment noSingle noDouble inside

/-- A comment ends with its line. -/
theorem Place.atEnd_comment (text : List Char) :
    Place.comment.atEnd text = if text.dropWhile (· ≠ '\n') = [] then .comment
      else Place.code.atEnd (text.dropWhile (· ≠ '\n')) := by
  have stays : ∀ c, decide (c ≠ '\n') = true → Place.comment.after c = .comment := by
    intro c other
    simp only [Place.after, if_neg (of_decide_eq_true other)]
  rw [Place.atEnd_dropWhile stays]
  cases left : text.dropWhile (· ≠ '\n') with
  | nil => rfl
  | cons c rest =>
      have ends : c = '\n' := by
        have outside := List.head?_dropWhile_not (fun c => decide (c ≠ '\n')) text
        rw [left] at outside
        simpa using outside
      subst ends
      rfl

/-- At the end of a text a comment is no open literal. -/
theorem Place.closed_comment_iff (text : List Char) :
    (Place.comment.atEnd text).Closed ↔
      (Place.code.atEnd (text.dropWhile (· ≠ '\n'))).Closed := by
  rw [Place.atEnd_comment]
  split
  · rename_i nothing
    rw [nothing]
    exact ⟨fun _ => .inl rfl, fun _ => .inr rfl⟩
  · rfl

/-! ### A line feed and more behind a text -/

section Behind

variable {more : List Char}

theorem takeWhile_append_cons {p : Char → Bool} {d : Char} (outside : p d = false)
    (text : List Char) : (text ++ d :: more).takeWhile p = text.takeWhile p := by
  induction text with
  | nil => simp [outside]
  | cons c text ih =>
      rw [List.cons_append]
      cases inside : p c with
      | false => rw [List.takeWhile_cons_of_neg (by simp [inside]),
          List.takeWhile_cons_of_neg (by simp [inside])]
      | true => rw [List.takeWhile_cons_of_pos inside, List.takeWhile_cons_of_pos inside, ih]

theorem dropWhile_append_cons {p : Char → Bool} {d : Char} (outside : p d = false)
    (text : List Char) : (text ++ d :: more).dropWhile p = text.dropWhile p ++ d :: more := by
  induction text with
  | nil => simp [outside]
  | cons c text ih =>
      rw [List.cons_append]
      cases inside : p c with
      | false => rw [List.dropWhile_cons_of_neg (by simp [inside]),
          List.dropWhile_cons_of_neg (by simp [inside]), List.cons_append]
      | true => rw [List.dropWhile_cons_of_pos inside, List.dropWhile_cons_of_pos inside, ih]

theorem takeWhile_lineFeed {p : Char → Bool} (outside : p '\n' = false) (text : List Char) :
    (text ++ '\n' :: more).takeWhile p = text.takeWhile p :=
  takeWhile_append_cons outside text

theorem dropWhile_lineFeed {p : Char → Bool} (outside : p '\n' = false) (text : List Char) :
    (text ++ '\n' :: more).dropWhile p = text.dropWhile p ++ '\n' :: more :=
  dropWhile_append_cons outside text

/-- A line is indented or not whatever lines come after it. -/
theorem isIndented_lineFeed (c : Char) (rest : List Char) :
    isIndented (c :: (rest ++ '\n' :: more)) = isIndented (c :: rest) := by
  unfold isIndented
  dsimp only
  rw [← List.cons_append, takeWhile_lineFeed (by decide)]

theorem ne_backslash {c : Char} {rest : List Char}
    (notEscape : ∀ d after, c = '\\' → rest = d :: after → False)
    (notLast : c = '\\' → rest = [] → False) : c ≠ '\\' := by
  rintro rfl
  cases rest with
  | nil => exact notLast rfl rfl
  | cons d after => exact notEscape d after rfl rfl

theorem scanString_plain {quote c : Char} (plain : c ≠ '\\') (rest : List Char) :
    scanString quote (c :: rest) =
      if c = quote then some ([], rest)
      else if c = '\n' then none
      else (scanString quote rest).map fun r => (c :: r.1, r.2) := by
  rw [scanString]
  all_goals
    intros
    contradiction

/-- A literal that is closed in a text is read from it whatever comes behind. -/
theorem scanString_append {quote : Char} {text content after : List Char}
    (read : scanString quote text = some (content, after))
    (closed : ((Place.literal quote).atEnd text).Closed) :
    scanString quote (text ++ more) = some (content, after ++ more) ∧
      (Place.literal quote).atEnd text = Place.code.atEnd after := by
  fun_induction scanString quote text generalizing content with
  | case1 => cases read
  | case2 rest ih =>
      obtain ⟨⟨inside, left⟩, readRest, same⟩ := Option.map_eq_some_iff.mp read
      cases same
      obtain ⟨behind, place⟩ := ih readRest closed
      refine ⟨?_, place⟩
      rw [List.cons_append, List.cons_append, scanString, behind]
      rfl
  | case3 rest ih =>
      obtain ⟨⟨inside, left⟩, readRest, same⟩ := Option.map_eq_some_iff.mp read
      cases same
      obtain ⟨behind, place⟩ := ih readRest closed
      refine ⟨?_, place⟩
      rw [List.cons_append, List.cons_append, scanString, behind]
      rfl
  | case4 c rest notFeed notTab ih =>
      obtain ⟨⟨inside, left⟩, readRest, same⟩ := Option.map_eq_some_iff.mp read
      cases same
      obtain ⟨behind, place⟩ := ih readRest closed
      refine ⟨?_, place⟩
      rw [List.cons_append, List.cons_append, scanString, behind]
      · rfl
      · exact notFeed
      · exact notTab
  | case5 =>
      -- A backslash at the very end leaves the literal open.
      rcases closed with closed | closed
      · cases closed
      · cases closed
  | case6 rest notFeed notTab notEscape notLast =>
      cases read
      have plain : quote ≠ '\\' := ne_backslash notEscape notLast
      refine ⟨?_, ?_⟩
      · rw [List.cons_append, scanString_plain plain, if_pos rfl]
      · rw [Place.atEnd_cons, Place.after, if_neg plain, if_pos rfl]
  | case7 => cases read
  | case8 c rest notFeed notTab notEscape notLast notQuote notEnd ih =>
      have plain : c ≠ '\\' := ne_backslash notEscape notLast
      have stays : (Place.literal quote).after c = .literal quote := by
        simp only [Place.after, if_neg plain, if_neg notQuote]
      rw [Place.atEnd_cons, stays] at closed ⊢
      obtain ⟨⟨inside, left⟩, readRest, same⟩ := Option.map_eq_some_iff.mp read
      cases same
      obtain ⟨behind, place⟩ := ih readRest closed
      refine ⟨?_, place⟩
      rw [List.cons_append, scanString_plain plain, if_neg notQuote, if_neg notEnd, behind]
      rfl

end Behind

/-! ### Texts one behind the other -/

/-- A text whose literals are closed is taken apart in the same way with another line behind it. -/
theorem Takes.append {depth now : Nat} {fresh start : Bool} {text rest : List Char}
    {taken : List Token} (takes : Takes depth fresh text taken now start rest)
    (closed : (Place.code.atEnd text).Closed) (more : List Char) :
    Takes depth fresh (text ++ '\n' :: more) taken now start (rest ++ '\n' :: more) ∧
      (Place.code.atEnd rest).Closed := by
  cases takes with
  | lineFeed => exact ⟨.lineFeed, closed⟩
  | innerLineFeed inside => exact ⟨.innerLineFeed inside, closed⟩
  | separator => exact ⟨.separator, closed⟩
  | blank level noFeed isBlank =>
      rw [Place.atEnd_cons, Place.after_blank isBlank] at closed
      refine ⟨?_, closed⟩
      rw [← isIndented_lineFeed] at level
      exact .blank level noFeed isBlank
  | comment =>
      refine ⟨?_, (Place.closed_comment_iff _).mp closed⟩
      rw [← dropWhile_lineFeed (by decide)]
      exact .comment
  | @string _ _ quote text content after isQuote read =>
      have opens : Place.code.after quote = .literal quote := by
        rcases isQuote with rfl | rfl
        · rfl
        · rfl
      rw [Place.atEnd_cons, opens] at closed
      obtain ⟨behind, place⟩ := scanString_append read closed
      exact ⟨.string isQuote behind, place ▸ closed⟩
  | @number _ _ c rest token isDigit isNumber =>
      rw [Place.atEnd_cons, Place.after_digit isDigit,
        Place.atEnd_word (p := isNumberChar) (by decide) (by decide) (by decide)] at closed
      refine ⟨?_, closed⟩
      rw [← dropWhile_lineFeed (by decide)]
      rw [← takeWhile_lineFeed (by decide)] at isNumber
      exact .number isDigit isNumber
  | @name _ _ c rest starts =>
      rw [Place.atEnd_cons, Place.after_nameStart starts,
        Place.atEnd_word (p := isNameChar) (by decide) (by decide) (by decide)] at closed
      refine ⟨?_, closed⟩
      rw [← dropWhile_lineFeed (by decide), ← takeWhile_lineFeed (by decide)]
      exact .name starts
  | symbol isSymbol counted =>
      rw [Place.atEnd_cons, Place.after_symbol isSymbol] at closed
      exact ⟨.symbol isSymbol counted, closed⟩

/-- Two texts with a line feed between them. -/
theorem Divides.append {depth : Nat} {fresh : Bool} {text more : List Char}
    {tokens others : List Token} (first : Divides depth fresh text tokens)
    (closed : (Place.code.atEnd text).Closed) (second : Divides 0 true more others) :
    Divides depth fresh (text ++ '\n' :: more) (tokens ++ .newline :: others) := by
  induction first with
  | @done fresh =>
      have joined : Divides 0 fresh ('\n' :: more) ([.newline] ++ others) := .more .lineFeed second
      exact joined
  | more takes _ ih =>
      obtain ⟨behind, closedRest⟩ := takes.append closed more
      rw [List.append_assoc]
      exact .more behind (ih closedRest)

/-! ### Statements -/

theorem DerivesStatements.append {first second : List Statement} {tokens others : List Token}
    (derives : DerivesStatements first tokens) (more : DerivesStatements second others) :
    DerivesStatements (first ++ second) (tokens ++ .newline :: others) := by
  induction derives with
  | none => exact .newline more
  | newline _ ih => exact .newline ih
  | last h => exact .more h more
  | more h _ ih =>
      rw [List.append_assoc]
      exact .more h ih

/-- Statements that run one after the other, each from where the one before it ended, and that all
succeed. Between the statements stand what the one before them has given and what the last of them
gives. -/
inductive Scope.Performs (scope : Scope κ σ) :
    Option Handle → List Statement → Option Handle → World κ σ → World κ σ → Prop
  | none {value : Option Handle} {world : World κ σ} : scope.Performs value [] value world world
  | next {before value last : Option Handle} {statement : Statement} {rest : List Statement}
      {world mid after : World κ σ}
      (step : (scope.step statement).run world = some (.ok value, mid))
      (more : scope.Performs value rest last mid after) :
      scope.Performs before (statement :: rest) last world after

/-- The result of a source whose last statement gives a value or none. -/
def resultOf : Option Handle → Exec κ σ Handle
  | some value => return value
  | none => Exec.ofOp (Heap.Op.alloc .none)

namespace Scope

variable {scope : Scope κ σ} {before : Option Handle} {world after : World κ σ}

theorem exec_of_parsed {source : String} {statements : List Statement}
    (parsed : parseSource source = .ok statements) :
    scope.exec source = scope.steps none statements >>= resultOf := by
  unfold exec
  rw [parsed]
  dsimp only
  apply congrArg
  funext last
  cases last with
  | none => rfl
  | some value => rfl

theorem steps_append (first second : List Statement) :
    scope.steps before (first ++ second) =
      scope.steps before first >>= fun last => scope.steps last second := by
  induction first generalizing before with
  | nil => rw [List.nil_append, steps, pure_bind]
  | cons statement rest ih =>
      rw [List.cons_append, steps, steps, bind_assoc]
      apply congrArg
      funext value
      exact ih

/-- What went before statements is forgotten by them. -/
theorem steps_of_ne_nil {statements : List Statement} (some : statements ≠ [])
    (last : Option Handle) : scope.steps before statements = scope.steps last statements := by
  cases statements with
  | nil => exact absurd rfl some
  | cons statement rest => rw [steps, steps]

theorem steps_eq_ok_iff {statements : List Statement} {last : Option Handle} :
    (scope.steps before statements).run world = some (.ok last, after) ↔
      scope.Performs before statements last world after := by
  induction statements generalizing before world with
  | nil =>
      rw [steps]
      constructor
      · rintro ⟨⟩
        exact .none
      · rintro ⟨⟩
        rfl
  | cons statement rest ih =>
      rw [steps, Exec.run_bind_eq_some_iff]
      constructor
      · rintro (⟨value, mid, step, more⟩ | ⟨_, _, impossible⟩)
        · exact .next step (ih.mp more)
        · cases impossible
      · rintro (_ | ⟨step, more⟩)
        exact .inl ⟨_, _, step, ih.mpr more⟩

/-- Statements stop at the first of them that fails, with its error and in the world that it
left. -/
theorem steps_eq_error_iff {statements : List Statement} {error : Error} :
    (scope.steps before statements).run world = some (.error error, after) ↔
      ∃ done failing later value mid, statements = done ++ failing :: later ∧
        scope.Performs before done value world mid ∧
        (scope.step failing).run mid = some (.error error, after) := by
  induction statements generalizing before world with
  | nil =>
      rw [steps]
      constructor
      · rintro ⟨⟩
      · rintro ⟨done, failing, later, value, mid, split, _⟩
        simp at split
  | cons statement rest ih =>
      rw [steps, Exec.run_bind_eq_some_iff]
      constructor
      · rintro (⟨value, mid, step, more⟩ | ⟨_, step, ⟨⟩⟩)
        · obtain ⟨done, failing, later, last, end', rfl, performs, fails⟩ := ih.mp more
          exact ⟨statement :: done, failing, later, last, end', rfl, .next step performs, fails⟩
        · exact ⟨[], statement, rest, before, world, rfl, .none, step⟩
      · rintro ⟨done, failing, later, last, mid, split, performs, fails⟩
        cases performs with
        | none =>
            obtain ⟨rfl, rfl⟩ := List.cons.inj split
            exact .inr ⟨error, fails, rfl⟩
        | next step more =>
            obtain ⟨rfl, rfl⟩ := List.cons.inj split
            exact .inl ⟨_, _, step, ih.mpr ⟨_, failing, later, last, mid, rfl, more, fails⟩⟩

end Scope

/-! ### Sources -/

theorem run_resultOf_ne_error {last : Option Handle} {world after : World κ σ} {error : Error} :
    (resultOf last).run world ≠ some (.error error, after) := by
  intro failed
  cases last with
  | none => cases failed
  | some value => cases failed

namespace Scope

variable {scope : Scope κ σ} {source : String} {statements : List Statement}
  {world after : World κ σ}

theorem exec_eq_ok_iff (parsed : parseSource source = .ok statements) {value : Handle} :
    (scope.exec source).run world = some (.ok value, after) ↔
      ∃ last mid, scope.Performs none statements last world mid ∧
        (resultOf last).run mid = some (.ok value, after) := by
  rw [exec_of_parsed parsed, Exec.run_bind_eq_some_iff]
  constructor
  · rintro (⟨last, mid, performed, result⟩ | ⟨_, _, impossible⟩)
    · exact ⟨last, mid, steps_eq_ok_iff.mp performed, result⟩
    · cases impossible
  · rintro ⟨last, mid, performed, result⟩
    exact .inl ⟨last, mid, steps_eq_ok_iff.mpr performed, result⟩

theorem exec_eq_error_iff (parsed : parseSource source = .ok statements) {error : Error} :
    (scope.exec source).run world = some (.error error, after) ↔
      ∃ done failing later value mid, statements = done ++ failing :: later ∧
        scope.Performs none done value world mid ∧
        (scope.step failing).run mid = some (.error error, after) := by
  rw [exec_of_parsed parsed, Exec.run_bind_eq_some_iff, ← steps_eq_error_iff]
  constructor
  · rintro (⟨last, mid, _, failed⟩ | ⟨_, failed, ⟨⟩⟩)
    · exact absurd failed run_resultOf_ne_error
    · exact failed
  · intro failed
    exact .inr ⟨error, failed, rfl⟩

end Scope

/-- Two sources with a line feed between them are read as the statements of both, and run as them:
the source fails where the first of the statements fails, and otherwise ends as the second source
does when it is run where the statements of the first ended. If the second has no statement, the
source runs as the first does. -/
theorem sources_compose {first second : String} {tokens others : List Token}
    {statements more : List Statement}
    (readFirst : tokenize first = .ok tokens) (parsedFirst : parse tokens = .ok statements)
    (closed : ClosesLiterals first)
    (readSecond : tokenize second = .ok others) (parsedSecond : parse others = .ok more) :
    tokenize (first ++ "\n" ++ second) = .ok (tokens ++ .newline :: others) ∧
    parse (tokens ++ .newline :: others) = .ok (statements ++ more) ∧
    ∀ {κ σ : Type} (scope : Scope κ σ) (world : World κ σ),
      (∀ value after, (scope.exec (first ++ "\n" ++ second)).run world = some (.ok value, after) ↔
        ∃ last mid, scope.Performs none (statements ++ more) last world mid ∧
          (resultOf last).run mid = some (.ok value, after)) ∧
      (∀ error after,
        (scope.exec (first ++ "\n" ++ second)).run world = some (.error error, after) ↔
          ∃ done failing later value mid, statements ++ more = done ++ failing :: later ∧
            scope.Performs none done value world mid ∧
            (scope.step failing).run mid = some (.error error, after)) ∧
      (more = [] → scope.exec (first ++ "\n" ++ second) = scope.exec first) ∧
      (more ≠ [] → ∀ last mid, scope.Performs none statements last world mid →
        (scope.exec (first ++ "\n" ++ second)).run world = (scope.exec second).run mid) ∧
      (∀ error after, (scope.exec first).run world = some (.error error, after) →
        (scope.exec (first ++ "\n" ++ second)).run world = some (.error error, after)) := by
  have read : tokenize (first ++ "\n" ++ second) = .ok (tokens ++ .newline :: others) := by
    have joined := (scan_eq_ok_iff.mp readFirst).append closed (scan_eq_ok_iff.mp readSecond)
    have text : (first ++ "\n" ++ second).toList = first.toList ++ '\n' :: second.toList := by
      simp
    rw [tokenize, text]
    exact scan_eq_ok_iff.mpr joined
  have derives := derivesStatements_of_parse parsedFirst
  have parsed : parse (tokens ++ .newline :: others) = .ok (statements ++ more) :=
    (derives.append (derivesStatements_of_parse parsedSecond)).parse
  have ofFirst : parseSource first = .ok statements := by
    rw [parseSource, readFirst]
    exact parsedFirst
  have ofSecond : parseSource second = .ok more := by
    rw [parseSource, readSecond]
    exact parsedSecond
  have ofBoth : parseSource (first ++ "\n" ++ second) = .ok (statements ++ more) := by
    rw [parseSource, read]
    exact parsed
  refine ⟨read, parsed, ?_⟩
  intro κ σ scope world
  refine ⟨fun value after => Scope.exec_eq_ok_iff ofBoth,
    fun error after => Scope.exec_eq_error_iff ofBoth, ?_, ?_, ?_⟩
  · rintro rfl
    rw [Scope.exec_of_parsed ofBoth, Scope.exec_of_parsed ofFirst, List.append_nil]
  · intro some last mid performs
    rw [Scope.exec_of_parsed ofBoth, Scope.exec_of_parsed ofSecond, Scope.steps_append, bind_assoc,
      Exec.run_bind_of_ok (Scope.steps_eq_ok_iff.mpr performs), Scope.steps_of_ne_nil some none]
  · intro error after failed
    obtain ⟨done, failing, later, value, mid, rfl, performs, fails⟩ :=
      (Scope.exec_eq_error_iff ofFirst).mp failed
    exact (Scope.exec_eq_error_iff ofBoth).mpr
      ⟨done, failing, later ++ more, value, mid, by simp, performs, fails⟩

/-- The first source ends in a comment with a quote. -/
theorem sources_compose_comment :
    let statement : Statement := .assign (.name "x") (.int 1)
    tokenize "x = 1 # it's\nx" = .ok [.name "x", .op '=', .int 1, .newline, .name "x"] ∧
      parse [.name "x", .op '=', .int 1, .newline, .name "x"] =
        .ok [statement, .expr (.name "x")] ∧
      ∀ {κ σ : Type} (scope : Scope κ σ) (world mid : World κ σ) (last : Option Handle),
        scope.Performs none [statement] last world mid →
          (scope.exec "x = 1 # it's\nx").run world = (scope.exec "x").run mid := by
  intro statement
  have derivesName : Derives (.sum (.name "x")) [.name "x"] :=
    .ofProduct (.ofSigned (.ofAccess (.ofAtom (.name "x"))))
  have derivesNumber : Derives (.sum (.int 1)) [.int 1] :=
    .ofProduct (.ofSigned (.ofAccess (.ofAtom (.int 1))))
  have readFirst : tokenize "x = 1 # it's" = .ok [.name "x", .op '=', .int 1] := by decide +kernel
  have readSecond : tokenize "x" = .ok [.name "x"] := by decide +kernel
  have parsedFirst : parse [.name "x", .op '=', .int 1] = .ok [statement] :=
    DerivesStatements.parse (.last (.assign derivesName rfl derivesNumber))
  have parsedSecond : parse [.name "x"] = .ok [.expr (.name "x")] :=
    DerivesStatements.parse (.last (.expr derivesName))
  obtain ⟨read, parsed, runs⟩ :=
    sources_compose readFirst parsedFirst (by decide) readSecond parsedSecond
  refine ⟨read, parsed, ?_⟩
  intro κ σ scope world mid last performs
  obtain ⟨_, _, _, goesOn, _⟩ := runs scope world
  exact goesOn (List.cons_ne_nil _ _) last mid performs

end Interop.Script
