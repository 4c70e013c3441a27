import Interop.Proofs.Script.Trimming
import Interop.Proofs.Template.Binding
/-!
Dedentation of a source that is flush: one of its lines starts with something that is not blank, so
that the lines have no indentation in common.

Nothing happens to such a source but that lines lose their ends and blank lines are dropped. This
only leaves out blanks with nothing visible behind them on their line, so that a source that can be
read is read as the same statements.
-/

set_option autoImplicit false

namespace Interop

open Script (Trims firstInLine? Divides Thins)

/-! ### Lines -/

namespace Text

def kept (lines : List (List Char)) : List (List Char) := lines.filter fun line => !isBlankLine line

/-- Lines, each behind a line feed. -/
def feedLines (lines : List (List Char)) : List Char := lines.flatMap ('\n' :: ·)

theorem feedLines_cons (line : List Char) (rest : List (List Char)) :
    feedLines (line :: rest) = '\n' :: joinLines (line :: rest) := by
  induction rest generalizing line with
  | nil => simp [feedLines, joinLines]
  | cons next rest ih =>
      have joined : joinLines (line :: next :: rest) = line ++ '\n' :: joinLines (next :: rest) :=
        joinLines.eq_3 _ _ (by simp)
      rw [joined, ← ih]
      rfl

/-- What dedentation leaves of a text whose first line is told: this line with the lines that are
kept of the rest. If it is blank, it can be left out too. -/
structure TrimsFirst (text line : List Char) (more : List (List Char)) : Prop where
  keeps : Trims text (line ++ feedLines (kept more))
  drops : isBlankLine line = true → firstInLine? text = none ∧ Trims text (feedLines (kept more))

/-- A line feed in front of a text makes its first line one of those that are kept or not. -/
theorem trims_lineFeed {text : List Char}
    (first : ∀ line more, lines text = line :: more → TrimsFirst text line more) :
    Trims ('\n' :: text) (feedLines (kept (lines text))) := by
  cases split : lines text with
  | nil =>
      obtain rfl := lines_eq_nil_iff.mp split
      exact .drop Script.isBlank_lineFeed rfl .nil
  | cons line more =>
      have trims := first line more split
      cases isBlank : isBlankLine line with
      | false =>
          rw [kept, List.filter_cons_of_pos (by simp [isBlank])]
          exact .keep '\n' trims.keeps
      | true =>
          obtain ⟨nothing, behind⟩ := trims.drops isBlank
          rw [kept, List.filter_cons_of_neg (by simp [isBlank])]
          exact .drop Script.isBlank_lineFeed nothing behind

theorem trimsFirst_of_lines {text line : List Char} {more : List (List Char)}
    (split : lines text = line :: more) : TrimsFirst text line more := by
  fun_induction lines text generalizing line more with
  | case1 => cases split
  | case2 rest ih =>
      obtain ⟨rfl, rfl⟩ := List.cons.inj split
      have trims := trims_lineFeed fun line more => ih
      have nothing : firstInLine? ('\n' :: rest) = none := rfl
      have isBlank : isBlank '\r' = true := by decide
      exact ⟨.drop isBlank nothing trims, fun _ => ⟨rfl, .drop isBlank nothing trims⟩⟩
  | case3 rest ih =>
      obtain ⟨rfl, rfl⟩ := List.cons.inj split
      have trims := trims_lineFeed fun line more => ih
      exact ⟨trims, fun _ => ⟨rfl, trims⟩⟩
  | case4 c rest noReturn noFeed none ih =>
      obtain ⟨rfl, rfl⟩ := List.cons.inj split
      obtain rfl := lines_eq_nil_iff.mp none
      refine ⟨.refl [c], ?_⟩
      intro blank
      have isBlank : isBlank c = true := by simpa [isBlankLine] using blank
      exact ⟨Script.firstInLine?_of_isBlank isBlank rfl, .drop isBlank rfl .nil⟩
  | case5 c rest noReturn noFeed first others some ih =>
      obtain ⟨rfl, rfl⟩ := List.cons.inj split
      have trims := ih some
      refine ⟨.keep c trims.keeps, ?_⟩
      intro blank
      obtain ⟨isBlank, blankRest⟩ : isBlank c = true ∧ isBlankLine first = true := by
        simpa [isBlankLine] using blank
      obtain ⟨nothing, behind⟩ := trims.drops blankRest
      exact ⟨Script.firstInLine?_of_isBlank isBlank nothing, .drop isBlank nothing behind⟩

/-- A line is flush if it starts with something that is not blank. -/
def IsFlush (line : List Char) : Prop := ∃ c rest, line = c :: rest ∧ isBlank c = false

/-- Where a line is flush, dedentation only drops blank lines and the ends of lines. -/
theorem dedent_eq {text : String} (flush : ∃ line ∈ lines text.toList, IsFlush line) :
    dedent text = String.ofList (joinLines (kept (lines text.toList))) ∧
      kept (lines text.toList) ≠ [] := by
  obtain ⟨_, among, c, rest, rfl, visible⟩ := flush
  have amongKept : c :: rest ∈ kept (lines text.toList) := by
    simp [kept, among, isBlankLine, visible]
  -- a flush line has no indentation, so that nothing is cut from the fronts of the lines
  have least : (((kept (lines text.toList)).map indentation).min?).getD 0 = 0 := by
    have zero : 0 ∈ (kept (lines text.toList)).map indentation := by
      refine List.mem_map.mpr ⟨c :: rest, amongKept, ?_⟩
      simp [indentation, visible]
    have isMin : ((kept (lines text.toList)).map indentation).min? = some 0 := by
      rw [List.min?_eq_some_iff]
      exact ⟨zero, fun _ _ => Nat.zero_le _⟩
    rw [isMin]
    rfl
  refine ⟨?_, List.ne_nil_of_mem amongKept⟩
  unfold dedent
  dsimp only
  rw [show (lines text.toList).filter (fun line => !isBlankLine line) =
    kept (lines text.toList) from rfl, least]
  simp

end Text

/-! ### Sources -/

open Script

/-- A source that can be divided into tokens is divided into the same after dedentation, newlines
apart that separate no statements, if one of its lines is flush. -/
theorem thins_tokenize_dedent {source : String} {tokens : List Token}
    (read : tokenize source = .ok tokens)
    (flush : ∃ line ∈ Text.lines source.toList, Text.IsFlush line) :
    ∃ others, tokenize (dedent source) = .ok others ∧
      Thins (.newline :: tokens) (.newline :: others) := by
  obtain ⟨dedented, some⟩ := Text.dedent_eq flush
  obtain ⟨first, rest, same⟩ := List.exists_cons_of_ne_nil some
  -- A line feed in front makes the first line one like the others.
  have trims : Trims ('\n' :: source.toList) ('\n' :: (dedent source).toList) := by
    rw [dedented, String.toList_ofList, same, ← Text.feedLines_cons, ← same]
    exact Text.trims_lineFeed fun line more => Text.trimsFirst_of_lines
  have divides : Divides 0 true ('\n' :: source.toList) ([.newline] ++ tokens) :=
    .more .lineFeed (scan_eq_ok_iff.mp read)
  obtain ⟨others, again, thins⟩ := divides.trims trims
  cases again with
  | more takes behind =>
      obtain ⟨rfl, rfl, ⟨_, _, inside⟩ | ⟨rfl, _, rfl, _⟩⟩ := takes.of_isBlank isBlank_lineFeed
      · exact absurd rfl (inside rfl)
      · exact ⟨_, scan_eq_ok_iff.mpr behind, thins⟩

/-- Evaluation of a source that can be read and one of whose lines is flush. The source has the same
statements with dedentation and without, and they run one after the other in the shared namespace
whatever the settings. -/
theorem dedent_flush {source : String} {tokens : List Token} {statements : List Statement}
    (read : tokenize source = .ok tokens) (parsed : parse tokens = .ok statements)
    (flush : ∃ line ∈ Text.lines source.toList, Text.IsFlush line) :
    (∃ others, tokenize (dedent source) = .ok others ∧ parse others = .ok statements) ∧
    ∀ {κ σ : Type} (host : Host κ σ) (layers : Nat) (world : World κ σ),
      (Machine.runProgram (Machine.answer host (layers + 1))
        (Bridge.evaluate (.plain source))).run world =
        ((Machine.scopeIn host layers world.globals).steps none statements >>= resultOf >>=
          fun value => Machine.runProgram (Machine.answer host (layers + 1))
            (Bridge.wrap value)).run world := by
  obtain ⟨others, readDedented, thins⟩ := thins_tokenize_dedent read flush
  have derives := thins.derivesStatements (.newline (derivesStatements_of_parse parsed))
  have parsedDedented : parse others = .ok statements := derives.of_newline.parse
  have ofSource : parseSource source = .ok statements := by
    rw [parseSource, read]
    exact parsed
  have ofDedented : parseSource (dedent source) = .ok statements := by
    rw [parseSource, readDedented]
    exact parsedDedented
  constructor
  · exact ⟨others, readDedented, parsedDedented⟩
  · intro κ σ host layers world
    have atGlobals : (Machine.runProgram (Machine.answer host (layers + 1)) Program.globals).run
        world = some (.ok world.globals, world) := rfl
    have atSettings : (Machine.runProgram (Machine.answer host (layers + 1)) Program.settings).run
        world = some (.ok world.settings, world) := rfl
    have runs : (Machine.scopeIn host layers world.globals).exec
        (if world.settings.dedent then dedent source else source) =
          (Machine.scopeIn host layers world.globals).steps none statements >>= resultOf := by
      split
      · exact Scope.exec_of_parsed ofDedented
      · exact Scope.exec_of_parsed ofSource
    rw [← runs]
    unfold Bridge.evaluate
    rw [Machine.run_bind_of_ok _ atGlobals, Machine.run_bind_of_ok _ atSettings]
    dsimp only [Source.resolve]
    rw [pure_bind, Machine.runProgram_bind, Machine.runProgram_exec]
    rfl

/-- A blank line inside of brackets, one between statements, a comment and a literal that holds a
line feed with a blank behind it. -/
theorem dedent_flush_blank_lines :
    let source := "\r\n\nx = [1,\n  \n 2] # it's\r\n \nx = 'a\\\n b'\n"
    dedent source = "x = [1,\n 2] # it's\nx = 'a\\\n b'" ∧
      ∃ others, tokenize (dedent source) = .ok others ∧ parse others =
        .ok [.assign (.name "x") (.list [.int 1, .int 2]),
          .assign (.name "x") (.string "a\n b")] := by
  intro source
  have read : tokenize source = .ok [.newline, .newline, .name "x", .op '=', .op '[', .int 1,
      .op ',', .int 2, .op ']', .newline, .newline, .name "x", .op '=', .string "a\n b",
      .newline] := by
    decide +kernel
  have flush : ∃ line ∈ Text.lines source.toList, Text.IsFlush line :=
    ⟨"x = [1,".toList, by decide, 'x', _, rfl, by decide⟩
  obtain ⟨same, _⟩ := dedent_flush read (by cbv) flush
  exact ⟨by decide, same⟩

end Interop
