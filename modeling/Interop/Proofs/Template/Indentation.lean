import Interop.Proofs.Template.Dedentation
/-!
Dedentation in general. It takes the margin off, which is the least indentation of the lines that
are not blank. So it does not matter how far a text is indented as a whole, or where blank lines
stand in it, and what is dedented once is dedented.

A carriage return in front of a line feed belongs to the end of a line, any other one is a character
of its line. Where no line ends in one of its own, lines that are put together are the same lines
again.
-/

set_option autoImplicit false

namespace Interop

namespace Text

/-! ### Texts with more characters -/

/-- Puts a text in front of each line: before the first character, if it starts a line, and before
each one that follows a line feed. -/
def indentFrom (w : List Char) : Bool → List Char → List Char
  | _, [] => []
  | true, c :: rest => w ++ c :: indentFrom w (c == '\n') rest
  | false, c :: rest => c :: indentFrom w (c == '\n') rest

/-- A text with another one in front of each of its lines. -/
def indent (w text : List Char) : List Char := indentFrom w true text

/-- Whether every carriage return belongs to the end of a line. -/
def returnsEndLines : List Char → Bool
  | [] => true
  | c :: rest => (c != '\r' || rest.head? == some '\n') && returnsEndLines rest

/-- The second text is the first with blank lines put in, any number at any places. -/
inductive AddsBlankLines : List Char → List Char → Prop
  | same (text : List Char) : AddsBlankLines text text
  | front {text more blank : List Char} (isBlank : isBlankLine blank = true)
      (rest : AddsBlankLines text more) : AddsBlankLines text (blank ++ '\n' :: more)
  | after {text more : List Char} (line : List Char) (rest : AddsBlankLines text more) :
      AddsBlankLines (line ++ '\n' :: text) (line ++ '\n' :: more)
  /-- Behind the last line feed. -/
  | last {blank : List Char} (isBlank : isBlankLine blank = true) : AddsBlankLines [] blank
  /-- Behind a last line that is open, which is ended first. -/
  | behind {text feed blank : List Char} (noReturn : text.getLast? ≠ some '\r')
      (isEnd : feed = ['\n'] ∨ feed = ['\r', '\n']) (isBlank : isBlankLine blank = true) :
      AddsBlankLines text (text ++ (feed ++ blank))

/-! ### Lines -/

/-- A character that no line ends before is put in front of the first line. -/
theorem lines_cons {c : Char} {rest line : List Char} {more : List (List Char)}
    (noFeed : c ≠ '\n') (noEnd : c = '\r' → rest.head? ≠ some '\n')
    (split : lines rest = line :: more) : lines (c :: rest) = (c :: line) :: more := by
  rw [lines.eq_def]
  split
  · rename_i impossible
    cases impossible
  · rename_i same
    cases same
    exact absurd rfl (noEnd rfl)
  · rename_i same
    cases same
    exact absurd rfl noFeed
  · rename_i same
    cases same
    rw [split]

/-- What no line ends in is put in front of the first line. -/
theorem lines_append {w rest line : List Char} {more : List (List Char)}
    (inner : ∀ c ∈ w, c ≠ '\n' ∧ c ≠ '\r') (split : lines rest = line :: more) :
    lines (w ++ rest) = (w ++ line) :: more := by
  induction w with
  | nil => exact split
  | cons c w ih =>
      obtain ⟨noFeed, noReturn⟩ := inner c List.mem_cons_self
      exact lines_cons noFeed (fun isReturn => absurd isReturn noReturn)
        (ih fun d among => inner d (List.mem_cons_of_mem c among))

theorem lines_append_lineFeed (before text : List Char) :
    lines (before ++ '\n' :: text) = lines (before ++ ['\n']) ++ lines text := by
  fun_induction lines before with
  | case1 => rfl
  | case2 rest ih => exact congrArg ([] :: ·) ih
  | case3 rest ih => exact congrArg ([] :: ·) ih
  | case4 c rest noReturn noFeed none ih =>
      obtain rfl := lines_eq_nil_iff.mp none
      -- A carriage return alone is a character of its line, until the line feed makes it an end.
      by_cases isReturn : c = '\r'
      · subst isReturn
        rfl
      · have ends (behind : List Char) : lines ([c] ++ '\n' :: behind) = [c] :: lines behind :=
          lines_append (by simpa using ⟨noFeed, isReturn⟩) rfl
        rw [ends, ends]
        rfl
  | case5 c rest noReturn noFeed line more some ih =>
      obtain ⟨d, rest, rfl⟩ : ∃ d others, rest = d :: others :=
        List.exists_cons_of_ne_nil fun none => by simp [none, lines] at some
      -- What follows a character does not depend on what is put behind the whole text.
      have noEnd (behind : List Char) : c = '\r' → ((d :: rest) ++ behind).head? ≠ .some '\n' := by
        rintro rfl isFeed
        exact noReturn rest rfl (by simpa using isFeed)
      cases split : lines (d :: rest ++ ['\n']) with
      | nil => simp [lines_eq_nil_iff] at split
      | cons first others =>
          rw [split] at ih
          exact (lines_cons noFeed (noEnd _) ih).trans
            (congrArg (· ++ lines text) (lines_cons noFeed (noEnd _) split).symm)

theorem returnsEndLines_cons_iff {c : Char} {rest : List Char} :
    returnsEndLines (c :: rest) = true ↔
      (c = '\r' → ∃ others, rest = '\n' :: others) ∧ returnsEndLines rest = true := by
  simp [returnsEndLines, or_iff_not_imp_left, List.head?_eq_some_iff]

/-- The end of an open last line ends it; one that follows the end of a line ends an empty line. -/
theorem lines_append_end {text feed : List Char} (isEnd : feed = ['\n'] ∨ feed = ['\r', '\n'])
    (returns : returnsEndLines text = true) :
    ∃ tail, (tail = [] ∨ tail = [[]]) ∧ lines (text ++ feed) = lines text ++ tail := by
  have alone : lines feed = [[]] := by rcases isEnd with rfl | rfl <;> rfl
  fun_induction lines text with
  | case1 => exact ⟨[[]], .inr rfl, alone⟩
  | case2 rest ih =>
      obtain ⟨tail, isTail, same⟩ := ih (by simpa [returnsEndLines] using returns)
      exact ⟨tail, isTail, congrArg ([] :: ·) same⟩
  | case3 rest ih =>
      obtain ⟨tail, isTail, same⟩ := ih (by simpa [returnsEndLines] using returns)
      exact ⟨tail, isTail, congrArg ([] :: ·) same⟩
  | case4 c rest noReturn noFeed none ih =>
      obtain rfl := lines_eq_nil_iff.mp none
      have isInner : c ≠ '\n' ∧ c ≠ '\r' := ⟨noFeed, by simpa [returnsEndLines] using returns⟩
      exact ⟨[], .inl rfl, lines_append (by simpa using isInner) alone⟩
  | case5 c rest noReturn noFeed line more some ih =>
      obtain ⟨ends, returnsRest⟩ := returnsEndLines_cons_iff.mp returns
      obtain ⟨tail, isTail, same⟩ := ih returnsRest
      rw [some] at same
      refine ⟨tail, isTail, lines_cons noFeed ?_ same⟩
      intro isReturn
      obtain ⟨others, rfl⟩ := ends isReturn
      exact absurd rfl (noReturn others isReturn)

theorem mem_of_mem_lines {text line : List Char} {c : Char} (among : line ∈ lines text)
    (inLine : c ∈ line) : c ∈ text := by
  fun_induction lines text generalizing line <;> grind

theorem inner_of_mem_lines {text line : List Char} {c : Char}
    (returns : returnsEndLines text = true) (among : line ∈ lines text) (inLine : c ∈ line) :
    c ≠ '\n' ∧ c ≠ '\r' := by
  fun_induction lines text generalizing line <;> grind [returnsEndLines_cons_iff]

theorem lines_eq_singleton {line : List Char} (nonempty : line ≠ [])
    (inner : ∀ c ∈ line, c ≠ '\n' ∧ c ≠ '\r') : lines line = [line] := by
  induction line with
  | nil => exact absurd rfl nonempty
  | cons c rest ih =>
      obtain ⟨⟨noFeed, noReturn⟩, innerRest⟩ := List.forall_mem_cons.mp inner
      cases rest with
      | nil => simp [lines]
      | cons d rest =>
          exact lines_cons noFeed (fun isReturn => absurd isReturn noReturn)
            (ih (List.cons_ne_nil d rest) innerRest)

/-- Lines that nothing in them ends are the lines of the text that they are put together to. -/
theorem lines_joinLines {all : List (List Char)}
    (inner : ∀ line ∈ all, line ≠ [] ∧ ∀ c ∈ line, c ≠ '\n' ∧ c ≠ '\r') :
    lines (joinLines all) = all := by
  fun_induction joinLines all with
  | case1 => rfl
  | case2 line =>
      obtain ⟨nonempty, inLine⟩ := inner line List.mem_cons_self
      exact lines_eq_singleton nonempty inLine
  | case3 line more _ ih =>
      obtain ⟨⟨_, inLine⟩, innerMore⟩ := List.forall_mem_cons.mp inner
      have ends : lines ('\n' :: joinLines more) = [] :: lines (joinLines more) := rfl
      rw [lines_append inLine ends, ih innerMore, List.append_nil]

section Indent

variable {w : List Char} (inner : ∀ c ∈ w, c ≠ '\n' ∧ c ≠ '\r')
include inner

/-- The first line of a text is indented with the others if the others are. -/
theorem lines_indent_of_behind {text : List Char}
    (behind : ∀ line more, lines text = line :: more →
      lines (indentFrom w false text) = line :: more.map (w ++ ·)) :
    lines (indent w text) = (lines text).map (w ++ ·) := by
  cases text with
  | nil => rfl
  | cons c rest =>
      cases split : lines (c :: rest) with
      | nil => simp [lines_eq_nil_iff] at split
      | cons line more => exact lines_append inner (behind line more split)

theorem lines_indentFrom_false {text line : List Char} {more : List (List Char)}
    (split : lines text = line :: more) :
    lines (indentFrom w false text) = line :: more.map (w ++ ·) := by
  fun_induction lines text generalizing line more with
  | case1 => cases split
  | case2 rest ih =>
      obtain ⟨rfl, rfl⟩ := List.cons.inj split
      exact congrArg ([] :: ·) (lines_indent_of_behind inner fun line more => ih)
  | case3 rest ih =>
      obtain ⟨rfl, rfl⟩ := List.cons.inj split
      exact congrArg ([] :: ·) (lines_indent_of_behind inner fun line more => ih)
  | case4 c rest noReturn noFeed none ih =>
      obtain ⟨rfl, rfl⟩ := List.cons.inj split
      obtain rfl := lines_eq_nil_iff.mp none
      simp [indentFrom, lines]
  | case5 c rest noReturn noFeed first others some ih =>
      obtain ⟨rfl, rfl⟩ := List.cons.inj split
      have sameLine : (c == '\n') = false := by simpa using noFeed
      rw [indentFrom, sameLine]
      refine lines_cons noFeed ?_ (ih some)
      -- Nothing is put in within a line, so what follows a carriage return still follows it.
      intro isReturn isFeed
      cases rest with
      | nil => cases some
      | cons d rest => exact noReturn rest isReturn (by simpa [indentFrom] using isFeed)

/-- What stands in front of each line of a text stands in front of each of its lines. -/
theorem lines_indent (text : List Char) : lines (indent w text) = (lines text).map (w ++ ·) :=
  lines_indent_of_behind inner fun _ _ => lines_indentFrom_false inner

end Indent

/-! ### Margins -/

/-- The least indentation of a line. -/
def margin (lines : List (List Char)) : Nat := ((lines.map indentation).min?).getD 0

/-- Lines without their margin. -/
def outdent (lines : List (List Char)) : List (List Char) := lines.map (·.drop (margin lines))

theorem dedent_eq_outdent (text : String) :
    dedent text = String.ofList (joinLines (outdent (kept (lines text.toList)))) := rfl

theorem min?_indentation {lines : List (List Char)} (nonempty : lines ≠ []) :
    (lines.map indentation).min? = some (margin lines) := by
  have nonempty : lines.map indentation ≠ [] := by simpa using nonempty
  obtain ⟨least, isLeast⟩ := Option.ne_none_iff_exists'.mp (mt List.min?_eq_none_iff.mp nonempty)
  rw [margin, isLeast]
  rfl

theorem margin_le {lines : List (List Char)} {line : List Char} (among : line ∈ lines) :
    margin lines ≤ indentation line := by
  have isLeast := List.min?_eq_some_iff.mp (min?_indentation (List.ne_nil_of_mem among))
  exact isLeast.2 _ (List.mem_map_of_mem among)

theorem exists_margin_eq {lines : List (List Char)} (nonempty : lines ≠ []) :
    ∃ line ∈ lines, indentation line = margin lines :=
  List.mem_map.mp (List.min?_eq_some_iff.mp (min?_indentation nonempty)).1

theorem indentation_append {w : List Char} (isBlank : isBlankLine w = true) (line : List Char) :
    indentation (w ++ line) = w.length + indentation line := by
  rw [indentation, List.takeWhile_append_of_pos (List.all_eq_true.mp isBlank), List.length_append,
    indentation]

theorem margin_append {w : List Char} (isBlank : isBlankLine w = true) {lines : List (List Char)}
    (nonempty : lines ≠ []) : margin (lines.map (w ++ ·)) = w.length + margin lines := by
  apply Nat.le_antisymm
  · obtain ⟨line, among, least⟩ := exists_margin_eq nonempty
    rw [← least, ← indentation_append isBlank]
    exact margin_le (List.mem_map_of_mem among)
  · obtain ⟨_, among, least⟩ : ∃ line ∈ lines.map (w ++ ·), _ :=
      exists_margin_eq (by simpa using nonempty)
    obtain ⟨line, within, rfl⟩ := List.mem_map.mp among
    rw [← least, indentation_append isBlank]
    exact Nat.add_le_add_left (margin_le within) _

theorem outdent_append {w : List Char} (isBlank : isBlankLine w = true)
    (lines : List (List Char)) : outdent (lines.map (w ++ ·)) = outdent lines := by
  by_cases nonempty : lines = []
  · rw [nonempty]
    rfl
  · rw [outdent, outdent, margin_append isBlank nonempty, List.map_map]
    exact List.map_congr_left fun line _ => List.drop_length_add_append _

theorem kept_append {w : List Char} (isBlank : isBlankLine w = true) (lines : List (List Char)) :
    kept (lines.map (w ++ ·)) = (kept lines).map (w ++ ·) := by
  have same : ((fun line => !isBlankLine line) ∘ (w ++ ·)) = fun line => !isBlankLine line := by
    funext line
    simp only [isBlankLine] at isBlank
    simp [isBlankLine, isBlank]
  rw [kept, List.filter_map, same, kept]

theorem kept_append_lines (front behind : List (List Char)) :
    kept (front ++ behind) = kept front ++ kept behind :=
  List.filter_append _ _

/-- What the margin takes from a line is blank. -/
theorem isBlankLine_take_margin {lines : List (List Char)} {line : List Char}
    (among : line ∈ lines) :
    margin lines ≤ line.length ∧ isBlankLine (line.take (margin lines)) = true := by
  have within := margin_le among
  refine ⟨within.trans (indentation_le_length line), List.all_eq_true.mpr ?_⟩
  intro c inFront
  have inIndentation : c ∈ line.takeWhile Text.isBlank := by
    rw [List.prefix_iff_eq_take.mp (List.takeWhile_prefix Text.isBlank)]
    exact List.take_subset_take_left line within inFront
  exact List.mem_takeWhile_imp inIndentation

/-- Behind its indentation, a line that is not blank starts with something visible. -/
theorem isFlush_drop_indentation {line : List Char} (visible : isBlankLine line = false) :
    IsFlush (line.drop (indentation line)) := by
  induction line with
  | nil => cases visible
  | cons c rest ih =>
      cases isBlank : Text.isBlank c with
      | false => exact ⟨c, rest, by simp [indentation, isBlank], isBlank⟩
      | true =>
          have next : indentation (c :: rest) = indentation rest + 1 := by
            simp [indentation, isBlank]
          rw [next, List.drop_succ_cons]
          exact ih (by simpa [isBlankLine, isBlank] using visible)

section Kept

variable {all : List (List Char)}

theorem visible_of_mem_kept {line : List Char} (among : line ∈ kept all) :
    line ∈ all ∧ isBlankLine line = false := by
  simpa [kept] using among

/-- Where any line is kept, one of them is flush without the margin. -/
theorem exists_isFlush_outdent (nonempty : kept all ≠ []) :
    ∃ line ∈ outdent (kept all), IsFlush line := by
  obtain ⟨line, among, least⟩ := exists_margin_eq nonempty
  refine ⟨_, List.mem_map_of_mem among, ?_⟩
  rw [← least]
  exact isFlush_drop_indentation (visible_of_mem_kept among).2

theorem kept_outdent : kept (outdent (kept all)) = outdent (kept all) := by
  rw [kept, List.filter_eq_self]
  intro _ among
  obtain ⟨line, within, rfl⟩ := List.mem_map.mp among
  have whole := (visible_of_mem_kept within).2
  have front := (isBlankLine_take_margin within).2
  rw [← List.take_append_drop (margin (kept all)) line] at whole
  simp only [isBlankLine, List.all_append] at whole front
  simpa [isBlankLine, front] using whole

end Kept

/-- What is put together from the lines of a text without their margin has the same lines. -/
theorem lines_joinLines_outdent {text : List Char} (returns : returnsEndLines text = true) :
    lines (joinLines (outdent (kept (lines text)))) = outdent (kept (lines text)) := by
  apply lines_joinLines
  intro line among
  constructor
  · rintro rfl
    rw [← kept_outdent] at among
    cases (visible_of_mem_kept among).2
  · intro c inLine
    obtain ⟨whole, within, rfl⟩ := List.mem_map.mp among
    exact inner_of_mem_lines returns (visible_of_mem_kept within).1 (List.mem_of_mem_drop inLine)

/-- What is dedented is its own dedentation. -/
theorem dedent_dedent {source : String} (returns : returnsEndLines source.toList = true) :
    dedent (dedent source) = dedent source := by
  have split : lines (dedent source).toList = outdent (kept (lines source.toList)) := by
    rw [dedent_eq_outdent, String.toList_ofList]
    exact lines_joinLines_outdent returns
  by_cases nonempty : kept (lines source.toList) = []
  · rw [dedent_eq_outdent source, nonempty]
    rfl
  · rw [(dedent_eq (split ▸ exists_isFlush_outdent nonempty)).1, split, kept_outdent]
    rfl

/-! ### Blank lines -/

theorem kept_lines_of_isBlankLine {text : List Char} (isBlank : isBlankLine text = true) :
    kept (lines text) = [] := by
  rw [kept, List.filter_eq_nil_iff]
  intro line among
  simp only [isBlankLine, List.all_eq_true] at isBlank ⊢
  simpa using fun c inLine => isBlank c (mem_of_mem_lines among inLine)

theorem isBlankLine_append_lineFeed {blank : List Char} (isBlank : isBlankLine blank = true) :
    isBlankLine (blank ++ ['\n']) = true := by
  simp only [isBlankLine] at isBlank
  simp [isBlankLine, isBlank, Script.isBlank_lineFeed]

theorem returnsEndLines_of_append {text rest : List Char} (noReturn : text.getLast? ≠ some '\r')
    (returns : returnsEndLines (text ++ rest) = true) : returnsEndLines text = true := by
  induction text with
  | nil => rfl
  | cons c text ih =>
      cases text with
      | nil => simpa [returnsEndLines] using noReturn
      | cons d text =>
          obtain ⟨ends, returnsRest⟩ := returnsEndLines_cons_iff.mp returns
          refine returnsEndLines_cons_iff.mpr ⟨?_, ih (by simpa using noReturn) returnsRest⟩
          intro isReturn
          obtain ⟨_, next⟩ := ends isReturn
          exact ⟨text, congrArg (· :: text) (List.cons.inj next).1⟩

theorem returnsEndLines_append_lineFeed {before text : List Char} :
    returnsEndLines (before ++ '\n' :: text) = true ↔
      returnsEndLines (before ++ ['\n']) = true ∧ returnsEndLines text = true := by
  induction before with
  | nil => simp [returnsEndLines]
  | cons c before ih =>
      have next : (∃ others, before ++ '\n' :: text = '\n' :: others) ↔
          ∃ others, before ++ ['\n'] = '\n' :: others := by
        cases before <;> simp
      rw [List.cons_append, List.cons_append, returnsEndLines_cons_iff, returnsEndLines_cons_iff,
        ih, next, and_assoc]

namespace AddsBlankLines

variable {text more : List Char}

theorem kept (adds : AddsBlankLines text more) (returns : returnsEndLines text = true) :
    kept (lines more) = kept (lines text) := by
  induction adds with
  | same text => rfl
  | @front text more blank isBlank rest ih =>
      have nothing := kept_lines_of_isBlankLine (isBlankLine_append_lineFeed isBlank)
      rw [lines_append_lineFeed, kept_append_lines, nothing, List.nil_append, ih returns]
  | @after text more line rest ih =>
      rw [lines_append_lineFeed line more, lines_append_lineFeed line text, kept_append_lines,
        kept_append_lines, ih (returnsEndLines_append_lineFeed.mp returns).2]
  | last isBlank => exact kept_lines_of_isBlankLine isBlank
  | @behind text feed blank noReturn isEnd isBlank =>
      -- Both ends give the same lines, but only the last character of one parts them from the rest.
      have parted : lines (text ++ (feed ++ blank)) = lines (text ++ feed) ++ lines blank := by
        rcases isEnd with rfl | rfl
        · exact lines_append_lineFeed text blank
        · simpa using lines_append_lineFeed (text ++ ['\r']) blank
      obtain ⟨tail, isTail, ended⟩ := lines_append_end isEnd returns
      have nothing : Text.kept tail = [] := by rcases isTail with rfl | rfl <;> rfl
      rw [parted, ended, kept_append_lines, kept_append_lines, nothing,
        kept_lines_of_isBlankLine isBlank, List.append_nil, List.append_nil]

/-- No carriage return gets in front of something else when blank lines are taken out. -/
theorem returnsEndLines (adds : AddsBlankLines text more)
    (returns : returnsEndLines more = true) : returnsEndLines text = true := by
  induction adds with
  | same text => exact returns
  | front isBlank rest ih => exact ih (returnsEndLines_append_lineFeed.mp returns).2
  | after line rest ih =>
      obtain ⟨front, behind⟩ := returnsEndLines_append_lineFeed.mp returns
      exact returnsEndLines_append_lineFeed.mpr ⟨front, ih behind⟩
  | last isBlank => rfl
  | behind noReturn isEnd isBlank => exact returnsEndLines_of_append noReturn returns

end AddsBlankLines

end Text

/-! ### Sources -/

/-- What dedentation makes of a text. It is the lines that are not blank, each without as many
blanks as they all have in front, so that the text could have been indented as a whole, whatever
with. It is its own dedentation and that of the text with other blank lines, unless there are
carriage returns within lines, which could become part of the end of a line. -/
theorem dedent_invariant (source : String) :
    (∀ w : String, (∀ c ∈ w.toList, Text.isBlank c = true ∧ c ≠ '\n' ∧ c ≠ '\r') →
      dedent (String.ofList (Text.indent w.toList source.toList)) = dedent source) ∧
    (∃ count,
      dedent source = String.ofList
        (Text.joinLines ((Text.kept (Text.lines source.toList)).map (·.drop count))) ∧
      (∀ line ∈ Text.kept (Text.lines source.toList),
        count ≤ line.length ∧ Text.isBlankLine (line.take count) = true) ∧
      (Text.kept (Text.lines source.toList) ≠ [] →
        ∃ line ∈ Text.kept (Text.lines source.toList), Text.IsFlush (line.drop count))) ∧
    (Text.returnsEndLines source.toList = true →
      dedent (dedent source) = dedent source ∧
      ∀ other : String, Text.AddsBlankLines source.toList other.toList ∨
        Text.AddsBlankLines other.toList source.toList → dedent other = dedent source) := by
  refine ⟨?_, ?_, ?_⟩
  · intro w blank
    have isBlank : Text.isBlankLine w.toList = true :=
      List.all_eq_true.mpr fun c among => (blank c among).1
    rw [Text.dedent_eq_outdent, Text.dedent_eq_outdent, String.toList_ofList,
      Text.lines_indent fun c among => (blank c among).2, Text.kept_append isBlank,
      Text.outdent_append isBlank]
  · refine ⟨_, rfl, fun line => Text.isBlankLine_take_margin, ?_⟩
    intro some
    obtain ⟨_, among, flush⟩ := Text.exists_isFlush_outdent some
    obtain ⟨line, within, rfl⟩ := List.mem_map.mp among
    exact ⟨line, within, flush⟩
  · intro returns
    refine ⟨Text.dedent_dedent returns, ?_⟩
    rintro other (adds | adds)
    · rw [Text.dedent_eq_outdent, Text.dedent_eq_outdent, adds.kept returns]
    · rw [Text.dedent_eq_outdent, Text.dedent_eq_outdent, adds.kept (adds.returnsEndLines returns)]

/-- Tabs and a wide blank, lines that a carriage return ends, a blank line shorter than the margin
and an open last line. -/
theorem dedent_invariant_blanks :
    let source := "\t \ta = 1\r\n\t\r\n\t \t\u3000b\n\t \t c"
    dedent source = "a = 1\n\u3000b\n c" ∧
      dedent (String.ofList (Text.indent ['\u3000'] source.toList)) = "a = 1\n\u3000b\n c" ∧
      dedent "a = 1\n\u3000b\n c" = "a = 1\n\u3000b\n c" ∧
      dedent (source ++ "\r\n  ") = "a = 1\n\u3000b\n c" := by
  intro source
  have dedented : dedent source = "a = 1\n\u3000b\n c" := by decide
  obtain ⟨shifted, _, stays⟩ := dedent_invariant source
  rw [dedented] at shifted stays
  obtain ⟨again, others⟩ := stays (by decide)
  have adds : Text.AddsBlankLines source.toList (source ++ "\r\n  ").toList := by
    have isBlank : Text.isBlankLine "  ".toList = true := by decide
    rw [String.toList_append]
    exact .behind (by decide) (.inr rfl) isBlank
  have wide := shifted "\u3000" (List.forall_mem_singleton.mpr (by decide))
  exact ⟨dedented, wide, again, others _ (.inl adds)⟩

end Interop
