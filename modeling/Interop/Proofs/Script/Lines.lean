import Interop.Proofs.Script.Literals
/-!
The numbers of the lines in errors. An error is found at a character up to which the source can be
divided into tokens, and it names the line of that character as far as the line feeds before it are
counted. Those are all line feeds except for the ones that stand after a backslash in a string
literal.
-/

set_option autoImplicit false

namespace Interop.Script

/-! ### Line feeds in literals -/

/-- How many line feeds of a text stand after a backslash in a string literal. -/
def Place.escapedFeeds : Place → List Char → Nat
  | _, [] => 0
  | .escape quote, c :: rest => (if c = '\n' then 1 else 0) + escapedFeeds (.literal quote) rest
  | place, c :: rest => escapedFeeds (place.after c) rest

namespace Place

theorem escapedFeeds_append (place : Place) (text more : List Char) :
    place.escapedFeeds (text ++ more) =
      place.escapedFeeds text + (place.atEnd text).escapedFeeds more := by
  induction text generalizing place with
  | nil => cases place <;> simp [escapedFeeds, atEnd]
  | cons c rest ih =>
      cases place with
      | escape quote =>
          rw [List.cons_append, escapedFeeds, escapedFeeds, ih, Nat.add_assoc]
          rfl
      | code | comment | literal quote =>
          rw [List.cons_append, escapedFeeds, escapedFeeds, ih]
          · rfl
          all_goals rintro _ ⟨⟩

theorem escapedFeeds_eq_zero {text : List Char} (noFeed : '\n' ∉ text) (place : Place) :
    place.escapedFeeds text = 0 := by
  induction text generalizing place with
  | nil => cases place <;> rfl
  | cons c rest ih =>
      obtain ⟨other, noFeed⟩ := not_or.mp (List.mem_cons.not.mp noFeed)
      cases place with
      | escape quote => rw [escapedFeeds, if_neg (Ne.symm other), ih noFeed]
      | code | comment | literal quote =>
          rw [escapedFeeds, ih noFeed]
          rintro _ ⟨⟩

end Place

/-- The line feeds between the quotes of a literal all stand after a backslash. -/
theorem Spells.escapedFeeds {quote : Char} {raw content : List Char}
    (spells : Spells quote raw content) :
    (Place.literal quote).escapedFeeds raw = raw.count '\n' := by
  induction spells with
  | nil => rfl
  | escape c rest ih =>
      rw [Place.escapedFeeds, Place.after, if_pos rfl, Place.escapedFeeds, ih,
        List.count_cons_of_ne (by decide), List.count_cons, Nat.add_comm]
      · simp
      · rintro _ ⟨⟩
  | plain noEscape noQuote noFeed rest ih =>
      rw [Place.escapedFeeds, Place.after, if_neg noEscape, if_neg noQuote, ih,
        List.count_cons_of_ne noFeed]
      rintro _ ⟨⟩

/-! ### Fronts of a text -/

/-- The front of a text up to what is left of it, on a line: the lines are counted up to there but
for the line feeds in literals, and what is left is told apart like code. -/
structure Fronts (text front rest : List Char) (line last : Nat) : Prop where
  split : text = front ++ rest
  counted : last + Place.code.escapedFeeds front = line + front.count '\n'
  behind : ∀ tail, tail <+: rest →
    (Place.code.atEnd front).escapedFeeds tail = Place.code.escapedFeeds tail

namespace Fronts

variable {c : Char} {text front rest more left : List Char} {line mid last : Nat}

theorem refl : Fronts text [] text line line :=
  ⟨rfl, rfl, fun _ _ => rfl⟩

theorem trans (first : Fronts text front rest line mid) (second : Fronts rest more left mid last) :
    Fronts text (front ++ more) left line last where
  split := by rw [first.split, second.split, List.append_assoc]
  counted := by
    have one := first.counted
    have other := second.counted
    have inside := first.behind more ⟨left, second.split.symm⟩
    rw [Place.escapedFeeds_append, inside, List.count_append]
    omega
  behind := by
    intro tail isPrefix
    have whole : more ++ tail <+: rest := by
      rw [second.split]
      exact (List.prefix_append_right_inj more).mpr isPrefix
    have further := first.behind (more ++ tail) whole
    have inside := first.behind more ((List.prefix_append more tail).trans whole)
    have later := second.behind tail isPrefix
    rw [Place.escapedFeeds_append, Place.escapedFeeds_append, inside] at further
    rw [Place.atEnd_append, ← later]
    exact Nat.add_left_cancel further

/-- A front of code without line feeds. -/
theorem of_code (noFeed : '\n' ∉ c :: front) (stays : Place.code.atEnd (c :: front) = .code) :
    Fronts (c :: (front ++ rest)) (c :: front) rest line
      (lineAfter line (c :: (front ++ rest))) where
  split := rfl
  counted := by
    rw [lineAfter_of_ne (fun feed => noFeed (feed ▸ List.mem_cons_self)),
      Place.escapedFeeds_eq_zero noFeed, List.count_eq_zero_of_not_mem noFeed]
  behind := by
    intro tail _
    rw [stays]

theorem of_character (noFeed : c ≠ '\n') (stays : Place.code.after c = .code) :
    Fronts (c :: rest) [c] rest line (lineAfter line (c :: rest)) := by
  have none : '\n' ∉ [c] := by simpa using noFeed.symm
  exact of_code none stays

theorem lineFeed : Fronts ('\n' :: rest) ['\n'] rest line (lineAfter line ('\n' :: rest)) where
  split := rfl
  counted := by
    rw [lineAfter_lineFeed]
    rfl
  behind := fun _ _ => rfl

/-- The rest of a word is code without line feeds. -/
theorem word {p : Char → Bool} (noFeed : p '\n' = false) (noComment : p '#' = false)
    (noSingle : p '\'' = false) (noDouble : p '"' = false) (first : c ≠ '\n')
    (starts : Place.code.after c = .code) :
    Fronts (c :: rest) (c :: rest.takeWhile p) (rest.dropWhile p) line
      (lineAfter line (c :: rest)) := by
  have inside : ∀ d ∈ rest.takeWhile p, p d = true := fun d among => List.mem_takeWhile_imp among
  have none : '\n' ∉ c :: rest.takeWhile p := by
    intro among
    rcases List.mem_cons.mp among with feed | among
    · exact first feed.symm
    · exact Bool.noConfusion (noFeed.symm.trans (inside _ among))
  have stays : Place.code.atEnd (c :: rest.takeWhile p) = .code := by
    rw [Place.atEnd_cons, starts, Place.atEnd_word noComment noSingle noDouble,
      List.dropWhile_eq_nil_iff.mpr inside]
    rfl
  have front : Fronts (c :: (rest.takeWhile p ++ rest.dropWhile p)) (c :: rest.takeWhile p)
      (rest.dropWhile p) line _ := of_code none stays
  rw [List.takeWhile_append_dropWhile] at front
  exact front

theorem comment : Fronts ('#' :: rest) ('#' :: rest.takeWhile (· ≠ '\n'))
    (rest.dropWhile (· ≠ '\n')) line (lineAfter line ('#' :: rest)) where
  split := by rw [List.cons_append, List.takeWhile_append_dropWhile]
  counted := by
    have noFeed : '\n' ∉ '#' :: rest.takeWhile (· ≠ '\n') := by
      intro among
      rcases List.mem_cons.mp among with feed | among
      · revert feed
        decide
      · exact absurd (List.mem_takeWhile_imp among) (by decide)
    rw [lineAfter_of_ne (by decide), Place.escapedFeeds_eq_zero noFeed,
      List.count_eq_zero_of_not_mem noFeed]
  behind := by
    intro tail isPrefix
    have inside : ∀ d ∈ rest.takeWhile (fun c => decide (c ≠ '\n')), decide (d ≠ '\n') = true :=
      fun d among => List.mem_takeWhile_imp (p := fun c => decide (c ≠ '\n')) among
    have place : Place.code.atEnd ('#' :: rest.takeWhile (· ≠ '\n')) = .comment := by
      change Place.comment.atEnd (rest.takeWhile (· ≠ '\n')) = .comment
      rw [Place.atEnd_comment, List.dropWhile_eq_nil_iff.mpr inside, if_pos rfl]
    rw [place]
    -- what is left is nothing or begins with the line feed that ends the comment
    cases tail with
    | nil => rfl
    | cons d tail =>
        obtain ⟨more, same⟩ := isPrefix
        have ends := List.head?_dropWhile_not (fun c => decide (c ≠ '\n')) rest
        rw [← same] at ends
        obtain rfl : d = '\n' := by simpa using ends
        rfl

/-- A literal with its quotes, or with a backslash in place of the second. -/
theorem literal {quote : Char} {content : List Char} (isQuote : quote = '\'' ∨ quote = '"')
    (read : scanString quote text = some (content, rest)) :
    ∃ front, Fronts (quote :: text) front rest line (lineAfter line (quote :: text)) := by
  have noFeed := (BeginsToken.of_isQuote isQuote).ne_lineFeed
  have noEscape := ne_backslash_of_isQuote isQuote
  obtain ⟨raw, spells, ends⟩ := spells_of_scanString read
  have counted {x : Char} (other : x ≠ '\n') :
      line + Place.code.escapedFeeds (quote :: (raw ++ [x])) =
        line + (quote :: (raw ++ [x])).count '\n' := by
    have last : (Place.literal quote).escapedFeeds [x] = 0 :=
      Place.escapedFeeds_eq_zero (by simpa using other.symm) _
    rw [Place.escapedFeeds, Place.after_quote isQuote, Place.escapedFeeds_append, spells.atEnd,
      spells.escapedFeeds, last, List.count_cons_of_ne noFeed, List.count_append,
      List.count_cons_of_ne other, List.count_nil]
    nofun
  rw [lineAfter_of_ne noFeed]
  rcases ends with rfl | ⟨rfl, rfl⟩
  · refine ⟨quote :: (raw ++ [quote]), by simp, counted noFeed, ?_⟩
    intro tail _
    rw [Place.atEnd_cons, Place.after_quote isQuote, Place.atEnd_append, spells.atEnd,
      Place.atEnd_cons, Place.after_closing noEscape]
    rfl
  · refine ⟨quote :: (raw ++ ['\\']), by simp, counted (by decide), ?_⟩
    intro tail isPrefix
    obtain rfl := List.prefix_nil.mp isPrefix
    simp [Place.escapedFeeds_eq_zero]

end Fronts

section Front

variable {depth now : Nat} {fresh start : Bool} {text rest : List Char} {taken : List Token}

/-- What is taken from the front of a text is a front of it. -/
theorem Takes.exists_front (takes : Takes depth fresh text taken now start rest) (line : Nat) :
    ∃ front, Fronts text front rest line (lineAfter line text) := by
  cases takes with
  | lineFeed => exact ⟨_, .lineFeed⟩
  | innerLineFeed => exact ⟨_, .lineFeed⟩
  | separator => exact ⟨_, .of_character (by decide) rfl⟩
  | blank _ noFeed isBlank => exact ⟨_, .of_character noFeed (Place.after_blank isBlank)⟩
  | comment => exact ⟨_, .comment⟩
  | string isQuote read => exact Fronts.literal isQuote read
  | number isDigit _ =>
      exact ⟨_, .word (by decide) (by decide) (by decide) (by decide)
        (BeginsToken.of_isDigit isDigit).ne_lineFeed (Place.after_digit isDigit)⟩
  | name starts =>
      exact ⟨_, .word (by decide) (by decide) (by decide) (by decide)
        (BeginsToken.of_isNameStart starts).ne_lineFeed (Place.after_nameStart starts)⟩
  | symbol isSymbol _ =>
      exact ⟨_, .of_character (ne_lineFeed_of_symbol isSymbol) (Place.after_symbol isSymbol)⟩

theorem Passes.exists_front {line last : Nat}
    (passes : Passes depth line fresh text taken now last start rest) :
    ∃ front, Fronts text front rest line last := by
  induction passes with
  | here => exact ⟨[], .refl⟩
  | more takes _ ih =>
      obtain ⟨front, first⟩ := takes.exists_front _
      obtain ⟨more, second⟩ := ih
      exact ⟨front ++ more, first.trans second⟩

end Front

/-! ### Sources -/

/-- A source that is refused can be divided into tokens up to an objection, and what is objected to
is reported on the line that is counted by the line feeds in front of it, other than those after a
backslash in a literal. -/
theorem tokenize_eq_error_iff (source : String) (fault : SourceFault) :
    tokenize source = .error fault ↔
      ∃ front rest taken depth line fresh objection, source.toList = front ++ rest ∧
        Passes 0 1 true source.toList taken depth line fresh rest ∧
        Objects depth fresh rest objection ∧ fault = objection line ∧
        line + Place.code.escapedFeeds front = 1 + front.count '\n' := by
  rw [tokenize, scan_eq_error_iff]
  constructor
  · rintro ⟨taken, depth, line, fresh, rest, objection, passes, objects, same⟩
    obtain ⟨front, fronts⟩ := passes.exists_front
    exact ⟨front, rest, taken, depth, line, fresh, objection, fronts.split, passes, objects, same,
      fronts.counted⟩
  · rintro ⟨_, rest, taken, depth, line, fresh, objection, _, passes, objects, same, _⟩
    exact ⟨taken, depth, line, fresh, rest, objection, passes, objects, same⟩

/-- The line feed in the literal is not counted, so that the second line is reported for a character
on the third. -/
theorem invalid_character_on_third_line :
    tokenize "'a\\\nb'\n$" = .error (.invalidCharacter '$' 2) ∧
      "'a\\\nb'\n$".toList = "'a\\\nb'\n".toList ++ ['$'] ∧
      1 + "'a\\\nb'\n".toList.count '\n' = 3 := by
  refine ⟨?_, ?_, ?_⟩
  · decide +kernel
  · decide
  · decide

end Interop.Script
