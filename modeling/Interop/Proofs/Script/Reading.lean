import Interop.Script.Parser
import Mathlib.Data.Nat.Init
/-!
What each function of the parser reads, in terms of what the functions that it calls read.
-/

set_option autoImplicit false

namespace Interop.Script

variable {α β : Type}

/-- A parser succeeds with a tree and leaves some tokens. -/
def Reads {P : List Token → Prop}
    (result : Except SourceFault (α × { rest : List Token // P rest })) (a : α)
    (rest : List Token) : Prop :=
  ∃ h : P rest, result = .ok (a, ⟨rest, h⟩)

section Basic

variable {P Q : List Token → Prop} {a b : α} {left rest : List Token}

theorem Reads.unique {result : Except SourceFault (α × { rest : List Token // P rest })}
    (first : Reads result a left) (second : Reads result b rest) : a = b ∧ left = rest := by
  obtain ⟨_, rfl⟩ := first
  obtain ⟨_, same⟩ := second
  cases same
  exact ⟨rfl, rfl⟩

theorem reads_pure_iff {h : P rest} :
    Reads (P := P) (pure (a, ⟨rest, h⟩)) b left ↔ b = a ∧ left = rest := by
  constructor
  · rintro ⟨_, same⟩
    cases same
    exact ⟨rfl, rfl⟩
  · rintro ⟨rfl, rfl⟩
    exact ⟨h, rfl⟩

theorem not_reads_error {fault : SourceFault} : ¬ Reads (P := P) (.error fault) b left := by
  rintro ⟨_, same⟩
  cases same

theorem reads_bind_iff {x : Except SourceFault (α × { rest : List Token // P rest })}
    {f : α × { rest : List Token // P rest } →
      Except SourceFault (β × { rest : List Token // Q rest })}
    {b : β} {then_ : α → List Token → Prop}
    (step : ∀ a rest h, Reads (f (a, ⟨rest, h⟩)) b left ↔ then_ a rest) :
    Reads (x >>= f) b left ↔ ∃ a rest, Reads x a rest ∧ then_ a rest := by
  cases x with
  | error fault =>
      constructor
      · intro reads
        exact absurd reads not_reads_error
      · rintro ⟨_, _, reads, _⟩
        exact absurd reads not_reads_error
  | ok result =>
      obtain ⟨a, rest, h⟩ := result
      constructor
      · intro reads
        exact ⟨a, rest, ⟨h, rfl⟩, (step a rest h).mp reads⟩
      · rintro ⟨a', rest', ⟨h', same⟩, reads⟩
        cases same
        exact (step a rest h).mpr reads

/-- The last part of a parser only changes the tree. -/
theorem reads_bind_map_iff {x : Except SourceFault (α × { rest : List Token // P rest })}
    {f : α × { rest : List Token // P rest } →
      Except SourceFault (β × { rest : List Token // Q rest })}
    {b : β} {c : α → β}
    (step : ∀ a rest h, Reads (f (a, ⟨rest, h⟩)) b left ↔ b = c a ∧ left = rest) :
    Reads (x >>= f) b left ↔ ∃ a, Reads x a left ∧ b = c a := by
  rw [reads_bind_iff step]
  constructor
  · rintro ⟨a, rest, reads, rfl, rfl⟩
    exact ⟨a, reads, rfl⟩
  · rintro ⟨a, reads, rfl⟩
    exact ⟨a, left, reads, rfl, rfl⟩

/-- The last part of a parser gives the tree. -/
theorem reads_bind_last_iff {x : Except SourceFault (α × { rest : List Token // P rest })}
    {f : α × { rest : List Token // P rest } →
      Except SourceFault (α × { rest : List Token // Q rest })}
    (step : ∀ a rest h, Reads (f (a, ⟨rest, h⟩)) b left ↔ b = a ∧ left = rest) :
    Reads (x >>= f) b left ↔ Reads x b left := by
  rw [reads_bind_map_iff step]
  exact exists_eq_right'

theorem reads_expectSymbol_bind_iff {symbol : Char} {ts : List Token}
    {f : Fewer ts → Except SourceFault (β × { rest : List Token // Q rest })}
    {b : β} {then_ : List Token → Prop}
    (step : ∀ rest h, Reads (f ⟨rest, h⟩) b left ↔ then_ rest) :
    Reads (expectSymbol symbol ts >>= f) b left ↔ ∃ rest, ts = .op symbol :: rest ∧ then_ rest := by
  cases ts with
  | nil =>
      constructor
      · intro reads
        exact absurd reads not_reads_error
      · rintro ⟨_, impossible, _⟩
        cases impossible
  | cons token ts =>
      change Reads ((if token = .op symbol then Except.ok _ else Except.error _) >>= f) b left ↔ _
      by_cases same : token = .op symbol
      · rw [if_pos same]
        subst same
        constructor
        · intro reads
          exact ⟨ts, rfl, (step _ _).mp reads⟩
        · rintro ⟨_, same, reads⟩
          cases same
          exact (step _ _).mpr reads
      · rw [if_neg same]
        constructor
        · intro reads
          exact absurd reads not_reads_error
        · rintro ⟨_, impossible, _⟩
          cases impossible
          exact absurd rfl same

/-- A symbol that closes, and nothing after it. -/
theorem reads_expectSymbol_last_iff {symbol : Char} {ts : List Token} {a : β}
    {f : Fewer ts → Except SourceFault (β × { rest : List Token // Q rest })} {b : β}
    (step : ∀ rest h, Reads (f ⟨rest, h⟩) b left ↔ b = a ∧ left = rest) :
    Reads (expectSymbol symbol ts >>= f) b left ↔ ts = .op symbol :: left ∧ b = a := by
  rw [reads_expectSymbol_bind_iff step]
  constructor
  · rintro ⟨rest, rfl, rfl, rfl⟩
    exact ⟨rfl, rfl⟩
  · rintro ⟨rfl, rfl⟩
    exact ⟨left, rfl, rfl, rfl⟩

/-- A tree with a symbol that closes after it. -/
theorem reads_bind_close_iff {symbol : Char}
    {x : Except SourceFault (α × { rest : List Token // P rest })}
    {f : α × { rest : List Token // P rest } →
      Except SourceFault (α × { rest : List Token // Q rest })}
    (step : ∀ a rest h, Reads (f (a, ⟨rest, h⟩)) b left ↔ rest = .op symbol :: left ∧ b = a) :
    Reads (x >>= f) b left ↔ Reads x b (.op symbol :: left) := by
  rw [reads_bind_iff step]
  constructor
  · rintro ⟨a, rest, reads, rfl, rfl⟩
    exact reads
  · intro reads
    exact ⟨b, _, reads, rfl, rfl⟩

end Basic

/-! ### Sums and products -/

theorem reads_parseExpr_iff {ts left : List Token} {e : Expr} :
    Reads (parseExpr ts) e left ↔
      ∃ first rest, Reads (parseTerm ts) first rest ∧ Reads (parseSumTail first rest) e left := by
  rw [parseExpr]
  exact reads_bind_iff fun first rest _ => reads_bind_last_iff fun _ _ _ => reads_pure_iff

theorem reads_parseSumTail_add_iff {us left : List Token} {l e : Expr} :
    Reads (parseSumTail l (.op '+' :: us)) e left ↔
      ∃ r rest, Reads (parseTerm us) r rest ∧
        Reads (parseSumTail (.binary l .add r) rest) e left := by
  rw [parseSumTail]
  exact reads_bind_iff fun r rest _ => reads_bind_last_iff fun _ _ _ => reads_pure_iff

theorem reads_parseSumTail_sub_iff {us left : List Token} {l e : Expr} :
    Reads (parseSumTail l (.op '-' :: us)) e left ↔
      ∃ r rest, Reads (parseTerm us) r rest ∧
        Reads (parseSumTail (.binary l .sub r) rest) e left := by
  rw [parseSumTail]
  exact reads_bind_iff fun r rest _ => reads_bind_last_iff fun _ _ _ => reads_pure_iff

theorem reads_parseSumTail_end_iff {ts left : List Token} {l e : Expr}
    (noAdd : ∀ us, ts ≠ .op '+' :: us) (noSub : ∀ us, ts ≠ .op '-' :: us) :
    Reads (parseSumTail l ts) e left ↔ e = l ∧ left = ts := by
  rw [parseSumTail]
  · exact reads_pure_iff
  · exact noAdd
  · exact noSub

theorem reads_parseTerm_iff {ts left : List Token} {e : Expr} :
    Reads (parseTerm ts) e left ↔
      ∃ first rest, Reads (parseUnary ts) first rest ∧
        Reads (parseProductTail first rest) e left := by
  rw [parseTerm]
  exact reads_bind_iff fun first rest _ => reads_bind_last_iff fun _ _ _ => reads_pure_iff

theorem reads_parseProductTail_mul_iff {us left : List Token} {l e : Expr} :
    Reads (parseProductTail l (.op '*' :: us)) e left ↔
      ∃ r rest, Reads (parseUnary us) r rest ∧
        Reads (parseProductTail (.binary l .mul r) rest) e left := by
  rw [parseProductTail]
  exact reads_bind_iff fun r rest _ => reads_bind_last_iff fun _ _ _ => reads_pure_iff

theorem reads_parseProductTail_end_iff {ts left : List Token} {l e : Expr}
    (noMul : ∀ us, ts ≠ .op '*' :: us) :
    Reads (parseProductTail l ts) e left ↔ e = l ∧ left = ts := by
  rw [parseProductTail]
  · exact reads_pure_iff
  · exact noMul

/-! ### Signs, calls, attributes and items -/

theorem reads_parseUnary_neg_iff {us left : List Token} {e : Expr} :
    Reads (parseUnary (.op '-' :: us)) e left ↔
      ∃ operand, Reads (parseUnary us) operand left ∧ e = .neg operand := by
  rw [parseUnary]
  exact reads_bind_map_iff fun _ _ _ => reads_pure_iff

theorem reads_parseUnary_iff {ts left : List Token} {e : Expr}
    (noSign : ∀ us, ts ≠ .op '-' :: us) :
    Reads (parseUnary ts) e left ↔ Reads (parsePostfix ts) e left := by
  rw [parseUnary]
  exact noSign

theorem reads_parsePostfix_iff {ts left : List Token} {e : Expr} :
    Reads (parsePostfix ts) e left ↔
      ∃ first rest, Reads (parseAtom ts) first rest ∧
        Reads (parsePostfixTail first rest) e left := by
  rw [parsePostfix]
  exact reads_bind_iff fun first rest _ => reads_bind_last_iff fun _ _ _ => reads_pure_iff

theorem reads_parsePostfixTail_call_iff {us left : List Token} {target e : Expr} :
    Reads (parsePostfixTail target (.op '(' :: us)) e left ↔
      ∃ args rest, Reads (parseArgs false us) args rest ∧
        Reads (parsePostfixTail (.call target args.1 args.2) rest) e left := by
  rw [parsePostfixTail]
  exact reads_bind_iff fun args rest _ => reads_bind_last_iff fun _ _ _ => reads_pure_iff

theorem reads_parsePostfixTail_attr_iff {us left : List Token} {target e : Expr} {name : String} :
    Reads (parsePostfixTail target (.op '.' :: .name name :: us)) e left ↔
      Reads (parsePostfixTail (.attr target name) us) e left := by
  rw [parsePostfixTail]
  exact reads_bind_last_iff fun _ _ _ => reads_pure_iff

theorem not_reads_parsePostfixTail_dot {us left : List Token} {target e : Expr}
    (noName : ∀ name rest, us ≠ .name name :: rest) :
    ¬ Reads (parsePostfixTail target (.op '.' :: us)) e left := by
  rw [parsePostfixTail]
  · exact not_reads_error
  · exact noName

theorem reads_parsePostfixTail_item_iff {us left : List Token} {target e : Expr} :
    Reads (parsePostfixTail target (.op '[' :: us)) e left ↔
      ∃ key mid, Reads (parseExpr us) key mid ∧ ∃ rest, mid = .op ']' :: rest ∧
        Reads (parsePostfixTail (.item target key) rest) e left := by
  rw [parsePostfixTail]
  exact reads_bind_iff fun key mid _ => reads_expectSymbol_bind_iff fun rest _ =>
    reads_bind_last_iff fun _ _ _ => reads_pure_iff

theorem reads_parsePostfixTail_end_iff {ts left : List Token} {target e : Expr}
    (noCall : ∀ us, ts ≠ .op '(' :: us) (noDot : ∀ us, ts ≠ .op '.' :: us)
    (noItem : ∀ us, ts ≠ .op '[' :: us) :
    Reads (parsePostfixTail target ts) e left ↔ e = target ∧ left = ts := by
  rw [parsePostfixTail]
  · exact reads_pure_iff
  · exact noCall
  · exact fun name us => noDot _
  · exact noDot
  · exact noItem

/-! ### Arguments -/

theorem reads_parseArgs_close_iff {seen : Bool} {us left : List Token}
    {args : List Expr × List (String × Expr)} :
    Reads (parseArgs seen (.op ')' :: us)) args left ↔ args = ([], []) ∧ left = us := by
  rw [parseArgs]
  exact reads_pure_iff

theorem reads_parseArgs_keyword_iff {seen : Bool} {us left : List Token} {name : String}
    {args : List Expr × List (String × Expr)} :
    Reads (parseArgs seen (.name name :: .op '=' :: us)) args left ↔
      ∃ value rest, Reads (parseExpr us) value rest ∧
        ∃ more, Reads (parseMoreArgs true rest) more left ∧
          args = (more.1, (name, value) :: more.2) := by
  rw [parseArgs]
  exact reads_bind_iff fun value rest _ => reads_bind_map_iff fun _ _ _ => reads_pure_iff

theorem reads_parseArgs_positional_iff {seen : Bool} {ts left : List Token}
    {args : List Expr × List (String × Expr)} (noClose : ∀ us, ts ≠ .op ')' :: us)
    (noKeyword : ∀ name us, ts ≠ .name name :: .op '=' :: us) :
    Reads (parseArgs seen ts) args left ↔ seen = false ∧
      ∃ value rest, Reads (parseExpr ts) value rest ∧
        ∃ more, Reads (parseMoreArgs false rest) more left ∧ args = (value :: more.1, more.2) := by
  rw [parseArgs]
  · cases seen with
    | true =>
        rw [if_pos rfl]
        constructor
        · intro reads
          exact absurd reads not_reads_error
        · rintro ⟨impossible, _⟩
          cases impossible
    | false =>
        rw [if_neg Bool.false_ne_true, eq_self, true_and]
        exact reads_bind_iff fun value rest _ => reads_bind_map_iff fun _ _ _ => reads_pure_iff
  · exact noClose
  · exact noKeyword

theorem reads_parseMoreArgs_comma_iff {seen : Bool} {us left : List Token}
    {args : List Expr × List (String × Expr)} :
    Reads (parseMoreArgs seen (.op ',' :: us)) args left ↔ Reads (parseArgs seen us) args left := by
  rw [parseMoreArgs]
  exact reads_bind_last_iff fun _ _ _ => reads_pure_iff

theorem reads_parseMoreArgs_close_iff {seen : Bool} {ts left : List Token}
    {args : List Expr × List (String × Expr)} (noComma : ∀ us, ts ≠ .op ',' :: us) :
    Reads (parseMoreArgs seen ts) args left ↔ ts = .op ')' :: left ∧ args = ([], []) := by
  rw [parseMoreArgs]
  · exact reads_expectSymbol_last_iff fun _ _ => reads_pure_iff
  · exact noComma

/-! ### Lists and dicts -/

theorem reads_parseItems_close_iff {us left : List Token} {es : List Expr} :
    Reads (parseItems (.op ']' :: us)) es left ↔ es = [] ∧ left = us := by
  rw [parseItems]
  exact reads_pure_iff

theorem reads_parseItems_iff {ts left : List Token} {es : List Expr}
    (noClose : ∀ us, ts ≠ .op ']' :: us) :
    Reads (parseItems ts) es left ↔
      ∃ item rest, Reads (parseExpr ts) item rest ∧
        ∃ more, Reads (parseMoreItems rest) more left ∧ es = item :: more := by
  rw [parseItems]
  · exact reads_bind_iff fun item rest _ => reads_bind_map_iff fun _ _ _ => reads_pure_iff
  · exact noClose

theorem reads_parseMoreItems_comma_iff {us left : List Token} {es : List Expr} :
    Reads (parseMoreItems (.op ',' :: us)) es left ↔ Reads (parseItems us) es left := by
  rw [parseMoreItems]
  exact reads_bind_last_iff fun _ _ _ => reads_pure_iff

theorem reads_parseMoreItems_close_iff {ts left : List Token} {es : List Expr}
    (noComma : ∀ us, ts ≠ .op ',' :: us) :
    Reads (parseMoreItems ts) es left ↔ ts = .op ']' :: left ∧ es = [] := by
  rw [parseMoreItems]
  · exact reads_expectSymbol_last_iff fun _ _ => reads_pure_iff
  · exact noComma

theorem reads_parseEntries_close_iff {us left : List Token} {entries : List (String × Expr)} :
    Reads (parseEntries (.op '\x7d' :: us)) entries left ↔ entries = [] ∧ left = us := by
  rw [parseEntries]
  exact reads_pure_iff

theorem reads_parseEntries_key_iff {us left : List Token} {key : String}
    {entries : List (String × Expr)} :
    Reads (parseEntries (.string key :: us)) entries left ↔
      ∃ vs, us = .op ':' :: vs ∧ ∃ value rest, Reads (parseExpr vs) value rest ∧
        ∃ more, Reads (parseMoreEntries rest) more left ∧ entries = (key, value) :: more := by
  rw [parseEntries]
  exact reads_expectSymbol_bind_iff fun vs _ => reads_bind_iff fun value rest _ =>
    reads_bind_map_iff fun _ _ _ => reads_pure_iff

theorem not_reads_parseEntries {ts left : List Token} {entries : List (String × Expr)}
    (noClose : ∀ us, ts ≠ .op '\x7d' :: us) (noKey : ∀ key us, ts ≠ .string key :: us) :
    ¬ Reads (parseEntries ts) entries left := by
  rw [parseEntries]
  · exact not_reads_error
  · exact noClose
  · exact noKey

theorem reads_parseMoreEntries_comma_iff {us left : List Token}
    {entries : List (String × Expr)} :
    Reads (parseMoreEntries (.op ',' :: us)) entries left ↔
      Reads (parseEntries us) entries left := by
  rw [parseMoreEntries]
  exact reads_bind_last_iff fun _ _ _ => reads_pure_iff

theorem reads_parseMoreEntries_close_iff {ts left : List Token} {entries : List (String × Expr)}
    (noComma : ∀ us, ts ≠ .op ',' :: us) :
    Reads (parseMoreEntries ts) entries left ↔ ts = .op '\x7d' :: left ∧ entries = [] := by
  rw [parseMoreEntries]
  · exact reads_expectSymbol_last_iff fun _ _ => reads_pure_iff
  · exact noComma

/-! ### Atoms -/

theorem reads_parseAtom_bracketed_iff {us left : List Token} {e : Expr} :
    Reads (parseAtom (.op '(' :: us)) e left ↔ Reads (parseExpr us) e (.op ')' :: left) := by
  rw [parseAtom]
  exact reads_bind_close_iff fun _ _ _ => reads_expectSymbol_last_iff fun _ _ => reads_pure_iff

theorem reads_parseAtom_list_iff {us left : List Token} {e : Expr} :
    Reads (parseAtom (.op '[' :: us)) e left ↔
      ∃ es, Reads (parseItems us) es left ∧ e = .list es := by
  rw [parseAtom]
  exact reads_bind_map_iff fun _ _ _ => reads_pure_iff

theorem reads_parseAtom_dict_iff {us left : List Token} {e : Expr} :
    Reads (parseAtom (.op '\x7b' :: us)) e left ↔
      ∃ entries, Reads (parseEntries us) entries left ∧ e = .dict entries := by
  rw [parseAtom]
  exact reads_bind_map_iff fun _ _ _ => reads_pure_iff

/-! ### Statements -/

/-- What comes after the first expression of a statement. -/
theorem reads_parseStatement_iff {ts left : List Token} {statement : Statement} :
    Reads (parseStatement ts) statement left ↔
      ∃ e mid, Reads (parseExpr ts) e mid ∧
        ((∃ us, mid = .op '=' :: us ∧ e.isTarget = true ∧
          ∃ value, Reads (parseExpr us) value left ∧ statement = .assign e value) ∨
        ((∀ us, mid ≠ .op '=' :: us) ∧ statement = .expr e ∧ left = mid)) := by
  refine reads_bind_iff fun e mid fewer => ?_
  by_cases assigns : ∃ us, mid = .op '=' :: us
  · obtain ⟨us, rfl⟩ := assigns
    change Reads (if e.isTarget = true then _ else .error .invalidTarget) statement left ↔ _
    by_cases isTarget : e.isTarget = true
    · rw [if_pos isTarget]
      refine (reads_bind_map_iff fun _ _ _ => by exact reads_pure_iff).trans ?_
      constructor
      · rintro ⟨value, reads, rfl⟩
        exact .inl ⟨us, rfl, isTarget, value, reads, rfl⟩
      · rintro (⟨_, same, _, value, reads, rfl⟩ | ⟨impossible, _⟩)
        · cases same
          exact ⟨value, reads, rfl⟩
        · exact absurd rfl (impossible us)
    · rw [if_neg isTarget]
      constructor
      · intro reads
        exact absurd reads not_reads_error
      · rintro (⟨_, _, isTarget', _⟩ | ⟨impossible, _⟩)
        · exact absurd isTarget' isTarget
        · exact absurd rfl (impossible us)
  · dsimp only
    split
    · exact absurd ⟨_, rfl⟩ assigns
    · rw [reads_pure_iff]
      constructor
      · intro same
        exact .inr ⟨fun us same => assigns ⟨us, same⟩, same⟩
      · rintro (⟨us, same, _⟩ | ⟨_, same⟩)
        · exact absurd ⟨us, same⟩ assigns
        · exact same

theorem parse_nil : parse [] = .ok [] := by
  rw [parse]

theorem parse_newline (ts : List Token) : parse (.newline :: ts) = parse ts := by
  rw [parse]

theorem parse_eq_ok_iff {ts : List Token} {statements : List Statement} (some : ts ≠ [])
    (noNewline : ∀ us, ts ≠ .newline :: us) :
    parse ts = .ok statements ↔
      ∃ statement rest, Reads (parseStatement ts) statement rest ∧
        (rest = [] ∧ statements = [statement] ∨
          ∃ us more, rest = .newline :: us ∧ parse us = .ok more ∧
            statements = statement :: more) := by
  rw [parse]
  · cases result : parseStatement ts with
    | error fault =>
        constructor
        · intro impossible
          cases impossible
        · rintro ⟨_, _, reads, _⟩
          exact absurd reads not_reads_error
    | ok pair =>
        obtain ⟨first, mid, shorter⟩ := pair
        have only : ∀ statement rest, Reads (Except.ok (first, (⟨mid, shorter⟩ : Fewer ts)))
            statement rest → statement = first ∧ rest = mid :=
          fun _ _ reads => reads_pure_iff.mp reads
        cases mid with
        | nil =>
            constructor
            · intro same
              cases same
              exact ⟨first, [], ⟨shorter, rfl⟩, .inl ⟨rfl, rfl⟩⟩
            · rintro ⟨statement, rest, reads, ⟨_, rfl⟩ | ⟨_, _, rfl, _⟩⟩
              · obtain ⟨rfl, _⟩ := only _ _ reads
                rfl
              · cases (only _ _ reads).2
        | cons token us =>
            by_cases newline : token = .newline
            · subst newline
              change (parse us >>= fun more => pure (first :: more)) = .ok statements ↔ _
              constructor
              · intro finished
                cases parsed : parse us with
                | error fault =>
                    rw [parsed] at finished
                    cases finished
                | ok more =>
                    rw [parsed] at finished
                    cases finished
                    exact ⟨first, _, ⟨shorter, rfl⟩, .inr ⟨us, more, rfl, parsed, rfl⟩⟩
              · rintro ⟨statement, rest, reads, ⟨rfl, _⟩ | ⟨vs, more, rfl, parsed, rfl⟩⟩
                · cases (only _ _ reads).2
                · obtain ⟨rfl, same⟩ := only _ _ reads
                  cases same
                  rw [parsed]
                  rfl
            · cases token with
              | newline => exact absurd rfl newline
              | _ =>
                  constructor
                  · intro impossible
                    cases impossible
                  · rintro ⟨statement, rest, reads, ⟨rfl, _⟩ | ⟨vs, more, rfl, _⟩⟩
                    · cases (only _ _ reads).2
                    · cases (only _ _ reads).2
  · exact some
  · exact noNewline

end Interop.Script
