import Interop.Proofs.Script.Soundness
/-!
The parser and the grammar agree: the parser reads exactly the tokens that have a derivation, and
gives the tree that they derive, of which there is only one.
-/

set_option autoImplicit false

namespace Interop.Script

/-! ### Completeness -/

/-- Tokens begin with none of some symbols. -/
def NotBegunBy (symbols : List Char) (ts : List Token) : Prop :=
  ∀ c ∈ symbols, ∀ us, ts ≠ .op c :: us

theorem NotBegunBy.mono {few many : List Char} {ts : List Token} (h : NotBegunBy many ts)
    (sub : few ⊆ many) : NotBegunBy few ts :=
  fun c member => h c (sub member)

theorem notBegunBy_op {symbols : List Char} {c : Char} (other : c ∉ symbols) (us : List Token) :
    NotBegunBy symbols (.op c :: us) := by
  rintro d member vs ⟨⟩
  exact other member

theorem notBegunBy_nil (symbols : List Char) : NotBegunBy symbols [] := by
  intro c member us same
  cases same

theorem notBegunBy_newline (symbols : List Char) (us : List Token) :
    NotBegunBy symbols (.newline :: us) := by
  intro c member vs same
  cases same

theorem op_ne_op {c d : Char} (other : c ≠ d) (us vs : List Token) :
    Token.op c :: us ≠ .op d :: vs := by
  intro same
  cases same
  exact other rfl

/-- The symbols that an access, a product and a sum go on with. -/
def accessSymbols : List Char := ['(', '.', '[']

def productSymbols : List Char := '*' :: accessSymbols

def sumSymbols : List Char := '+' :: '-' :: productSymbols

/-- What the parser does with the tokens of a phrase and those that follow them. Where a phrase may
go on, the parser does with both what it does with the rest alone. -/
def Phrase.IsParsed (ts : List Token) : Phrase → Prop
  | .sum e => ∀ rest, NotBegunBy productSymbols rest → ∀ e' left,
      Reads (parseSumTail e rest) e' left → Reads (parseExpr (ts ++ rest)) e' left
  | .product e => ∀ rest, NotBegunBy accessSymbols rest → ∀ e' left,
      Reads (parseProductTail e rest) e' left → Reads (parseTerm (ts ++ rest)) e' left
  | .signed e => ∀ rest, NotBegunBy accessSymbols rest → Reads (parseUnary (ts ++ rest)) e rest
  | .access e => ∀ rest e' left,
      Reads (parsePostfixTail e rest) e' left → Reads (parsePostfix (ts ++ rest)) e' left
  | .atom e => ∀ rest, Reads (parseAtom (ts ++ rest)) e rest
  | .arguments args keywords => ∀ rest seen, (seen = true → args = []) →
      Reads (parseArgs seen (ts ++ .op ')' :: rest)) (args, keywords) rest
  | .items es => ∀ rest, Reads (parseItems (ts ++ .op ']' :: rest)) es rest
  | .entries es => ∀ rest, Reads (parseEntries (ts ++ .op '\x7d' :: rest)) es rest

theorem parseSumTail_end {rest : List Token} (stops : NotBegunBy sumSymbols rest) (e : Expr) :
    Reads (parseSumTail e rest) e rest :=
  (reads_parseSumTail_end_iff (stops '+' (by decide)) (stops '-' (by decide))).mpr ⟨rfl, rfl⟩

theorem parseProductTail_end {rest : List Token} (stops : NotBegunBy productSymbols rest)
    (e : Expr) : Reads (parseProductTail e rest) e rest :=
  (reads_parseProductTail_end_iff (stops '*' (by decide))).mpr ⟨rfl, rfl⟩

theorem parsePostfixTail_end {rest : List Token} (stops : NotBegunBy accessSymbols rest)
    (e : Expr) : Reads (parsePostfixTail e rest) e rest :=
  (reads_parsePostfixTail_end_iff (stops '(' (by decide)) (stops '.' (by decide))
    (stops '[' (by decide))).mpr ⟨rfl, rfl⟩

/-- A sum that does not go on is read as it is. -/
theorem parseExpr_of_isParsed {e : Expr} {ts rest : List Token}
    (parsed : (Phrase.sum e).IsParsed ts) (stops : NotBegunBy sumSymbols rest) :
    Reads (parseExpr (ts ++ rest)) e rest :=
  parsed rest (stops.mono (by decide)) e rest (parseSumTail_end stops e)

theorem Begins.not_op {e : Expr} {ts : List Token} (begins : Begins (.sum e) ts) {c : Char}
    (cannot : ¬ (Phrase.sum e).CanBegin (.op c)) (rest us : List Token) :
    ts ++ rest ≠ .op c :: us := by
  obtain ⟨token, more, rfl, first⟩ := begins.first
  intro same
  cases same
  exact cannot first

theorem not_canBegin_round {e : Expr} : ¬ (Phrase.sum e).CanBegin (.op ')') := by
  rintro (impossible | impossible)
  · exact impossible
  · cases impossible

theorem not_canBegin_square {e : Expr} : ¬ (Phrase.sum e).CanBegin (.op ']') := by
  rintro (impossible | impossible)
  · exact impossible
  · cases impossible

theorem Begins.not_keyword {e : Expr} {ts rest : List Token} (begins : Begins (.sum e) ts)
    (noEq : ∀ us, rest ≠ .op '=' :: us) (name : String) (us : List Token) :
    ts ++ rest ≠ .name name :: .op '=' :: us := by
  intro same
  obtain ⟨token, more, rfl, _⟩ := begins.first
  cases more with
  | nil =>
      cases same
      exact noEq us rfl
  | cons second more =>
      cases same
      exact begins.second name _ more rfl

/-- Tokens with a derivation are parsed, whatever comes after them. -/
theorem Derives.isParsed {phrase : Phrase} {ts : List Token} (derives : Derives phrase ts) :
    phrase.IsParsed ts := by
  induction derives with
  | ofProduct _ ih =>
      intro rest stops e' left more
      exact reads_parseExpr_iff.mpr
        ⟨_, rest, ih rest (stops.mono (by decide)) _ _ (parseProductTail_end stops _), more⟩
  | @add l r ts us left right ihl ihr =>
      intro rest stops e' left more
      rw [List.append_assoc]
      apply ihl _ (notBegunBy_op (by decide) _) e' left
      exact reads_parseSumTail_add_iff.mpr
        ⟨r, rest, ihr rest (stops.mono (by decide)) _ _ (parseProductTail_end stops r), more⟩
  | @sub l r ts us left right ihl ihr =>
      intro rest stops e' left more
      rw [List.append_assoc]
      apply ihl _ (notBegunBy_op (by decide) _) e' left
      exact reads_parseSumTail_sub_iff.mpr
        ⟨r, rest, ihr rest (stops.mono (by decide)) _ _ (parseProductTail_end stops r), more⟩
  | ofSigned _ ih =>
      intro rest stops e' left more
      exact reads_parseTerm_iff.mpr ⟨_, rest, ih rest stops, more⟩
  | @mul l r ts us left right ihl ihr =>
      intro rest stops e' left more
      rw [List.append_assoc]
      apply ihl _ (notBegunBy_op (by decide) _) e' left
      exact reads_parseProductTail_mul_iff.mpr ⟨r, rest, ihr rest stops, more⟩
  | @ofAccess e ts access ih =>
      intro rest stops
      have noSign : ∀ us, ts ++ rest ≠ .op '-' :: us := by
        obtain ⟨token, more, rfl, first⟩ := (access.begins rfl).first
        rintro us ⟨⟩
        exact first
      exact (reads_parseUnary_iff noSign).mpr (ih rest e rest (parsePostfixTail_end stops e))
  | neg _ ih =>
      intro rest stops
      exact reads_parseUnary_neg_iff.mpr ⟨_, ih rest stops, rfl⟩
  | ofAtom _ ih =>
      intro rest e' left more
      exact reads_parsePostfix_iff.mpr ⟨_, rest, ih rest, more⟩
  | @call f args keywords ts us function arguments ihf iha =>
      intro rest e' left more
      rw [List.append_assoc, List.cons_append, ← List.append_cons]
      apply ihf _ e' left
      have inside := iha rest false fun after => absurd after Bool.false_ne_true
      exact reads_parsePostfixTail_call_iff.mpr ⟨(args, keywords), rest, inside, more⟩
  | @attr e name ts target ih =>
      intro rest e' left more
      rw [List.append_assoc]
      exact ih _ e' left (reads_parsePostfixTail_attr_iff.mpr more)
  | @item e k ts us target key iht ihk =>
      intro rest e' left more
      rw [List.append_assoc, List.cons_append, ← List.append_cons]
      have inside : Reads (parseExpr (us ++ .op ']' :: rest)) k (.op ']' :: rest) :=
        parseExpr_of_isParsed ihk (notBegunBy_op (by decide) _)
      apply iht _ e' left
      exact reads_parsePostfixTail_item_iff.mpr ⟨k, _, inside, rest, rfl, more⟩
  | int value =>
      intro rest
      rw [List.singleton_append, parseAtom]
      exact reads_pure_iff.mpr ⟨rfl, rfl⟩
  | float value =>
      intro rest
      rw [List.singleton_append, parseAtom]
      exact reads_pure_iff.mpr ⟨rfl, rfl⟩
  | string value =>
      intro rest
      rw [List.singleton_append, parseAtom]
      exact reads_pure_iff.mpr ⟨rfl, rfl⟩
  | name name =>
      intro rest
      rw [List.singleton_append, parseAtom]
      exact reads_pure_iff.mpr ⟨rfl, rfl⟩
  | @bracketed e ts inside ih =>
      intro rest
      rw [List.cons_append, ← List.append_cons]
      exact reads_parseAtom_bracketed_iff.mpr
        (parseExpr_of_isParsed ih (notBegunBy_op (by decide) _))
  | @list es ts inside ih =>
      intro rest
      rw [List.cons_append, ← List.append_cons]
      exact reads_parseAtom_list_iff.mpr ⟨es, ih rest, rfl⟩
  | @dict entries ts inside ih =>
      intro rest
      rw [List.cons_append, ← List.append_cons]
      exact reads_parseAtom_dict_iff.mpr ⟨entries, ih rest, rfl⟩
  | noArguments =>
      intro rest seen _
      exact reads_parseArgs_close_iff.mpr ⟨rfl, rfl⟩
  | @lastPositional e ts value ih =>
      intro rest seen only
      refine (reads_parseArgs_positional_iff ((value.begins rfl).not_op not_canBegin_round _)
        ((value.begins rfl).not_keyword (op_ne_op (by decide) _))).mpr ⟨?_, e, _,
          parseExpr_of_isParsed ih (notBegunBy_op (by decide) _), ([], []), ?_, rfl⟩
      · cases seen with
        | false => rfl
        | true => cases only rfl
      · exact (reads_parseMoreArgs_close_iff (op_ne_op (by decide) _)).mpr ⟨rfl, rfl⟩
  | @positional e args keywords ts us value arguments ih iha =>
      intro rest seen only
      rw [List.append_assoc, List.cons_append]
      refine (reads_parseArgs_positional_iff ((value.begins rfl).not_op not_canBegin_round _)
        ((value.begins rfl).not_keyword (op_ne_op (by decide) _))).mpr ⟨?_, e, _,
          parseExpr_of_isParsed ih (notBegunBy_op (by decide) _), (args, keywords), ?_, rfl⟩
      · cases seen with
        | false => rfl
        | true => cases only rfl
      · exact reads_parseMoreArgs_comma_iff.mpr
          (iha rest false fun after => absurd after Bool.false_ne_true)
  | @lastKeyword name e ts value ih =>
      intro rest seen _
      refine reads_parseArgs_keyword_iff.mpr ⟨e, _,
        parseExpr_of_isParsed ih (notBegunBy_op (by decide) _), ([], []), ?_, rfl⟩
      exact (reads_parseMoreArgs_close_iff (op_ne_op (by decide) _)).mpr ⟨rfl, rfl⟩
  | @keyword name e keywords ts us value arguments ih iha =>
      intro rest seen _
      rw [List.cons_append, List.cons_append, List.append_assoc, List.cons_append]
      refine reads_parseArgs_keyword_iff.mpr ⟨e, _,
        parseExpr_of_isParsed ih (notBegunBy_op (by decide) _), ([], keywords), ?_, rfl⟩
      exact reads_parseMoreArgs_comma_iff.mpr (iha rest true fun _ => rfl)
  | noItems =>
      intro rest
      exact reads_parseItems_close_iff.mpr ⟨rfl, rfl⟩
  | @lastItem e ts value ih =>
      intro rest
      refine (reads_parseItems_iff ((value.begins rfl).not_op not_canBegin_square _)).mpr
        ⟨e, _, parseExpr_of_isParsed ih (notBegunBy_op (by decide) _), [], ?_, rfl⟩
      exact (reads_parseMoreItems_close_iff (op_ne_op (by decide) _)).mpr ⟨rfl, rfl⟩
  | @moreItems e es ts us value items ih iha =>
      intro rest
      rw [List.append_assoc, List.cons_append]
      refine (reads_parseItems_iff ((value.begins rfl).not_op not_canBegin_square _)).mpr
        ⟨e, _, parseExpr_of_isParsed ih (notBegunBy_op (by decide) _), es, ?_, rfl⟩
      exact reads_parseMoreItems_comma_iff.mpr (iha rest)
  | noEntries =>
      intro rest
      exact reads_parseEntries_close_iff.mpr ⟨rfl, rfl⟩
  | @lastEntry key e ts value ih =>
      intro rest
      refine reads_parseEntries_key_iff.mpr ⟨_, rfl, e, _,
        parseExpr_of_isParsed ih (notBegunBy_op (by decide) _), [], ?_, rfl⟩
      exact (reads_parseMoreEntries_close_iff (op_ne_op (by decide) _)).mpr ⟨rfl, rfl⟩
  | @moreEntries key e entries ts us value more ih iha =>
      intro rest
      rw [List.cons_append, List.cons_append, List.append_assoc, List.cons_append]
      refine reads_parseEntries_key_iff.mpr ⟨_, rfl, e, _,
        parseExpr_of_isParsed ih (notBegunBy_op (by decide) _), entries, ?_, rfl⟩
      exact reads_parseMoreEntries_comma_iff.mpr (iha rest)

/-! ### Statements -/

theorem DerivesStatement.reads {statement : Statement} {ts rest : List Token}
    (derives : DerivesStatement statement ts)
    (stops : NotBegunBy ('=' :: sumSymbols) rest) :
    Reads (parseStatement (ts ++ rest)) statement rest := by
  have stopsSum : NotBegunBy sumSymbols rest := stops.mono (List.subset_cons_self _ _)
  cases derives with
  | @expr e _ sum =>
      exact reads_parseStatement_iff.mpr ⟨e, rest, parseExpr_of_isParsed sum.isParsed stopsSum,
        .inr ⟨stops '=' List.mem_cons_self, rfl, rfl⟩⟩
  | @assign target value ts us left isTarget right =>
      rw [List.append_assoc, List.cons_append]
      exact reads_parseStatement_iff.mpr ⟨target, _,
        parseExpr_of_isParsed left.isParsed (notBegunBy_op (by decide) _),
        .inl ⟨_, rfl, isTarget, value, parseExpr_of_isParsed right.isParsed stopsSum, rfl⟩⟩

theorem DerivesStatement.begins {statement : Statement} {ts : List Token}
    (derives : DerivesStatement statement ts) (rest : List Token) :
    ts ++ rest ≠ [] ∧ ∀ us, ts ++ rest ≠ .newline :: us := by
  have begun : ∀ {e : Expr} {ts : List Token}, Derives (.sum e) ts → ∀ rest,
      ts ++ rest ≠ [] ∧ ∀ us, ts ++ rest ≠ .newline :: us := by
    intro e ts sum rest
    obtain ⟨token, more, rfl, first⟩ := (sum.begins rfl).first
    refine ⟨List.cons_ne_nil _ _, ?_⟩
    rintro us ⟨⟩
    rcases first with first | first
    · exact first
    · cases first
  cases derives with
  | expr sum => exact begun sum rest
  | assign left _ _ =>
      rw [List.append_assoc]
      exact begun left _

theorem derivesStatement_of_reads {statement : Statement} {ts left : List Token}
    (reads : Reads (parseStatement ts) statement left) :
    ∃ used, ts = used ++ left ∧ DerivesStatement statement used := by
  obtain ⟨e, mid, head, ⟨us, rfl, isTarget, value, right, rfl⟩ | ⟨_, rfl, rfl⟩⟩ :=
    reads_parseStatement_iff.mp reads
  · obtain ⟨used, rfl, target⟩ := (sound ts).sum e _ head
    obtain ⟨used', rfl, derived⟩ := (sound us).sum value left right
    exact ⟨used ++ .op '=' :: used', by simp, .assign target isTarget derived⟩
  · obtain ⟨used, rfl, derived⟩ := (sound ts).sum e _ head
    exact ⟨used, rfl, .expr derived⟩

theorem DerivesStatements.parse {statements : List Statement} {ts : List Token}
    (derives : DerivesStatements statements ts) : parse ts = .ok statements := by
  induction derives with
  | none => exact parse_nil
  | newline _ ih => exact (parse_newline _).trans ih
  | @last statement ts h =>
      have begins := h.begins []
      have reads : Reads (parseStatement (ts ++ [])) statement [] := h.reads (notBegunBy_nil _)
      rw [List.append_nil] at begins reads
      exact (parse_eq_ok_iff begins.1 begins.2).mpr ⟨statement, [], reads, .inl ⟨rfl, rfl⟩⟩
  | @more statement statements ts us first _ ih =>
      have begins := first.begins (.newline :: us)
      exact (parse_eq_ok_iff begins.1 begins.2).mpr
        ⟨statement, _, first.reads (notBegunBy_newline _ us), .inr ⟨us, statements, rfl, ih, rfl⟩⟩

theorem derivesStatements_of_parse {ts : List Token} {statements : List Statement}
    (parsed : parse ts = .ok statements) : DerivesStatements statements ts := by
  by_cases empty : ts = []
  · subst empty
    cases parse_nil.symm.trans parsed
    exact .none
  by_cases newline : ∃ us, ts = .newline :: us
  · obtain ⟨us, shape⟩ := newline
    have shorter : us.length < ts.length := by
      rw [shape]
      exact Nat.lt_succ_self _
    rw [shape, parse_newline] at parsed
    rw [shape]
    exact .newline (derivesStatements_of_parse parsed)
  obtain ⟨statement, rest, reads, ending⟩ :=
    (parse_eq_ok_iff empty fun us same => newline ⟨us, same⟩).mp parsed
  obtain ⟨used, shape, derived⟩ := derivesStatement_of_reads reads
  rcases ending with ⟨rfl, rfl⟩ | ⟨us, more, rfl, parsed', rfl⟩
  · rw [shape, List.append_nil]
    exact .last derived
  · have shorter : us.length < ts.length := by
      rw [shape, List.length_append, List.length_cons]
      omega
    rw [shape]
    exact .more derived (derivesStatements_of_parse parsed')
termination_by ts.length
decreasing_by all_goals exact shorter

/-- The parser succeeds exactly on the tokens that derive statements, with the statements that they
derive; and tokens derive only one list of statements. -/
theorem parse_iff_derivesStatements (tokens : List Token) :
    (∀ statements, parse tokens = .ok statements ↔ DerivesStatements statements tokens) ∧
      ∀ first second, DerivesStatements first tokens → DerivesStatements second tokens →
        first = second := by
  constructor
  · intro statements
    exact ⟨derivesStatements_of_parse, DerivesStatements.parse⟩
  · intro first second derivesFirst derivesSecond
    have same := derivesFirst.parse.symm.trans derivesSecond.parse
    cases same
    rfl

/-- The tokens of `x = 1 + 2 * 3`. -/
theorem parse_iff_derivesStatements_assignment :
    let tokens : List Token :=
      [.name "x", .op '=', .int 1, .op '+', .int 2, .op '*', .int 3]
    let statements : List Statement :=
      [.assign (.name "x") (.binary (.int 1) .add (.binary (.int 2) .mul (.int 3)))]
    DerivesStatements statements tokens ∧ parse tokens = .ok statements ∧
      ∀ other, DerivesStatements other tokens → other = statements := by
  intro tokens statements
  have number : ∀ value, Derives (.signed (.int value)) [.int value] :=
    fun value => .ofAccess (.ofAtom (.int value))
  have target : Derives (.sum (.name "x")) [.name "x"] :=
    .ofProduct (.ofSigned (.ofAccess (.ofAtom (.name "x"))))
  have sum : Derives (.sum (.binary (.int 1) .add (.binary (.int 2) .mul (.int 3))))
      [.int 1, .op '+', .int 2, .op '*', .int 3] :=
    .add (.ofProduct (.ofSigned (number 1))) (.mul (.ofSigned (number 2)) (number 3))
  have derived : DerivesStatements statements tokens := .last (.assign target rfl sum)
  obtain ⟨parses, unique⟩ := parse_iff_derivesStatements tokens
  exact ⟨derived, (parses statements).mpr derived, fun other derives =>
    unique other statements derives derived⟩

end Interop.Script
