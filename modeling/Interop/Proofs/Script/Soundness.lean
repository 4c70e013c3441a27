import Interop.Proofs.Script.Grammar
import Interop.Proofs.Script.Reading
/-!
What the parser reads has a derivation. Every function of the parser is sound for some tokens if all
of them are for fewer tokens, in the order in which the functions call each other on the same ones.
-/

set_option autoImplicit false

namespace Interop.Script

variable {α : Type} {P : List Token → Prop}

/-- What a parser reads derives a phrase. -/
def ReadsAs (make : α → Phrase) (ts : List Token)
    (result : Except SourceFault (α × { rest : List Token // P rest })) : Prop :=
  ∀ a left, Reads result a left → ∃ used, ts = used ++ left ∧ Derives (make a) used

/-- What a parser reads up to a closing bracket derives a phrase. -/
def ReadsWithin (make : α → Phrase) (close : Char) (ts : List Token)
    (result : Except SourceFault (α × { rest : List Token // P rest })) : Prop :=
  ∀ a left, Reads result a left → ∃ used, ts = used ++ .op close :: left ∧ Derives (make a) used

/-- What a parser reads continues a phrase. -/
def ReadsOn (make : Expr → Phrase) (ts : List Token)
    (result : Expr → Except SourceFault (Expr × { rest : List Token // P rest })) : Prop :=
  ∀ start before, Derives (make start) before → ∀ e left, Reads (result start) e left →
    ∃ used, ts = used ++ left ∧ Derives (make e) (before ++ used)

/-- After an element comes the closing bracket, or a comma and what may follow it. -/
def ReadsMore (make : α → Phrase) (none : α) (close : Char) (ts : List Token)
    (result : Except SourceFault (α × { rest : List Token // P rest })) : Prop :=
  ∀ a left, Reads result a left → ts = .op close :: left ∧ a = none ∨
    ∃ used, ts = .op ',' :: (used ++ .op close :: left) ∧ Derives (make a) used

/-- The positional and the keyword arguments of a call as a phrase. -/
def Phrase.ofArguments (args : List Expr × List (String × Expr)) : Phrase :=
  .arguments args.1 args.2

/-- After a keyword there are no positional arguments. -/
def KeywordsOnly (result : Except SourceFault
    ((List Expr × List (String × Expr)) × { rest : List Token // P rest })) : Prop :=
  ∀ args left, Reads result args left → args.1 = []

/-- All functions of the parser are sound on some tokens. -/
structure Sound (ts : List Token) : Prop where
  atom : ReadsAs .atom ts (parseAtom ts)
  accessTail : ReadsOn .access ts fun e => parsePostfixTail e ts
  access : ReadsAs .access ts (parsePostfix ts)
  signed : ReadsAs .signed ts (parseUnary ts)
  productTail : ReadsOn .product ts fun e => parseProductTail e ts
  product : ReadsAs .product ts (parseTerm ts)
  sumTail : ReadsOn .sum ts fun e => parseSumTail e ts
  sum : ReadsAs .sum ts (parseExpr ts)
  args : ∀ seen, ReadsWithin .ofArguments ')' ts (parseArgs seen ts)
  keywordArgs : KeywordsOnly (parseArgs true ts)
  moreArgs : ∀ seen, ReadsMore .ofArguments ([], []) ')' ts (parseMoreArgs seen ts)
  moreKeywordArgs : KeywordsOnly (parseMoreArgs true ts)
  items : ReadsWithin .items ']' ts (parseItems ts)
  moreItems : ReadsMore .items [] ']' ts (parseMoreItems ts)
  entries : ReadsWithin .entries '\x7d' ts (parseEntries ts)
  moreEntries : ReadsMore .entries [] '\x7d' ts (parseMoreEntries ts)

section Steps

variable {ts : List Token} (fewer : ∀ us : List Token, us.length < ts.length → Sound us)

include fewer

theorem sound_sumTail : ReadsOn .sum ts fun e => parseSumTail e ts := by
  intro start before derived e left reads
  by_cases add : ∃ us, ts = .op '+' :: us
  · obtain ⟨us, rfl⟩ := add
    obtain ⟨r, rest, ⟨shorter, right⟩, more⟩ := reads_parseSumTail_add_iff.mp reads
    obtain ⟨used, rfl, product⟩ := (fewer us (by simp)).product r rest ⟨shorter, right⟩
    have later : Sound rest := fewer rest (Nat.lt_succ_of_lt shorter)
    obtain ⟨used', rfl, sum⟩ := later.sumTail _ _ (.add derived product) e left more
    exact ⟨.op '+' :: (used ++ used'), by simp, by simpa using sum⟩
  · by_cases sub : ∃ us, ts = .op '-' :: us
    · obtain ⟨us, rfl⟩ := sub
      obtain ⟨r, rest, ⟨shorter, right⟩, more⟩ := reads_parseSumTail_sub_iff.mp reads
      obtain ⟨used, rfl, product⟩ := (fewer us (by simp)).product r rest ⟨shorter, right⟩
      have later : Sound rest := fewer rest (Nat.lt_succ_of_lt shorter)
      obtain ⟨used', rfl, sum⟩ := later.sumTail _ _ (.sub derived product) e left more
      exact ⟨.op '-' :: (used ++ used'), by simp, by simpa using sum⟩
    · obtain ⟨rfl, rfl⟩ := (reads_parseSumTail_end_iff (fun us same => add ⟨us, same⟩)
        fun us same => sub ⟨us, same⟩).mp reads
      exact ⟨[], rfl, by simpa using derived⟩

theorem sound_productTail : ReadsOn .product ts fun e => parseProductTail e ts := by
  intro start before derived e left reads
  by_cases mul : ∃ us, ts = .op '*' :: us
  · obtain ⟨us, rfl⟩ := mul
    obtain ⟨r, rest, ⟨shorter, right⟩, more⟩ := reads_parseProductTail_mul_iff.mp reads
    obtain ⟨used, rfl, signed⟩ := (fewer us (by simp)).signed r rest ⟨shorter, right⟩
    have later : Sound rest := fewer rest (Nat.lt_succ_of_lt shorter)
    obtain ⟨used', rfl, product⟩ := later.productTail _ _ (.mul derived signed) e left more
    exact ⟨.op '*' :: (used ++ used'), by simp, by simpa using product⟩
  · obtain ⟨rfl, rfl⟩ := (reads_parseProductTail_end_iff fun us same => mul ⟨us, same⟩).mp reads
    exact ⟨[], rfl, by simpa using derived⟩

theorem sound_accessTail : ReadsOn .access ts fun e => parsePostfixTail e ts := by
  intro start before derived e left reads
  by_cases call : ∃ us, ts = .op '(' :: us
  · obtain ⟨us, rfl⟩ := call
    obtain ⟨args, rest, ⟨shorter, inside⟩, more⟩ := reads_parsePostfixTail_call_iff.mp reads
    obtain ⟨used, rfl, arguments⟩ := (fewer us (by simp)).args false args rest ⟨shorter, inside⟩
    have later : Sound rest := fewer rest (Nat.lt_succ_of_lt shorter)
    obtain ⟨used', rfl, access⟩ := later.accessTail _ _ (.call derived arguments) e left more
    exact ⟨.op '(' :: (used ++ .op ')' :: used'), by simp, by simpa using access⟩
  by_cases dot : ∃ us, ts = .op '.' :: us
  · obtain ⟨us, rfl⟩ := dot
    by_cases named : ∃ name vs, us = .name name :: vs
    · obtain ⟨name, vs, rfl⟩ := named
      have more := reads_parsePostfixTail_attr_iff.mp reads
      have later : Sound vs := fewer vs (Nat.lt_succ_of_lt (Nat.lt_succ_self _))
      obtain ⟨used, rfl, access⟩ := later.accessTail _ _ (.attr derived) e left more
      exact ⟨.op '.' :: .name name :: used, by simp, by simpa using access⟩
    · exact absurd reads (not_reads_parsePostfixTail_dot fun name vs same => named ⟨name, vs, same⟩)
  by_cases item : ∃ us, ts = .op '[' :: us
  · obtain ⟨us, rfl⟩ := item
    obtain ⟨key, _, ⟨shorter, inside⟩, rest, rfl, more⟩ :=
      reads_parsePostfixTail_item_iff.mp reads
    obtain ⟨used, rfl, sum⟩ := (fewer us (by simp)).sum key _ ⟨shorter, inside⟩
    have later : Sound rest := fewer rest (Nat.lt_succ_of_lt (Nat.lt_of_succ_lt shorter))
    obtain ⟨used', rfl, access⟩ := later.accessTail _ _ (.item derived sum) e left more
    exact ⟨.op '[' :: (used ++ .op ']' :: used'), by simp, by simpa using access⟩
  · obtain ⟨rfl, rfl⟩ := (reads_parsePostfixTail_end_iff (fun us same => call ⟨us, same⟩)
      (fun us same => dot ⟨us, same⟩) fun us same => item ⟨us, same⟩).mp reads
    exact ⟨[], rfl, by simpa using derived⟩

theorem sound_atom : ReadsAs .atom ts (parseAtom ts) := by
  intro e left reads
  by_cases round : ∃ us, ts = .op '(' :: us
  · obtain ⟨us, rfl⟩ := round
    obtain ⟨used, rfl, sum⟩ := (fewer us (by simp)).sum e _ (reads_parseAtom_bracketed_iff.mp reads)
    exact ⟨.op '(' :: (used ++ [.op ')']), by simp, .bracketed sum⟩
  by_cases square : ∃ us, ts = .op '[' :: us
  · obtain ⟨us, rfl⟩ := square
    obtain ⟨es, inside, rfl⟩ := reads_parseAtom_list_iff.mp reads
    obtain ⟨used, rfl, items⟩ := (fewer us (by simp)).items es left inside
    exact ⟨.op '[' :: (used ++ [.op ']']), by simp, .list items⟩
  by_cases curly : ∃ us, ts = .op '\x7b' :: us
  · obtain ⟨us, rfl⟩ := curly
    obtain ⟨es, inside, rfl⟩ := reads_parseAtom_dict_iff.mp reads
    obtain ⟨used, rfl, entries⟩ := (fewer us (by simp)).entries es left inside
    exact ⟨.op '\x7b' :: (used ++ [.op '\x7d']), by simp, .dict entries⟩
  rw [parseAtom.eq_def] at reads
  split at reads
  · obtain ⟨rfl, rfl⟩ := reads_pure_iff.mp reads
    exact ⟨[_], rfl, .int _⟩
  · obtain ⟨rfl, rfl⟩ := reads_pure_iff.mp reads
    exact ⟨[_], rfl, .float _⟩
  · obtain ⟨rfl, rfl⟩ := reads_pure_iff.mp reads
    exact ⟨[_], rfl, .string _⟩
  · obtain ⟨rfl, rfl⟩ := reads_pure_iff.mp reads
    exact ⟨[_], rfl, .name _⟩
  · exact absurd ⟨_, rfl⟩ round
  · exact absurd ⟨_, rfl⟩ square
  · exact absurd ⟨_, rfl⟩ curly
  · exact absurd reads not_reads_error

/-- After an element: its bracket, or a comma and more elements. -/
theorem sound_more {make : α → Phrase} {none : α} {close : Char}
    {more inside : (ts : List Token) → Except SourceFault (α × Fewer ts)}
    (comma : ∀ {us a left}, Reads (more (.op ',' :: us)) a left ↔ Reads (inside us) a left)
    (closes : ∀ {ts a left}, (∀ us, ts ≠ .op ',' :: us) →
      (Reads (more ts) a left ↔ ts = .op close :: left ∧ a = none))
    (sound : ∀ us : List Token, Sound us → ReadsWithin make close us (inside us)) :
    ReadsMore make none close ts (more ts) := by
  intro a left reads
  by_cases separated : ∃ us, ts = .op ',' :: us
  · obtain ⟨us, rfl⟩ := separated
    obtain ⟨used, rfl, derived⟩ := sound us (fewer us (by simp)) a left (comma.mp reads)
    exact .inr ⟨used, rfl, derived⟩
  · exact .inl ((closes fun us same => separated ⟨us, same⟩).mp reads)

theorem sound_moreArgs (seen : Bool) :
    ReadsMore .ofArguments ([], []) ')' ts (parseMoreArgs seen ts) :=
  sound_more fewer reads_parseMoreArgs_comma_iff reads_parseMoreArgs_close_iff
    fun _ sound => sound.args seen

theorem sound_moreItems : ReadsMore .items [] ']' ts (parseMoreItems ts) :=
  sound_more fewer reads_parseMoreItems_comma_iff reads_parseMoreItems_close_iff
    fun _ sound => sound.items

theorem sound_moreEntries : ReadsMore .entries [] '\x7d' ts (parseMoreEntries ts) :=
  sound_more fewer reads_parseMoreEntries_comma_iff reads_parseMoreEntries_close_iff
    fun _ sound => sound.entries

theorem sound_moreKeywordArgs : KeywordsOnly (parseMoreArgs true ts) := by
  intro args left reads
  by_cases separated : ∃ us, ts = .op ',' :: us
  · obtain ⟨us, rfl⟩ := separated
    exact (fewer us (by simp)).keywordArgs args left (reads_parseMoreArgs_comma_iff.mp reads)
  · obtain ⟨_, rfl⟩ := (reads_parseMoreArgs_close_iff fun us same => separated ⟨us, same⟩).mp reads
    rfl

omit fewer in
theorem sound_access (atom : ReadsAs .atom ts (parseAtom ts))
    (tail : ∀ us : List Token, us.length < ts.length →
      ReadsOn .access us fun e => parsePostfixTail e us) :
    ReadsAs .access ts (parsePostfix ts) := by
  intro e left reads
  obtain ⟨first, rest, ⟨shorter, head⟩, more⟩ := reads_parsePostfix_iff.mp reads
  obtain ⟨used, rfl, derived⟩ := atom first rest ⟨shorter, head⟩
  obtain ⟨used', rfl, access⟩ := tail rest shorter _ _ (.ofAtom derived) e left more
  exact ⟨used ++ used', by simp, access⟩

theorem sound_signed (access : ReadsAs .access ts (parsePostfix ts)) :
    ReadsAs .signed ts (parseUnary ts) := by
  intro e left reads
  by_cases sign : ∃ us, ts = .op '-' :: us
  · obtain ⟨us, rfl⟩ := sign
    obtain ⟨operand, inside, rfl⟩ := reads_parseUnary_neg_iff.mp reads
    obtain ⟨used, rfl, derived⟩ := (fewer us (by simp)).signed operand left inside
    exact ⟨.op '-' :: used, rfl, .neg derived⟩
  · obtain ⟨used, rfl, derived⟩ := access e left
      ((reads_parseUnary_iff fun us same => sign ⟨us, same⟩).mp reads)
    exact ⟨used, rfl, .ofAccess derived⟩

omit fewer in
theorem sound_product (signed : ReadsAs .signed ts (parseUnary ts))
    (tail : ∀ us : List Token, us.length < ts.length →
      ReadsOn .product us fun e => parseProductTail e us) :
    ReadsAs .product ts (parseTerm ts) := by
  intro e left reads
  obtain ⟨first, rest, ⟨shorter, head⟩, more⟩ := reads_parseTerm_iff.mp reads
  obtain ⟨used, rfl, derived⟩ := signed first rest ⟨shorter, head⟩
  obtain ⟨used', rfl, product⟩ := tail rest shorter _ _ (.ofSigned derived) e left more
  exact ⟨used ++ used', by simp, product⟩

omit fewer in
theorem sound_sum (product : ReadsAs .product ts (parseTerm ts))
    (tail : ∀ us : List Token, us.length < ts.length →
      ReadsOn .sum us fun e => parseSumTail e us) :
    ReadsAs .sum ts (parseExpr ts) := by
  intro e left reads
  obtain ⟨first, rest, ⟨shorter, head⟩, more⟩ := reads_parseExpr_iff.mp reads
  obtain ⟨used, rfl, derived⟩ := product first rest ⟨shorter, head⟩
  obtain ⟨used', rfl, sum⟩ := tail rest shorter _ _ (.ofProduct derived) e left more
  exact ⟨used ++ used', by simp, sum⟩

theorem sound_args (sum : ReadsAs .sum ts (parseExpr ts)) (seen : Bool) :
    ReadsWithin .ofArguments ')' ts (parseArgs seen ts) := by
  intro args left reads
  by_cases close : ∃ us, ts = .op ')' :: us
  · obtain ⟨us, rfl⟩ := close
    obtain ⟨rfl, rfl⟩ := reads_parseArgs_close_iff.mp reads
    exact ⟨[], rfl, .noArguments⟩
  by_cases keyword : ∃ name us, ts = .name name :: .op '=' :: us
  · obtain ⟨name, us, rfl⟩ := keyword
    obtain ⟨value, rest, ⟨shorter, head⟩, more, inside, rfl⟩ :=
      reads_parseArgs_keyword_iff.mp reads
    have here : Sound us := fewer us (Nat.lt_succ_of_lt (Nat.lt_succ_self _))
    obtain ⟨used, rfl, derived⟩ := here.sum value rest ⟨shorter, head⟩
    have later : Sound rest := fewer rest (Nat.lt_succ_of_lt (Nat.lt_succ_of_lt shorter))
    have keywords : more.1 = [] := later.moreKeywordArgs more left inside
    obtain ⟨positional, keywords'⟩ := more
    subst keywords
    rcases later.moreArgs true _ left inside with ⟨rfl, same⟩ | ⟨used', rfl, arguments⟩
    · cases same
      exact ⟨.name name :: .op '=' :: used, by simp, .lastKeyword derived⟩
    · exact ⟨.name name :: .op '=' :: (used ++ .op ',' :: used'), by simp,
        .keyword derived arguments⟩
  · obtain ⟨rfl, value, rest, ⟨shorter, head⟩, more, inside, rfl⟩ :=
      (reads_parseArgs_positional_iff (fun us same => close ⟨us, same⟩)
        fun name us same => keyword ⟨name, us, same⟩).mp reads
    obtain ⟨used, rfl, derived⟩ := sum value rest ⟨shorter, head⟩
    rcases (fewer rest shorter).moreArgs false more left inside with
      ⟨rfl, rfl⟩ | ⟨used', rfl, arguments⟩
    · exact ⟨used, rfl, .lastPositional derived⟩
    · exact ⟨used ++ .op ',' :: used', by simp, .positional derived arguments⟩

theorem sound_keywordArgs : KeywordsOnly (parseArgs true ts) := by
  intro args left reads
  by_cases close : ∃ us, ts = .op ')' :: us
  · obtain ⟨us, rfl⟩ := close
    obtain ⟨rfl, _⟩ := reads_parseArgs_close_iff.mp reads
    rfl
  by_cases keyword : ∃ name us, ts = .name name :: .op '=' :: us
  · obtain ⟨name, us, rfl⟩ := keyword
    obtain ⟨value, rest, ⟨shorter, head⟩, more, inside, rfl⟩ :=
      reads_parseArgs_keyword_iff.mp reads
    have later : Sound rest := fewer rest (Nat.lt_succ_of_lt (Nat.lt_succ_of_lt shorter))
    exact later.moreKeywordArgs more left inside
  · obtain ⟨impossible, _⟩ := (reads_parseArgs_positional_iff (fun us same => close ⟨us, same⟩)
      fun name us same => keyword ⟨name, us, same⟩).mp reads
    cases impossible

theorem sound_items (sum : ReadsAs .sum ts (parseExpr ts)) :
    ReadsWithin .items ']' ts (parseItems ts) := by
  intro es left reads
  by_cases close : ∃ us, ts = .op ']' :: us
  · obtain ⟨us, rfl⟩ := close
    obtain ⟨rfl, rfl⟩ := reads_parseItems_close_iff.mp reads
    exact ⟨[], rfl, .noItems⟩
  · obtain ⟨item, rest, ⟨shorter, head⟩, more, inside, rfl⟩ :=
      (reads_parseItems_iff fun us same => close ⟨us, same⟩).mp reads
    obtain ⟨used, rfl, derived⟩ := sum item rest ⟨shorter, head⟩
    rcases (fewer rest shorter).moreItems more left inside with ⟨rfl, rfl⟩ | ⟨used', rfl, items⟩
    · exact ⟨used, rfl, .lastItem derived⟩
    · exact ⟨used ++ .op ',' :: used', by simp, .moreItems derived items⟩

theorem sound_entries : ReadsWithin .entries '\x7d' ts (parseEntries ts) := by
  intro entries left reads
  by_cases close : ∃ us, ts = .op '\x7d' :: us
  · obtain ⟨us, rfl⟩ := close
    obtain ⟨rfl, rfl⟩ := reads_parseEntries_close_iff.mp reads
    exact ⟨[], rfl, .noEntries⟩
  by_cases keyed : ∃ key us, ts = .string key :: us
  · obtain ⟨key, us, rfl⟩ := keyed
    obtain ⟨vs, rfl, value, rest, ⟨shorter, head⟩, more, inside, rfl⟩ :=
      reads_parseEntries_key_iff.mp reads
    have here : Sound vs := fewer vs (Nat.lt_succ_of_lt (Nat.lt_succ_self _))
    obtain ⟨used, rfl, derived⟩ := here.sum value rest ⟨shorter, head⟩
    have later : Sound rest := fewer rest (Nat.lt_succ_of_lt (Nat.lt_succ_of_lt shorter))
    rcases later.moreEntries more left inside with ⟨rfl, rfl⟩ | ⟨used', rfl, entries⟩
    · exact ⟨.string key :: .op ':' :: used, by simp, .lastEntry derived⟩
    · exact ⟨.string key :: .op ':' :: (used ++ .op ',' :: used'), by simp,
        .moreEntries derived entries⟩
  · exact absurd reads (not_reads_parseEntries (fun us same => close ⟨us, same⟩)
      fun key us same => keyed ⟨key, us, same⟩)

end Steps

/-- The parser's functions are sound, by induction on the number of tokens. -/
theorem sound (ts : List Token) : Sound ts := by
  have fewer : ∀ us : List Token, us.length < ts.length → Sound us := fun us _ => sound us
  have atom := sound_atom fewer
  have access := sound_access atom fun us shorter => (fewer us shorter).accessTail
  have signed := sound_signed fewer access
  have product := sound_product signed fun us shorter => (fewer us shorter).productTail
  have sum := sound_sum product fun us shorter => (fewer us shorter).sumTail
  exact
    { atom := atom
      accessTail := sound_accessTail fewer
      access := access
      signed := signed
      productTail := sound_productTail fewer
      product := product
      sumTail := sound_sumTail fewer
      sum := sum
      args := sound_args fewer sum
      keywordArgs := sound_keywordArgs fewer
      moreArgs := sound_moreArgs fewer
      moreKeywordArgs := sound_moreKeywordArgs fewer
      items := sound_items fewer sum
      moreItems := sound_moreItems fewer
      entries := sound_entries fewer
      moreEntries := sound_moreEntries fewer }
termination_by ts.length

end Interop.Script
