import Interop.Script.Parser
/-!
The grammar of the script language, as derivations: sums of products of signed operands, and calls,
attributes and items that bind tighter than all of them.

A derivation relates tokens to the tree that they stand for. Sums and products grow to the left, so
that operators of one level associate to the left; an operand of a product can only be signed or an
atom with what follows it, so that products bind tighter than sums.
-/

set_option autoImplicit false

namespace Interop.Script

/-- What a list of tokens can stand for inside a statement. -/
inductive Phrase
  | sum (expr : Expr)
  | product (expr : Expr)
  | signed (expr : Expr)
  /-- An atom with the calls, attributes and items that follow it. -/
  | access (expr : Expr)
  | atom (expr : Expr)
  | arguments (positional : List Expr) (keywords : List (String × Expr))
  | items (items : List Expr)
  | entries (entries : List (String × Expr))

/-- Tokens derive a phrase. After the elements of a call, a list or a dict one comma may follow,
which is the case of a comma with no element behind it. -/
inductive Derives : Phrase → List Token → Prop
  -- sums
  | ofProduct {e : Expr} {ts : List Token} (h : Derives (.product e) ts) : Derives (.sum e) ts
  | add {l r : Expr} {ts us : List Token} (left : Derives (.sum l) ts)
      (right : Derives (.product r) us) :
      Derives (.sum (.binary l .add r)) (ts ++ .op '+' :: us)
  | sub {l r : Expr} {ts us : List Token} (left : Derives (.sum l) ts)
      (right : Derives (.product r) us) :
      Derives (.sum (.binary l .sub r)) (ts ++ .op '-' :: us)
  -- products
  | ofSigned {e : Expr} {ts : List Token} (h : Derives (.signed e) ts) : Derives (.product e) ts
  | mul {l r : Expr} {ts us : List Token} (left : Derives (.product l) ts)
      (right : Derives (.signed r) us) :
      Derives (.product (.binary l .mul r)) (ts ++ .op '*' :: us)
  -- signs
  | ofAccess {e : Expr} {ts : List Token} (h : Derives (.access e) ts) : Derives (.signed e) ts
  | neg {e : Expr} {ts : List Token} (operand : Derives (.signed e) ts) :
      Derives (.signed (.neg e)) (.op '-' :: ts)
  -- calls, attributes and items
  | ofAtom {e : Expr} {ts : List Token} (h : Derives (.atom e) ts) : Derives (.access e) ts
  | call {f : Expr} {args : List Expr} {keywords : List (String × Expr)} {ts us : List Token}
      (function : Derives (.access f) ts) (arguments : Derives (.arguments args keywords) us) :
      Derives (.access (.call f args keywords)) (ts ++ .op '(' :: (us ++ [.op ')']))
  | attr {e : Expr} {name : String} {ts : List Token} (target : Derives (.access e) ts) :
      Derives (.access (.attr e name)) (ts ++ [.op '.', .name name])
  | item {e k : Expr} {ts us : List Token} (target : Derives (.access e) ts)
      (key : Derives (.sum k) us) :
      Derives (.access (.item e k)) (ts ++ .op '[' :: (us ++ [.op ']']))
  -- atoms
  | int (value : Int64) : Derives (.atom (.int value)) [.int value]
  | float (value : Binary64) : Derives (.atom (.float value)) [.float value]
  | string (value : String) : Derives (.atom (.string value)) [.string value]
  | name (name : String) : Derives (.atom (.ofName name)) [.name name]
  | bracketed {e : Expr} {ts : List Token} (inside : Derives (.sum e) ts) :
      Derives (.atom e) (.op '(' :: (ts ++ [.op ')']))
  | list {es : List Expr} {ts : List Token} (inside : Derives (.items es) ts) :
      Derives (.atom (.list es)) (.op '[' :: (ts ++ [.op ']']))
  | dict {entries : List (String × Expr)} {ts : List Token}
      (inside : Derives (.entries entries) ts) :
      Derives (.atom (.dict entries)) (.op '\x7b' :: (ts ++ [.op '\x7d']))
  -- arguments: all positional ones come before the first keyword
  | noArguments : Derives (.arguments [] []) []
  | lastPositional {e : Expr} {ts : List Token} (value : Derives (.sum e) ts) :
      Derives (.arguments [e] []) ts
  | positional {e : Expr} {args : List Expr} {keywords : List (String × Expr)} {ts us : List Token}
      (value : Derives (.sum e) ts) (rest : Derives (.arguments args keywords) us) :
      Derives (.arguments (e :: args) keywords) (ts ++ .op ',' :: us)
  | lastKeyword {name : String} {e : Expr} {ts : List Token} (value : Derives (.sum e) ts) :
      Derives (.arguments [] [(name, e)]) (.name name :: .op '=' :: ts)
  | keyword {name : String} {e : Expr} {keywords : List (String × Expr)} {ts us : List Token}
      (value : Derives (.sum e) ts) (rest : Derives (.arguments [] keywords) us) :
      Derives (.arguments [] ((name, e) :: keywords))
        (.name name :: .op '=' :: (ts ++ .op ',' :: us))
  -- items of lists
  | noItems : Derives (.items []) []
  | lastItem {e : Expr} {ts : List Token} (value : Derives (.sum e) ts) : Derives (.items [e]) ts
  | moreItems {e : Expr} {es : List Expr} {ts us : List Token} (value : Derives (.sum e) ts)
      (rest : Derives (.items es) us) : Derives (.items (e :: es)) (ts ++ .op ',' :: us)
  -- entries of dicts
  | noEntries : Derives (.entries []) []
  | lastEntry {key : String} {e : Expr} {ts : List Token} (value : Derives (.sum e) ts) :
      Derives (.entries [(key, e)]) (.string key :: .op ':' :: ts)
  | moreEntries {key : String} {e : Expr} {entries : List (String × Expr)} {ts us : List Token}
      (value : Derives (.sum e) ts) (rest : Derives (.entries entries) us) :
      Derives (.entries ((key, e) :: entries)) (.string key :: .op ':' :: (ts ++ .op ',' :: us))

/-- Tokens derive a statement: an expression, or an assignment to one that can be assigned to. -/
inductive DerivesStatement : Statement → List Token → Prop
  | expr {e : Expr} {ts : List Token} (h : Derives (.sum e) ts) : DerivesStatement (.expr e) ts
  | assign {target value : Expr} {ts us : List Token} (left : Derives (.sum target) ts)
      (isTarget : target.isTarget = true) (right : Derives (.sum value) us) :
      DerivesStatement (.assign target value) (ts ++ .op '=' :: us)

/-- Tokens derive statements, which newlines separate and may surround. -/
inductive DerivesStatements : List Statement → List Token → Prop
  | none : DerivesStatements [] []
  | newline {statements : List Statement} {ts : List Token}
      (rest : DerivesStatements statements ts) : DerivesStatements statements (.newline :: ts)
  | last {statement : Statement} {ts : List Token} (h : DerivesStatement statement ts) :
      DerivesStatements [statement] ts
  | more {statement : Statement} {statements : List Statement} {ts us : List Token}
      (first : DerivesStatement statement ts) (rest : DerivesStatements statements us) :
      DerivesStatements (statement :: statements) (ts ++ .newline :: us)

/-! ### How phrases begin -/

/-- The phrases that are expressions. -/
def Phrase.expr? : Phrase → Option Expr
  | .sum e | .product e | .signed e | .access e | .atom e => some e
  | _ => none

/-- Whether an atom can begin with a token. -/
def Token.BeginsAtom : Token → Prop
  | .int _ | .float _ | .string _ | .name _ | .op '(' | .op '[' | .op '\x7b' => True
  | _ => False

/-- Whether an expression goes on with a token. -/
def Token.Continues : Token → Prop
  | .op '+' | .op '-' | .op '*' | .op '(' | .op '.' | .op '[' => True
  | _ => False

/-- Whether a phrase can begin with a token: only signed operands and what is made of them can begin
with a minus. -/
def Phrase.CanBegin : Phrase → Token → Prop
  | .sum _, token | .product _, token | .signed _, token => token.BeginsAtom ∨ token = .op '-'
  | .access _, token | .atom _, token => token.BeginsAtom
  | _, _ => True

/-- How the tokens of an expression begin: with one that it can begin with, and a name is all of it
unless the expression goes on. -/
structure Begins (phrase : Phrase) (ts : List Token) : Prop where
  first : ∃ token rest, ts = token :: rest ∧ phrase.CanBegin token
  second : ∀ name token rest, ts = .name name :: token :: rest → token.Continues

theorem Begins.append {phrase after : Phrase} {ts us : List Token} {token : Token}
    (begins : Begins phrase ts) (same : ∀ token, phrase.CanBegin token → after.CanBegin token)
    (continues : token.Continues) : Begins after (ts ++ token :: us) := by
  obtain ⟨⟨head, rest, rfl, first⟩, second⟩ := begins
  refine ⟨⟨head, rest ++ token :: us, rfl, same head first⟩, ?_⟩
  intro name next tail shape
  cases rest with
  | nil =>
      cases shape
      exact continues
  | cons next' rest =>
      cases shape
      exact second name _ _ rfl

theorem Begins.mono {phrase after : Phrase} {ts : List Token} (begins : Begins phrase ts)
    (same : ∀ token, phrase.CanBegin token → after.CanBegin token) : Begins after ts := by
  obtain ⟨⟨head, rest, shape, first⟩, second⟩ := begins
  exact ⟨⟨head, rest, shape, same head first⟩, second⟩

theorem Begins.of_head {phrase : Phrase} {token : Token} {rest : List Token}
    (first : phrase.CanBegin token) (second : ∀ name, token = .name name → rest = []) :
    Begins phrase (token :: rest) := by
  refine ⟨⟨token, rest, rfl, first⟩, ?_⟩
  intro name next tail shape
  cases shape
  cases second name rfl

theorem Begins.of_op {phrase : Phrase} {c : Char} {rest : List Token}
    (first : phrase.CanBegin (.op c)) : Begins phrase (.op c :: rest) := by
  refine .of_head first ?_
  intro name same
  cases same

theorem Derives.begins {phrase : Phrase} {ts : List Token} (derives : Derives phrase ts)
    (isExpr : phrase.expr?.isSome = true) : Begins phrase ts := by
  induction derives with
  | ofProduct _ ih => exact (ih rfl).mono fun _ first => first
  | add _ _ ih _ => exact (ih rfl).append (fun _ first => first) trivial
  | sub _ _ ih _ => exact (ih rfl).append (fun _ first => first) trivial
  | ofSigned _ ih => exact (ih rfl).mono fun _ first => first
  | mul _ _ ih _ => exact (ih rfl).append (fun _ first => first) trivial
  | ofAccess _ ih => exact (ih rfl).mono fun _ first => .inl first
  | neg _ _ => exact .of_op (.inr rfl)
  | ofAtom _ ih => exact (ih rfl).mono fun _ first => first
  | call _ _ ih _ => exact (ih rfl).append (fun _ first => first) trivial
  | attr _ ih => exact (ih rfl).append (fun _ first => first) trivial
  | item _ _ ih _ => exact (ih rfl).append (fun _ first => first) trivial
  | int value => exact .of_head trivial fun _ _ => rfl
  | float value => exact .of_head trivial fun _ _ => rfl
  | string value => exact .of_head trivial fun _ _ => rfl
  | name name => exact .of_head trivial fun _ _ => rfl
  | bracketed _ _ => exact .of_op trivial
  | list _ _ => exact .of_op trivial
  | dict _ _ => exact .of_op trivial
  | _ => cases isExpr

end Interop.Script
