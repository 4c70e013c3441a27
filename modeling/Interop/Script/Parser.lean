import Interop.Script.Syntax
/-!
Parsing of tokens into statements, by one function for each level of binding: sums, products, unary
minus, calls with attribute and item access, and atoms. Every function gives back the tokens that it
left, together with the fact that there are fewer of them.
-/

set_option autoImplicit false

namespace Interop.Script

/-- Tokens left by a function that took at least one. -/
abbrev Fewer (tokens : List Token) := { rest : List Token // rest.length < tokens.length }

/-- Tokens left by a function that may take none. -/
abbrev NoMore (tokens : List Token) := { rest : List Token // rest.length ≤ tokens.length }

/-- What is left after an operand and what follows it is no more than there was from the operator
on. -/
theorem noMore_of_fewer {operator : Token} {rest after left : List Token}
    (fewer : after.length < rest.length) (noMore : left.length ≤ after.length) :
    left.length ≤ (operator :: rest).length := by
  rw [List.length_cons]
  omega

/-- The tokens after a symbol that has to come first. -/
def expectSymbol (symbol : Char) : (tokens : List Token) →
    Except SourceFault (Fewer tokens)
  | [] => .error (.unexpected (.symbol symbol) none)
  | token :: rest =>
    if token = .op symbol then .ok ⟨rest, by simp⟩
    else .error (.unexpected (.symbol symbol) (some token))

mutual

/-- Sums and differences. -/
def parseExpr (tokens : List Token) : Except SourceFault (Expr × Fewer tokens) := do
  let (first, ⟨rest, _⟩) ← parseTerm tokens
  let (expr, ⟨rest', _⟩) ← parseSumTail first rest
  return (expr, ⟨rest', by omega⟩)
termination_by (tokens.length, 4)

/-- The further operands of a sum that has begun. -/
def parseSumTail (left : Expr) (tokens : List Token) : Except SourceFault (Expr × NoMore tokens) :=
  match tokens with
  | .op '+' :: rest => do
    let (right, ⟨after, fewer⟩) ← parseTerm rest
    let (expr, ⟨left', noMore⟩) ← parseSumTail (.binary left .add right) after
    return (expr, ⟨left', noMore_of_fewer fewer noMore⟩)
  | .op '-' :: rest => do
    let (right, ⟨after, fewer⟩) ← parseTerm rest
    let (expr, ⟨left', noMore⟩) ← parseSumTail (.binary left .sub right) after
    return (expr, ⟨left', noMore_of_fewer fewer noMore⟩)
  | tokens => return (left, ⟨tokens, Nat.le_refl _⟩)
termination_by (tokens.length, 0)

/-- Products. -/
def parseTerm (tokens : List Token) : Except SourceFault (Expr × Fewer tokens) := do
  let (first, ⟨rest, _⟩) ← parseUnary tokens
  let (expr, ⟨rest', _⟩) ← parseProductTail first rest
  return (expr, ⟨rest', by omega⟩)
termination_by (tokens.length, 3)

/-- The further operands of a product that has begun. -/
def parseProductTail (left : Expr) (tokens : List Token) :
    Except SourceFault (Expr × NoMore tokens) :=
  match tokens with
  | .op '*' :: rest => do
    let (right, ⟨after, fewer⟩) ← parseUnary rest
    let (expr, ⟨left', noMore⟩) ← parseProductTail (.binary left .mul right) after
    return (expr, ⟨left', noMore_of_fewer fewer noMore⟩)
  | tokens => return (left, ⟨tokens, Nat.le_refl _⟩)
termination_by (tokens.length, 0)

/-- Unary minus. -/
def parseUnary (tokens : List Token) : Except SourceFault (Expr × Fewer tokens) :=
  match tokens with
  | .op '-' :: rest => do
    let (operand, ⟨after, _⟩) ← parseUnary rest
    return (.neg operand, ⟨after, by simp; omega⟩)
  | tokens => parsePostfix tokens
termination_by (tokens.length, 2)

/-- An atom with its calls, attributes and items. -/
def parsePostfix (tokens : List Token) : Except SourceFault (Expr × Fewer tokens) := do
  let (first, ⟨rest, _⟩) ← parseAtom tokens
  let (expr, ⟨rest', _⟩) ← parsePostfixTail first rest
  return (expr, ⟨rest', by omega⟩)
termination_by (tokens.length, 1)

/-- The further calls, attributes and items of an expression that has begun. -/
def parsePostfixTail (target : Expr) (tokens : List Token) :
    Except SourceFault (Expr × NoMore tokens) :=
  match tokens with
  | .op '(' :: rest => do
    let ((args, keywords), ⟨after, fewer⟩) ← parseArgs false rest
    let (expr, ⟨left', noMore⟩) ← parsePostfixTail (.call target args keywords) after
    return (expr, ⟨left', noMore_of_fewer fewer noMore⟩)
  | .op '.' :: .name name :: rest => do
    let (expr, ⟨left', _⟩) ← parsePostfixTail (.attr target name) rest
    return (expr, ⟨left', by simp; omega⟩)
  | .op '.' :: _ => .error .missingAttributeName
  | .op '[' :: rest => do
    let (key, ⟨after, _⟩) ← parseExpr rest
    let ⟨after', _⟩ ← expectSymbol ']' after
    let (expr, ⟨left', _⟩) ← parsePostfixTail (.item target key) after'
    return (expr, ⟨left', by simp; omega⟩)
  | tokens => return (target, ⟨tokens, Nat.le_refl _⟩)
termination_by (tokens.length, 0)

/-- The arguments of a call after its opening bracket, and the bracket that closes it. Once a
keyword argument has been seen, positional ones are refused. -/
def parseArgs (keywordSeen : Bool) (tokens : List Token) :
    Except SourceFault ((List Expr × List (String × Expr)) × Fewer tokens) :=
  match tokens with
  | .op ')' :: rest => return (([], []), ⟨rest, by simp⟩)
  | .name name :: .op '=' :: rest => do
    let (value, ⟨after, _⟩) ← parseExpr rest
    let ((args, keywords), ⟨left', _⟩) ← parseMoreArgs true after
    return ((args, (name, value) :: keywords), ⟨left', by simp; omega⟩)
  | tokens =>
    if keywordSeen then .error .positionalAfterKeyword
    else do
      let (value, ⟨after, _⟩) ← parseExpr tokens
      let ((args, keywords), ⟨left', _⟩) ← parseMoreArgs false after
      return ((value :: args, keywords), ⟨left', by omega⟩)
termination_by (tokens.length, 5)

/-- The rest of the arguments after one of them. -/
def parseMoreArgs (keywordSeen : Bool) (tokens : List Token) :
    Except SourceFault ((List Expr × List (String × Expr)) × Fewer tokens) :=
  match tokens with
  | .op ',' :: rest => do
    let (args, ⟨after, _⟩) ← parseArgs keywordSeen rest
    return (args, ⟨after, by simp; omega⟩)
  | tokens => do
    let ⟨after, _⟩ ← expectSymbol ')' tokens
    return (([], []), ⟨after, by omega⟩)
termination_by (tokens.length, 0)

/-- Literals, names, bracketed expressions, lists and dicts. -/
def parseAtom (tokens : List Token) : Except SourceFault (Expr × Fewer tokens) :=
  match tokens with
  | .int value :: rest => return (.int value, ⟨rest, by simp⟩)
  | .float value :: rest => return (.float value, ⟨rest, by simp⟩)
  | .string value :: rest => return (.string value, ⟨rest, by simp⟩)
  | .name name :: rest => return (.ofName name, ⟨rest, by simp⟩)
  | .op '(' :: rest => do
    let (expr, ⟨after, _⟩) ← parseExpr rest
    let ⟨after', _⟩ ← expectSymbol ')' after
    return (expr, ⟨after', by simp; omega⟩)
  | .op '[' :: rest => do
    let (items, ⟨after, _⟩) ← parseItems rest
    return (.list items, ⟨after, by simp; omega⟩)
  | .op '\x7b' :: rest => do
    let (entries, ⟨after, _⟩) ← parseEntries rest
    return (.dict entries, ⟨after, by simp; omega⟩)
  | tokens => .error (.unexpected .expression tokens.head?)
termination_by (tokens.length, 0)

/-- The items of a list after its opening bracket, and the bracket that closes it. -/
def parseItems (tokens : List Token) : Except SourceFault ((List Expr) × Fewer tokens) :=
  match tokens with
  | .op ']' :: rest => return ([], ⟨rest, by simp⟩)
  | tokens => do
    let (item, ⟨after, _⟩) ← parseExpr tokens
    let (items, ⟨left', _⟩) ← parseMoreItems after
    return (item :: items, ⟨left', by omega⟩)
termination_by (tokens.length, 5)

/-- The rest of the items after one of them. -/
def parseMoreItems (tokens : List Token) : Except SourceFault ((List Expr) × Fewer tokens) :=
  match tokens with
  | .op ',' :: rest => do
    let (items, ⟨after, _⟩) ← parseItems rest
    return (items, ⟨after, by simp; omega⟩)
  | tokens => do
    let ⟨after, _⟩ ← expectSymbol ']' tokens
    return ([], ⟨after, by omega⟩)
termination_by (tokens.length, 0)

/-- The entries of a dict after its opening bracket, and the bracket that closes it. -/
def parseEntries (tokens : List Token) :
    Except SourceFault ((List (String × Expr)) × Fewer tokens) :=
  match tokens with
  | .op '\x7d' :: rest => return ([], ⟨rest, by simp⟩)
  | .string key :: rest => do
    let ⟨after, _⟩ ← expectSymbol ':' rest
    let (value, ⟨after', _⟩) ← parseExpr after
    let (entries, ⟨left', _⟩) ← parseMoreEntries after'
    return ((key, value) :: entries, ⟨left', by simp; omega⟩)
  | _ => .error .invalidDictKey
termination_by (tokens.length, 5)

/-- The rest of the entries after one of them. -/
def parseMoreEntries (tokens : List Token) :
    Except SourceFault ((List (String × Expr)) × Fewer tokens) :=
  match tokens with
  | .op ',' :: rest => do
    let (entries, ⟨after, _⟩) ← parseEntries rest
    return (entries, ⟨after, by simp; omega⟩)
  | tokens => do
    let ⟨after, _⟩ ← expectSymbol '\x7d' tokens
    return ([], ⟨after, by omega⟩)
termination_by (tokens.length, 0)

end

/-- An expression, or an assignment to one. -/
def parseStatement (tokens : List Token) : Except SourceFault (Statement × Fewer tokens) := do
  let (target, ⟨rest, fewer⟩) ← parseExpr tokens
  match rest, fewer with
  | .op '=' :: rest', fewer =>
    if target.isTarget then
      let (value, ⟨after, _⟩) ← parseExpr rest'
      return (.assign target value, ⟨after, by simp only [List.length_cons] at fewer; omega⟩)
    else .error .invalidTarget
  | rest, fewer => return (.expr target, ⟨rest, fewer⟩)

/-- The statements of a list of tokens, which newlines separate and may surround. -/
def parse (tokens : List Token) : Except SourceFault (List Statement) :=
  match tokens with
  | [] => .ok []
  | .newline :: rest => parse rest
  | tokens => do
    let (statement, ⟨rest, fewer⟩) ← parseStatement tokens
    match rest, fewer with
    | [], _ => return [statement]
    | .newline :: rest', _ => return statement :: (← parse rest')
    | token :: _, _ => .error (.afterStatement token)
termination_by tokens.length
decreasing_by
  · simp
  · rename_i fewer
    simp only [List.length_cons] at fewer
    omega

def parseSource (source : String) : Except SourceFault (List Statement) := do
  parse (← tokenize source)

end Interop.Script
