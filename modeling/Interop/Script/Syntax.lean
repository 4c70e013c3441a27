import Interop.Script.Token
/-!
The trees of the script language: expressions and statements.
-/

set_option autoImplicit false

namespace Interop.Script

/-- A binary operation. -/
inductive Operator
  | add
  | sub
  | mul
  deriving DecidableEq

def Operator.symbol : Operator → Char
  | add => '+'
  | sub => '-'
  | mul => '*'

/-- An expression. -/
inductive Expr
  | int (value : Int64)
  | float (value : Binary64)
  | string (value : String)
  | none
  | bool (value : Bool)
  | name (name : String)
  | list (items : List Expr)
  | dict (entries : List (String × Expr))
  | neg (operand : Expr)
  | binary (left : Expr) (operator : Operator) (right : Expr)
  | call (function : Expr) (args : List Expr) (keywords : List (String × Expr))
  | attr (target : Expr) (name : String)
  | item (target key : Expr)

/-- The expression that a name stands for: three names are literals. -/
def Expr.ofName : String → Expr
  | "None" => none
  | "True" => bool true
  | "False" => bool false
  | other => name other

/-- Whether an expression can stand on the left of an assignment. -/
def Expr.isTarget : Expr → Bool
  | name _ => true
  | attr .. => true
  | item .. => true
  | _ => false

/-- A statement. -/
inductive Statement
  | expr (expr : Expr)
  | assign (target value : Expr)

end Interop.Script
