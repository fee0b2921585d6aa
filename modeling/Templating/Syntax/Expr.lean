import Templating.Number.Layout
import Templating.Text.Quoted

/-!
# Expressions

What may stand in the parameters of a tag, and how an expression is shown in trees and messages:
with every binary operation in parentheses.
-/

namespace Templating

inductive Literal where
  | bool (b : Bool)
  | int (n : Nat)
  | float (x : Float)
  | text (s : String)
deriving DecidableEq

inductive UnaryOp where
  | not
  | negate
deriving DecidableEq, Repr

inductive BinaryOp where
  | add
  | subtract
  | multiply
  | divide
  | modulo
  | equal
  | notEqual
  | less
  | lessOrEqual
  | greater
  | greaterOrEqual
  | and
  | or
deriving DecidableEq, Repr

inductive Expr where
  | literal (value : Literal)
  /-- A name, followed by the keys that lead from its value to another. -/
  | path (first : String) (rest : List String)
  | unary (op : UnaryOp) (operand : Expr)
  | binary (op : BinaryOp) (lhs rhs : Expr)
  /-- A tag called by name. -/
  | call (name : String) (args : List Expr)

/-! ### Texts -/

def Literal.display : Literal → String
  | .bool b => if b then "true" else "false"
  | .int n => toString n
  | .float x => Number.Layout.literal.float x
  | .text s => Text.quoted s

def UnaryOp.symbol : UnaryOp → String
  | .not => "!"
  | .negate => "-"

def BinaryOp.symbol : BinaryOp → String
  | .add => "+"
  | .subtract => "-"
  | .multiply => "*"
  | .divide => "/"
  | .modulo => "%"
  | .equal => "=="
  | .notEqual => "!="
  | .less => "<"
  | .lessOrEqual => "<="
  | .greater => ">"
  | .greaterOrEqual => ">="
  | .and => "&&"
  | .or => "||"

namespace Expr

mutual

def display : Expr → String
  | .literal value => value.display
  | .path first rest => ".".intercalate (first :: rest)
  | .unary op operand => op.symbol ++ operand.display
  | .binary op lhs rhs => "(" ++ lhs.display ++ " " ++ op.symbol ++ " " ++ rhs.display ++ ")"
  | .call name args => name ++ "(" ++ ", ".intercalate (displayAll args) ++ ")"

def displayAll : List Expr → List String
  | [] => []
  | e :: es => e.display :: displayAll es

end

def displayList (params : List Expr) : String := ", ".intercalate (displayAll params)

/-! ### Equality -/

mutual

def same : Expr → Expr → Bool
  | .literal a, .literal b => a == b
  | .path a as, .path b bs => a == b && as == bs
  | .unary o a, .unary p b => o == p && same a b
  | .binary o a b, .binary p c d => o == p && same a c && same b d
  | .call f as, .call g bs => f == g && sameAll as bs
  | _, _ => false

def sameAll : List Expr → List Expr → Bool
  | [], [] => true
  | a :: as, b :: bs => same a b && sameAll as bs
  | _, _ => false

end

end Expr

end Templating
