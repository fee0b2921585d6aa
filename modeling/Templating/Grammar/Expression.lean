import Templating.Grammar.Reader

/-!
# The grammar of expressions

Operators bind in six levels and associate to the left; `!` and `-` before an operand bind tighter
than all of them. Each rule takes the reader of a whole expression, for what stands in parentheses,
and a bound on repetitions; both come from the number of tokens, which nesting cannot exceed.
-/

namespace Templating.Grammar

open Reader

/-! ### Tokens -/

def symbol (t : ParamToken) : Reader Unit := token (.param t)

def literal : Reader Expr := sort "literal" fun
  | .param .true => some (.literal (.bool true))
  | .param .false => some (.literal (.bool false))
  | .param (.int n) => some (.literal (.int n))
  | .param (.float x) => some (.literal (.float x))
  | .param (.text s) => some (.literal (.text s))
  | _ => none

def ident : Reader String := sort "identifier" fun
  | .param (.ident name) => some name
  | _ => none

/-! ### Operands -/

variable (bound : Nat) (expr : Reader Expr)

def arguments : Reader (List Expr) := separated bound (symbol .comma) expr

def call : Reader Expr := do
  let name ← ident
  symbol .parenOpen
  let args ← arguments bound expr
  symbol .parenClose
  pure (.call name args)

def path : Reader Expr := do
  let first ← ident
  let rest ← many bound do
    symbol .dot
    ident
  pure (.path first rest)

def parenthesised : Reader Expr := do
  symbol .parenOpen
  let e ← expr
  symbol .parenClose
  pure e

def atom : Reader Expr := choice [literal, call bound expr, path bound, parenthesised expr]

def prefixOp : Reader UnaryOp :=
  choice
    [do symbol .not
        pure .not,
     do symbol (.operator .subtract)
        pure .negate]

def operand : Reader Expr := do
  let ops ← many bound prefixOp
  let e ← atom bound expr
  pure (ops.foldr .unary e)

/-! ### Binary operations -/

def operator (op : BinaryOp) : Reader BinaryOp := do
  symbol (.operator op)
  pure op

/-- What `tighter` reads, once or more, with operators of one level between. -/
def chain (ops : List BinaryOp) (tighter : Reader Expr) : Reader Expr := do
  let first ← tighter
  let rest ← many bound do
    let op ← choice (ops.map operator)
    let rhs ← tighter
    pure (op, rhs)
  pure (rest.foldl (fun lhs (op, rhs) => .binary op lhs rhs) first)

/-- The levels of binary operators, from the tightest to the loosest. -/
def levels : List (List BinaryOp) :=
  [[.multiply, .divide, .modulo],
   [.add, .subtract],
   [.lessOrEqual, .greaterOrEqual, .less, .greater],
   [.equal, .notEqual],
   [.and],
   [.or]]

/-- An expression, if `expr` reads those in parentheses. -/
def operation : Reader Expr :=
  levels.foldl (fun tighter ops => chain bound ops tighter) (operand bound expr)

/-- An expression with fewer than `bound` parentheses open at a time. -/
def expression : Nat → List Lexeme → Outcome Expr
  | 0, _ => ⟨none, none⟩
  | bound + 1, ts => operation (bound + 1) (expression bound) ts

end Templating.Grammar
