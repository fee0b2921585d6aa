import Templating.Syntax.Expr
import Templating.Text.Span

/-!
# Tokens

Outside of tags a template is raw text; a tag is its name, its parameters in parentheses and
perhaps the colon that opens its body. The tokens that may stand between the parentheses are a type
of their own.
-/

namespace Templating

inductive ParamToken where
  | parenOpen
  | parenClose
  | comma
  | dot
  | operator (op : BinaryOp)
  | not
  | true
  | false
  | in
  | ident (name : String)
  | int (n : Nat)
  | float (x : Float)
  | text (s : String)
deriving DecidableEq

inductive Token where
  | raw (text : String)
  /-- A tag's name, without the `#`. -/
  | tag (name : String)
  | paramsOpen
  | paramsClose
  | bodyStart
  | param (t : ParamToken)
deriving DecidableEq

structure Lexeme where
  token : Token
  span : Text.Span
deriving DecidableEq

/-! ### Texts -/

def ParamToken.display : ParamToken → String
  | .parenOpen => "("
  | .parenClose => ")"
  | .comma => ","
  | .dot => "."
  | .operator op => op.symbol
  | .not => "!"
  | .true => "true"
  | .false => "false"
  | .in => "in"
  | .ident name => name
  | .int n => toString n
  | .float x => Number.Layout.literal.float x
  | .text s => Text.quoted s

def Token.display : Token → String
  | .raw text => text
  | .tag name => "#" ++ name
  | .paramsOpen => "("
  | .paramsClose => ")"
  | .bodyStart => ":"
  | .param t => t.display

def ParamToken.describe : ParamToken → String
  | .parenOpen => "'('"
  | .parenClose => "')'"
  | .comma => "','"
  | .dot => "'.'"
  | .operator op => "operator '" ++ op.symbol ++ "'"
  | .not => "operator '!'"
  | .true => "keyword 'true'"
  | .false => "keyword 'false'"
  | .in => "keyword 'in'"
  | .ident name => "identifier '" ++ name ++ "'"
  | .int n => "number " ++ toString n
  | .float x => "number " ++ Number.Layout.literal.float x
  | .text s => "string \"" ++ s ++ "\""

def Token.describe : Token → String
  | .raw _ => "raw text"
  | .tag name => "tag '#" ++ name ++ "'"
  | .paramsOpen => "'('"
  | .paramsClose => "')'"
  | .bodyStart => "':'"
  | .param t => t.describe

/-! ### Names of tags -/

/-- Whether a tag of this name closes or divides a body and needs no parameters: `else`, and `end`
with something behind it. -/
def isKeywordTag (name : String) : Bool :=
  name == "else" || (['e', 'n', 'd'].isPrefixOf name.toList && 3 < name.length)

def builtinTags : List String := ["for", "if", "elseif", "else", "extend", "export", "import"]

/-- Whether no entry of a tag table can be written under this name. -/
def isReserved (name : String) : Bool := builtinTags.contains name || isKeywordTag name

end Templating
