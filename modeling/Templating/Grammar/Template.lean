import Templating.Grammar.Expression
import Templating.Syntax.Node
import Templating.Text.Blank
import Templating.Token.Lexer

/-!
# The grammar of templates

A tag that may have a body is first read with it; if no body follows, or what follows is not closed,
the tag stands alone. As for expressions, the number of tokens bounds every repetition and the
nesting of bodies.
-/

namespace Templating

namespace Grammar

open Reader

/-! ### Tokens -/

def tag (name : String) : Reader Unit := token (.tag name)

def stringLiteral : Reader String := sort "string" fun
  | .param (.text s) => some s
  | _ => none

def rawText : Reader String := select [] fun
  | .raw text => some text
  | _ => none

/-- The name of a tag without a meaning of its own. -/
def customName : Reader String := select [] fun
  | .tag name => if isReserved name then none else some name
  | _ => none

def anyTag : Reader String := select [] fun
  | .tag name => some name
  | _ => none

def inParams {α : Type} (p : Reader α) : Reader α := do
  token .paramsOpen
  let a ← p
  token .paramsClose
  pure a

/-! ### Tags -/

variable (bound : Nat) (expr : Reader Expr) (body : Reader (List Node))

def raw : Reader Node := do
  let text ← rawText
  pure (.raw text)

def expressionTag : Reader Node := do
  let e ← inParams expr
  pure (.expression e)

def loop : Reader Node := do
  tag "for"
  let (name, collection) ← inParams do
    let name ← ident
    symbol .in
    let collection ← expr
    pure (name, collection)
  token .bodyStart
  let nodes ← body
  tag "endfor"
  pure (.loop name collection nodes)

/-- A branch with a condition, opened by the tag `name`. -/
def branch (name : String) : Reader (Option Expr × List Node) := do
  tag name
  let condition ← inParams expr
  token .bodyStart
  let nodes ← body
  pure (some condition, nodes)

/-- The branch without a condition; its colon may be missing. -/
def otherwise : Reader (Option Expr × List Node) := do
  tag "else"
  let _ ← optional (token .bodyStart)
  let nodes ← body
  pure (none, nodes)

def conditional : Reader Node := do
  let first ← branch expr body "if"
  let others ← many bound (branch expr body "elseif")
  let last ← optional (otherwise body)
  tag "endif"
  pure (.conditional (first :: others ++ last.toList))

/-- A key with the block exported under it: a value, a body or nothing, but not both. -/
def exportTag : Reader Export :=
  checked (do
    tag "export"
    let (key, value) ← inParams do
      let key ← stringLiteral
      let value ← optional do
        symbol .comma
        expr
      pure (key, value)
    let nodes ← optional do
      token .bodyStart
      let nodes ← body
      tag "endexport"
      pure nodes
    pure (key, value, nodes)) fun
  | (key, some _, some _) => .error (.valueAndBody key)
  | (key, some value, none) => .ok (key, [.expression value])
  | (key, none, nodes) => .ok (key, nodes.getD [])

def extendItem : Reader (Option Export) :=
  choice
    [do let block ← exportTag expr body
        pure (some block),
     checked rawText fun text =>
       if Text.allBlank text then .ok none else .error .textInExtend]

def extend : Reader Node := do
  tag "extend"
  let template ← inParams stringLiteral
  let items ← optional do
    token .bodyStart
    let items ← many bound (extendItem expr body)
    tag "endextend"
    pure items
  pure (.extend template (Table.ofKeyed ((items.getD []).filterMap id)))

def importTag : Reader Node := do
  tag "import"
  let key ← inParams stringLiteral
  pure (.importing key)

def custom : Reader Node :=
  checked (do
    let name ← customName
    let params ← inParams (arguments bound expr)
    let nodes ← optional do
      token .bodyStart
      let nodes ← body
      let closing ← anyTag
      pure (nodes, closing)
    pure (name, params, nodes)) fun
  | (name, params, some (nodes, closing)) =>
    if closing = "end" ++ name then .ok (.custom name params (some nodes))
    else .error (.wrongClosing name closing)
  | (name, params, none) => .ok (.custom name params none)

/-- A node, if `body` reads the bodies in it. -/
def nodeWith : Reader Node :=
  choice
    [raw,
     expressionTag expr,
     loop expr body,
     conditional bound expr body,
     extend bound expr body,
     do let (key, nodes) ← exportTag expr body
        pure (.exporting key nodes),
     importTag,
     custom bound expr body]

/-- A node with fewer than `bound` bodies open at a time. -/
def node : Nat → List Lexeme → Outcome Node
  | 0, _ => ⟨none, none⟩
  | bound + 1, ts =>
    nodeWith (bound + 1) (expression (bound + 1)) (many (bound + 1) (node bound)) ts

def template : Reader (List Node) := do
  let nodes ← many bound (node bound)
  atEnd
  pure nodes

end Grammar

/-- The nodes that some tokens spell, and the trouble met in reading them. -/
def readNodes (ts : List Lexeme) : Outcome (List Node) := Grammar.template (ts.length + 1) ts

def parse (source : String) : Except Problem (List Node) := do
  let ts ← lex source
  let outcome := readNodes ts
  match outcome.result with
  | some (nodes, _) => pure nodes
  | none =>
    throw ((outcome.trouble.getD ⟨none, .expected []⟩).problem (Text.width source.toList))

end Templating
