import Templating.Text.Span

/-!
# Problems

What is wrong with the text of a template, and where.
-/

namespace Templating

/-- Whether the text was refused character by character or token by token. -/
inductive Stage where
  | lexical
  | grammatical
deriving DecidableEq, Repr

structure Problem where
  stage : Stage
  span : Text.Span
  message : String
  /-- What could have stood at the span instead. -/
  expected : List String
deriving DecidableEq, Repr

namespace Problem

def display (p : Problem) : String :=
  let title := match p.stage with
    | .lexical => "Lex error"
    | .grammatical => "Parse error"
  title ++ " at " ++ p.span.display ++ ": " ++ p.message

end Problem

end Templating
