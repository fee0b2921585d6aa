import Templating.Error.Basic

/-!
# Tags

A tag is a function from a call to a value or an error. A call has the name it was made by, its
parameters, the text of its body if it has one, and data that all calls of one renderer share.
-/

namespace Templating

structure TagCall where
  name : String
  parameters : List Value
  /-- The body as it was written out. -/
  body : Option String
  info : Table Value

abbrev Tag := TagCall → Except WriteError Value

abbrev Tags := Table Tag

namespace TagCall

def error (call : TagCall) (message : String) : WriteError := .tag call.name message

/-- The text that a call is about: its body, or else its first parameter. -/
def text (call : TagCall) : Except WriteError String :=
  match call.body, call.parameters.head? with
  | some body, _ => .ok body
  | none, some (.text s) => .ok s
  | none, some .null => .error (call.error "expected a string parameter")
  | none, none => .error (call.error "expected a string parameter")
  | none, some v => .ok v.display

end TagCall

namespace Tags

def display (tags : Tags) : String :=
  "Tags \x7b names: [" ++ ", ".intercalate ((Table.keys tags).map Text.quoted) ++ "] \x7d"

end Tags

end Templating
