import Templating.Error.Basic

/-!
# Scopes

What names mean: those of the loops around a place, the innermost loop first, and then those of the
context. A path of keys leads from the value of its first name through dictionaries; only the last
key may be missing, and then the value is null.
-/

namespace Templating

abbrev Frame := Table Value

structure Scope where
  context : Table Value
  /-- The rounds of the loops around, innermost first. -/
  frames : List Frame

namespace Scope

def ofContext (context : Table Value) : Scope := ⟨context, []⟩

def push (scope : Scope) (frame : Frame) : Scope := { scope with frames := frame :: scope.frames }

/-- The value of a name in the innermost frame that has it, or else in the context. -/
def find? (scope : Scope) (name : String) : Option Value :=
  (scope.frames.findSome? (Table.get? · name)).or (Table.get? scope.context name)

/-- The value at the end of some keys, from the value at the end of `path` on. -/
def descend (path : List String) (value : Option Value) : List String → Except WriteError Value
  | [] => .ok (value.getD .null)
  | key :: keys =>
    match value with
    | some (.dict entries) => descend (path ++ [key]) (Table.get? entries key) keys
    | _ => .error (.expectedDictionary path)

def lookup (scope : Scope) (first : String) (rest : List String) : Except WriteError Value :=
  descend [first] (scope.find? first) rest

end Scope

/-- The frame of one round: the item under the loop's own name, and its place in the collection. The
names of the place win over the loop's own. -/
def Frame.ofRound (name : String) (item : Value) (index last : Nat) : Frame :=
  Table.insert "isLast" (.bool (index == last))
    (Table.insert "isFirst" (.bool (index == 0))
      (Table.insert "index" (.int index) (Table.insert name item [])))

end Templating
