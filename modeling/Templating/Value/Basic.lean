import Templating.Number.Basic
import Templating.Table

/-!
# Values

The data that a template is rendered against: what JSON can hold. A dictionary is a table, so its
entries are in key order.
-/

namespace Templating

inductive Value where
  | null
  | bool (b : Bool)
  | number (n : Number)
  | text (s : String)
  | list (items : List Value)
  | dict (entries : List (String × Value))

namespace Value

def int (n : Int) : Value := .number (.int n)

/-- A double as a value; infinities and what is no number become null. -/
def float (x : Float) : Value := if x.isFinite then .number (.float x) else .null

/-! ### Equality -/

mutual

/-- Whether two values are of one kind and equal throughout. -/
def same : Value → Value → Bool
  | .null, .null => true
  | .bool a, .bool b => a == b
  | .number a, .number b => a.same b
  | .text a, .text b => a == b
  | .list xs, .list ys => sameItems xs ys
  | .dict xs, .dict ys => sameEntries xs ys
  | _, _ => false

def sameItems : List Value → List Value → Bool
  | [], [] => true
  | x :: xs, y :: ys => same x y && sameItems xs ys
  | _, _ => false

def sameEntries : List (String × Value) → List (String × Value) → Bool
  | [], [] => true
  | (k, x) :: xs, (l, y) :: ys => k == l && same x y && sameEntries xs ys
  | _, _ => false

end

/-! ### Truth -/

/-- Whether a condition with this value holds: null, zero and everything empty do not. -/
def truthy : Value → Bool
  | .null => false
  | .bool b => b
  | .number n => n.toFloat != 0
  | .text s => !s.isEmpty
  | .list items => !items.isEmpty
  | .dict entries => !entries.isEmpty

def kind : Value → String
  | .null => "null"
  | .bool _ => "bool"
  | .number _ => "number"
  | .text _ => "string"
  | .list _ => "array"
  | .dict _ => "dictionary"

end Value

end Templating
