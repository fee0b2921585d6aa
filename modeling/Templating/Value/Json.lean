import Templating.Value.Basic

/-!
# Values as JSON text

Compact JSON: no blanks, entries in key order, and in a string only the quote, the backslash and
the control characters below the blank are escaped.
-/

namespace Templating.Value

/-! ### Strings -/

/-- The hexadecimal digit of a number below sixteen, with small letters. -/
def hexDigit (n : Nat) : Char := Nat.digitChar n

def escape (c : Char) : List Char :=
  match c with
  | '"' => ['\\', '"']
  | '\\' => ['\\', '\\']
  | '\x08' => ['\\', 'b']
  | '\x0c' => ['\\', 'f']
  | '\n' => ['\\', 'n']
  | '\r' => ['\\', 'r']
  | '\t' => ['\\', 't']
  | c =>
    if c.toNat < 0x20 then ['\\', 'u', '0', '0', hexDigit (c.toNat / 16), hexDigit (c.toNat % 16)]
    else [c]

def jsonString (s : String) : String := String.ofList ('"' :: s.toList.flatMap escape ++ ['"'])

/-! ### Values -/

mutual

def json : Value → String
  | .null => "null"
  | .bool b => if b then "true" else "false"
  | .number n => n.text
  | .text s => jsonString s
  | .list items => "[" ++ ",".intercalate (jsonItems items) ++ "]"
  | .dict entries => "\x7b" ++ ",".intercalate (jsonEntries entries) ++ "\x7d"

def jsonItems : List Value → List String
  | [] => []
  | v :: items => json v :: jsonItems items

def jsonEntries : List (String × Value) → List String
  | [] => []
  | (key, v) :: entries => (jsonString key ++ ":" ++ json v) :: jsonEntries entries

end

/-- What a value writes into the output: a string writes itself, null nothing, and everything else
its JSON text. -/
def display : Value → String
  | .null => ""
  | .text s => s
  | v => v.json

end Templating.Value
