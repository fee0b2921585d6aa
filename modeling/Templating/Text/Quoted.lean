import Templating.Text.Case
import Templating.Text.HiddenRanges

/-!
# Quoted text

How a string is shown in trees, token texts and messages: between double quotes, with `\` before a
quote or a backslash, short names for the usual controls, and the number of every other character
that would not show as itself.
-/

namespace Templating.Text.Quoted

/-- A number in hexadecimal, with small letters and no leading zero. -/
def hexadecimal (n : Nat) : List Char := Nat.toDigits 16 n

def encodeChar (c : Char) : List Char :=
  match c with
  | '\x00' => ['\\', '0']
  | '\t' => ['\\', 't']
  | '\r' => ['\\', 'r']
  | '\n' => ['\\', 'n']
  | '"' => ['\\', '"']
  | '\\' => ['\\', '\\']
  | c => if inRanges hiddenRanges c then '\\' :: 'u' :: '{' :: hexadecimal c.toNat ++ ['}'] else [c]

def encode (cs : List Char) : List Char := cs.flatMap encodeChar

end Quoted

def quoted (s : String) : String := String.ofList ('"' :: Quoted.encode s.toList ++ ['"'])

end Templating.Text
