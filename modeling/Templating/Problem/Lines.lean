/-!
# Lines

A text is cut behind every line end. Line feed, carriage return, the two together, and the vertical
and Unicode line ends all end a line.
-/

namespace Templating.Text

def isLineEnd (c : Char) : Bool :=
  let n := c.toNat
  (0x0A ≤ n && n ≤ 0x0D) || n == 0x85 || n == 0x2028 || n == 0x2029

/-- The lines of some characters, each with its end. -/
def splitLines : List Char → List (List Char)
  | [] => []
  | '\r' :: '\n' :: cs => ['\r', '\n'] :: splitLines cs
  | c :: cs =>
    if isLineEnd c then [c] :: splitLines cs
    else
      match splitLines cs with
      | [] => [[c]]
      | line :: lines => (c :: line) :: lines

theorem flatten_splitLines (cs : List Char) : (splitLines cs).flatten = cs := by
  fun_induction splitLines cs with
  | case1 => rfl
  | case2 cs ih => simp [ih]
  | case3 c cs _ _ ih => simp [ih]
  | case4 c cs _ _ h ih => simp_all
  | case5 c cs _ _ line lines h ih => simp_all

structure Line where
  /-- The number of the line, from zero. -/
  index : Nat
  /-- The number of characters before it. -/
  offset : Nat
  /-- Its characters, with the line end. -/
  chars : List Char
deriving DecidableEq, Repr

/-- Lines numbered and placed, from a first number and offset on. -/
def placeLines (index offset : Nat) : List (List Char) → List Line
  | [] => []
  | chars :: lines => ⟨index, offset, chars⟩ :: placeLines (index + 1) (offset + chars.length) lines

/-- The lines of a text. An empty text has none. -/
def linesOf (cs : List Char) : List Line :=
  placeLines 0 0 (splitLines cs)

/-- The line that has the character at `offset`; the place behind the last character is in the last
line. -/
def lineAt? (cs : List Char) (offset : Nat) : Option Line :=
  if offset ≤ cs.length then ((linesOf cs).filter (·.offset ≤ offset)).getLast? else none

end Templating.Text
