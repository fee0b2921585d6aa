import Templating.Problem.Basic
import Templating.Problem.Lines
import Templating.Text.Blank
import Templating.Text.Columns

/-!
# Reports

A problem drawn at its place: the line of the text in a box, the span underlined, and below it what
is wrong and what was expected. A span over several lines is drawn as an arrow from its first line
to its last. Both ends of the span are taken as numbers of characters.
-/

namespace Templating.Report

/-! ### Cells -/

/-- How a character is shown in column `col` of a line, and how many cells it takes: a tab reaches
to the next multiple of four, and other blanks are spaces. -/
def cell (col : Nat) (c : Char) : Char × Nat :=
  if c = '\t' then (' ', (col / 4 + 1) * 4 - col)
  else if Text.isBlank c then (' ', 1)
  else (c, Text.columns c)

/-- The characters of a line as they are drawn, from column `col` on. -/
def drawText (col : Nat) : List Char → List Char
  | [] => []
  | c :: cs =>
    let (shown, cells) := cell col c
    (if Text.isBlank shown then List.replicate cells shown else [shown]) ++ drawText (col + 1) cs

/-- A row of `count` columns under some characters, from column `col` on: `mark` says what is drawn
in a column, and what fills the cells that a wide character adds. -/
def drawRow (mark : Nat → Char × Char) (col : Nat) : Nat → List Char → List Char
  | 0, _ => []
  | count + 1, cs =>
    let cells := match cs with
      | [] => 1
      | c :: _ => (cell col c).2
    let (first, filler) := mark col
    (if cells = 0 then [] else first :: List.replicate (cells - 1) filler) ++
      drawRow mark (col + 1) count cs.tail

def spaces (n : Nat) : String := String.ofList (List.replicate n ' ')

def bars (n : Nat) : String := String.ofList (List.replicate n '─')

/-! ### Margins -/

/-- The margin of a line with its number, in a column of `digits` cells. -/
def numbered (digits : Nat) (line : Text.Line) : String :=
  let number := toString (line.index + 1)
  " " ++ spaces (digits - number.length) ++ number ++ " │ "

def margin (digits : Nat) (bar : String) : String := spaces (digits + 2) ++ bar ++ " "

def visible (line : Text.Line) : List Char := Text.trimEnd line.chars

def shown (line : Text.Line) : String := String.ofList (drawText 0 (visible line))

/-! ### Labels -/

/-- Columns that rows under a line reach beyond the span or the line. -/
def overhang : Nat := 2

def inlineLabel (digits : Nat) (line : Text.Line) (start stop : Nat) (detail : String) :
    List String :=
  let first := start - line.offset
  let last := stop - line.offset
  let middle := (start + stop) / 2 - line.offset
  let under (col : Nat) : Char × Char :=
    let inside := first ≤ col && col < last
    if col = middle then if inside then ('┬', '─') else ('│', ' ')
    else if inside then ('─', '─')
    else (' ', ' ')
  let arrow (col : Nat) : Char × Char :=
    if col < middle then (' ', ' ')
    else if col = middle then ('╰', '─')
    else ('─', '─')
  let row (mark : Nat → Char × Char) :=
    String.ofList (drawRow mark 0 (last + overhang) (visible line))
  [numbered digits line ++ shown line,
   margin digits "│" ++ row under,
   margin digits "│" ++ row arrow ++ " " ++ detail]

/-- The rows of a span from one line to a later one; its end is drawn if it `reaches` a character. -/
def multilineLabel (digits : Nat) (line final : Text.Line) (reaches : Bool) (detail : String) :
    List String :=
  let row (c : Char) :=
    String.ofList (drawRow (fun _ => (c, c)) 0 (final.chars.length + overhang) (visible final))
  let gap := line.index + 1 < final.index || !reaches
  [numbered digits line ++ "╭─▶ " ++ shown line] ++
    (if gap then [margin digits "┆" ++ "┆   "] else []) ++
    (if reaches then
      [numbered digits final ++ "├─▶ " ++ shown final,
       margin digits "│" ++ "│   " ++ row ' ',
       margin digits "│" ++ "╰───" ++ row '─' ++ " " ++ detail]
    else [])

/-- The rows of the box for a span between two lines of a text. A span within one line that ends
behind the text is not drawn. -/
def box (name : String) (line final : Text.Line) (span : Text.Span) (detail : String) :
    List String :=
  let digits := (toString (final.index + 1)).length
  let place := name ++ ":" ++ toString (line.index + 1) ++ ":" ++
    toString (span.start - line.offset + 1)
  let reaches : Bool := span.stop ≤ final.offset + final.chars.length
  let rows :=
    if line.index ≠ final.index then multilineLabel digits line final reaches detail
    else if reaches then inlineLabel digits line span.start span.stop detail
    else [margin digits "│"]
  [spaces (digits + 2) ++ "╭─[" ++ place ++ "]", spaces (digits + 2) ++ "│"] ++ rows ++
    [bars (digits + 2) ++ "╯"]

end Report

namespace Problem

/-- What is wrong, with what was expected on a line below. -/
def detail (p : Problem) : String :=
  if p.expected.isEmpty then p.message
  else p.message ++ "\nExpected: " ++ ", ".intercalate p.expected

/-- The report of a problem in a text of some name. A span outside of the text is not drawn. The
codes that colour a report in a terminal are left out. -/
def report (name source : String) (p : Problem) : String :=
  let cs := source.toList
  let rows :=
    match Text.lineAt? cs p.span.start, Text.lineAt? cs (max p.span.start (p.span.stop - 1)) with
    | some line, some final => Report.box name line final p.span p.detail
    | _, _ => []
  String.join ((("Error: " ++ p.message) :: rows).map (· ++ "\n"))

end Problem

end Templating
