import Templating.Value.Reader

/-!
# Lines of a configuration

A configuration is a TOML text. It is read into its lines: headings, and settings under dotted keys.
A setting's value is a text, a truth value, something empty, or a table with one key that holds
something empty; a text with any other value is refused, because no setting takes one.
-/

namespace Templating.Config

inductive Setting where
  | text (s : String)
  | flag (on : Bool)
  /-- A list or a table without entries. -/
  | empty
  /-- A table whose one key holds something empty. -/
  | choice (name : String)
deriving DecidableEq, Repr

inductive Line where
  | heading (path : List String)
  | setting (path : List String) (value : Setting)
deriving DecidableEq, Repr

namespace Line

/-! ### Blanks and comments -/

/-- Whether `c` may stand in a text or a comment: it is no control character but the tab. -/
def isPlain (c : Char) : Bool := c == '\t' || (0x20 ≤ c.toNat && c.toNat != 0x7F)

def skipBlanks (cs : List Char) : List Char := cs.dropWhile fun c => c == ' ' || c == '\t'

/-- The rest behind a line end. -/
def lineEnd? (cs : List Char) : Option (List Char) :=
  match cs with
  | '\n' :: cs => some cs
  | '\r' :: '\n' :: cs => some cs
  | _ => none

def skipComment (cs : List Char) : List Char :=
  match cs with
  | '#' :: cs => cs.dropWhile isPlain
  | cs => cs

/-- The rest behind a line that goes on with blanks and a comment at most. -/
def finish (cs : List Char) : Option (List Char) :=
  match skipComment (skipBlanks cs) with
  | [] => some []
  | cs => lineEnd? cs

/-- The rest behind blanks and at most `lines` line ends. -/
def skipBlankLines : Nat → List Char → List Char
  | 0, cs => cs
  | lines + 1, cs =>
    let cs := skipBlanks cs
    match lineEnd? cs with
    | some rest => skipBlankLines lines rest
    | none => cs

/-- The rest behind blanks, comments and at most `lines` line ends. -/
def skipGap : Nat → List Char → List Char
  | 0, cs => cs
  | lines + 1, cs =>
    let cs := skipComment (skipBlanks cs)
    match lineEnd? cs with
    | some rest => skipGap lines rest
    | none => cs

/-! ### Texts -/

/-- The number that so many hexadecimal digits write, behind `n`. -/
def hexNumber : Nat → Nat → List Char → Option (Nat × List Char)
  | 0, n, cs => some (n, cs)
  | count + 1, n, c :: cs => do
    let d ← Value.Reader.hexValue? c
    hexNumber count (n * 16 + d) cs
  | _ + 1, _, [] => none

/-- The character whose number so many hexadecimal digits write. -/
def unicode (count : Nat) (cs : List Char) : Option (Char × List Char) := do
  let (n, cs) ← hexNumber count 0 cs
  if n.isValidChar then some (Char.ofNat n, cs) else none

def escaped (cs : List Char) : Option (Char × List Char) :=
  match cs with
  | '"' :: cs => some ('"', cs)
  | '\\' :: cs => some ('\\', cs)
  | 'b' :: cs => some ('\x08', cs)
  | 'f' :: cs => some ('\x0c', cs)
  | 'n' :: cs => some ('\n', cs)
  | 'r' :: cs => some ('\r', cs)
  | 't' :: cs => some ('\t', cs)
  | 'u' :: cs => unicode 4 cs
  | 'U' :: cs => unicode 8 cs
  | _ => none

/-- The characters of a text of one line up to its closing quote, at most `size` of them. In double
quotes a backslash begins an escape. -/
def lineText (quote : Char) : Nat → List Char → Option (List Char × List Char)
  | 0, _ => none
  | _ + 1, [] => none
  | size + 1, c :: cs =>
    if c = quote then some ([], cs)
    else if c = '\\' ∧ quote = '"' then do
      let (c, cs) ← escaped cs
      let (tail, cs) ← lineText quote size cs
      some (c :: tail, cs)
    else if isPlain c then do
      let (tail, cs) ← lineText quote size cs
      some (c :: tail, cs)
    else none

/-- The characters of a text of many lines up to its closing quotes, at most `size` of them. Three
quotes close it, and up to two more before them are its last characters. In double quotes a
backslash at the end of a line joins it with the next line that is not blank. -/
def blockText (quote : Char) : Nat → List Char → Option (List Char × List Char)
  | 0, _ => none
  | _ + 1, [] => none
  | size + 1, c :: cs =>
    if c = quote then
      let more := cs.takeWhile (· == quote)
      let rest := cs.dropWhile (· == quote)
      if more.length < 2 then do
        let (tail, cs) ← blockText quote size rest
        some (c :: more ++ tail, cs)
      else if more.length < 5 then some (more.drop 2, rest)
      else none
    else if c = '\\' ∧ quote = '"' then
      match lineEnd? (skipBlanks cs) with
      | some rest => blockText quote size (skipBlankLines rest.length rest)
      | none => do
        let (c, cs) ← escaped cs
        let (tail, cs) ← blockText quote size cs
        some (c :: tail, cs)
    else
      match lineEnd? (c :: cs) with
      | some rest => do
        let (tail, cs) ← blockText quote size rest
        some ('\n' :: tail, cs)
      | none =>
        if isPlain c then do
          let (tail, cs) ← blockText quote size cs
          some (c :: tail, cs)
        else none

/-- A text of one line whose opening quote has been read. -/
def quoted (quote : Char) (cs : List Char) : Option (String × List Char) := do
  let (text, cs) ← lineText quote (cs.length + 1) cs
  some (String.ofList text, cs)

/-- A text of many lines whose opening quotes have been read. A line end behind them is not part of
it. -/
def block (quote : Char) (cs : List Char) : Option (String × List Char) := do
  let cs := (lineEnd? cs).getD cs
  let (text, cs) ← blockText quote (cs.length + 1) cs
  some (String.ofList text, cs)

/-! ### Keys -/

def isBare (c : Char) : Bool := c.isAlphanum || c == '-' || c == '_'

def keyPart (cs : List Char) : Option (String × List Char) :=
  match cs with
  | '"' :: cs => quoted '"' cs
  | '\'' :: cs => quoted '\'' cs
  | cs =>
    match cs.takeWhile isBare with
    | [] => none
    | part => some (String.ofList part, cs.dropWhile isBare)

/-- The parts of a key with points between them, at most `size` of them. -/
def key : Nat → List Char → Option (List String × List Char)
  | 0, _ => none
  | size + 1, cs => do
    let (part, cs) ← keyPart (skipBlanks cs)
    match skipBlanks cs with
    | '.' :: cs =>
      let (parts, cs) ← key size cs
      some (part :: parts, cs)
    | cs => some ([part], cs)

/-! ### Values -/

def empty? (cs : List Char) : Option (List Char) :=
  match cs with
  | '[' :: cs =>
    match skipGap cs.length cs with
    | ']' :: cs => some cs
    | _ => none
  | '{' :: cs =>
    match skipBlanks cs with
    | '}' :: cs => some cs
    | _ => none
  | _ => none

/-- A table whose one key holds something empty; its opening brace has been read. -/
def choice (cs : List Char) : Option (Setting × List Char) := do
  let (name, cs) ← keyPart (skipBlanks cs)
  match skipBlanks cs with
  | '=' :: cs =>
    let cs ← empty? (skipBlanks cs)
    match skipBlanks cs with
    | '}' :: cs => some (.choice name, cs)
    | _ => none
  | _ => none

def value (cs : List Char) : Option (Setting × List Char) :=
  match cs with
  | '"' :: '"' :: '"' :: cs => (block '"' cs).map fun (s, cs) => (.text s, cs)
  | '"' :: cs => (quoted '"' cs).map fun (s, cs) => (.text s, cs)
  | '\'' :: '\'' :: '\'' :: cs => (block '\'' cs).map fun (s, cs) => (.text s, cs)
  | '\'' :: cs => (quoted '\'' cs).map fun (s, cs) => (.text s, cs)
  | 't' :: 'r' :: 'u' :: 'e' :: cs => some (.flag true, cs)
  | 'f' :: 'a' :: 'l' :: 's' :: 'e' :: cs => some (.flag false, cs)
  | cs =>
    match empty? cs, cs with
    | some cs, _ => some (.empty, cs)
    | none, '{' :: cs => choice cs
    | none, _ => none

/-! ### Lines -/

def line (cs : List Char) : Option (Line × List Char) :=
  match cs with
  | '[' :: cs => do
    let (path, cs) ← key cs.length cs
    match cs with
    | ']' :: cs => some (.heading path, cs)
    | _ => none
  | cs => do
    let (path, cs) ← key cs.length cs
    match cs with
    | '=' :: cs =>
      let (v, cs) ← value (skipBlanks cs)
      some (.setting path v, cs)
    | _ => none

/-- The lines that are not blank, of at most `size` lines. -/
def lines : Nat → List Char → Option (List Line)
  | 0, cs => if cs.isEmpty then some [] else none
  | size + 1, cs =>
    match finish cs with
    | some [] => some []
    | some rest => lines size rest
    | none => do
      let (first, cs) ← line (skipBlanks cs)
      let cs ← finish cs
      let rest ← lines size cs
      some (first :: rest)

/-- The lines of a text, which may begin with a byte order mark. -/
def ofText? (text : String) : Option (List Line) :=
  let cs := text.toList
  lines cs.length (if cs.head? == some '\uFEFF' then cs.drop 1 else cs)

end Line

end Templating.Config
