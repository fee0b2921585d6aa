import Templating.Value.Json

/-!
# Reading JSON text

A strict reader: one value with blanks around it and nothing else. Refused are control characters
and lone surrogates in strings, numbers without a finite nearest double, and lists and dictionaries
nested too deeply. An integer that fits 64 bits, with or without a sign, stays an integer; every
other number, `-0` among them, becomes a double.
-/

namespace Templating.Value.Reader

def isBlank (c : Char) : Bool := c == ' ' || c == '\t' || c == '\n' || c == '\r'

def skipBlanks (cs : List Char) : List Char := cs.dropWhile isBlank

/-! ### Strings -/

def hexValue? (c : Char) : Option Nat :=
  if c.isDigit then some (c.toNat - 48)
  else if 'a' ≤ c ∧ c ≤ 'f' then some (c.toNat - 87)
  else if 'A' ≤ c ∧ c ≤ 'F' then some (c.toNat - 55)
  else none

def fourHex (cs : List Char) : Option (Nat × List Char) :=
  match cs with
  | a :: b :: c :: d :: cs => do
    let a ← hexValue? a
    let b ← hexValue? b
    let c ← hexValue? c
    let d ← hexValue? d
    some (((a * 16 + b) * 16 + c) * 16 + d, cs)
  | _ => none

/-- The character behind `\u`: one number, or two that make up a surrogate pair. -/
def unicode (cs : List Char) : Option (Char × List Char) := do
  let (n, cs) ← fourHex cs
  if 0xD800 ≤ n ∧ n < 0xDC00 then
    match cs with
    | '\\' :: 'u' :: cs =>
      let (m, cs) ← fourHex cs
      if 0xDC00 ≤ m ∧ m < 0xE000 then
        some (Char.ofNat (0x10000 + (n - 0xD800) * 0x400 + (m - 0xDC00)), cs)
      else none
    | _ => none
  else if 0xDC00 ≤ n ∧ n < 0xE000 then none
  else some (Char.ofNat n, cs)

def escaped (cs : List Char) : Option (Char × List Char) :=
  match cs with
  | '"' :: cs => some ('"', cs)
  | '\\' :: cs => some ('\\', cs)
  | '/' :: cs => some ('/', cs)
  | 'b' :: cs => some ('\x08', cs)
  | 'f' :: cs => some ('\x0c', cs)
  | 'n' :: cs => some ('\n', cs)
  | 'r' :: cs => some ('\r', cs)
  | 't' :: cs => some ('\t', cs)
  | 'u' :: cs => unicode cs
  | _ => none

/-- The characters of a string up to its closing quote, at most `size` of them. -/
def stringRest : Nat → List Char → Option (List Char × List Char)
  | _, '"' :: cs => some ([], cs)
  | size + 1, '\\' :: cs => do
    let (c, cs) ← escaped cs
    let (tail, cs) ← stringRest size cs
    some (c :: tail, cs)
  | size + 1, c :: cs =>
    if c.toNat < 0x20 then none
    else do
      let (tail, cs) ← stringRest size cs
      some (c :: tail, cs)
  | _, _ => none

/-- A string whose opening quote has been read. -/
def string (cs : List Char) : Option (String × List Char) := do
  let (tail, cs) ← stringRest cs.length cs
  some (String.ofList tail, cs)

/-! ### Numbers -/

/-- One digit or more, with the number of them and the number they write. -/
def digits (cs : List Char) : Option (Nat × Nat × List Char) :=
  match cs.takeWhile Char.isDigit with
  | [] => none
  | ds => some (ds.length, ds.foldl (fun n d => n * 10 + (d.toNat - 48)) 0,
      cs.dropWhile Char.isDigit)

/-- The part before the point: zero stands alone. -/
def whole (cs : List Char) : Option (Nat × List Char) :=
  match cs with
  | '0' :: cs => some (0, cs)
  | _ => do
    let (_, n, cs) ← digits cs
    some (n, cs)

/-- The digits behind a point, if there is one: their count and the number they write. -/
def fraction (cs : List Char) : Option (Option (Nat × Nat) × List Char) :=
  match cs with
  | '.' :: cs => do
    let (count, n, cs) ← digits cs
    some (some (count, n), cs)
  | _ => some (none, cs)

def exponent (cs : List Char) : Option (Option Int × List Char) :=
  match cs with
  | c :: cs =>
    if c = 'e' ∨ c = 'E' then do
      let (negative, cs) := match cs with
        | '-' :: cs => (true, cs)
        | '+' :: cs => (false, cs)
        | cs => (false, cs)
      let (_, n, cs) ← digits cs
      some (some (if negative then -(n : Int) else n), cs)
    else some (none, c :: cs)
  | [] => some (none, [])

/-- The double nearest to a decimal, if it is finite. -/
def double (negative : Bool) (n : Nat) (exponent : Int) : Option Number :=
  let x := Number.ofDecimal negative n exponent
  if x.isFinite then some (.float x) else none

/-- An integer as it stands if it fits 64 bits, and otherwise the nearest double. -/
def integer (negative : Bool) (n : Nat) : Option Number :=
  let i : Int := if negative then -(n : Int) else n
  if negative && n == 0 then double true 0 0
  else if Number.IsSigned i ∨ Number.IsUnsigned i then some (.int i)
  else double negative n 0

def number (cs : List Char) : Option (Number × List Char) := do
  let (negative, cs) := match cs with
    | '-' :: cs => (true, cs)
    | cs => (false, cs)
  let (n, cs) ← whole cs
  let (places, cs) ← fraction cs
  let (power, cs) ← exponent cs
  let read := match places, power with
    | none, none => integer negative n
    | _, _ =>
      let (count, tail) := places.getD (0, 0)
      double negative (n * Nat.pow 10 count + tail) (power.getD 0 - count)
  read.map (·, cs)

/-! ### Values -/

def keyword (word : List Char) (v : Value) (cs : List Char) : Option (Value × List Char) :=
  if word.isPrefixOf cs then some (v, cs.drop word.length) else none

/-- Items up to the closing bracket, one at least and at most `size` of them. -/
def items (item : List Char → Option (Value × List Char)) :
    Nat → List Char → Option (List Value × List Char)
  | 0, _ => none
  | size + 1, cs => do
    let (v, cs) ← item cs
    match skipBlanks cs with
    | ',' :: cs =>
      let (vs, cs) ← items item size cs
      some (v :: vs, cs)
    | ']' :: cs => some ([v], cs)
    | _ => none

def entry (item : List Char → Option (Value × List Char)) (cs : List Char) :
    Option ((String × Value) × List Char) :=
  match skipBlanks cs with
  | '"' :: cs => do
    let (key, cs) ← string cs
    match skipBlanks cs with
    | ':' :: cs =>
      let (v, cs) ← item cs
      some ((key, v), cs)
    | _ => none
  | _ => none

/-- Entries up to the closing brace, one at least and at most `size` of them. -/
def entries (item : List Char → Option (Value × List Char)) :
    Nat → List Char → Option (List (String × Value) × List Char)
  | 0, _ => none
  | size + 1, cs => do
    let (e, cs) ← entry item cs
    match skipBlanks cs with
    | ',' :: cs =>
      let (es, cs) ← entries item size cs
      some (e :: es, cs)
    | '}' :: cs => some ([e], cs)
    | _ => none

/-- A list whose opening bracket has been read. -/
def list (item : List Char → Option (Value × List Char)) (cs : List Char) :
    Option (Value × List Char) :=
  match skipBlanks cs with
  | ']' :: cs => some (.list [], cs)
  | _ => do
    let (vs, cs) ← items item cs.length cs
    some (.list vs, cs)

/-- A dictionary whose opening brace has been read; of two values under one key the later is
kept. -/
def dict (item : List Char → Option (Value × List Char)) (cs : List Char) :
    Option (Value × List Char) :=
  match skipBlanks cs with
  | '}' :: cs => some (.dict [], cs)
  | _ => do
    let (es, cs) ← entries item cs.length cs
    some (.dict (Table.ofEntries es), cs)

/-- A value with at most `depth` lists and dictionaries around its innermost part. -/
def value (depth : Nat) (cs : List Char) : Option (Value × List Char) :=
  match skipBlanks cs with
  | '"' :: cs => do
    let (s, cs) ← string cs
    some (.text s, cs)
  | '[' :: cs =>
    match depth with
    | 0 => none
    | depth + 1 => list (value depth) cs
  | '{' :: cs =>
    match depth with
    | 0 => none
    | depth + 1 => dict (value depth) cs
  | 'n' :: cs => keyword ['u', 'l', 'l'] .null cs
  | 't' :: cs => keyword ['r', 'u', 'e'] (.bool true) cs
  | 'f' :: cs => keyword ['a', 'l', 's', 'e'] (.bool false) cs
  | cs => do
    let (n, cs) ← number cs
    some (.number n, cs)

def maxDepth : Nat := 127

end Reader

def ofJson? (text : String) : Option Value := do
  let (v, cs) ← Reader.value Reader.maxDepth text.toList
  if (Reader.skipBlanks cs).isEmpty then some v else none

end Templating.Value
