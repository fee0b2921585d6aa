import Templating.Problem.Basic
import Templating.Token.Basic

/-!
# From characters to tokens

The text of a template is cut into pieces that together are the whole text; each piece makes a
token or is skipped. A tag's opening parenthesis switches from literal text to parameters, and the
parenthesis that matches it switches back.
-/

namespace Templating

/-- Some characters and the token they make, if any. -/
structure Piece where
  token : Option Token
  chars : List Char
deriving DecidableEq

namespace Lexer

/-! ### Characters -/

def isNameStart (c : Char) : Bool := c.isAlpha || c == '_'

def isNamePart (c : Char) : Bool := isNameStart c || c.isDigit

/-- Whether a character has no meaning in literal text. -/
def isPlain (c : Char) : Bool := c != '#' && c != '\\'

/-- The blanks that are skipped between parameters. -/
def isParamBlank (c : Char) : Bool := c == ' ' || c == '\t' || c == '\n' || c == '\r'

/-! ### Steps -/

inductive Fault where
  /-- Parameters that begin with what is no token. -/
  | unexpected (chars : List Char)
  /-- The text ends before the parameters do. -/
  | unterminated
deriving DecidableEq

/-- Whether the next character is literal text or stands in the parameters of a tag with a name or
without one, below so many parentheses of their own. -/
inductive Mode where
  | text
  | params (named : Bool) (depth : Nat)
deriving DecidableEq

/-- The pieces that one step cuts off, how many characters they take beyond the first, and the mode
they leave. -/
structure Step where
  pieces : List Piece
  extra : Nat
  mode : Mode

/-- A step over one piece, given the characters behind its first. -/
def Step.one (mode : Mode) (token : Option Token) (c : Char) (behind : List Char) : Step :=
  ⟨[⟨token, c :: behind⟩], behind.length, mode⟩

/-! ### Literal text -/

def indicatorStep (cs : List Char) : Step :=
  let name := cs.takeWhile isNamePart
  let raw (behind : List Char) := Step.one .text (some (.raw (String.ofList ('#' :: behind)))) '#' behind
  let tag : Piece := ⟨some (.tag (String.ofList name)), '#' :: name⟩
  match cs with
  | '(' :: _ => ⟨[⟨none, ['#']⟩, ⟨some .paramsOpen, ['(']⟩], 1, .params false 0⟩
  | c :: _ =>
    if isNameStart c then
      match cs.dropWhile isNamePart with
      | '(' :: _ => ⟨[tag, ⟨some .paramsOpen, ['(']⟩], name.length + 1, .params true 0⟩
      | ':' :: _ =>
        if String.ofList name = "else" then
          ⟨[tag, ⟨some .bodyStart, [':']⟩], name.length + 1, .text⟩
        else if isKeywordTag (String.ofList name) then ⟨[tag], name.length, .text⟩
        else raw name
      | _ =>
        if isKeywordTag (String.ofList name) then ⟨[tag], name.length, .text⟩
        else raw name
    else raw []
  | [] => raw []

/-- The step at `c` in literal text, with `cs` behind it. -/
def textStep (c : Char) (cs : List Char) : Step :=
  if c = '#' then indicatorStep cs
  else if c = '\\' then
    match cs with
    | '#' :: _ => .one .text (some (.raw "#")) '\\' ['#']
    | _ => .one .text (some (.raw "\\")) '\\' []
  else
    let run := cs.takeWhile isPlain
    .one .text (some (.raw (String.ofList (c :: run)))) c run

/-! ### Parameters -/

def decimal (digits : List Char) : Nat := digits.foldl (fun n d => n * 10 + (d.toNat - 48)) 0

/-- A literal string with its opening quote read: its characters up to the closing quote, or those
before the fault. A backslash takes the next character with it, unless that ends the line. -/
def stringChars : List Char → Except (List Char) (List Char)
  | '"' :: _ => .ok ['"']
  | '\\' :: c :: cs =>
    if c = '\n' then .error []
    else
      match stringChars cs with
      | .ok chars => .ok ('\\' :: c :: chars)
      | .error chars => .error ('\\' :: c :: chars)
  | ['\\'] => .error []
  | c :: cs =>
    match stringChars cs with
    | .ok chars => .ok (c :: chars)
    | .error chars => .error (c :: chars)
  | [] => .error []

/-- What a string's characters mean, up to its closing quote. -/
def unescape : List Char → List Char
  | '"' :: _ => []
  | '\\' :: 'n' :: cs => '\n' :: unescape cs
  | '\\' :: 't' :: cs => '\t' :: unescape cs
  | '\\' :: 'r' :: cs => '\r' :: unescape cs
  | '\\' :: c :: cs => c :: unescape cs
  | c :: cs => c :: unescape cs
  | [] => []

def nameToken (name : String) : ParamToken :=
  if name = "true" then .true
  else if name = "false" then .false
  else if name = "in" then .in
  else .ident name

def tokenStep (mode : Mode) (t : ParamToken) (c : Char) (behind : List Char) : Except Fault Step :=
  .ok (.one mode (some (.param t)) c behind)

/-- The step at the digit `c`: a number with a point must have digits on both sides of it, and one
without must fit 64 bits with a sign. -/
def numberStep (mode : Mode) (c : Char) (cs : List Char) : Except Fault Step :=
  let whole := cs.takeWhile Char.isDigit
  let integer : Except Fault Step :=
    if decimal (c :: whole) < Nat.pow 2 63 then tokenStep mode (.int (decimal (c :: whole))) c whole
    else .error (.unexpected (c :: whole))
  match cs.dropWhile Char.isDigit with
  | '.' :: rest =>
    match rest.takeWhile Char.isDigit with
    | [] => integer
    | places =>
      tokenStep mode (.float (Number.ofDecimal false (decimal (c :: whole ++ places)) (-places.length)))
        c (whole ++ '.' :: places)
  | _ => integer

def stringStep (mode : Mode) (cs : List Char) : Except Fault Step :=
  match stringChars cs with
  | .ok chars => tokenStep mode (.text (String.ofList (unescape chars))) '"' chars
  | .error chars => .error (.unexpected ('"' :: chars))

/-- The step at the parenthesis that closes a tag's parameters. -/
def closingStep (named : Bool) (cs : List Char) : Step :=
  match named, cs with
  | true, ':' :: _ => ⟨[⟨some .paramsClose, [')']⟩, ⟨some .bodyStart, [':']⟩], 1, .text⟩
  | _, _ => .one .text (some .paramsClose) ')' []

def operatorStep (mode : Mode) (c : Char) (cs : List Char) : Except Fault Step :=
  let op (op : BinaryOp) (behind : List Char) := tokenStep mode (.operator op) c behind
  match c, cs with
  | '=', '=' :: _ => op .equal ['=']
  | '!', '=' :: _ => op .notEqual ['=']
  | '<', '=' :: _ => op .lessOrEqual ['=']
  | '>', '=' :: _ => op .greaterOrEqual ['=']
  | '&', '&' :: _ => op .and ['&']
  | '|', '|' :: _ => op .or ['|']
  | '<', _ => op .less []
  | '>', _ => op .greater []
  | '!', _ => tokenStep mode .not c []
  | '+', _ => op .add []
  | '-', _ => op .subtract []
  | '*', _ => op .multiply []
  | '/', _ => op .divide []
  | '%', _ => op .modulo []
  | _, _ => .error (.unexpected [c])

/-- The step at `c` in parameters, with `cs` behind it. -/
def paramStep (named : Bool) (depth : Nat) (c : Char) (cs : List Char) : Except Fault Step :=
  let mode := Mode.params named depth
  if isParamBlank c then .ok (.one mode none c (cs.takeWhile isParamBlank))
  else if c = '(' then tokenStep (.params named (depth + 1)) .parenOpen c []
  else if c = ')' then
    match depth with
    | 0 => .ok (closingStep named cs)
    | depth + 1 => tokenStep (.params named depth) .parenClose c []
  else if c = ',' then tokenStep mode .comma c []
  else if c = '.' then tokenStep mode .dot c []
  else if c = '"' then stringStep mode cs
  else if c.isDigit then numberStep mode c cs
  else if isNameStart c then
    let behind := cs.takeWhile isNamePart
    tokenStep mode (nameToken (String.ofList (c :: behind))) c behind
  else operatorStep mode c cs

def step (mode : Mode) (c : Char) (cs : List Char) : Except Fault Step :=
  match mode with
  | .text => .ok (textStep c cs)
  | .params named depth => paramStep named depth c cs

/-! ### The whole text -/

/-- The pieces of a text, up to the fault if there is one. -/
structure Cut where
  pieces : List Piece
  fault : Option Fault

def cut (mode : Mode) (cs : List Char) : Cut :=
  match cs with
  | [] => ⟨[], if mode = .text then none else some .unterminated⟩
  | c :: cs =>
    match step mode c cs with
    | .error fault => ⟨[], some fault⟩
    | .ok s =>
      let rest := cut s.mode (cs.drop s.extra)
      ⟨s.pieces ++ rest.pieces, rest.fault⟩
termination_by cs.length
decreasing_by
  simp only [List.length_drop, List.length_cons]
  omega

/-- The pieces with neighbouring raw texts joined. -/
def joinRaw : List Piece → List Piece
  | [] => []
  | p :: ps =>
    match p, joinRaw ps with
    | ⟨some (.raw a), cs⟩, ⟨some (.raw b), ds⟩ :: rest => ⟨some (.raw (a ++ b)), cs ++ ds⟩ :: rest
    | p, ps => p :: ps

/-- The tokens of some pieces, the first of which begins at byte `start`. -/
def lexemes (start : Nat) : List Piece → List Lexeme
  | [] => []
  | ⟨none, chars⟩ :: ps => lexemes (start + Text.width chars) ps
  | ⟨some token, chars⟩ :: ps =>
    ⟨token, ⟨start, start + Text.width chars⟩⟩ :: lexemes (start + Text.width chars) ps

def Fault.message : Fault → String
  | unexpected chars => "unexpected '" ++ String.ofList chars ++ "' in tag parameters"
  | unterminated => "unterminated tag parameters, expected ')'"

def Fault.chars : Fault → List Char
  | unexpected chars => chars
  | unterminated => []

def Fault.problem (fault : Fault) (pieces : List Piece) : Problem :=
  let start := Text.width (pieces.flatMap Piece.chars)
  ⟨.lexical, ⟨start, start + Text.width fault.chars⟩, fault.message, []⟩

end Lexer

def lex (source : String) : Except Problem (List Lexeme) :=
  let cut := Lexer.cut .text source.toList
  match cut.fault with
  | none => .ok (Lexer.lexemes 0 (Lexer.joinRaw cut.pieces))
  | some fault => .error (fault.problem cut.pieces)

end Templating
