import Templating.Problem.Basic
import Templating.Token.Basic

/-!
# Readers of tokens

A reader takes tokens from the front of a list or fails. It also tells the trouble it met, even if
it succeeds: the furthest place at which some alternative could not go on, with all that could have
stood there. When the whole text is refused, that trouble is what is reported.
-/

namespace Templating

inductive Expectation where
  | token (t : Token)
  /-- Any token of a sort, by the name of the sort. -/
  | sort (label : String)
  | endOfText
deriving DecidableEq

/-- A construct that is spelled as the grammar asks and refused all the same. -/
inductive Refusal where
  | valueAndBody (key : String)
  | textInExtend
  | wrongClosing (name closing : String)
deriving DecidableEq

inductive Complaint where
  /-- One of these should have stood here. -/
  | expected (options : List Expectation)
  /-- The construct that begins here is refused as a whole. -/
  | refused (why : Refusal) (span : Text.Span)
deriving DecidableEq

/-- A complaint and the token at which it arose, none at the end of the text. -/
structure Trouble where
  found : Option Lexeme
  complaint : Complaint
deriving DecidableEq

namespace Trouble

def before (a b : Trouble) : Bool :=
  match a.found, b.found with
  | some x, some y => x.span.start < y.span.start
  | some _, none => true
  | none, _ => false

/-- Two complaints about one place: a refusal stands, and expectations are put together. -/
def merge : Complaint → Complaint → Complaint
  | .refused why span, _ => .refused why span
  | .expected _, .refused why span => .refused why span
  | .expected xs, .expected ys => .expected (xs ++ ys.filter (!xs.contains ·))

def further (a b : Trouble) : Trouble :=
  if a.before b then b
  else if b.before a then a
  else ⟨a.found, merge a.complaint b.complaint⟩

/-- The further of two troubles that need not be there. -/
def join : Option Trouble → Option Trouble → Option Trouble
  | some a, some b => some (a.further b)
  | some a, none => some a
  | none, b => b

end Trouble

/-- What a reader answers: what it read and the tokens left, if it succeeds, and its trouble. -/
structure Outcome (α : Type) where
  result : Option (α × List Lexeme)
  trouble : Option Trouble

def Reader (α : Type) := List Lexeme → Outcome α

namespace Reader

variable {α β : Type}

/-! ### Reading one after the other -/

protected def pure (a : α) : Reader α := fun ts => ⟨some (a, ts), none⟩

/-- Reads with `p` and then with what its answer says. -/
protected def bind (p : Reader α) (f : α → Reader β) : Reader β := fun ts =>
  match p ts with
  | ⟨none, trouble⟩ => ⟨none, trouble⟩
  | ⟨some (a, rest), trouble⟩ =>
    let next := f a rest
    ⟨next.result, Trouble.join trouble next.trouble⟩

instance : Monad Reader where
  pure := Reader.pure
  bind := Reader.bind

def nothing : Reader α := fun _ => ⟨none, none⟩

/-! ### One token -/

/-- The token that `pick` accepts; otherwise `options` were expected. -/
def select (options : List Expectation) (pick : Token → Option α) : Reader α := fun ts =>
  match ts with
  | [] => ⟨none, some ⟨none, .expected options⟩⟩
  | t :: rest =>
    match pick t.token with
    | some a => ⟨some (a, rest), none⟩
    | none => ⟨none, some ⟨some t, .expected options⟩⟩

def token (t : Token) : Reader Unit :=
  select [.token t] fun u => if u = t then some () else none

/-- Any token that `pick` accepts, called `label` in messages. -/
def sort (label : String) (pick : Token → Option α) : Reader α := select [.sort label] pick

def atEnd : Reader Unit := fun ts =>
  match ts with
  | [] => ⟨some ((), []), none⟩
  | t :: _ => ⟨none, some ⟨some t, .expected [.endOfText]⟩⟩

/-! ### Choice and repetition -/

def orElse (p q : Reader α) : Reader α := fun ts =>
  match p ts with
  | ⟨none, trouble⟩ =>
    let other := q ts
    ⟨other.result, Trouble.join trouble other.trouble⟩
  | success => success

def choice : List (Reader α) → Reader α
  | [] => nothing
  | [p] => p
  | p :: ps => orElse p (choice ps)

def optional (p : Reader α) : Reader (Option α) := fun ts =>
  match p ts with
  | ⟨some (a, rest), trouble⟩ => ⟨some (some a, rest), trouble⟩
  | ⟨none, trouble⟩ => ⟨some (none, ts), trouble⟩

/-- What `p` reads again and again until it fails, at most `bound` times. -/
def many (bound : Nat) (p : Reader α) : Reader (List α) := fun ts =>
  match bound with
  | 0 => ⟨some ([], ts), none⟩
  | bound + 1 =>
    match p ts with
    | ⟨none, trouble⟩ => ⟨some ([], ts), trouble⟩
    | ⟨some (a, rest), trouble⟩ =>
      let more := many bound p rest
      ⟨more.result.map fun (as, rest) => (a :: as, rest), Trouble.join trouble more.trouble⟩

/-- What `p` reads, in a list whose items `comma` parts, at most `bound` of them behind the
first. -/
def separated (bound : Nat) (comma : Reader Unit) (p : Reader α) : Reader (List α) := do
  match ← optional p with
  | none => pure []
  | some a =>
    let as ← many bound (do comma; p)
    pure (a :: as)

/-! ### Refusal -/

/-- From the first token of `ts` to the last that is not among `rest`. -/
def spanBetween (ts rest : List Lexeme) : Text.Span :=
  match ts, (ts.take (ts.length - rest.length)).getLast? with
  | first :: _, some last => ⟨first.span.start, last.span.stop⟩
  | _, _ => ⟨0, 0⟩

/-- What `check` makes of what `p` read, or else the trouble that it is refused; what went wrong
inside a refused construct does not count. -/
def checked (p : Reader α) (check : α → Except Refusal β) : Reader β := fun ts =>
  match p ts with
  | ⟨none, trouble⟩ => ⟨none, trouble⟩
  | ⟨some (a, rest), trouble⟩ =>
    match check a with
    | .ok b => ⟨some (b, rest), trouble⟩
    | .error why => ⟨none, some ⟨ts.head?, .refused why (spanBetween ts rest)⟩⟩

end Reader

/-! ### Messages -/

def Expectation.display : Expectation → String
  | token t => t.describe
  | sort label => label
  | endOfText => "end of input"

def Refusal.message : Refusal → String
  | valueAndBody key => "#export(\"" ++ key ++ "\") cannot take both a value and a body"
  | textInExtend => "only #export may appear inside #extend"
  | wrongClosing name closing =>
    "expected #end" ++ name ++ " to close #" ++ name ++ ", found #" ++ closing

/-- The trouble as a problem of a text of `size` bytes. -/
def Trouble.problem (size : Nat) (trouble : Trouble) : Problem :=
  match trouble.complaint with
  | .refused why span => ⟨.grammatical, span, why.message, []⟩
  | .expected options =>
    let (span, found) := match trouble.found with
      | some t => (t.span, t.token.describe)
      | none => (⟨size, size⟩, "end of input")
    ⟨.grammatical, span, "Unexpected " ++ found, options.map Expectation.display⟩

end Templating
