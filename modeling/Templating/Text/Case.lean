import Templating.Text.LetterRanges

/-!
# Upper and lower case

The full case mapping of the Unicode standard: a letter may map to several (`ß` to `SS`), and a
capital sigma at the end of a word has a lower case of its own.
-/

namespace Templating.Text

def inRanges (ranges : List (Nat × Nat)) (c : Char) : Bool :=
  ranges.any fun (low, high) => low ≤ c.toNat && c.toNat ≤ high

namespace Run

def holds (r : Run) (n : Nat) : Bool :=
  r.first ≤ n && n ≤ r.last && (n - r.first) % r.step == 0

/-- The letter that the first run holding `c` maps it to, and `c` if none holds it. -/
def map (runs : List Run) (c : Char) : Char :=
  match runs.find? (·.holds c.toNat) with
  | some r => Char.ofNat ((c.toNat : Int) + r.shift).toNat
  | none => c

end Run

/-! ### Single letters -/

/-- The letters of an expansion of `c`, or else what the runs map it to. -/
def expand (expansions : List (Nat × List Nat)) (runs : List Run) (c : Char) : List Char :=
  match expansions.lookup c.toNat with
  | some letters => letters.map Char.ofNat
  | none => [Run.map runs c]

/-- The letters that write `c` in upper case. -/
def upperLetters (c : Char) : List Char :=
  if c.toNat < 128 then [c.toUpper] else expand upperExpansions upperRuns c

/-- The letters that write `c` in lower case, wherever it stands. -/
def lowerLetters (c : Char) : List Char :=
  if c.toNat < 128 then [c.toLower] else expand lowerExpansions lowerRuns c

/-! ### Texts -/

/-- Whether, past marks and signs, the next character is a letter that has a case. -/
def meetsLetter (cs : List Char) : Bool :=
  match cs.dropWhile (inRanges passedRanges) with
  | c :: _ => inRanges casedRanges c
  | [] => false

/-- The lower case of a capital sigma between `before`, nearest character first, and `after`. -/
def lowerSigma (before after : List Char) : Char :=
  if meetsLetter before && !meetsLetter after then 'ς' else 'σ'

/-- Lower case of `cs`, which stands behind `before`, nearest character first. -/
def lowerFrom (before : List Char) : List Char → List Char
  | [] => []
  | c :: cs =>
    (if c = 'Σ' then [lowerSigma before cs] else lowerLetters c) ++ lowerFrom (c :: before) cs

def lowercase (s : String) : String := String.ofList (lowerFrom [] s.toList)

def uppercase (s : String) : String := String.ofList (s.toList.flatMap upperLetters)

def capitalize (s : String) : String :=
  match s.toList with
  | [] => ""
  | c :: cs => String.ofList (upperLetters c ++ cs)

end Templating.Text
