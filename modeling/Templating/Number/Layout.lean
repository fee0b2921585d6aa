import Templating.Number.Shortest

/-!
# How doubles are written

The digits of the shortest decimal, laid out after one of two rules: values in output and data are
written positionally in a middle range and in scientific notation outside it; literals in trees and
messages are always written positionally.
-/

namespace Templating.Number

structure Layout where
  /-- Decimal exponents below the first or above the second are written in scientific notation. -/
  positional : Option (Int × Int)
  /-- Whether a whole number is followed by a point and a zero. -/
  keepsPoint : Bool
  /-- Which of two equally near decimals is written. -/
  tie : Tie
  infinity : String
  notANumber : String

/-- Values in output and data: `0.00001`, `1000000000000000.0`, `1e+16`, `1.5e-7`. -/
def Layout.data : Layout := ⟨some (-5, 15), true, .toEven, "null", "null"⟩

/-- Literals in trees, tokens and messages: `1`, `0.1`, `inf`, and never an exponent. -/
def Layout.literal : Layout := ⟨none, false, .up, "inf", "NaN"⟩

namespace Layout

def digitChars (digits : List Nat) : List Char := digits.map Nat.digitChar

/-- The digits with a point after as many places as the exponent says. -/
def positionalChars (keepsPoint : Bool) (d : Decimal) : List Char :=
  let cs := digitChars d.digits
  if d.exponent < 0 then
    '0' :: '.' :: List.replicate (-d.exponent - 1).toNat '0' ++ cs
  else
    let whole := d.exponent.toNat + 1
    let rest := cs.drop whole
    cs.take whole ++ List.replicate (whole - cs.length) '0' ++
      (if !rest.isEmpty then '.' :: rest else if keepsPoint then ['.', '0'] else [])

/-- One digit before the point, and the exponent with its sign. -/
def scientificChars (d : Decimal) : List Char :=
  let mantissa := match digitChars d.digits with
    | [] => []
    | [c] => [c]
    | c :: cs => c :: '.' :: cs
  mantissa ++ 'e' :: (if d.exponent < 0 then '-' else '+') :: (toString d.exponent.natAbs).toList

def isPositional (layout : Layout) (exponent : Int) : Bool :=
  match layout.positional with
  | none => true
  | some (low, high) => low ≤ exponent && exponent ≤ high

def decimalChars (layout : Layout) (d : Decimal) : List Char :=
  if layout.isPositional d.exponent then positionalChars layout.keepsPoint d
  else scientificChars d

def float (layout : Layout) (x : Float) : String :=
  let d := Dyadic.ofFloat x
  let sign := if d.negative then ['-'] else []
  if x.isNaN then layout.notANumber
  else if x.isInf then String.ofList (sign ++ layout.infinity.toList)
  else if d.m = 0 then String.ofList (sign ++ layout.decimalChars ⟨[0], 0⟩)
  else String.ofList (sign ++ layout.decimalChars (shortest layout.tie d.m d.q))

end Layout

end Templating.Number
