import Templating.Number.Layout

/-!
# Numbers

A number in data is an integer that fits 64 bits, with or without a sign, or a finite double.
`1` and `1.0` are different numbers, though they compare equal through their doubles.
-/

namespace Templating

inductive Number where
  | int (n : Int)
  | float (x : Float)

namespace Number

def IsSigned (n : Int) : Prop := -Int.pow 2 63 ≤ n ∧ n < Int.pow 2 63

def IsUnsigned (n : Int) : Prop := 0 ≤ n ∧ n < Int.pow 2 64

instance (n : Int) : Decidable (IsSigned n) := inferInstanceAs (Decidable (_ ∧ _))

instance (n : Int) : Decidable (IsUnsigned n) := inferInstanceAs (Decidable (_ ∧ _))

/-- The integer of a number that is written as one and fits 64 bits with a sign. -/
def signed? : Number → Option Int
  | int n => if IsSigned n then some n else none
  | float _ => none

def toFloat : Number → Float
  | int n => ofInt n
  | float x => x

def same : Number → Number → Bool
  | int a, int b => a == b
  | float x, float y => x == y
  | _, _ => false

def text : Number → String
  | int n => toString n
  | float x => Layout.data.float x

theorem signed?_int {n : Int} (h : IsSigned n) : signed? (int n) = some n := by
  simp [signed?, h]

end Number

end Templating
