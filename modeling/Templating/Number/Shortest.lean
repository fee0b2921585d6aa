import Templating.Number.Binary64

/-!
# Shortest decimals

Among the decimals that read back as a given double, the ones with the fewest digits, and of these
the nearest to it. A decimal with `n` digits is a point of the grid of multiples of a power of ten;
only the two grid points around the value can be shortest, so each grid is tested at these two.
-/

namespace Templating.Number

/-- A positive decimal `0.d₁d₂… · 10^(exponent + 1)`, that is `d₁.d₂… · 10^exponent`. -/
structure Decimal where
  digits : List Nat
  exponent : Int
deriving DecidableEq, Repr

inductive Tie where
  | toEven
  | up
deriving DecidableEq, Repr

namespace Shortest

/-- A value with the ends of the interval of reals that round to it, all as multiples of
`1 / den`. -/
structure Target where
  low : Nat
  value : Nat
  high : Nat
  den : Nat
  closed : Bool

/-- The interval around `m · 2^q`; below a power of two the neighbours are closer. -/
def Target.of (m : Nat) (q : Int) : Target :=
  let below := if m = Nat.pow 2 52 ∧ -1074 < q then 1 else 2
  let power := Nat.pow 2 q.natAbs
  if 0 ≤ q then
    ⟨(4 * m - below) * power, 4 * m * power, (4 * m + 2) * power, 4, m % 2 == 0⟩
  else ⟨4 * m - below, 4 * m, 4 * m + 2, 4 * power, m % 2 == 0⟩

/-- The same interval in units of `10^k`. -/
def Target.inUnits (t : Target) (k : Int) : Target :=
  let power := Nat.pow 10 k.natAbs
  if 0 ≤ k then { t with den := t.den * power }
  else { t with low := t.low * power, value := t.value * power, high := t.high * power }

def Target.holds (t : Target) (n : Nat) : Bool :=
  if t.closed then t.low ≤ n * t.den && n * t.den ≤ t.high
  else t.low < n * t.den && n * t.den < t.high

/-- The integer of the interval nearest to the value, if one of its two neighbours is in it. -/
def Target.pick? (t : Target) (tie : Tie) : Option Nat :=
  let down := t.value / t.den
  let up := down + 1
  match t.holds down, t.holds up with
  | true, true =>
    let twice := 2 * (t.value % t.den)
    if twice < t.den then some down
    else if t.den < twice then some up
    else match tie with
      | .up => some up
      | .toEven => some (if down % 2 = 0 then down else up)
  | true, false => some down
  | false, true => some up
  | false, false => none

/-- An exponent `k` with `10^k ≤ value / den < 10^(k + 1)`, found from an estimate. -/
def leadingExponent (t : Target) : Int :=
  let log2 : Int := (t.value.log2 : Int) - t.den.log2
  let guess : Int := log2 * 30103 / 100000 - 1
  let reaches (k : Int) : Bool :=
    if 0 ≤ k then t.den * Nat.pow 10 k.natAbs ≤ t.value else t.den ≤ t.value * Nat.pow 10 k.natAbs
  if reaches (guess + 2) then guess + 2 else if reaches (guess + 1) then guess + 1 else guess

/-- A positive integer without the zeros at its end, and how many there were. -/
def stripZeros : Nat → Nat → Nat × Nat
  | 0, n => (n, 0)
  | fuel + 1, n =>
    if n % 10 = 0 then
      let (m, zeros) := stripZeros fuel (n / 10)
      (m, zeros + 1)
    else (n, 0)

/-- `n · 10^k` as digits and exponent. -/
def decimalOf (n : Nat) (k : Int) : Decimal :=
  let (m, zeros) := stripZeros 20 n
  let digits := (Nat.toDigits 10 m).map fun c => c.toNat - '0'.toNat
  ⟨digits, k + zeros + digits.length - 1⟩

/-- The first grid with a hit, trying `tries` grids from the one with `count` digits on. -/
def search (t : Target) (tie : Tie) (leading : Int) (count : Nat) : Nat → Decimal
  | 0 => decimalOf (t.value / t.den) 0
  | tries + 1 =>
    let k : Int := leading - count + 1
    match (t.inUnits k).pick? tie with
    | some n => decimalOf n k
    | none => search t tie leading (count + 1) tries

end Shortest

/-- The shortest decimal that reads back as the positive double `m · 2^q`. Seventeen digits are
always enough. -/
def shortest (tie : Tie) (m : Nat) (q : Int) : Decimal :=
  let t := Shortest.Target.of m q
  Shortest.search t tie (Shortest.leadingExponent t) 1 18

end Templating.Number
