/-!
# Doubles as integers times powers of two

Every finite double is `m · 2^q` for a natural number `m` below `2^53` and an exponent `q` of at
least `-1074`. The parts are read off the bits, and a quotient of natural numbers is rounded to the
nearest double, the even one of two.
-/

namespace Templating.Number

/-! ### From a double to its parts -/

/-- A finite value `± m · 2^q`. -/
structure Dyadic where
  negative : Bool
  m : Nat
  q : Int
deriving DecidableEq, Repr

/-- The sign, the integer and the exponent written in the bits of a finite double. -/
def Dyadic.ofBits (bits : Nat) : Dyadic :=
  let fraction : Nat := bits % Nat.pow 2 52
  let exponent : Nat := bits / Nat.pow 2 52 % Nat.pow 2 11
  let negative := bits / Nat.pow 2 63 % 2 == 1
  if exponent = 0 then ⟨negative, fraction, -1074⟩
  else ⟨negative, Nat.pow 2 52 + fraction, exponent - 1075⟩

def Dyadic.ofFloat (x : Float) : Dyadic := .ofBits x.toBits.toNat

/-! ### Rounding -/

/-- The quotient rounded to the nearest integer, the even one of two. -/
def roundDiv (num den : Nat) : Nat :=
  let low := num / den
  let twice := 2 * (num % den)
  if twice < den then low
  else if den < twice then low + 1
  else if low % 2 = 0 then low else low + 1

/-- `num / den / 2^q` as a quotient of natural numbers. -/
def scaled (num den : Nat) (q : Int) : Nat × Nat :=
  if 0 ≤ q then (num, den * Nat.pow 2 q.toNat) else (num * Nat.pow 2 (-q).toNat, den)

/-- The exponent at which a positive quotient has an integer part below `2^53`, and of at least
`2^52` unless the exponent is the least one. -/
def exponentFor (num den : Nat) : Int :=
  let guess : Int := max ((num.log2 : Int) - den.log2 - 53) (-1074)
  let (n, d) := scaled num den guess
  if n / d < Nat.pow 2 53 then guess else guess + 1

def infinityBits : Nat := 2047 * Nat.pow 2 52

/-- The bits of the double nearest to `num / den`. -/
def nearestBits (num den : Nat) : Nat :=
  if num = 0 then 0
  else
    let q := exponentFor num den
    let (n, d) := scaled num den q
    min ((q + 1074).toNat * Nat.pow 2 52 + roundDiv n d) infinityBits

/-- The double nearest to `± num / den`. -/
def nearest (negative : Bool) (num den : Nat) : Float :=
  Float.ofBits (UInt64.ofNat ((if negative then Nat.pow 2 63 else 0) + nearestBits num den))

def ofInt (n : Int) : Float := nearest (n < 0) n.natAbs 1

/-- The double nearest to `± digits · 10^exponent`; decimal exponents far beyond the range of
doubles are decided without computing the power. -/
def ofDecimal (negative : Bool) (digits : Nat) (exponent : Int) : Float :=
  let places : Int := (Nat.toDigits 10 digits).length + exponent
  if digits = 0 ∨ places < -330 then nearest negative 0 1
  else if 330 < places then nearest negative (Nat.pow 10 330) 1
  else if 0 ≤ exponent then nearest negative (digits * Nat.pow 10 exponent.toNat) 1
  else nearest negative digits (Nat.pow 10 (-exponent).toNat)

/-! ### Remainder -/

/-- The exact remainder of a division truncated toward zero; it has the sign of the dividend. For
an infinite dividend or a zero divisor it is no number, and an infinite divisor leaves the
dividend. -/
def remainder (x y : Float) : Float :=
  if x.isNaN || y.isNaN || x.isInf || y == 0 then (0.0 : Float) / 0.0
  else if y.isInf then x
  else
    let a := Dyadic.ofFloat x
    let b := Dyadic.ofFloat y
    let q := min a.q b.q
    let m := (a.m * Nat.pow 2 (a.q - q).toNat) % (b.m * Nat.pow 2 (b.q - q).toNat)
    let (n, d) := scaled m 1 (-q)
    nearest a.negative n d

end Templating.Number
