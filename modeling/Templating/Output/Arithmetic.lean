import Templating.Error.Basic

/-!
# Operations on values

Arithmetic is done on integers as long as both operands and the result fit 64 bits with a sign, and
on doubles otherwise. Numbers are compared through their doubles.
-/

namespace Templating

open Number

namespace BinaryOp

/-- Whether the operation has no result for a divisor of zero. -/
def divides : BinaryOp → Bool
  | divide | modulo => true
  | _ => false

/-- The result on integers if it fits. A remainder counts as fitting only if its quotient does. -/
def integral? (op : BinaryOp) (x y : Int) : Option Int :=
  match op with
  | add => fitting (x + y) (x + y)
  | subtract => fitting (x - y) (x - y)
  | multiply => fitting (x * y) (x * y)
  | divide => fitting (x.tdiv y) (x.tdiv y)
  | modulo => fitting (x.tdiv y) (x.tmod y)
  | _ => none
where
  fitting (bounded result : Int) : Option Int := if IsSigned bounded then some result else none

def approximate? (op : BinaryOp) (x y : Float) : Option Float :=
  match op with
  | add => some (x + y)
  | subtract => some (x - y)
  | multiply => some (x * y)
  | divide => some (x / y)
  | modulo => some (remainder x y)
  | _ => none

def holds (op : BinaryOp) (order : Ordering) : Bool :=
  match op with
  | less => order.isLT
  | lessOrEqual => order.isLE
  | greater => order.isGT
  | _ => order.isGE

end BinaryOp

namespace Value

def mismatch {α : Type} (op : BinaryOp) (lhs rhs : Value) : Except WriteError α :=
  .error (.typeMismatch (.operands op lhs rhs))

def approximate (op : BinaryOp) (a b : Number) : Except WriteError Value :=
  if op.divides && b.toFloat == 0 then .error .divisionByZero
  else
    match op.approximate? a.toFloat b.toFloat with
    | some x => .ok (float x)
    | none => mismatch op (.number a) (.number b)

def calculate (op : BinaryOp) (a b : Number) : Except WriteError Value :=
  match a.signed?, b.signed? with
  | some x, some y =>
    if op.divides && y == 0 then .error .divisionByZero
    else
      match op.integral? x y with
      | some n => .ok (int n)
      | none => approximate op a b
  | _, _ => approximate op a b

/-- An operation on values. A sum with a text joins what the operands display. -/
def arithmetic (op : BinaryOp) (lhs rhs : Value) : Except WriteError Value :=
  match op, lhs, rhs with
  | .add, .text a, b => .ok (.text (a ++ b.display))
  | .add, a, .text b => .ok (.text (a.display ++ b))
  | op, .number a, .number b => calculate op a b
  | op, a, b => mismatch op a b

/-- Equality: numbers through their doubles, everything else by kind and content. -/
def equal : Value → Value → Bool
  | .number a, .number b => a.toFloat == b.toFloat
  | a, b => a.same b

def order? : Value → Value → Option Ordering
  | .number a, .number b =>
    if a.toFloat < b.toFloat then some .lt
    else if a.toFloat == b.toFloat then some .eq
    else if b.toFloat < a.toFloat then some .gt
    else none
  | .text a, .text b => some (compare a b)
  | _, _ => none

def comparison (op : BinaryOp) (lhs rhs : Value) : Except WriteError Value :=
  match order? lhs rhs with
  | some order => .ok (.bool (op.holds order))
  | none => mismatch op lhs rhs

def negate : Value → Except WriteError Value
  | .number a =>
    match a.signed? with
    | some n => .ok (if IsSigned (-n) then int (-n) else float (-a.toFloat))
    | none => .ok (float (-a.toFloat))
  | v => .error (.typeMismatch (.negation v))

/-- A binary operation on two values that have been found. -/
def binary (op : BinaryOp) (lhs rhs : Value) : Except WriteError Value :=
  match op with
  | .and => .ok (.bool (lhs.truthy && rhs.truthy))
  | .or => .ok (.bool (lhs.truthy || rhs.truthy))
  | .equal => .ok (.bool (equal lhs rhs))
  | .notEqual => .ok (.bool (!equal lhs rhs))
  | .less | .lessOrEqual | .greater | .greaterOrEqual => comparison op lhs rhs
  | .add | .subtract | .multiply | .divide | .modulo => arithmetic op lhs rhs

end Value

end Templating
