import Templating.Output.Arithmetic
import Templating.Output.Scope
import Templating.Tag.Basic

/-!
# Evaluation

The value of an expression in a scope. The right operand of `&&` and `||` is looked at only if the
left one does not decide.
-/

namespace Templating

/-- What templates can call, and the data that every call is given. -/
structure Callables where
  tags : Tags
  info : Table Value

def Callables.call (callables : Callables) (name : String) (parameters : List Value)
    (body : Option String) : Except WriteError Value :=
  match Table.get? callables.tags name with
  | some tag => tag ⟨name, parameters, body, callables.info⟩
  | none => .error (.unknownTag name)

def Literal.value : Literal → Value
  | .bool b => .bool b
  | .int n => .int n
  | .float x => .float x
  | .text s => .text s

namespace Expr

mutual

def eval (callables : Callables) (scope : Scope) : Expr → Except WriteError Value
  | .literal value => .ok value.value
  | .path first rest => scope.lookup first rest
  | .unary .not operand => do
    let v ← eval callables scope operand
    return .bool !v.truthy
  | .unary .negate operand => do
    let v ← eval callables scope operand
    v.negate
  | .binary .and lhs rhs => do
    let left ← eval callables scope lhs
    if left.truthy then
      let right ← eval callables scope rhs
      return .bool right.truthy
    else return .bool false
  | .binary .or lhs rhs => do
    let left ← eval callables scope lhs
    if left.truthy then return .bool true
    else
      let right ← eval callables scope rhs
      return .bool right.truthy
  | .binary op lhs rhs => do
    let left ← eval callables scope lhs
    let right ← eval callables scope rhs
    left.binary op right
  | .call name args => do
    let parameters ← evalAll callables scope args
    callables.call name parameters none

def evalAll (callables : Callables) (scope : Scope) : List Expr → Except WriteError (List Value)
  | [] => .ok []
  | e :: es => do
    let v ← eval callables scope e
    let vs ← evalAll callables scope es
    return v :: vs

end

end Expr

end Templating
