import Templating.Document.Basic
import Templating.Output.Evaluate

/-!
# Writing

The text that nodes produce in a scope. Blocks for nobody and places that nobody filled produce
nothing; an extend that is still in place is an error.
-/

namespace Templating

/-- The text that `round` produces for each item of a loop, with the rounds counted from `index` up
to `last`. -/
def writeRounds (round : Frame → Except WriteError String) (name : String) (last index : Nat) :
    List Value → Except WriteError String
  | [] => .ok ""
  | item :: items => do
    let text ← round (Frame.ofRound name item index last)
    let rest ← writeRounds round name last (index + 1) items
    return text ++ rest

/-- The items that a loop over a value goes through. -/
def Value.items? : Value → Option (List Value)
  | .list items => some items
  | .null => some []
  | _ => none

namespace Node

mutual

def write (callables : Callables) (scope : Scope) : Node → Except WriteError String
  | .raw text => .ok text
  | .expression e => do
    let v ← e.eval callables scope
    return v.display
  | .loop name collection body => do
    let v ← collection.eval callables scope
    match v.items? with
    | some items =>
      writeRounds (fun frame => writeBody callables (scope.push frame) body) name
        (items.length - 1) 0 items
    | none => throw (.notIterable collection)
  | .conditional branches => writeBranches callables scope branches
  | .extend template _ => .error (.unresolved template)
  | .importing _ => .ok ""
  | .exporting _ _ => .ok ""
  | .custom name params none => do
    let parameters ← Expr.evalAll callables scope params
    let v ← callables.call name parameters none
    return v.display
  | .custom name params (some body) => do
    let parameters ← Expr.evalAll callables scope params
    let text ← writeBody callables scope body
    let v ← callables.call name parameters (some text)
    return v.display

def writeBody (callables : Callables) (scope : Scope) : List Node → Except WriteError String
  | [] => .ok ""
  | node :: nodes => do
    let text ← write callables scope node
    let rest ← writeBody callables scope nodes
    return text ++ rest

def writeBranches (callables : Callables) (scope : Scope) :
    List (Option Expr × List Node) → Except WriteError String
  | [] => .ok ""
  | (none, body) :: _ => writeBody callables scope body
  | (some condition, body) :: branches => do
    let v ← condition.eval callables scope
    if v.truthy then writeBody callables scope body
    else writeBranches callables scope branches

end

end Node

def writeNodes (callables : Callables) (nodes : List Node) (context : Table Value) :
    Except WriteError String :=
  Node.writeBody callables (.ofContext context) nodes

namespace Document

/-- The text of a document in a context; only a flat document has one. -/
def write (d : Document) (callables : Callables) (context : Table Value) : Except Error String :=
  if d.isFlat then (writeNodes callables d.nodes context).mapError .write
  else .error (.unresolvedDocument d.name d.unresolved)

end Document

/-- The entries of a value that serves as context. -/
def Value.context : Value → Except Error (Table Value)
  | .dict entries => .ok entries
  | .null => .ok []
  | v => .error (.invalidContext (.notKeyed v))

end Templating
