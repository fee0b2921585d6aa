import Templating.Syntax.Node

/-!
# Trees

A list of nodes described line by line, each body indented under the line of its node.
-/

namespace Templating.Node

def indented (depth : Nat) (line : String) : String :=
  String.ofList (List.replicate (2 * depth) ' ') ++ line

mutual

def treeLines (depth : Nat) : Node → List String
  | .raw text => [indented depth ("raw(" ++ Text.quoted text ++ ")")]
  | .expression e => [indented depth ("expression[" ++ e.display ++ "]")]
  | .loop name collection body =>
    indented depth ("for(" ++ name ++ " in " ++ collection.display ++ "):") ::
      bodyLines (depth + 1) body
  | .conditional branches => indented depth "conditional:" :: branchLines (depth + 1) branches
  | .extend template [] => [indented depth ("extend(" ++ Text.quoted template ++ ")")]
  | .extend template (e :: exports) =>
    indented depth ("extend(" ++ Text.quoted template ++ "):") ::
      exportLines (depth + 1) (e :: exports)
  | .importing key => [indented depth ("import(" ++ Text.quoted key ++ ")")]
  | .exporting key body =>
    indented depth ("export(" ++ Text.quoted key ++ "):") :: bodyLines (depth + 1) body
  | .custom name params none => [indented depth (name ++ "(" ++ Expr.displayList params ++ ")")]
  | .custom name params (some body) =>
    indented depth (name ++ "(" ++ Expr.displayList params ++ "):") :: bodyLines (depth + 1) body

def bodyLines (depth : Nat) : List Node → List String
  | [] => []
  | node :: nodes => treeLines depth node ++ bodyLines depth nodes

def branchLines (depth : Nat) : List (Option Expr × List Node) → List String
  | [] => []
  | (some condition, body) :: branches =>
    indented depth ("if(" ++ condition.display ++ "):") :: bodyLines (depth + 1) body ++
      branchLines depth branches
  | (none, body) :: branches =>
    indented depth "else:" :: bodyLines (depth + 1) body ++ branchLines depth branches

def exportLines (depth : Nat) : List (String × Export) → List String
  | [] => []
  | (_, key, body) :: exports =>
    indented depth ("export(" ++ Text.quoted key ++ "):") :: bodyLines (depth + 1) body ++
      exportLines depth exports

end

/-- The description of a list of nodes; every line ends with a line feed. -/
def tree (nodes : List Node) : String := String.join ((bodyLines 0 nodes).map (· ++ "\n"))

end Templating.Node
