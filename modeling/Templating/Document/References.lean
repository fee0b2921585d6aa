import Templating.Names
import Templating.Syntax.Node

/-!
# References

The templates that nodes ask for: those named by an extend, at whatever depth it stands.
-/

namespace Templating

namespace Node

mutual

/-- The templates that a node needs before it can be written. -/
def references : Node → Names
  | .raw _ => []
  | .expression _ => []
  | .importing _ => []
  | .extend template exports => Names.insert template (exportReferences exports)
  | .loop _ _ body => bodyReferences body
  | .conditional branches => branchReferences branches
  | .exporting _ body => bodyReferences body
  | .custom _ _ none => []
  | .custom _ _ (some body) => bodyReferences body

/-- The templates that some nodes need. -/
def bodyReferences : List Node → Names
  | [] => []
  | node :: nodes => Names.union (bodyReferences nodes) node.references

def branchReferences : List (Option Expr × List Node) → Names
  | [] => []
  | (_, body) :: branches => Names.union (branchReferences branches) (bodyReferences body)

def exportReferences : List (String × Export) → Names
  | [] => []
  | (_, _, body) :: exports => Names.union (exportReferences exports) (bodyReferences body)

end

theorem mem_bodyReferences {name : String} {nodes : List Node} :
    name ∈ bodyReferences nodes ↔ ∃ node ∈ nodes, name ∈ node.references := by
  induction nodes with
  | nil => simp [bodyReferences]
  | cons node nodes ih => simp [bodyReferences, Names.mem_union, ih, or_comm]

end Node

end Templating
