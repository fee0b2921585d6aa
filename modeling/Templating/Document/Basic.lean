import Templating.Document.Inline
import Templating.Syntax.Tree

/-!
# Documents

A document is the nodes of one named template together with the templates it has ever needed and
those it still needs. It is flat, and can be written, once it needs none.
-/

namespace Templating

structure Document where
  name : String
  nodes : List Node
  /-- Every template that the document has ever needed. -/
  external : Names
  /-- The templates that the document still needs. -/
  unresolved : Names

namespace Document

/-- The document of freshly read nodes. -/
def ofNodes (name : String) (nodes : List Node) : Document :=
  ⟨name, nodes, Node.bodyReferences nodes, Node.bodyReferences nodes⟩

/-- Whether no template is needed any more. -/
def isFlat (d : Document) : Bool := d.unresolved.isEmpty

def renamed (d : Document) (name : String) : Document := { d with name }

def tree (d : Document) : String := Node.tree d.nodes

/-! ### Raw text -/

/-- The nodes with neighbouring raw texts joined, not looking into bodies. -/
def mergeRaw : List Node → List Node
  | [] => []
  | node :: nodes =>
    match node, mergeRaw nodes with
    | .raw a, .raw b :: rest => .raw (a ++ b) :: rest
    | node, nodes => node :: nodes

/-! ### Rebuilding -/

def nodesOf (atHand : Table Document) : Table (List Node) :=
  atHand.map fun (name, d) => (name, d.nodes)

/-- What becomes of one node: the nodes in its place, the templates that inlining revealed, and
those that the new nodes need. A node that needs nothing at hand stays as it is. -/
structure Rebuilt where
  nodes : List Node
  revealed : Names
  needed : Names

def rebuildNode (atHand : Table Document) (node : Node) : Rebuilt :=
  let wanted := node.references
  if wanted.any (Table.has atHand) then
    let nodes := node.inline (nodesOf atHand)
    ⟨nodes, Node.bodyReferences nodes, Node.bodyReferences nodes⟩
  else ⟨[node], [], wanted⟩

/-- The document with every extend of a document at hand replaced by its nodes. -/
def rebuild (d : Document) (atHand : Table Document) : Document :=
  let parts := d.nodes.map (rebuildNode atHand)
  { name := d.name
    nodes := mergeRaw (parts.flatMap Rebuilt.nodes)
    external := parts.foldl (fun names part => Names.union names part.revealed) d.external
    unresolved := parts.foldl (fun names part => Names.union names part.needed) [] }

end Document

end Templating
