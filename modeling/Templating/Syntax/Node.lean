import Templating.Syntax.Expr
import Templating.Table

/-!
# Nodes

A template is a list of nodes: literal text, expressions, and tags with bodies of nodes.
-/

namespace Templating

inductive Node where
  /-- Text that stands for itself. -/
  | raw (text : String)
  | expression (e : Expr)
  /-- A body repeated for each item of a collection. -/
  | loop (name : String) (collection : Expr) (body : List Node)
  /-- Branches, of which the first whose condition holds is taken; without a condition it always
  is. -/
  | conditional (branches : List (Option Expr × List Node))
  /-- The nodes of another template, with a table of the blocks handed to it, each of which has a key of its
  own beside the one that it stands under. -/
  | extend (template : String) (exports : List (String × String × List Node))
  /-- The place of a block that is handed to this template. -/
  | importing (key : String)
  /-- A block handed to nobody. -/
  | exporting (key : String) (body : List Node)
  /-- A tag that the tag table must know. -/
  | custom (name : String) (params : List Expr) (body : Option (List Node))

/-- A block with its key. -/
abbrev Export := String × List Node

namespace Node

def isRaw : Node → Bool
  | raw _ => true
  | _ => false

mutual

def same : Node → Node → Bool
  | .raw a, .raw b => a == b
  | .expression a, .expression b => a.same b
  | .loop v c b, .loop w d e => v == w && c.same d && sameAll b e
  | .conditional as, .conditional bs => sameBranches as bs
  | .extend t as, .extend u bs => t == u && sameExports as bs
  | .importing k, .importing l => k == l
  | .exporting k a, .exporting l b => k == l && sameAll a b
  | .custom n p none, .custom m q none => n == m && Expr.sameAll p q
  | .custom n p (some a), .custom m q (some b) => n == m && Expr.sameAll p q && sameAll a b
  | _, _ => false

def sameAll : List Node → List Node → Bool
  | [], [] => true
  | a :: as, b :: bs => same a b && sameAll as bs
  | _, _ => false

def sameBranches : List (Option Expr × List Node) → List (Option Expr × List Node) → Bool
  | [], [] => true
  | (none, a) :: as, (none, b) :: bs => sameAll a b && sameBranches as bs
  | (some c, a) :: as, (some d, b) :: bs => c.same d && sameAll a b && sameBranches as bs
  | _, _ => false

def sameExports : List (String × Export) → List (String × Export) → Bool
  | [], [] => true
  | (k, i, a) :: as, (l, j, b) :: bs => k == l && i == j && sameAll a b && sameExports as bs
  | _, _ => false

end

end Node

end Templating
