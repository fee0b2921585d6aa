import Templating.Document.References

/-!
# Inlining

An extend of a template that is at hand is replaced by that template's nodes, in which the places of
imported blocks are filled by the blocks that the extend hands over and by those handed to it. Of two
blocks under one key the inner extend's is taken. Below a replaced extend its template is no longer
at hand, so templates that extend each other come to an end.
-/

namespace Templating

abbrev Block := List Node

namespace Node

/-! ### One round -/

section Fill

variable (expand : String → Table Block → Option (List Node)) (imports : Table Block)

mutual

/-- The nodes that a node becomes when the places of `imports` are filled and `expand` says what an
extend with some blocks is replaced by. -/
def fill : Node → List Node
  | .raw text => [.raw text]
  | .expression e => [.expression e]
  | .importing key => (Table.get? imports key).getD [.importing key]
  | .extend template exports =>
    let blocks := fillExports exports
    (expand template (Table.overlay imports blocks)).getD [.extend template (Table.keyed blocks)]
  | .loop name collection body => [.loop name collection (fillBody body)]
  | .conditional branches => [.conditional (fillBranches branches)]
  | .exporting key body => [.exporting key (fillBody body)]
  | .custom name params none => [.custom name params none]
  | .custom name params (some body) => [.custom name params (some (fillBody body))]

def fillBody : List Node → List Node
  | [] => []
  | node :: nodes => fill node ++ fillBody nodes

def fillBranches : List (Option Expr × List Node) → List (Option Expr × List Node)
  | [] => []
  | (condition, body) :: branches => (condition, fillBody body) :: fillBranches branches

/-- The blocks under the keys that they stand under, whichever keys they have of their own. -/
def fillExports : List (String × Export) → Table Block
  | [] => []
  | (key, _, body) :: exports => (key, fillBody body) :: fillExports exports

end

end Fill

/-! ### All rounds -/

theorem length_erase_lt {α : Type} {t : Table α} {key : String} {value : α}
    (h : Table.get? t key = some value) : (Table.erase key t).length < t.length := by
  induction t with
  | nil => simp at h
  | cons entry t ih =>
    obtain ⟨k, v⟩ := entry
    have hle : (Table.erase key t).length ≤ t.length := List.length_filter_le _ _
    simp only [Table.erase] at ih hle ⊢
    by_cases hk : key = k
    · subst hk
      simp only [List.filter_cons, bne_self_eq_false, Bool.false_eq_true, if_false,
        List.length_cons]
      omega
    · have hne : (k != key) = true := by simpa using Ne.symm hk
      rw [Table.get?_cons, if_neg hk] at h
      have := ih h
      simp only [List.filter_cons, hne, if_true, List.length_cons]
      omega

/-- Nodes inlined with the templates at hand, below extends that hand over `imports`. -/
def inlineBody (atHand : Table (List Node)) (imports : Table Block) (nodes : List Node) :
    List Node :=
  fillBody
    (fun template blocks =>
      match _h : Table.get? atHand template with
      | none => none
      | some base => some (inlineBody (Table.erase template atHand) blocks base))
    imports nodes
termination_by atHand.length
decreasing_by exact length_erase_lt _h

/-- What a node becomes when every extend of a template at hand is replaced. -/
def inline (atHand : Table (List Node)) (node : Node) : List Node := inlineBody atHand [] [node]

end Node

end Templating
