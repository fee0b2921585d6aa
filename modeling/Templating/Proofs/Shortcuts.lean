import Templating.Proofs.Bookkeeping
import Templating.Proofs.Enclosing

/-!
# Shortcuts

A rebuilding passes over the nodes that want nothing at hand. On the documents of texts it leaves the very
document that inlining each node would leave: the same nodes, the same needs, and no template is forgotten
among those ever needed, as what a node refers to has been noted when the node came in.
-/

namespace Templating

namespace Document

open Node

/-- The document with every node inlined, also where nothing at hand is wanted. -/
def rebuildThroughout (d : Document) (atHand : Table Document) : Document :=
  let nodes := d.nodes.flatMap (Node.inline (nodesOf atHand))
  { name := d.name
    nodes := mergeRaw nodes
    external := Names.union d.external (bodyReferences nodes)
    unresolved := bodyReferences nodes }

variable {d : Document} {atHand : Table Document}

/-- Every block that an extend hands over stands under its own key: as it is read, and after each
rebuilding. -/
theorem Grown.keyed (h : d.Grown) : Keyed d.nodes := by
  induction h with
  | read hparse => exact Grammar.keyed_of_parse hparse
  | rebuild _ _ ih => exact keyed_rebuild ih _
  | renamed _ _ ih => exact ih

theorem Grown.rebuild_nodes_eq_flatMap (h : d.Grown) (atHand : Table Document) :
    (d.rebuild atHand).nodes = mergeRaw (d.nodes.flatMap (Node.inline (nodesOf atHand))) := by
  rw [rebuild_nodes h.keyed, inlineBody_eq_flatMap]

theorem rebuild_unresolved_eq (d : Document) (atHand : Table Document) :
    (d.rebuild atHand).unresolved = bodyReferences (d.nodes.flatMap (Node.inline (nodesOf atHand))) := by
  apply Names.eq_of_mem_iff
  · exact Names.pairwise_foldl_union _ _ List.Pairwise.nil
  · exact pairwise_bodyReferences _
  · intro name
    rw [(isExact_rebuild d atHand).unresolved_eq, mem_bodyReferences_rebuild, inlineBody_eq_flatMap]

theorem Grown.pairwise_external (h : d.Grown) : d.external.Pairwise (· < ·) := by
  induction h with
  | read => exact pairwise_bodyReferences _
  | rebuild _ _ ih => exact Names.pairwise_foldl_union _ _ ih
  | renamed _ _ ih => exact ih

theorem Grown.references_external (h : d.Grown) {node : Node} (hn : node ∈ d.nodes) {name : String}
    (hname : name ∈ node.references) : name ∈ d.external := by
  have hneeds : name ∈ d.unresolved := by
    rw [h.isExact.unresolved_eq]
    exact mem_bodyReferences.2 ⟨node, hn, hname⟩
  exact h.mem_external hneeds

theorem Grown.mem_external_inlined (h : d.Grown) {name : String} :
    name ∈ (d.rebuild atHand).external ↔
      name ∈ d.external ∨ ∃ node ∈ d.nodes, name ∈ bodyReferences (node.inline (nodesOf atHand)) := by
  rw [mem_external_rebuild]
  constructor
  · rintro (hold | ⟨node, hn, hname⟩)
    · exact .inl hold
    · by_cases hw : node.references.any (Table.has atHand) = true
      · rw [rebuildNode_of_wanted hw] at hname
        exact .inr ⟨node, hn, hname⟩
      · rw [rebuildNode_of_not_wanted (by simpa using hw)] at hname
        exact absurd hname List.not_mem_nil
  · rintro (hold | ⟨node, hn, hname⟩)
    · exact .inl hold
    · by_cases hw : node.references.any (Table.has atHand) = true
      · refine .inr ⟨node, hn, ?_⟩
        rw [rebuildNode_of_wanted hw]
        exact hname
      · -- nothing is revealed by a node that is passed over, but what it refers to has been needed before
        rw [inline_eq_of_not_wanted (by simpa using hw), mem_bodyReferences_inlineBody_nil_nil] at hname
        exact .inl (h.references_external hn (mem_bodyReferences_singleton.1 hname))

theorem Grown.rebuild_external_eq (h : d.Grown) (atHand : Table Document) :
    (d.rebuild atHand).external =
      Names.union d.external (bodyReferences (d.nodes.flatMap (Node.inline (nodesOf atHand)))) := by
  apply Names.eq_of_mem_iff
  · exact Names.pairwise_foldl_union _ _ h.pairwise_external
  · exact Names.pairwise_union h.pairwise_external _
  · intro name
    rw [h.mem_external_inlined, Names.mem_union]
    simp only [mem_bodyReferences, List.mem_flatMap]
    apply or_congr_right
    constructor
    · rintro ⟨node, hn, inlined, hi, hname⟩
      exact ⟨inlined, ⟨node, hn, hi⟩, hname⟩
    · rintro ⟨inlined, ⟨node, hn, hi⟩, hname⟩
      exact ⟨node, hn, inlined, hi, hname⟩

/-- In the document of a text a node at any depth that wants nothing at hand is inlined to itself, so that
rebuilding the document comes to inlining all of its nodes, one after the other, and joining neighbouring raw
texts. -/
theorem rebuild_inlines_throughout (h : d.Grown) (atHand : Table Document) :
    Everywhere (fun node => (∀ name ∈ node.references, Table.get? atHand name = none) →
      node.inline (nodesOf atHand) = [node]) d.nodes ∧
    (d.rebuild atHand).nodes = mergeRaw (d.nodes.flatMap (Node.inline (nodesOf atHand))) ∧
    d.rebuild atHand = d.rebuildThroughout atHand := by
  have hself : Everywhere (fun node => (∀ name ∈ node.references, Table.get? atHand name = none) →
      node.inline (nodesOf atHand) = [node]) d.nodes :=
    h.keyed.within.mono fun node hkeyed habsent =>
      inline_of_not_wanted hkeyed (not_wanted_of_get?_eq_none habsent)
  have hnodes := h.rebuild_nodes_eq_flatMap atHand
  refine ⟨hself, hnodes, ?_⟩
  have hname := rebuild_name d atHand
  have hexternal := h.rebuild_external_eq atHand
  have hunresolved := rebuild_unresolved_eq d atHand
  cases hr : d.rebuild atHand with
  | mk name nodes external unresolved =>
    rw [hr] at hname hnodes hexternal hunresolved
    simp only [rebuildThroughout]
    rw [← hname, ← hnodes, ← hexternal, ← hunresolved]

/-- A page with an extend of nothing that is at hand and one of a base. -/
def halfServedPage : Document :=
  .ofNodes "page" [.raw "a", .extend "gone" [], .extend "base" [("body", "body", [.raw "hi"])]]

theorem rebuild_half_served :
    Node.inline (nodesOf [("base", framingBase)]) (.extend "gone" []) = [.extend "gone" []] ∧
    (halfServedPage.rebuild [("base", framingBase)]).nodes = [.raw "a", .extend "gone" [], .raw "[hi]"] ∧
    halfServedPage.rebuild [("base", framingBase)] =
      halfServedPage.rebuildThroughout [("base", framingBase)] := by
  have hpage : halfServedPage.Grown :=
    @grown_of_parse "a#extend(\"gone\")#extend(\"base\"):#export(\"body\"):hi#endexport#endextend" _ _
      (by decide +kernel)
  have hall := rebuild_inlines_throughout hpage [("base", framingBase)]
  have habsent : ∀ name ∈ (Node.extend "gone" []).references,
      Table.get? [("base", framingBase)] name = none := by
    intro name hname
    rcases mem_references.1 hname with ⟨exports, he⟩ | ⟨body, hb, -⟩
    · obtain rfl := (Node.extend.inj he).1
      rfl
    · exact absurd hb List.not_mem_nil
  have hgone : (Node.extend "gone" []) ∈ halfServedPage.nodes := .tail _ (.head _)
  exact ⟨(everywhere_iff.1 hall.1 _ hgone).1 habsent, hall.2.1.trans (by decide +kernel), hall.2.2⟩

end Document

end Templating
