import Templating.Proofs.Joining

/-!
# Rebuilding

A document rebuilt with some documents at hand has its nodes inlined with theirs, neighbouring raw
texts joined, and needs exactly the templates that these nodes refer to. That nodes which want
nothing at hand are passed over changes nothing.
-/

namespace Templating

open Node

namespace Document

@[simp] theorem get?_nodesOf (atHand : Table Document) (name : String) :
    Table.get? (nodesOf atHand) name = (Table.get? atHand name).map Document.nodes :=
  Table.get?_mapValues _ _ _

theorem get?_nodesOf_eq_none {atHand : Table Document} {name : String}
    (h : Table.get? atHand name = none) : Table.get? (nodesOf atHand) name = none := by
  rw [get?_nodesOf, h, Option.map_none]

/-! ### One node -/

theorem rebuildNode_of_wanted {atHand : Table Document} {node : Node}
    (h : node.references.any (Table.has atHand) = true) :
    rebuildNode atHand node = ⟨node.inline (nodesOf atHand),
      bodyReferences (node.inline (nodesOf atHand)),
      bodyReferences (node.inline (nodesOf atHand))⟩ := by
  simp only [rebuildNode, h, if_true]

theorem rebuildNode_of_not_wanted {atHand : Table Document} {node : Node}
    (h : node.references.any (Table.has atHand) = false) :
    rebuildNode atHand node = ⟨[node], [], node.references⟩ := by
  simp only [rebuildNode, h, Bool.false_eq_true, if_false]

theorem get?_eq_none_of_not_wanted {atHand : Table Document} {node : Node}
    (h : node.references.any (Table.has atHand) = false) :
    ∀ name ∈ node.references, Table.get? atHand name = none := by
  intro name hn
  have hall := List.any_eq_false.1 h name hn
  exact Table.has_eq_false_iff.1 (by simpa using hall)

theorem not_wanted_of_get?_eq_none {atHand : Table Document} {node : Node}
    (h : ∀ name ∈ node.references, Table.get? atHand name = none) :
    node.references.any (Table.has atHand) = false := by
  refine List.any_eq_false.2 fun name hn => ?_
  simp [Table.has_eq_false_iff.2 (h name hn)]

theorem inline_eq_of_not_wanted {atHand : Table Document} {node : Node}
    (h : node.references.any (Table.has atHand) = false) :
    node.inline (nodesOf atHand) = inlineBody [] [] [node] := by
  have habsent : ∀ name ∈ bodyReferences [node], Table.get? (nodesOf atHand) name = none :=
    fun name hn => get?_nodesOf_eq_none
      (get?_eq_none_of_not_wanted h name (mem_bodyReferences_singleton.1 hn))
  rw [Node.inline, inlineBody_of_absent habsent]

theorem inline_of_not_wanted {atHand : Table Document} {node : Node} (hkeyed : Keyed [node])
    (h : node.references.any (Table.has atHand) = false) : node.inline (nodesOf atHand) = [node] := by
  rw [inline_eq_of_not_wanted h, inlineBody_nil_nil hkeyed]

theorem rebuildNode_nodes {node : Node} (hkeyed : Keyed [node]) (atHand : Table Document) :
    (rebuildNode atHand node).nodes = node.inline (nodesOf atHand) := by
  cases h : node.references.any (Table.has atHand) with
  | true => rw [rebuildNode_of_wanted h]
  | false => rw [rebuildNode_of_not_wanted h, inline_of_not_wanted hkeyed h]

theorem mem_rebuildNode_needed {atHand : Table Document} {node : Node} {name : String} :
    name ∈ (rebuildNode atHand node).needed ↔ name ∈ bodyReferences (rebuildNode atHand node).nodes := by
  cases h : node.references.any (Table.has atHand) with
  | true => rw [rebuildNode_of_wanted h]
  | false =>
    rw [rebuildNode_of_not_wanted h]
    exact mem_bodyReferences_singleton.symm

theorem mem_bodyReferences_rebuildNode {atHand : Table Document} {node : Node} {name : String} :
    name ∈ bodyReferences (rebuildNode atHand node).nodes ↔
      name ∈ bodyReferences (node.inline (nodesOf atHand)) := by
  cases h : node.references.any (Table.has atHand) with
  | true => rw [rebuildNode_of_wanted h]
  | false => rw [rebuildNode_of_not_wanted h, inline_eq_of_not_wanted h, mem_bodyReferences_inlineBody_nil_nil]

/-! ### The whole document -/

theorem rebuild_name (d : Document) (atHand : Table Document) : (d.rebuild atHand).name = d.name := rfl

theorem inlineBody_eq_flatMap (atHand : Table (List Node)) (nodes : List Node) :
    inlineBody atHand [] nodes = nodes.flatMap (Node.inline atHand) := by
  induction nodes with
  | nil => exact inlineBody_nil
  | cons node nodes ih => rw [inlineBody_cons, ih, List.flatMap_cons, Node.inline]

theorem rebuild_nodes_eq (d : Document) (atHand : Table Document) :
    (d.rebuild atHand).nodes = mergeRaw (d.nodes.flatMap fun node => (rebuildNode atHand node).nodes) :=
  congrArg mergeRaw (List.flatMap_map _ _ _)

theorem rebuild_nodes {d : Document} (hkeyed : Keyed d.nodes) (atHand : Table Document) :
    (d.rebuild atHand).nodes = mergeRaw (inlineBody (nodesOf atHand) [] d.nodes) := by
  have hparts : (d.nodes.flatMap fun node => (rebuildNode atHand node).nodes) =
      d.nodes.flatMap (Node.inline (nodesOf atHand)) :=
    List.flatMap_congr fun node hn =>
      rebuildNode_nodes (everywhere_singleton.2 (everywhere_iff.1 hkeyed node hn)) atHand
  rw [rebuild_nodes_eq, hparts, inlineBody_eq_flatMap]

theorem mem_bodyReferences_rebuild {d : Document} {atHand : Table Document} {name : String} :
    name ∈ bodyReferences (d.rebuild atHand).nodes ↔
      name ∈ bodyReferences (inlineBody (nodesOf atHand) [] d.nodes) := by
  rw [rebuild_nodes_eq, mem_bodyReferences_mergeRaw, inlineBody_eq_flatMap]
  simp only [mem_bodyReferences_flatMap, mem_bodyReferences_rebuildNode]

theorem keyed_rebuild {d : Document} (hkeyed : Keyed d.nodes) (atHand : Table Document) :
    Keyed (d.rebuild atHand).nodes := by
  rw [rebuild_nodes hkeyed]
  exact Everywhere.mergeRaw (fun _ _ _ => trivial) (keyed_inlineBody (by simp) d.nodes)

theorem mergeRaw_rebuild (d : Document) (atHand : Table Document) :
    mergeRaw (d.rebuild atHand).nodes = (d.rebuild atHand).nodes := by
  rw [rebuild_nodes_eq, mergeRaw_mergeRaw]

/-- A document as an operation leaves it: it needs what its nodes refer to. -/
def IsExact (d : Document) : Prop := d.unresolved = bodyReferences d.nodes

theorem IsExact.unresolved_eq {d : Document} (h : d.IsExact) : d.unresolved = bodyReferences d.nodes := h

theorem isExact_rebuild (d : Document) (atHand : Table Document) : (d.rebuild atHand).IsExact := by
  refine Names.eq_of_mem_iff (Names.pairwise_foldl_union _ _ List.Pairwise.nil)
    (pairwise_bodyReferences _) fun name => (Names.mem_foldl_union _ _ _ _).trans ?_
  rw [rebuild_nodes_eq, mem_bodyReferences_mergeRaw, mem_bodyReferences_flatMap]
  simp only [List.not_mem_nil, false_or, List.mem_map, exists_exists_and_eq_and, mem_rebuildNode_needed]

theorem alike_rebuild {d : Document} (hkeyed : Keyed d.nodes) (atHand : Table Document) :
    Alike (d.rebuild atHand).nodes (inlineBody (nodesOf atHand) [] d.nodes) := by
  rw [rebuild_nodes hkeyed]
  exact .mergeRaw _

theorem isFlat_iff {d : Document} : d.isFlat = true ↔ d.unresolved = [] := List.isEmpty_iff

theorem rebuild_congr (d : Document) {atHand others : Table Document}
    (h : ∀ name, Table.get? atHand name = Table.get? others name) :
    d.rebuild atHand = d.rebuild others := by
  have hhas : Table.has atHand = Table.has others := funext fun name => by simp only [Table.has, h]
  have hinline : ∀ node : Node, node.inline (nodesOf atHand) = node.inline (nodesOf others) := by
    intro node
    refine inlineBody_congr (fun name => ?_) (fun _ => rfl) [node]
    rw [get?_nodesOf, get?_nodesOf, h]
  have hnode : rebuildNode atHand = rebuildNode others := funext fun node => by
    simp only [rebuildNode, hhas, hinline]
  simp only [rebuild, hnode]

theorem rebuild_of_absent {d : Document} (hd : d.IsExact) (hm : mergeRaw d.nodes = d.nodes)
    {atHand : Table Document} (h : ∀ name ∈ d.unresolved, Table.get? atHand name = none) :
    d.rebuild atHand = d := by
  have hwant : ∀ node ∈ d.nodes, rebuildNode atHand node = ⟨[node], [], node.references⟩ := by
    intro node hn
    refine rebuildNode_of_not_wanted (not_wanted_of_get?_eq_none fun name hname => h name ?_)
    rw [hd.unresolved_eq]
    exact mem_bodyReferences.2 ⟨node, hn, hname⟩
  have hext : ∀ (nodes : List Node) (names : Names), (∀ node ∈ nodes, node ∈ d.nodes) →
      (nodes.map (rebuildNode atHand)).foldl (fun names part => Names.union names part.revealed) names =
        names := by
    intro nodes names hs
    induction nodes with
    | nil => rfl
    | cons node nodes ih =>
      rw [List.map_cons, List.foldl_cons, hwant node (hs node List.mem_cons_self)]
      exact ih fun n hn => hs n (List.mem_cons_of_mem node hn)
  have hnodes : (d.rebuild atHand).nodes = d.nodes := by
    have hself : (d.nodes.flatMap fun node => (rebuildNode atHand node).nodes) = d.nodes.flatMap fun node => [node] :=
      List.flatMap_congr fun node hn => by rw [hwant node hn]
    rw [rebuild_nodes_eq, hself, List.flatMap_singleton', hm]
  have hneeded : (d.rebuild atHand).unresolved = d.unresolved := by
    rw [(isExact_rebuild d atHand).unresolved_eq, hnodes]
    exact hd.symm
  have hexternal : (d.rebuild atHand).external = d.external := hext d.nodes d.external fun _ hn => hn
  cases d
  simp only [rebuild] at hnodes hneeded hexternal ⊢
  rw [hnodes, hneeded, hexternal]

end Document

end Templating
