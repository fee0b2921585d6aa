import Templating.Output.Write
import Templating.Proofs.Inlining

/-!
# Joining raw texts

Neighbouring raw texts can be joined in a list of nodes, or in every body of it too. Two lists are
alike if they are the same once that is done. Whoever asks for the references of nodes, inlines them
or writes them cannot tell alike lists apart.
-/

namespace Templating

namespace Document

/-! ### In one list -/

theorem mergeRaw_raw_raw (a b : String) (nodes : List Node) :
    mergeRaw (.raw a :: .raw b :: nodes) = mergeRaw (.raw (a ++ b) :: nodes) := by
  simp only [mergeRaw]
  cases h : mergeRaw nodes with
  | nil => rfl
  | cons node rest =>
    cases node with
    | raw c => simp only [String.append_assoc]
    | _ => rfl

/-- One step of joining: either nothing is joined at the front or two raw texts are. -/
theorem mergeRaw_cons_cases (node : Node) (nodes : List Node) :
    mergeRaw (node :: nodes) = node :: mergeRaw nodes ∨
      ∃ a b rest, node = .raw a ∧ mergeRaw nodes = .raw b :: rest ∧
        mergeRaw (node :: nodes) = .raw (a ++ b) :: rest := by
  cases node with
  | raw a =>
    cases h : mergeRaw nodes with
    | nil => exact .inl (by simp [mergeRaw, h])
    | cons n rest =>
      cases n with
      | raw b => exact .inr ⟨a, b, rest, rfl, rfl, by simp [mergeRaw, h]⟩
      | _ => exact .inl (by simp [mergeRaw, h])
  | _ => exact .inl rfl

theorem mergeRaw_cons_congr {nodes others : List Node} (h : mergeRaw nodes = mergeRaw others)
    (node : Node) : mergeRaw (node :: nodes) = mergeRaw (node :: others) := by
  cases node <;> simp only [mergeRaw, h]

@[simp] theorem mergeRaw_mergeRaw (nodes : List Node) : mergeRaw (mergeRaw nodes) = mergeRaw nodes := by
  induction nodes with
  | nil => rfl
  | cons node nodes ih =>
    rcases mergeRaw_cons_cases node nodes with h | ⟨a, b, rest, rfl, hb, h⟩
    · rw [h, mergeRaw_cons_congr ih, h]
    · rw [h, ← mergeRaw_raw_raw, ← hb, mergeRaw_cons_congr ih, h]

theorem mergeRaw_append_mergeRaw (nodes more : List Node) :
    mergeRaw (nodes ++ mergeRaw more) = mergeRaw (nodes ++ more) := by
  induction nodes with
  | nil => exact mergeRaw_mergeRaw more
  | cons node nodes ih => exact mergeRaw_cons_congr ih node

theorem mergeRaw_mergeRaw_append (nodes more : List Node) :
    mergeRaw (mergeRaw nodes ++ more) = mergeRaw (nodes ++ more) := by
  induction nodes with
  | nil => rfl
  | cons node nodes ih =>
    rcases mergeRaw_cons_cases node nodes with h | ⟨a, b, rest, rfl, hb, h⟩
    · rw [h]
      exact mergeRaw_cons_congr ih node
    · rw [hb] at ih
      rw [h]
      exact (mergeRaw_raw_raw a b (rest ++ more)).symm.trans (mergeRaw_cons_congr ih (.raw a))

end Document

open Document

namespace Node

theorem Everywhere.mergeRaw {P : Node → Prop} (hraw : ∀ a b, P (.raw a) → P (.raw (a ++ b))) {nodes : List Node}
    (h : Everywhere P nodes) : Everywhere P (mergeRaw nodes) := by
  induction nodes with
  | nil => exact h
  | cons node nodes ih =>
    obtain ⟨hnode, hnodes⟩ := everywhere_cons.1 h
    rcases mergeRaw_cons_cases node nodes with heq | ⟨a, b, rest, rfl, hb, heq⟩
    · rw [heq]
      exact everywhere_cons.2 ⟨hnode, ih hnodes⟩
    · have hrest := ih hnodes
      rw [hb] at hrest
      have hjoined : P (.raw (a ++ b)) := hraw a b (everywhere_singleton.1 hnode).1
      rw [heq]
      exact everywhere_cons.2 ⟨everywhere_singleton.2 ⟨hjoined, nofun⟩, (everywhere_cons.1 hrest).2⟩

/-! ### In every body -/

mutual

/-- The node with neighbouring raw texts joined in all its bodies. -/
def joined : Node → Node
  | .raw text => .raw text
  | .expression e => .expression e
  | .loop name collection body => .loop name collection (mergeRaw (joinedEach body))
  | .conditional branches => .conditional (joinedBranches branches)
  | .extend template exports => .extend template (joinedExports exports)
  | .importing key => .importing key
  | .exporting key body => .exporting key (mergeRaw (joinedEach body))
  | .custom name params none => .custom name params none
  | .custom name params (some body) => .custom name params (some (mergeRaw (joinedEach body)))

def joinedEach : List Node → List Node
  | [] => []
  | node :: nodes => joined node :: joinedEach nodes

def joinedBranches : List (Option Expr × List Node) → List (Option Expr × List Node)
  | [] => []
  | (condition, body) :: branches =>
    (condition, mergeRaw (joinedEach body)) :: joinedBranches branches

def joinedExports : List (String × Export) → List (String × Export)
  | [] => []
  | (slot, key, body) :: exports => (slot, key, mergeRaw (joinedEach body)) :: joinedExports exports

end

/-- The nodes with neighbouring raw texts joined, here and in every body. -/
def joinAll (nodes : List Node) : List Node := mergeRaw (joinedEach nodes)

theorem joinedEach_eq (nodes : List Node) : joinedEach nodes = nodes.map joined := by
  induction nodes with
  | nil => rfl
  | cons node nodes ih => rw [joinedEach, ih, List.map_cons]

theorem joinedBranches_eq (branches : List (Option Expr × List Node)) :
    joinedBranches branches = branches.map fun branch => (branch.1, joinAll branch.2) := by
  induction branches with
  | nil => rfl
  | cons branch branches ih => rw [joinedBranches, ih, List.map_cons, joinAll]

theorem joinedExports_eq (exports : Table Export) :
    joinedExports exports = Table.mapValues (fun block => (block.1, joinAll block.2)) exports := by
  induction exports with
  | nil => rfl
  | cons block exports ih => rw [joinedExports, ih, Table.mapValues, Table.mapValues, List.map_cons, joinAll]

theorem joined_eq (node : Node) : node.joined = node.mapBodies joinAll := by
  cases node with
  | conditional branches => simp [joined, mapBodies, joinedBranches_eq]
  | extend template exports => simp [joined, mapBodies, joinedExports_eq]
  | custom _ _ body => cases body <;> simp [joined, mapBodies, joinAll]
  | _ => simp [joined, mapBodies, joinAll]

theorem joinAll_eq (nodes : List Node) : joinAll nodes = mergeRaw (nodes.map joined) := by
  rw [joinAll, joinedEach_eq]

theorem map_joined_mergeRaw (nodes : List Node) :
    mergeRaw ((mergeRaw nodes).map joined) = mergeRaw (nodes.map joined) := by
  induction nodes with
  | nil => rfl
  | cons node nodes ih =>
    rcases mergeRaw_cons_cases node nodes with h | ⟨a, b, rest, rfl, hb, h⟩
    · rw [h]
      exact mergeRaw_cons_congr ih node.joined
    · rw [hb] at ih
      rw [h]
      have hjoin := mergeRaw_raw_raw a b (rest.map joined)
      exact hjoin.symm.trans (mergeRaw_cons_congr ih (.raw a))

theorem joinAll_mergeRaw (nodes : List Node) : joinAll (mergeRaw nodes) = joinAll nodes := by
  rw [joinAll_eq, joinAll_eq, map_joined_mergeRaw]

theorem joinAll_append (nodes more : List Node) :
    joinAll (nodes ++ more) = mergeRaw (joinAll nodes ++ joinAll more) := by
  simp only [joinAll_eq, List.map_append, mergeRaw_append_mergeRaw, mergeRaw_mergeRaw_append]

/-! ### Alike lists -/

/-- The same nodes, but for how their raw texts are split. -/
def Alike (nodes others : List Node) : Prop := joinAll nodes = joinAll others

namespace Alike

@[refl] theorem refl (nodes : List Node) : Alike nodes nodes := rfl

theorem symm {nodes others : List Node} (h : Alike nodes others) : Alike others nodes := Eq.symm h

theorem trans {a b c : List Node} (h : Alike a b) (h' : Alike b c) : Alike a c := Eq.trans h h'

theorem mergeRaw (nodes : List Node) : Alike (mergeRaw nodes) nodes := joinAll_mergeRaw nodes

theorem append {a b c d : List Node} (h : Alike a b) (h' : Alike c d) : Alike (a ++ c) (b ++ d) := by
  unfold Alike at h h' ⊢
  rw [joinAll_append, joinAll_append, h, h']

theorem mapBodies {f g : List Node → List Node} {node : Node}
    (h : ∀ body ∈ node.bodies, Alike (f body) (g body)) :
    Alike [node.mapBodies f] [node.mapBodies g] := by
  unfold Alike at h ⊢
  have hbody : ∀ body ∈ node.bodies, (Node.joinAll ∘ f) body = (Node.joinAll ∘ g) body := h
  simp only [joinAll_eq, List.map_cons, List.map_nil, joined_eq, mapBodies_mapBodies]
  rw [mapBodies_congr hbody]

theorem extend {α : Type} {f g : α → List Node} {template : String} {exports : List (String × α)}
    (h : ∀ block ∈ exports, Alike (f block.2) (g block.2)) :
    Alike [.extend template (Table.keyed (Table.mapValues f exports))]
      [.extend template (Table.keyed (Table.mapValues g exports))] := by
  unfold Alike at h ⊢
  have hblocks : Table.mapValues (Node.joinAll ∘ f) exports = Table.mapValues (Node.joinAll ∘ g) exports :=
    Table.mapValues_congr h
  simp only [joinAll_eq, List.map_cons, List.map_nil, joined_eq, mapBodies_extend_keyed]
  rw [Table.mapValues_mapValues, Table.mapValues_mapValues, hblocks]

end Alike

/-- Tables with alike lists under the same keys. -/
def AlikeTables (t u : Table (List Node)) : Prop :=
  ∀ key, Option.Rel Alike (Table.get? t key) (Table.get? u key)

namespace AlikeTables

theorem refl (t : Table (List Node)) : AlikeTables t t := fun key => by
  cases Table.get? t key with
  | none => exact .none
  | some body => exact .some (.refl body)

theorem get?_eq_none {t u : Table (List Node)} (h : AlikeTables t u) {key : String}
    (ht : Table.get? t key = none) : Table.get? u key = none := by
  have hk := h key
  rw [ht] at hk
  cases hu : Table.get? u key with
  | none => rfl
  | some body => rw [hu] at hk; cases hk

theorem get?_eq_some {t u : Table (List Node)} (h : AlikeTables t u) {key : String}
    {body : List Node} (ht : Table.get? t key = some body) :
    ∃ other, Table.get? u key = some other ∧ Alike body other := by
  have hk := h key
  rw [ht] at hk
  cases hu : Table.get? u key with
  | none => rw [hu] at hk; cases hk
  | some other => rw [hu] at hk; cases hk with | some hb => exact ⟨other, rfl, hb⟩

theorem erase {t u : Table (List Node)} (h : AlikeTables t u) (key : String) :
    AlikeTables (Table.erase key t) (Table.erase key u) := fun k => by
  rw [Table.get?_erase, Table.get?_erase]
  split
  · exact .none
  · exact h k

theorem overlay {α : Type} {t u : Table (List Node)} (h : AlikeTables t u) {f g : α → List Node}
    {exports : List (String × α)} (hb : ∀ block ∈ exports, Alike (f block.2) (g block.2)) :
    AlikeTables (Table.overlay t (Table.mapValues f exports))
      (Table.overlay u (Table.mapValues g exports)) := fun key => by
  rw [Table.get?_overlay, Table.get?_overlay, Table.reverse_mapValues, Table.reverse_mapValues,
    Table.get?_mapValues, Table.get?_mapValues]
  cases hget : Table.get? exports.reverse key with
  | none => exact h key
  | some block =>
    exact .some (hb (key, block) (List.mem_reverse.1 (Table.mem_of_get? hget)))

end AlikeTables

/-! ### Inlining alike lists -/

theorem AlikeTables.inlineBody_importing {atHand others : Table (List Node)}
    {imports blocks : Table Block} (hi : AlikeTables imports blocks) (key : String) :
    Alike (inlineBody atHand imports [.importing key]) (inlineBody others blocks [.importing key]) := by
  rw [Node.inlineBody_importing, Node.inlineBody_importing]
  cases hk : Table.get? imports key with
  | none => rw [hi.get?_eq_none hk]
  | some block =>
    obtain ⟨other, ho, hb⟩ := hi.get?_eq_some hk
    rw [ho]
    exact hb

theorem alike_inlineBody_mergeRaw (atHand : Table (List Node)) (imports : Table Block)
    (nodes : List Node) :
    Alike (inlineBody atHand imports (mergeRaw nodes)) (inlineBody atHand imports nodes) := by
  induction nodes with
  | nil => rfl
  | cons node nodes ih =>
    rcases mergeRaw_cons_cases node nodes with h | ⟨a, b, rest, rfl, hb, h⟩
    · rw [h, inlineBody_cons, inlineBody_cons node nodes]
      exact (Alike.refl _).append ih
    · have htwo : Alike (.raw (a ++ b) :: inlineBody atHand imports rest)
          (.raw a :: inlineBody atHand imports (.raw b :: rest)) := by
        rw [inlineBody_cons (.raw b), inlineBody_raw]
        unfold Alike
        rw [joinAll_eq, joinAll_eq]
        exact (mergeRaw_raw_raw a b _).symm
      rw [h, inlineBody_cons, inlineBody_cons _ nodes, inlineBody_raw, inlineBody_raw]
      rw [hb] at ih
      exact htwo.trans ((Alike.refl [.raw a]).append ih)

theorem Alike.inlineBody {atHand others : Table (List Node)} {imports blocks : Table Block}
    {nodes more : List Node} (hh : AlikeTables atHand others) (hi : AlikeTables imports blocks)
    (hn : Alike nodes more) :
    Alike (Node.inlineBody atHand imports nodes) (Node.inlineBody others blocks more) := by
  induction hl : atHand.length using Nat.strong_induction_on
    generalizing atHand others imports blocks nodes more with
  | _ size ih =>
    -- the same nodes, with alike templates and blocks at hand
    have same : ∀ nodes, Alike (Node.inlineBody atHand imports nodes)
        (Node.inlineBody others blocks nodes) := by
      intro nodes
      induction nodes using induction_body with
      | nil => simp only [inlineBody_nil]; rfl
      | cons node nodes hn hns =>
        rw [inlineBody_cons, @inlineBody_cons others]
        exact hn.append hns
      | importing key => exact hi.inlineBody_importing key
      | plain node hp hb =>
        rw [inlineBody_plain hp, inlineBody_plain hp]
        exact .mapBodies hb
      | extend template exports hb =>
        cases hk : Table.get? atHand template with
        | none =>
          rw [inlineBody_extend_of_absent hk, inlineBody_extend_of_absent (hh.get?_eq_none hk)]
          exact .extend hb
        | some base =>
          obtain ⟨other, ho, hbase⟩ := hh.get?_eq_some hk
          rw [inlineBody_extend_of_get? hk, inlineBody_extend_of_get? ho]
          exact ih _ (hl ▸ length_erase_lt hk) (hh.erase template) (hi.overlay hb) hbase rfl
    -- the same nodes with their texts joined; what is at hand stays
    have text : ∀ nodes, Alike (Node.inlineBody atHand imports (Node.joinAll nodes))
        (Node.inlineBody atHand imports nodes) := by
      intro nodes
      have each : Alike (Node.inlineBody atHand imports (nodes.map joined))
          (Node.inlineBody atHand imports nodes) := by
        induction nodes using induction_body with
        | nil => rfl
        | cons node nodes hn hns =>
          rw [List.map_cons, inlineBody_cons, inlineBody_cons node]
          exact hn.append hns
        | importing key => rfl
        | plain node hp hb =>
          rw [List.map_singleton, joined_eq, inlineBody_plain (isPlain_mapBodies.2 hp),
            inlineBody_plain hp, mapBodies_mapBodies]
          refine .mapBodies fun body hm => ?_
          rw [Function.comp_apply, joinAll_eq]
          exact (alike_inlineBody_mergeRaw _ _ _).trans (hb body hm)
        | extend template exports hb =>
          have hblock : ∀ block ∈ exports, Alike (Node.inlineBody atHand imports (Node.joinAll block.2.2))
              (Node.inlineBody atHand imports block.2.2) := fun block hm => by
            rw [joinAll_eq]
            exact (alike_inlineBody_mergeRaw _ _ _).trans (hb block hm)
          have hblocks : inlineBlocks atHand imports
              (Table.mapValues (fun block => (block.1, Node.joinAll block.2)) exports) =
                Table.mapValues (fun block => Node.inlineBody atHand imports (Node.joinAll block.2)) exports :=
            Table.mapValues_mapValues _ _ _
          rw [List.map_singleton, joined_eq, Node.mapBodies]
          cases hk : Table.get? atHand template with
          | none =>
            rw [inlineBody_extend_of_absent hk, inlineBody_extend_of_absent hk, hblocks]
            exact .extend hblock
          | some base =>
            rw [inlineBody_extend_of_get? hk, inlineBody_extend_of_get? hk, hblocks]
            exact ih _ (hl ▸ length_erase_lt hk) (.refl _) ((AlikeTables.refl _).overlay hblock)
              (.refl base) rfl
      rw [joinAll_eq]
      exact (alike_inlineBody_mergeRaw _ _ _).trans each
    have hjoin : Node.joinAll nodes = Node.joinAll more := hn
    have hleft := text nodes
    rw [hjoin] at hleft
    exact (hleft.symm.trans (text more)).trans (same more)

/-! ### References and output of alike lists -/

theorem references_joined {name : String} {node : Node}
    (h : ∀ body ∈ node.bodies, name ∈ bodyReferences (joinAll body) ↔ name ∈ bodyReferences body) :
    name ∈ node.joined.references ↔ name ∈ node.references := by
  rw [mem_references, mem_references, joined_eq, bodies_mapBodies]
  refine or_congr ?_ ?_
  · cases node <;> simp [mapBodies]
  · simp only [List.mem_map, exists_exists_and_eq_and]
    exact exists_congr fun body => and_congr_right (h body)

theorem mem_bodyReferences_mergeRaw {name : String} (nodes : List Node) :
    name ∈ bodyReferences (mergeRaw nodes) ↔ name ∈ bodyReferences nodes := by
  have raw : ∀ text, name ∉ (Node.raw text).references := fun text => by simp [references]
  induction nodes with
  | nil => rfl
  | cons node nodes ih =>
    have hcons : ∀ n ns, name ∈ bodyReferences (n :: ns) ↔ name ∈ n.references ∨ name ∈ bodyReferences ns :=
      fun n ns => by rw [mem_bodyReferences_cons, mem_bodyReferences_singleton]
    rcases mergeRaw_cons_cases node nodes with h | ⟨a, b, rest, rfl, hb, h⟩
    · rw [h, hcons, hcons]
      exact or_congr_right ih
    · have hfront := hcons (.raw b) rest
      rw [← hb] at hfront
      have hrest := ((or_iff_right (raw b)).symm.trans hfront.symm).trans ih
      rw [h, hcons, hcons]
      simp only [raw, false_or]
      exact hrest

theorem mem_bodyReferences_joinAll {name : String} (nodes : List Node) :
    name ∈ bodyReferences (joinAll nodes) ↔ name ∈ bodyReferences nodes := by
  have each : ∀ node : Node, name ∈ node.joined.references ↔ name ∈ node.references := by
    intro node
    induction node using induction_bodies with
    | step node ih =>
      refine references_joined fun body hm => ?_
      rw [joinAll_eq, mem_bodyReferences_mergeRaw]
      simp only [mem_bodyReferences, List.mem_map, exists_exists_and_eq_and]
      exact exists_congr fun n => and_congr_right (ih body hm n)
  rw [joinAll_eq, mem_bodyReferences_mergeRaw]
  simp only [mem_bodyReferences, List.mem_map, exists_exists_and_eq_and, each]

theorem Alike.mem_bodyReferences {nodes others : List Node} (h : Alike nodes others) (name : String) :
    name ∈ bodyReferences nodes ↔ name ∈ bodyReferences others := by
  have hjoin : Node.joinAll nodes = Node.joinAll others := h
  rw [← mem_bodyReferences_joinAll nodes, ← mem_bodyReferences_joinAll others, hjoin]

theorem Alike.bodyReferences_eq {nodes others : List Node} (h : Alike nodes others) :
    bodyReferences nodes = bodyReferences others :=
  Names.eq_of_mem_iff (pairwise_bodyReferences nodes) (pairwise_bodyReferences others)
    h.mem_bodyReferences

end Node

end Templating
