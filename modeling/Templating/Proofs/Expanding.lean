import Templating.Proofs.Rebuilding

/-!
# Expanding

The course of an inlining without any bound: a list of the templates that are being expanded is carried
along, and an extend of one of them is left in place. A node has exactly one course. It ends because each
expansion adds to that list a template at hand which is not on it yet, and comes to the nodes that inlining
with ever fewer templates at hand gives.
-/

namespace Templating

open Node

/-- An extend replaced by the nodes of its template, with the extends that are replaced among those. -/
inductive Expansion where
  | mk (template : String) (inner : List Expansion)

namespace Expansion

mutual

/-- How many expansions stand one inside the other. -/
def depth : Expansion → Nat
  | mk _ inner => depthAll inner + 1

def depthAll : List Expansion → Nat
  | [] => 0
  | e :: es => max e.depth (depthAll es)

end

theorem depthAll_le {inner : List Expansion} {most : Nat} (h : ∀ e ∈ inner, e.depth ≤ most) :
    depthAll inner ≤ most := by
  induction inner with
  | nil => simp [depthAll]
  | cons e es ih =>
    obtain ⟨he, hes⟩ := List.forall_mem_cons.1 h
    have hrest := ih hes
    simp only [depthAll]
    omega

/-- An expansion adds a template at hand to those that are being expanded, and so does each inside it. -/
inductive Adds (atHand : Table Document) : List String → Expansion → Prop where
  | mk {expanding : List String} {template : String} {inner : List Expansion} {base : Document}
    (found : Table.get? atHand template = some base) (new : template ∉ expanding)
    (inside : ∀ e ∈ inner, Adds atHand (expanding ++ [template]) e) : Adds atHand expanding (.mk template inner)

end Expansion

namespace Document

/-- The documents at hand that are not being expanded. -/
def left (atHand : Table Document) (expanding : List String) : Table Document :=
  atHand.filter fun entry => !expanding.contains entry.1

variable {atHand : Table Document} {expanding : List String} {template : String}

theorem get?_left (atHand : Table Document) (expanding : List String) (name : String) :
    Table.get? (left atHand expanding) name = if name ∈ expanding then none else Table.get? atHand name := by
  induction atHand with
  | nil => simp [left]
  | cons entry atHand ih =>
    obtain ⟨k, d⟩ := entry
    unfold left at ih ⊢
    by_cases hk : k ∈ expanding
    · have hskip : (!expanding.contains k) = false := by simpa using hk
      simp only [List.filter_cons, hskip, Bool.false_eq_true, if_false, ih, Table.get?_cons]
      by_cases hn : name = k
      · simp [hn, hk]
      · simp [hn]
    · have hkeep : (!expanding.contains k) = true := by simpa using hk
      simp only [List.filter_cons, hkeep, if_true, Table.get?_cons, ih]
      by_cases hn : name = k
      · simp [hn, hk]
      · simp [hn]

theorem length_left_snoc_lt {base : Document} (found : Table.get? atHand template = some base)
    (new : template ∉ expanding) :
    (left atHand (expanding ++ [template])).length < (left atHand expanding).length := by
  have herase : left atHand (expanding ++ [template]) = Table.erase template (left atHand expanding) := by
    unfold left Table.erase
    rw [List.filter_filter]
    apply List.filter_congr
    intro entry _
    have hother : (entry.1 != template) = !decide (entry.1 = template) := rfl
    simp [hother, Bool.and_comm]
  have hget : Table.get? (left atHand expanding) template = some base := by
    rw [get?_left, if_neg new, found]
  rw [herase]
  exact Node.length_erase_lt hget

end Document

open Document

theorem Expansion.Adds.depth_le {atHand : Table Document} {expanding : List String} {e : Expansion}
    (h : e.Adds atHand expanding) : e.depth ≤ (left atHand expanding).length := by
  induction h with
  | mk found new _ ih =>
    have hinner := Expansion.depthAll_le ih
    have hless := length_left_snoc_lt found new
    simp only [Expansion.depth]
    omega

/-! ### The course -/

/-- What is inlined at a time: a node, the nodes of a body, or the bodies of a node. -/
inductive Portion where
  | node (node : Node)
  | body (nodes : List Node)
  | bodies (bodies : List (List Node))

/-- With some blocks in scope and while some templates are being expanded, a portion becomes another: a node
becomes the nodes of a body. -/
inductive Inlines (atHand : Table Document) :
    List String → Table Block → Portion → List Expansion → Portion → Prop where
  | raw {expanding : List String} {imports : Table Block} (text : String) :
    Inlines atHand expanding imports (.node (.raw text)) [] (.body [.raw text])
  | expression {expanding : List String} {imports : Table Block} (e : Expr) :
    Inlines atHand expanding imports (.node (.expression e)) [] (.body [.expression e])
  | filled {expanding : List String} {imports : Table Block} {key : String} {block : Block}
    (found : Table.get? imports key = some block) :
    Inlines atHand expanding imports (.node (.importing key)) [] (.body block)
  | unfilled {expanding : List String} {imports : Table Block} {key : String}
    (absent : Table.get? imports key = none) :
    Inlines atHand expanding imports (.node (.importing key)) [] (.body [.importing key])
  | expanded {expanding : List String} {imports : Table Block} {template : String}
    {exports : Table Export} {blocks : List Block} {base : Document}
    {made inner : List Expansion} {nodes : List Node}
    (handed : Inlines atHand expanding imports (.bodies (exports.map fun block => block.2.2)) made (.bodies blocks))
    (found : Table.get? atHand template = some base) (new : template ∉ expanding)
    (inlines : Inlines atHand (expanding ++ [template])
      (Table.overlay imports ((exports.map Prod.fst).zip blocks)) (.body base.nodes) inner (.body nodes)) :
    Inlines atHand expanding imports (.node (.extend template exports)) (made ++ [.mk template inner])
      (.body nodes)
  | kept {expanding : List String} {imports : Table Block} {template : String}
    {exports : Table Export} {blocks : List Block} {made : List Expansion}
    (handed : Inlines atHand expanding imports (.bodies (exports.map fun block => block.2.2)) made (.bodies blocks))
    (stays : Table.get? atHand template = none ∨ template ∈ expanding) :
    Inlines atHand expanding imports (.node (.extend template exports)) made
      (.body [.extend template (Table.keyed ((exports.map Prod.fst).zip blocks))])
  | exporting {expanding : List String} {imports : Table Block} {key : String} {body nodes : List Node}
    {made : List Expansion} (inlines : Inlines atHand expanding imports (.body body) made (.body nodes)) :
    Inlines atHand expanding imports (.node (.exporting key body)) made (.body [.exporting key nodes])
  | loop {expanding : List String} {imports : Table Block} {name : String} {collection : Expr}
    {body nodes : List Node} {made : List Expansion}
    (inlines : Inlines atHand expanding imports (.body body) made (.body nodes)) :
    Inlines atHand expanding imports (.node (.loop name collection body)) made
      (.body [.loop name collection nodes])
  | conditional {expanding : List String} {imports : Table Block}
    {branches : List (Option Expr × List Node)} {bodies : List (List Node)} {made : List Expansion}
    (inlines : Inlines atHand expanding imports (.bodies (branches.map Prod.snd)) made (.bodies bodies)) :
    Inlines atHand expanding imports (.node (.conditional branches)) made
      (.body [.conditional ((branches.map Prod.fst).zip bodies)])
  | bare {expanding : List String} {imports : Table Block} (name : String) (params : List Expr) :
    Inlines atHand expanding imports (.node (.custom name params none)) [] (.body [.custom name params none])
  | custom {expanding : List String} {imports : Table Block} {name : String} {params : List Expr}
    {body nodes : List Node} {made : List Expansion}
    (inlines : Inlines atHand expanding imports (.body body) made (.body nodes)) :
    Inlines atHand expanding imports (.node (.custom name params (some body))) made
      (.body [.custom name params (some nodes)])
  | bodyNil {expanding : List String} {imports : Table Block} :
    Inlines atHand expanding imports (.body []) [] (.body [])
  | bodyCons {expanding : List String} {imports : Table Block} {node : Node} {nodes here rest : List Node}
    {made more : List Expansion}
    (first : Inlines atHand expanding imports (.node node) made (.body here))
    (others : Inlines atHand expanding imports (.body nodes) more (.body rest)) :
    Inlines atHand expanding imports (.body (node :: nodes)) (made ++ more) (.body (here ++ rest))
  | bodiesNil {expanding : List String} {imports : Table Block} :
    Inlines atHand expanding imports (.bodies []) [] (.bodies [])
  | bodiesCons {expanding : List String} {imports : Table Block} {body nodes : List Node}
    {bodies others : List (List Node)} {made more : List Expansion}
    (first : Inlines atHand expanding imports (.body body) made (.body nodes))
    (rest : Inlines atHand expanding imports (.bodies bodies) more (.bodies others)) :
    Inlines atHand expanding imports (.bodies (body :: bodies)) (made ++ more) (.bodies (nodes :: others))

variable {atHand : Table Document} {expanding : List String} {imports : Table Block}

theorem Inlines.unique {portion result result' : Portion} {made made' : List Expansion}
    (h : Inlines atHand expanding imports portion made result)
    (h' : Inlines atHand expanding imports portion made' result') : made = made' ∧ result = result' := by
  induction h generalizing made' result' with
  | raw | expression | bare | bodyNil | bodiesNil =>
    cases h'
    exact ⟨rfl, rfl⟩
  | filled found =>
    cases h' with
    | filled found' => exact ⟨rfl, congrArg Portion.body (Option.some.inj (found.symm.trans found'))⟩
    | unfilled absent => cases found.symm.trans absent
  | unfilled absent =>
    cases h' with
    | filled found => cases found.symm.trans absent
    | unfilled => exact ⟨rfl, rfl⟩
  | expanded _ found new _ ihHanded ihNodes =>
    cases h' with
    | expanded handed found' _ inlines =>
      obtain ⟨rfl, hblocks⟩ := ihHanded handed
      obtain rfl := Portion.bodies.inj hblocks
      obtain rfl := Option.some.inj (found.symm.trans found')
      obtain ⟨rfl, hnodes⟩ := ihNodes inlines
      exact ⟨rfl, hnodes⟩
    | kept _ stays =>
      rcases stays with absent | again
      · cases found.symm.trans absent
      · exact absurd again new
  | kept _ stays ihHanded =>
    cases h' with
    | expanded _ found new =>
      rcases stays with absent | again
      · cases found.symm.trans absent
      · exact absurd again new
    | kept handed =>
      obtain ⟨rfl, hblocks⟩ := ihHanded handed
      obtain rfl := Portion.bodies.inj hblocks
      exact ⟨rfl, rfl⟩
  | exporting _ ih | loop _ ih | custom _ ih =>
    cases h'
    next inlines =>
      obtain ⟨rfl, hnodes⟩ := ih inlines
      obtain rfl := Portion.body.inj hnodes
      exact ⟨rfl, rfl⟩
  | conditional _ ih =>
    cases h' with
    | conditional inlines =>
      obtain ⟨rfl, hbodies⟩ := ih inlines
      obtain rfl := Portion.bodies.inj hbodies
      exact ⟨rfl, rfl⟩
  | bodyCons _ _ ihFirst ihOthers =>
    cases h' with
    | bodyCons first others =>
      obtain ⟨rfl, hhere⟩ := ihFirst first
      obtain ⟨rfl, hrest⟩ := ihOthers others
      obtain rfl := Portion.body.inj hhere
      obtain rfl := Portion.body.inj hrest
      exact ⟨rfl, rfl⟩
  | bodiesCons _ _ ihFirst ihRest =>
    cases h' with
    | bodiesCons first rest =>
      obtain ⟨rfl, hnodes⟩ := ihFirst first
      obtain ⟨rfl, hothers⟩ := ihRest rest
      obtain rfl := Portion.body.inj hnodes
      obtain rfl := Portion.bodies.inj hothers
      exact ⟨rfl, rfl⟩

theorem Inlines.adds {portion result : Portion} {made : List Expansion}
    (h : Inlines atHand expanding imports portion made result) : ∀ e ∈ made, e.Adds atHand expanding := by
  induction h with
  | raw | expression | filled | unfilled | bare | bodyNil | bodiesNil =>
    exact fun _ he => absurd he List.not_mem_nil
  | expanded _ found new _ ihHanded ihNodes =>
    intro e he
    rcases List.mem_append.1 he with he | he
    · exact ihHanded e he
    · rw [List.mem_singleton.1 he]
      exact .mk found new ihNodes
  | kept _ _ ih | exporting _ ih | loop _ ih | conditional _ ih | custom _ ih => exact ih
  | bodyCons _ _ ihFirst ihOthers => exact List.forall_mem_append.2 ⟨ihFirst, ihOthers⟩
  | bodiesCons _ _ ihFirst ihRest => exact List.forall_mem_append.2 ⟨ihFirst, ihRest⟩

/-! ### A course for every node -/

theorem inlines_singleton {node : Node} {made : List Expansion} {nodes : List Node} :
    Inlines atHand expanding imports (.body [node]) made (.body nodes) ↔
      Inlines atHand expanding imports (.node node) made (.body nodes) := by
  constructor
  · intro h
    cases h with
    | bodyCons first others =>
      cases others with
      | bodyNil => simpa using first
  · intro h
    simpa using Inlines.bodyCons h .bodyNil

theorem exists_inlines_bodies {f : List Node → List Node} {bodies : List (List Node)}
    (h : ∀ body ∈ bodies, ∃ made, Inlines atHand expanding imports (.body body) made (.body (f body))) :
    ∃ made, Inlines atHand expanding imports (.bodies bodies) made (.bodies (bodies.map f)) := by
  induction bodies with
  | nil => exact ⟨[], .bodiesNil⟩
  | cons body bodies ih =>
    obtain ⟨hfirst, hrest⟩ := List.forall_mem_cons.1 h
    obtain ⟨made, hmade⟩ := hfirst
    obtain ⟨more, hmore⟩ := ih hrest
    exact ⟨made ++ more, .bodiesCons hmade hmore⟩

theorem zip_map_bodies {α β : Type} (f : List Node → List Node) (body : α × β → List Node)
    (entries : List (α × β)) :
    (entries.map Prod.fst).zip ((entries.map body).map f) = entries.map fun entry => (entry.1, f (body entry)) := by
  rw [List.map_map, List.zip_map']
  rfl

theorem exists_inlines_plain {f : List Node → List Node} {node : Node} (hp : node.IsPlain)
    (h : ∀ body ∈ node.bodies,
      ∃ made, Inlines atHand expanding imports (.body body) made (.body (f body))) :
    ∃ made, Inlines atHand expanding imports (.node node) made (.body [node.mapBodies f]) := by
  cases node with
  | raw text => exact ⟨[], .raw text⟩
  | expression e => exact ⟨[], .expression e⟩
  | loop name collection body =>
    obtain ⟨made, hmade⟩ := h body (List.mem_singleton_self _)
    exact ⟨made, .loop hmade⟩
  | conditional branches =>
    obtain ⟨made, hmade⟩ := exists_inlines_bodies h
    have hcourse := Inlines.conditional hmade
    simp only [Node.bodies, zip_map_bodies] at hcourse
    exact ⟨made, hcourse⟩
  | extend template exports => exact hp.elim
  | importing key => exact hp.elim
  | exporting key body =>
    obtain ⟨made, hmade⟩ := h body (List.mem_singleton_self _)
    exact ⟨made, .exporting hmade⟩
  | custom name params body =>
    cases body with
    | none => exact ⟨[], .bare name params⟩
    | some body =>
      obtain ⟨made, hmade⟩ := h body (List.mem_singleton_self _)
      exact ⟨made, .custom hmade⟩

theorem get?_erase_left (template name : String) :
    Table.get? (Table.erase template (nodesOf (left atHand expanding))) name =
      Table.get? (nodesOf (left atHand (expanding ++ [template]))) name := by
  rw [Table.get?_erase, get?_nodesOf, get?_nodesOf, get?_left, get?_left]
  by_cases hn : name = template
  · simp [hn]
  · simp [hn]

theorem exists_inlines_extend {template : String} {exports : Table Export}
    (hb : ∀ block ∈ exports, ∃ made, Inlines atHand expanding imports (.body block.2.2) made
      (.body (inlineBody (nodesOf (left atHand expanding)) imports block.2.2)))
    (hbase : ∀ base blocks, Table.get? atHand template = some base → template ∉ expanding →
      ∃ inner, Inlines atHand (expanding ++ [template]) blocks (.body base.nodes) inner
        (.body (inlineBody (nodesOf (left atHand (expanding ++ [template]))) blocks base.nodes))) :
    ∃ made, Inlines atHand expanding imports (.node (.extend template exports)) made
      (.body (inlineBody (nodesOf (left atHand expanding)) imports [.extend template exports])) := by
  obtain ⟨made, hmade⟩ := exists_inlines_bodies (List.forall_mem_map.2 hb)
  have hkept := fun stays => @Inlines.kept atHand expanding imports template exports _ made hmade stays
  have hhas := get?_left atHand expanding template
  rw [zip_map_bodies] at hkept
  by_cases hnew : template ∈ expanding
  · have hnone : Table.get? (nodesOf (left atHand expanding)) template = none := by
      rw [get?_nodesOf, hhas, if_pos hnew, Option.map_none]
    rw [inlineBody_extend_of_absent hnone]
    exact ⟨made, hkept (.inr hnew)⟩
  · rw [if_neg hnew] at hhas
    cases hget : Table.get? atHand template with
    | none =>
      have hnone : Table.get? (nodesOf (left atHand expanding)) template = none := by
        rw [get?_nodesOf, hhas, hget, Option.map_none]
      rw [inlineBody_extend_of_absent hnone]
      exact ⟨made, hkept (.inl hget)⟩
    | some base =>
      have hsome : Table.get? (nodesOf (left atHand expanding)) template = some base.nodes := by
        rw [get?_nodesOf, hhas, hget, Option.map_some]
      obtain ⟨inner, hinner⟩ := hbase base _ hget hnew
      rw [inlineBody_extend_of_get? hsome, inlineBody_congr (get?_erase_left template) (fun _ => rfl)]
      refine ⟨made ++ [.mk template inner], .expanded hmade hget hnew ?_⟩
      rw [zip_map_bodies]
      exact hinner

theorem exists_inlines (atHand : Table Document) (expanding : List String) (imports : Table Block)
    (nodes : List Node) :
    ∃ made, Inlines atHand expanding imports (.body nodes) made
      (.body (inlineBody (nodesOf (left atHand expanding)) imports nodes)) := by
  -- on the documents that are left, and for as many on the nodes: only an expansion leads to nodes that do
  -- not stand in these, and it leaves fewer documents
  induction hl : (left atHand expanding).length using Nat.strong_induction_on
    generalizing expanding imports nodes with
  | _ size ih =>
    induction nodes using induction_body with
    | nil => exact ⟨[], by simpa using Inlines.bodyNil⟩
    | cons node nodes hn hns =>
      obtain ⟨made, hmade⟩ := hn
      obtain ⟨more, hmore⟩ := hns
      rw [inlineBody_cons]
      exact ⟨made ++ more, .bodyCons (inlines_singleton.1 hmade) hmore⟩
    | importing key =>
      rw [inlineBody_importing]
      cases hget : Table.get? imports key with
      | none => exact ⟨[], inlines_singleton.2 (.unfilled hget)⟩
      | some block => exact ⟨[], inlines_singleton.2 (.filled hget)⟩
    | plain node hp hb =>
      obtain ⟨made, hmade⟩ := exists_inlines_plain hp hb
      rw [inlineBody_plain hp]
      exact ⟨made, inlines_singleton.2 hmade⟩
    | extend template exports hb =>
      have hbase : ∀ base blocks, Table.get? atHand template = some base → template ∉ expanding →
          ∃ inner, Inlines atHand (expanding ++ [template]) blocks (.body base.nodes) inner
            (.body (inlineBody (nodesOf (left atHand (expanding ++ [template]))) blocks base.nodes)) :=
        fun base blocks hget hnew =>
          ih _ (hl ▸ length_left_snoc_lt hget hnew) (expanding ++ [template]) blocks base.nodes rfl
      obtain ⟨made, hmade⟩ := exists_inlines_extend hb hbase
      exact ⟨made, inlines_singleton.2 hmade⟩

/-- Inlining ends on every node, whatever is at hand and in scope: the node has exactly one course, and
comes to the nodes that inlining with ever fewer documents at hand gives. Each expansion on the way adds a
document at hand to those that are being expanded, so that none is nested more deeply than there are
documents at hand. -/
theorem inlining_ends (atHand : Table Document) (expanding : List String) (imports : Table Block)
    (node : Node) :
    ∃ made : List Expansion,
      (∀ other result, Inlines atHand expanding imports (.node node) other result ↔
        other = made ∧ result = .body (inlineBody (nodesOf (left atHand expanding)) imports [node])) ∧
      (∀ e ∈ made, e.Adds atHand expanding) ∧ ∀ e ∈ made, e.depth ≤ atHand.length := by
  obtain ⟨made, hmade⟩ := exists_inlines atHand expanding imports [node]
  have hcourse := inlines_singleton.1 hmade
  refine ⟨made, fun other result => ⟨fun h => h.unique hcourse, ?_⟩, hcourse.adds, fun e he => ?_⟩
  · rintro ⟨rfl, rfl⟩
    exact hcourse
  · exact (hcourse.adds e he).depth_le.trans (List.length_filter_le _ _)

end Templating
