import Templating.Proofs.Resolving

/-!
# Completing at once

A document is completed from the bottom up: what it refers to is completed first, with no blocks handed
to it, and inlined afterwards. Instead its draft can be inlined once with the drafts of everything that
it leads to, where one scope of blocks is carried down. Both come to the same nodes, but for how raw
texts are split. The drafts at hand need only be right for the names that are led to.
-/

namespace Templating

open Node Resolve

namespace Drafts

variable {drafts : Drafts} {missing : Missing} {name : String} {atHand : Table (List Node)}

/-- The nodes at hand under a name are those of its draft, and there are none if it has none. -/
def Supplies (drafts : Drafts) (atHand : Table (List Node)) (name : String) : Prop :=
  Table.get? atHand name = (drafts name).toOption.map Document.nodes

/-- At hand is the draft of every name that this one leads to. -/
def SuppliesBelow (drafts : Drafts) (atHand : Table (List Node)) (name : String) : Prop :=
  ∀ n, Relation.TransGen (Refers drafts) name n → Supplies drafts atHand n

theorem Supplies.of_absent (h : Supplies drafts atHand name) (ha : Absent drafts missing name) :
    Table.get? atHand name = none := by
  obtain ⟨-, asked, hd⟩ := ha
  unfold Supplies at h
  rw [h, hd]
  rfl

theorem Supplies.of_ok (h : Supplies drafts atHand name) {d : Document} (hd : drafts name = .ok d) :
    Table.get? atHand name = some d.nodes := by
  unfold Supplies at h
  rw [h, hd]
  rfl

theorem SuppliesBelow.erase (h : SuppliesBelow drafts atHand name)
    (hc : ¬ Relation.TransGen (Refers drafts) name name) :
    SuppliesBelow drafts (Table.erase name atHand) name := by
  intro n hn
  have hne : n ≠ name := fun he => hc (he ▸ hn)
  unfold Supplies
  rw [Table.get?_erase, if_neg hne]
  exact h n hn

/-- A document at hand stands for the draft of its name: wherever the draft would be inlined with all
drafts below it, the document alone does as well, since nothing that it refers to is at hand. -/
structure StandsFor (drafts : Drafts) (done : Table Document) (name : String) (e : Document) : Prop where
  acyclic : ¬ Relation.TransGen (Refers drafts) name name
  closed : ∀ n ∈ bodyReferences e.nodes, Table.get? done n = none
  alike : ∃ d, drafts name = .ok d ∧ ∀ atHand, SuppliesBelow drafts atHand name → ∀ imports,
    Alike (inlineBody atHand imports d.nodes) (inlineBody [] imports e.nodes)

/-- What a list of nodes refers to has its draft supplied, with all drafts below it, and has a document
at hand that stands for it unless it is absent. -/
structure Ready (drafts : Drafts) (missing : Missing) (atHand : Table (List Node))
    (done : Table Document) (nodes : List Node) : Prop where
  absent : ∀ n ∈ bodyReferences nodes, Table.get? done n = none → Absent drafts missing n
  supplied : ∀ n ∈ bodyReferences nodes, Supplies drafts atHand n
  below : ∀ n ∈ bodyReferences nodes, SuppliesBelow drafts atHand n

theorem Ready.mono {done : Table Document} {nodes part : List Node}
    (h : Ready drafts missing atHand done nodes)
    (hs : ∀ n ∈ bodyReferences part, n ∈ bodyReferences nodes) :
    Ready drafts missing atHand done part :=
  ⟨fun n hn => h.absent n (hs n hn), fun n hn => h.supplied n (hs n hn), fun n hn => h.below n (hs n hn)⟩

theorem Ready.body {done : Table Document} {node : Node} (h : Ready drafts missing atHand done [node])
    {body : List Node} (hb : body ∈ node.bodies) : Ready drafts missing atHand done body :=
  h.mono fun _ hn => mem_bodyReferences_of_bodies hb hn

/-- Nodes are inlined alike with the documents at hand and with the drafts that these stand for. -/
theorem alike_inlineBody_of_standsFor {done : Table Document}
    (hdone : ∀ n e, Table.get? done n = some e → StandsFor drafts done n e)
    {imports blocks : Table Block} (hi : AlikeTables imports blocks) {nodes : List Node}
    (h : Ready drafts missing atHand done nodes) :
    Alike (inlineBody atHand imports nodes) (inlineBody (Document.nodesOf done) blocks nodes) := by
  induction nodes using induction_body with
  | nil => simp only [inlineBody_nil]; rfl
  | cons node nodes hn hns =>
    have hfront : Ready drafts missing atHand done [node] :=
      h.mono fun n hm => mem_bodyReferences_cons.2 (.inl hm)
    have hrest : Ready drafts missing atHand done nodes :=
      h.mono fun n hm => mem_bodyReferences_cons.2 (.inr hm)
    rw [inlineBody_cons, @inlineBody_cons (Document.nodesOf done)]
    exact (hn hfront).append (hns hrest)
  | importing key => exact hi.inlineBody_importing key
  | plain node hp hb =>
    rw [inlineBody_plain hp, inlineBody_plain hp]
    exact .mapBodies fun body hm => hb body hm (h.body hm)
  | extend template exports hb =>
    have hblocks : ∀ block ∈ exports, Alike (inlineBody atHand imports block.2.2)
        (inlineBody (Document.nodesOf done) blocks block.2.2) :=
      fun block hm => hb block hm (h.body (List.mem_map_of_mem hm))
    have hmem := mem_bodyReferences_extend template exports
    have hsup := h.supplied template hmem
    cases hk : Table.get? done template with
    | none =>
      have hraw : Table.get? atHand template = none := hsup.of_absent (h.absent template hmem hk)
      rw [inlineBody_extend_of_absent hraw,
        inlineBody_extend_of_absent (Document.get?_nodesOf_eq_none hk)]
      exact .extend hblocks
    | some e =>
      obtain ⟨hacyclic, hclosed, d, hd, halike⟩ := hdone template e hk
      have hget : Table.get? (Document.nodesOf done) template = some e.nodes := by
        rw [Document.get?_nodesOf, hk, Option.map_some]
      have hleft : ∀ n ∈ bodyReferences e.nodes,
          Table.get? (Table.erase template (Document.nodesOf done)) n = none := by
        intro n hn
        rw [Table.get?_erase, Document.get?_nodesOf, hclosed n hn, Option.map_none, ite_self]
      rw [inlineBody_extend_of_get? (hsup.of_ok hd), inlineBody_extend_of_get? hget,
        inlineBody_of_absent hleft]
      exact (halike _ ((h.below template hmem).erase hacyclic) _).trans
        (.inlineBody (.refl _) (hi.overlay hblocks) (.refl _))

/-- A draft inlined at once, with all drafts at hand that it leads to, is like the completed document
with the same blocks filled in. -/
theorem Completed.alike_inlineBody (hk : Keyed drafts) {d e : Document}
    (h : Completed drafts missing name e) (hd : drafts name = .ok d)
    (hs : SuppliesBelow drafts atHand name) (imports : Table Block) :
    Alike (inlineBody atHand imports d.nodes) (inlineBody [] imports e.nodes) := by
  induction h generalizing d atHand imports with
  | @flat name e found flat =>
    obtain rfl := Except.ok.inj (found.symm.trans hd)
    have hnone : bodyReferences e.nodes = [] := by
      rw [← (hk.isExact hd).unresolved_eq]
      exact Document.isFlat_iff.1 flat
    rw [inlineBody_of_absent fun n hn => absurd (hnone ▸ hn) List.not_mem_nil]
  | @rebuilt name d' done found _ _ complete absent ih =>
    obtain rfl := Except.ok.inj (found.symm.trans hd)
    have href : ∀ n ∈ bodyReferences d'.nodes, n ∈ d'.unresolved := fun n hn => by
      rw [(hk.isExact hd).unresolved_eq]
      exact hn
    have hready : Ready drafts missing atHand done d'.nodes :=
      ⟨fun n hn hg => absent n (href n hn) hg, fun n hn => hs n (.single ⟨d', hd, href n hn⟩),
        fun n hn m hm => hs m (.head ⟨d', hd, href n hn⟩ hm)⟩
    have hdone : ∀ n e, Table.get? done n = some e → StandsFor drafts done n e := by
      intro n e hg
      have he : Completed drafts missing n e := complete n e hg
      obtain ⟨d, hd⟩ := he.found
      exact ⟨he.not_transGen_self, he.closed hk.toWellFormed complete, d, hd, fun M hM S => ih n e hg hd hM S⟩
    have hfill : Alike (inlineBody [] imports (d'.rebuild done).nodes)
        (inlineBody (Document.nodesOf done) imports d'.nodes) := by
      have hjoin := Alike.inlineBody (.refl []) (.refl imports) (Document.alike_rebuild (hk.keyed hd) done)
      rwa [inlineBody_imports] at hjoin
    exact (alike_inlineBody_of_standsFor hdone (.refl imports) hready).trans hfill.symm

theorem Completed.alike_rebuild (hk : Keyed drafts) {d e : Document}
    (h : Completed drafts missing name e) (hd : drafts name = .ok d) {others : Table Document}
    (hs : ∀ n, Relation.TransGen (Refers drafts) name n → Table.get? others n = (drafts n).toOption) :
    Alike e.nodes (d.rebuild others).nodes := by
  have hbelow : SuppliesBelow drafts (Document.nodesOf others) name := by
    intro n hn
    unfold Supplies
    rw [Document.get?_nodesOf, hs n hn]
  have hfill := h.alike_inlineBody hk hd hbelow []
  rw [inlineBody_nil_nil (h.keyed hk)] at hfill
  exact hfill.symm.trans (Document.alike_rebuild (hk.keyed hd) others).symm

end Drafts

/-! ### The documents that a renderer answers with -/

def Registry.references (registry : Registry) : Table Document :=
  Table.tabulate (fun name => (registry.drafts name).toOption)
    (registry.texts.flatMap Surroundings.textReferences)

/-- A source can answer infinitely many names, but only those that some text refers to can be led to. -/
theorem Registry.get?_references {registry : Registry} {name n : String}
    (h : Relation.TransGen (Drafts.Refers registry.drafts) name n) :
    Table.get? registry.references n = (registry.drafts n).toOption := by
  obtain ⟨m, -, d, hd, hn⟩ := Relation.TransGen.tail'_iff.1 h
  unfold references
  rw [Table.get?_tabulate, if_pos (Surroundings.mem_textReferences hd hn)]

namespace Renderer

variable {renderer : Renderer} {p : Progress} {template : String} {d : Document}

theorem completed_of_document (hcache : p.cache.documents = [] ∨ p.cache.enabled = false)
    (h : (exec (renderer.document template) p).1 = .ok d) :
    Drafts.Completed renderer.registry.drafts renderer.missing template d := by
  have hend := @answered_of_not_held renderer p (Cache.held_eq_none hcache) template
  rw [h] at hend
  exact hend.completed.2

/-- With nothing in the cache, the document that is answered is the template's own nodes rebuilt once
with the nodes of every template that they lead to, as these are read. -/
theorem document_eq_rebuild (hcache : p.cache.documents = [] ∨ p.cache.enabled = false)
    (h : (exec (renderer.document template) p).1 = .ok d) {atHand : Table Document}
    (hall : ∀ n, Relation.TransGen (Drafts.Refers renderer.registry.drafts) template n →
      Table.get? atHand n = (renderer.registry.drafts n).toOption) :
    ∃ nodes, renderer.registry.drafts template = .ok (.ofNodes template nodes) ∧
      d.unresolved = ((Document.ofNodes template nodes).rebuild atHand).unresolved ∧
      joinAll d.nodes = joinAll ((Document.ofNodes template nodes).rebuild atHand).nodes := by
  have hk : renderer.registry.drafts.Keyed := renderer.registry.keyed_drafts
  have hd : Drafts.Completed renderer.registry.drafts renderer.missing template d :=
    completed_of_document hcache h
  obtain ⟨e, he⟩ := hd.found
  obtain ⟨nodes, rfl⟩ := Registry.exists_ofNodes_of_drafts he
  have halike : Alike d.nodes ((Document.ofNodes template nodes).rebuild atHand).nodes :=
    hd.alike_rebuild hk he hall
  refine ⟨nodes, he, ?_, halike⟩
  rw [(hd.isExact hk.toWellFormed).unresolved_eq, halike.bodyReferences_eq]
  exact (Document.isExact_rebuild _ _).symm

/-- A page hands a block to a base, which hands it on to a layout; another template is gone. -/
def layered : Renderer :=
  .ofRegistry .blocking .defer (.single (Memory.holding
    [("page", "#extend(\"base\"):#export(\"body\"):hi#extend(\"gone\")#endexport#endextend"),
      ("base", "#extend(\"layout\"):#export(\"title\"):T#endexport#endextend"),
      ("layout", "<#import(\"title\")#import(\"body\")>")]).source)

theorem document_eq_rebuild_layered :
    ∃ d, (exec (layered.document "page") ⟨.empty true, []⟩).1 = .ok d ∧ d.unresolved = ["gone"] ∧
      ∃ nodes, layered.registry.drafts "page" = .ok (.ofNodes "page" nodes) ∧
        d.unresolved = ((Document.ofNodes "page" nodes).rebuild layered.registry.references).unresolved ∧
        joinAll d.nodes =
          joinAll ((Document.ofNodes "page" nodes).rebuild layered.registry.references).nodes := by
  have hrun : (exec (layered.document "page") ⟨.empty true, []⟩).1.toOption.map
      Document.unresolved = some ["gone"] := by decide +kernel
  obtain ⟨d, hd, hneeds⟩ := exists_ok_of_map_toOption hrun
  have hrebuild := document_eq_rebuild (.inl rfl) hd fun _ => Registry.get?_references
  exact ⟨d, hd, hneeds, hrebuild⟩

end Renderer

end Templating
