import Templating.Proofs.Bookkeeping
import Templating.Proofs.Completion

/-!
# Saturation

Rebuilding a document replaces every extend of what is at hand that it can replace. It leaves one in place
only below the replaced nodes of its own template, and then the documents at hand lead from that template
back to it. Where none of them leads back to itself, rebuilding once is enough.
-/

namespace Templating

open Node

namespace Document

variable {atHand : Table Document} {name : String}

/-- A document at hand, looked up by its name, holds an extend of another that is at hand. -/
def Needs (atHand : Table Document) (name needed : String) : Prop :=
  ∃ d e exports, Table.get? atHand name = some d ∧ Occurs (.extend needed exports) d.nodes ∧
    Table.get? atHand needed = some e

theorem needs_of_mem_bodyReferences {template : String} {base : List Node} {e : Document}
    (found : Table.get? (nodesOf atHand) template = some base) (asked : name ∈ bodyReferences base)
    (there : Table.get? atHand name = some e) : Needs atHand template name := by
  rw [get?_nodesOf] at found
  obtain ⟨d, hd, rfl⟩ := Option.map_eq_some_iff.1 found
  obtain ⟨exports, hoccurs⟩ := mem_bodyReferences_iff_occurs.1 asked
  exact ⟨d, e, exports, hd, hoccurs, there⟩

/-- What is left in place though it is at hand needs itself: by induction on the templates that are gone
through, of which each that is no longer at hand leads to all that the nodes below it ask for. -/
theorem transGen_needs_of_leaves {left : Table (List Node)} {nodes : List Node} {e : Document}
    (h : Leaves left nodes name) (there : Table.get? atHand name = some e)
    (hleft : ∀ n base, Table.get? left n = some base → Table.get? (nodesOf atHand) n = some base)
    (hgone : ∀ n m, (Table.get? atHand n).isSome → Table.get? left n = none → m ∈ bodyReferences nodes →
      (Table.get? atHand m).isSome → Relation.TransGen (Needs atHand) n m) :
    Relation.TransGen (Needs atHand) name name := by
  induction h with
  | @here left nodes name asked absent =>
    have hsome : (Table.get? atHand name).isSome := Option.isSome_of_eq_some there
    exact hgone name name hsome absent asked hsome
  | @through left nodes base template name asked found _ ih =>
    have hfound := hleft template base found
    have htemplate : (Table.get? atHand template).isSome := by
      rw [get?_nodesOf] at hfound
      obtain ⟨d, hd, -⟩ := Option.map_eq_some_iff.1 hfound
      exact Option.isSome_of_eq_some hd
    refine ih there (fun n other hn => ?_) fun n m hn hnone hm hmem => ?_
    · rw [Table.get?_erase] at hn
      split at hn
      · cases hn
      · exact hleft n other hn
    · obtain ⟨f, hf⟩ := Option.isSome_iff_exists.1 hmem
      have hedge : Needs atHand template m := needs_of_mem_bodyReferences hfound hm hf
      rw [Table.get?_erase] at hnone
      split at hnone
      · next heq => exact heq ▸ .single hedge
      · exact (hgone n template hn hnone asked htemplate).tail hedge

theorem transGen_needs_of_mem_rebuild {d e : Document} (there : Table.get? atHand name = some e)
    (h : name ∈ bodyReferences (d.rebuild atHand).nodes) : Relation.TransGen (Needs atHand) name name := by
  rw [mem_bodyReferences_rebuild] at h
  rcases leaves_or_mem_of_mem_inlineBody h with hleaves | ⟨key, block, hg, -⟩
  · refine transGen_needs_of_leaves hleaves there (fun _ _ hn => hn) fun n m hn hnone _ _ => ?_
    rw [get?_nodesOf, Option.map_eq_none_iff] at hnone
    rw [hnone] at hn
    cases hn
  · cases hg

/-- An extend of a template at hand that rebuilding leaves in place, at whatever depth, is of a template
from which the documents at hand lead back to it. Where there is none, rebuilding once more changes
nothing. -/
theorem rebuild_saturates (d : Document) (atHand : Table Document) :
    (∀ name exports e, Occurs (.extend name exports) (d.rebuild atHand).nodes →
      Table.get? atHand name = some e → Relation.TransGen (Needs atHand) name name) ∧
    ((∀ name, ¬ Relation.TransGen (Needs atHand) name name) →
      (d.rebuild atHand).rebuild atHand = d.rebuild atHand) := by
  have hcycle : ∀ name exports e, Occurs (.extend name exports) (d.rebuild atHand).nodes →
      Table.get? atHand name = some e → Relation.TransGen (Needs atHand) name name :=
    fun name exports e hoccurs there =>
      transGen_needs_of_mem_rebuild there (mem_bodyReferences_iff_occurs.2 ⟨exports, hoccurs⟩)
  refine ⟨hcycle, fun hacyclic => ?_⟩
  refine rebuild_of_absent (isExact_rebuild d atHand) (mergeRaw_rebuild d atHand) fun name hname => ?_
  rw [(isExact_rebuild d atHand).unresolved_eq] at hname
  obtain ⟨exports, hoccurs⟩ := mem_bodyReferences_iff_occurs.1 hname
  cases there : Table.get? atHand name with
  | none => rfl
  | some e => exact absurd (hcycle name exports e hoccurs there) (hacyclic name)

/-- A base that hands a block of its own to a layout. -/
def layeredBase : Document :=
  .ofNodes "base" [.extend "layout" [("body", "body", [.raw "b", .importing "body", .raw "c"])]]

theorem needs_layered {n m : String} (h : Needs [("base", layeredBase), ("layout", framingBase)] n m) :
    n = "base" ∧ m = "layout" := by
  obtain ⟨d, e, exports, hd, hoccurs, -⟩ := h
  have hm : m ∈ bodyReferences d.nodes := mem_bodyReferences_iff_occurs.2 ⟨exports, hoccurs⟩
  have hbase : bodyReferences layeredBase.nodes = ["layout"] := by decide +kernel
  have hlayout : bodyReferences framingBase.nodes = [] := by decide +kernel
  rcases List.mem_pair.1 (Table.mem_of_get? hd) with h | h
  · obtain ⟨rfl, rfl⟩ := Prod.mk.inj h
    rw [hbase] at hm
    exact ⟨rfl, List.mem_singleton.1 hm⟩
  · obtain ⟨-, rfl⟩ := Prod.mk.inj h
    rw [hlayout] at hm
    cases hm

/-- A base that extends the page which extends it leads back to itself; a base over a layout does not, and
rebuilding with the two once is enough. -/
theorem rebuild_saturates_turning :
    Relation.TransGen (Needs [("base", turningBase), ("page", turningPage)]) "base" "base" ∧
    (∀ name, ¬ Relation.TransGen (Needs [("base", layeredBase), ("layout", framingBase)]) name name) ∧
    let rebuilt := turningPage.rebuild [("base", layeredBase), ("layout", framingBase)]
    rebuilt.rebuild [("base", layeredBase), ("layout", framingBase)] = rebuilt := by
  have hleft : "base" ∈ bodyReferences
      (turningPage.rebuild [("base", turningBase), ("page", turningPage)]).nodes := by decide +kernel
  obtain ⟨exports, hoccurs⟩ := mem_bodyReferences_iff_occurs.1 hleft
  have hacyclic : ∀ name, ¬ Relation.TransGen (Needs [("base", layeredBase), ("layout", framingBase)])
      name name := by
    intro name h
    obtain ⟨_, hfirst, -⟩ := Relation.TransGen.head'_iff.1 h
    obtain ⟨_, -, hlast⟩ := Relation.TransGen.tail'_iff.1 h
    exact absurd ((needs_layered hfirst).1.symm.trans (needs_layered hlast).2) (by decide)
  exact ⟨(rebuild_saturates turningPage _).1 "base" exports turningBase hoccurs rfl, hacyclic,
    (rebuild_saturates turningPage _).2 hacyclic⟩

end Document

end Templating
