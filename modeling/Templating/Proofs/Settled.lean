import Templating.Proofs.Pending
import Templating.Proofs.Rounds

/-!
# Settled sets of drafts

Drafts are settled if a template that some draft hands blocks to leads to nothing that is missing, once
it is there itself. What is completed from settled drafts, and from documents that last, loses nothing
when more drafts arrive later: however many do, it is rebuilt to what its own draft is rebuilt to.
-/

namespace Templating

open Node

namespace Drafts

variable {drafts later : Drafts} {missing : Missing} {name template : String} {d e : Document}

/-- Every draft of the first set is one of the second. -/
def Grows (drafts later : Drafts) : Prop := ∀ n d, drafts n = .ok d → later n = .ok d

theorem Grows.refl (drafts : Drafts) : Grows drafts drafts := fun _ _ h => h

theorem Grows.trans {last : Drafts} (h : Grows drafts later) (h' : Grows later last) :
    Grows drafts last := fun n d hd => h' n d (h n d hd)

theorem Grows.refers (h : Grows drafts later) {n m : String} (hr : Refers drafts n m) :
    Refers later n m := by
  obtain ⟨d, hd, hm⟩ := hr
  exact ⟨d, h n d hd, hm⟩

theorem Grows.transGen (h : Grows drafts later) {n m : String}
    (hr : Relation.TransGen (Refers drafts) n m) : Relation.TransGen (Refers later) n m :=
  Relation.TransGen.mono (fun _ _ => h.refers) _ _ hr

/-- Some draft extends the template and hands it a block. -/
def Handed (drafts : Drafts) (template : String) : Prop :=
  ∃ n d, drafts n = .ok d ∧ Hands template d.nodes

theorem Grows.handed (h : Grows drafts later) (hh : Handed drafts template) : Handed later template := by
  obtain ⟨n, d, hd, hands⟩ := hh
  exact ⟨n, d, h n d hd, hands⟩

/-- A template that is handed blocks, and is there itself, leads to nothing that is missing. -/
def Settled (drafts : Drafts) : Prop :=
  ∀ t, Handed drafts t → (∃ d, drafts t = .ok d) →
    ∀ n, Relation.ReflTransGen (Refers drafts) t n → ∃ d, drafts n = .ok d

/-- A document that hands blocks only where drafts do, and that is rebuilt to what the draft of its name
is rebuilt to, now and with whatever drafts arrive later. -/
structure Lasting (drafts : Drafts) (missing : Missing) (name : String) (d : Document) : Prop where
  hands : ∀ t, Hands t d.nodes → Handed drafts t
  alike : ∀ later, Grows drafts later → later.Keyed → ∀ e, Completed later missing name e →
    ∀ atHand, SuppliesBelow later atHand name → ∀ c, later name = .ok c →
      Alike (inlineBody atHand [] d.nodes) (inlineBody atHand [] c.nodes)

theorem lasting_of_ok (hd : drafts name = .ok d) : Lasting drafts missing name d where
  hands := fun _ h => ⟨name, d, hd, h⟩
  alike := by
    intro later hgrows _ e _ atHand _ c hc
    obtain rfl := Except.ok.inj ((hgrows name d hd).symm.trans hc)
    rfl

theorem Lasting.grow (h : Lasting drafts missing name d) (hgrows : Grows drafts later) :
    Lasting later missing name d where
  hands := fun t ht => hgrows.handed (h.hands t ht)
  alike := fun last hlast => h.alike last (hgrows.trans hlast)

theorem Completed.alike_erase (hk : Keyed drafts) (h : Completed drafts missing name e)
    (hd : drafts name = .ok d) {atHand : Table (List Node)} (hs : SuppliesBelow drafts atHand name) :
    Alike (inlineBody atHand [] d.nodes) (inlineBody (Table.erase name atHand) [] d.nodes) :=
  (h.alike_inlineBody hk hd hs []).trans
    (h.alike_inlineBody hk hd (hs.erase h.not_transGen_self) []).symm

end Drafts

open Drafts

namespace Cache

variable {cache : Cache} {drafts : Drafts} {missing : Missing} {name : String} {d : Document}

theorem lasting_standIns (hlast : ∀ n f, cache.held n = some f → Lasting drafts missing n f)
    (hd : cache.standIns drafts name = .ok d) : Lasting drafts missing name d := by
  cases hheld : cache.held name with
  | some f =>
    rw [standIns_of_held hheld] at hd
    exact Except.ok.inj hd ▸ hlast name f hheld
  | none =>
    rw [standIns_of_not_held hheld] at hd
    exact lasting_of_ok hd

/-- What is completed from settled drafts and lasting documents lasts. -/
theorem Pending.lasting (h : cache.Pending drafts) (hk : drafts.Keyed) (hsettled : Settled drafts)
    (hlast : ∀ n f, cache.held n = some f → Lasting drafts missing n f)
    (hd : Completed (cache.standIns drafts) missing name d) : Lasting drafts missing name d := by
  have hks := h.standIns_keyed hk
  induction hd with
  | flat found => exact lasting_standIns hlast found
  | @rebuilt name held done found _ needed complete absent ih =>
    have hheld : Lasting drafts missing name held := lasting_standIns hlast found
    have hexact : held.unresolved = bodyReferences held.nodes := hks.isExact found
    constructor
    · intro t ht
      rw [Document.rebuild_nodes (hks.keyed found)] at ht
      rcases hands_of_inlineBody (hands_of_mergeRaw ht) with ht | ⟨n, base, hg, ht⟩ | ⟨_, _, hg, -⟩
      · exact hheld.hands t ht
      · rw [Document.get?_nodesOf] at hg
        obtain ⟨f, hf, rfl⟩ := Option.map_eq_some_iff.1 hg
        exact (ih n f hf).hands t ht
      · cases hg
    · intro later hgrows hlater e he atHand hs c hc
      have hleads : ∀ n ∈ bodyReferences held.nodes, Relation.TransGen (Refers later) name n :=
        fun n hn => hgrows.transGen (h.transGen_of_refers ⟨held, found, hexact ▸ hn⟩)
      have hreach : ∀ n f, Table.get? done n = some f → Relation.TransGen (Refers later) name n :=
        fun n f hg => hleads n (hexact ▸ needed n f hg)
      have hfirst : ∀ n body, Table.get? (Document.nodesOf done) n = some body →
          Renewed (Document.nodesOf done) atHand n body := by
        intro n body hg
        rw [Document.get?_nodesOf] at hg
        obtain ⟨f, hf, rfl⟩ := Option.map_eq_some_iff.1 hg
        have hfc := complete n f hf
        obtain ⟨k, hk⟩ := h.found_iff.1 hfc.found
        have hthere : later n = .ok k := hgrows n k hk
        obtain ⟨g, hgc⟩ : ∃ g, Completed later missing n g :=
          (he.of_reaches (hreach n f hf).to_reflTransGen).resolve_right (not_absent_of_ok hthere)
        have hsn : SuppliesBelow later atHand n := fun m hm => hs m ((hreach n f hf).trans hm)
        have hget : Table.get? atHand n = some k.nodes := (hs n (hreach n f hf)).of_ok hthere
        have hclosed : ∀ m ∈ bodyReferences f.nodes, Table.get? (Document.nodesOf done) m = none :=
          fun m hm => Document.get?_nodesOf_eq_none (hfc.closed hks.toWellFormed complete m hm)
        refine ⟨hfc.keyed hks, hclosed, k.nodes, hget, ?_⟩
        exact ((ih n f hf).alike later hgrows hlater g hgc atHand hsn k hthere).trans
          (hgc.alike_erase hlater hthere hsn)
      have hhands : ∀ n body, Table.get? (Document.nodesOf done) n = some body →
          Hands n held.nodes → ∀ m, m ∉ bodyReferences body := by
        intro n body hg ht m hm
        rw [Document.get?_nodesOf] at hg
        obtain ⟨f, hf, rfl⟩ := Option.map_eq_some_iff.1 hg
        have hfc := complete n f hf
        obtain ⟨habsent, hr⟩ := hfc.left hks.toWellFormed hm
        -- what the settled template leads to is there, and so is what its document still needs
        obtain ⟨k, hk⟩ := hsettled n (hheld.hands n ht) (h.found_iff.1 hfc.found) m
          (h.transGen hr).to_reflTransGen
        exact not_absent_of_ok hk (h.absent_iff.1 habsent)
      have htwo := alike_inlineBody_inlineBody hfirst hhands
      have hround : Alike (inlineBody atHand [] (held.rebuild done).nodes)
          (inlineBody atHand [] (inlineBody (Document.nodesOf done) [] held.nodes)) :=
        .inlineBody (.refl _) (.refl _) (Document.alike_rebuild (hks.keyed found) done)
      exact hround.trans (htwo.trans (hheld.alike later hgrows hlater e he atHand hs c hc))

end Cache

end Templating
