import Templating.Proofs.AtOnce
import Templating.Proofs.Sessions

/-!
# Pending documents

A document that was cached while some of its references were missing stands in for its template's own
draft from then on. When the rest arrives, what a name is completed to is the cached document completed,
not the draft. The two are alike as long as rebuilding the cached document with the drafts that are there
now gives what rebuilding the template's own draft gives; if this holds below a name, it holds for the
name exactly if the name is completed alike.
-/

namespace Templating

open Node Resolve Drafts

/-- What each name stands for when cached documents stand in for their drafts. -/
def Cache.standIns (cache : Cache) (drafts : Drafts) : Drafts := fun name =>
  match cache.held name with
  | some d => .ok d
  | none => drafts name

/-- The cache is on, and its documents are what earlier and smaller sets of drafts left open: each has a
draft by now, and what it still needs the draft leads to. -/
structure Cache.Pending (cache : Cache) (drafts : Drafts) : Prop where
  enabled : cache.enabled = true
  name_eq : ∀ {name d}, cache.held name = some d → d.name = name
  isExact : ∀ {name d}, cache.held name = some d → d.IsExact
  keyed : ∀ {name d}, cache.held name = some d → Node.Keyed d.nodes
  found : ∀ {name d}, cache.held name = some d → ∃ e, drafts name = .ok e
  leads : ∀ {name d n}, cache.held name = some d → n ∈ d.unresolved →
    Relation.TransGen (Refers drafts) name n

namespace Cache

variable {cache : Cache} {drafts : Drafts} {name n : String} {d e : Document}

theorem standIns_of_held (h : cache.held name = some d) : cache.standIns drafts name = .ok d := by
  unfold standIns
  rw [h]

theorem standIns_of_not_held (h : cache.held name = none) :
    cache.standIns drafts name = drafts name := by
  unfold standIns
  rw [h]

theorem pending_empty (drafts : Drafts) : (Cache.empty true).Pending drafts where
  enabled := rfl
  name_eq := fun h => by cases h
  isExact := fun h => by cases h
  keyed := fun h => by cases h
  found := fun h => by cases h
  leads := fun h => by cases h

theorem standIns_wellFormed
    (hcache : ∀ {name d}, cache.held name = some d → d.name = name ∧ d.IsExact)
    (hw : drafts.WellFormed) : (cache.standIns drafts).WellFormed where
  name_eq := by
    intro name d hd
    cases hheld : cache.held name with
    | some e =>
      rw [standIns_of_held hheld] at hd
      exact Except.ok.inj hd ▸ (hcache hheld).1
    | none =>
      rw [standIns_of_not_held hheld] at hd
      exact hw.name_eq hd
  isExact := by
    intro name d hd
    cases hheld : cache.held name with
    | some e =>
      rw [standIns_of_held hheld] at hd
      exact Except.ok.inj hd ▸ (hcache hheld).2
    | none =>
      rw [standIns_of_not_held hheld] at hd
      exact hw.isExact hd

theorem standIns_coherent {missing : Missing}
    (hcache : ∀ {name d}, cache.held name = some d → d.name = name) :
    (cache.standIns drafts).Coherent drafts missing cache where
  held := fun hd => ⟨hcache hd, .inl (standIns_of_held hd)⟩
  fresh := fun hd => standIns_of_not_held hd

theorem standIns_known {world : Surroundings}
    (hread : ∀ n, ∃ source template, drafts n = world.registry.draft source template) :
    world.Known (cache.standIns drafts) cache := by
  intro n
  cases hheld : cache.held n with
  | none =>
    obtain ⟨source, template, hd⟩ := hread n
    exact .inl ⟨source, template, (standIns_of_not_held hheld).trans hd⟩
  | some d => exact .inr ⟨d, rfl, standIns_of_held hheld⟩

theorem Pending.wellFormed (h : cache.Pending drafts) (hw : drafts.WellFormed) :
    (cache.standIns drafts).WellFormed :=
  standIns_wellFormed (fun hd => ⟨h.name_eq hd, h.isExact hd⟩) hw

theorem Pending.standIns_keyed (h : cache.Pending drafts) (hk : drafts.Keyed) :
    (cache.standIns drafts).Keyed where
  toWellFormed := h.wellFormed hk.toWellFormed
  keyed := by
    intro name d hd
    cases hheld : cache.held name with
    | some e =>
      rw [standIns_of_held hheld] at hd
      exact Except.ok.inj hd ▸ h.keyed hheld
    | none =>
      rw [standIns_of_not_held hheld] at hd
      exact hk.keyed hd

theorem Pending.coherent {missing : Missing} (h : cache.Pending drafts) :
    (cache.standIns drafts).Coherent drafts missing cache :=
  standIns_coherent h.name_eq

theorem Pending.found_iff (h : cache.Pending drafts) :
    (∃ d, cache.standIns drafts name = .ok d) ↔ ∃ d, drafts name = .ok d := by
  cases hheld : cache.held name with
  | some e => exact iff_of_true ⟨e, standIns_of_held hheld⟩ (h.found hheld)
  | none => rw [standIns_of_not_held hheld]

theorem Pending.absent_iff (h : cache.Pending drafts) {missing : Missing} :
    Absent (cache.standIns drafts) missing name ↔ Absent drafts missing name := by
  unfold Absent
  cases hheld : cache.held name with
  | some d =>
    rw [standIns_of_held hheld]
    obtain ⟨e, he⟩ := h.found hheld
    simp [he]
  | none => rw [standIns_of_not_held hheld]

theorem Pending.transGen_of_refers (h : cache.Pending drafts)
    (hr : Refers (cache.standIns drafts) name n) : Relation.TransGen (Refers drafts) name n := by
  obtain ⟨d, hd, hn⟩ := hr
  cases hheld : cache.held name with
  | some e =>
    rw [standIns_of_held hheld] at hd
    exact h.leads hheld (Except.ok.inj hd ▸ hn)
  | none =>
    rw [standIns_of_not_held hheld] at hd
    exact .single ⟨d, hd, hn⟩

theorem Pending.transGen (h : cache.Pending drafts)
    (hr : Relation.TransGen (Refers (cache.standIns drafts)) name n) :
    Relation.TransGen (Refers drafts) name n := by
  induction hr with
  | single hr => exact h.transGen_of_refers hr
  | tail _ hr ih => exact ih.trans (h.transGen_of_refers hr)

/-- Whatever can be completed from the drafts can be completed from the documents that stand in. -/
theorem Pending.exists_completed (h : cache.Pending drafts) {missing : Missing}
    (hd : Completed drafts missing name d) :
    ∃ e, Completed (cache.standIns drafts) missing name e := by
  have hacc := hd.acc.transGen
  induction hacc generalizing d with
  | intro name _ ih =>
    obtain ⟨e, he⟩ := h.found_iff.2 hd.found
    refine Drafts.exists_completed he fun n hn => ?_
    have hr : Relation.TransGen (Refers drafts) name n := h.transGen_of_refers ⟨e, he, hn⟩
    rcases hd.of_reaches hr.to_reflTransGen with ⟨f, hf⟩ | ha
    · exact .inl (ih n (Relation.transGen_swap.2 hr) hf)
    · exact .inr (h.absent_iff.2 ha)

theorem Pending.of_ends {missing : Missing} {α : Type} {p : Progress}
    {post : Except Error α → Prop} {run : Except Error α × Progress} (hk : drafts.Keyed)
    (h : p.cache.Pending drafts) (hrun : (p.cache.standIns drafts).Ends drafts missing p post run) :
    run.2.cache.Pending drafts := by
  have hks := h.standIns_keyed hk
  have hcase : ∀ {name d}, run.2.cache.held name = some d →
      p.cache.standIns drafts name = .ok d ∨ Completed (p.cache.standIns drafts) missing name d :=
    fun hd => (hrun.coherent.held hd).2
  refine ⟨hrun.keeps.1.trans h.enabled, fun hd => (hrun.coherent.held hd).1, fun hd => ?_,
    fun hd => ?_, fun hd => ?_, fun hd hn => ?_⟩
  · rcases hcase hd with hd | hd
    · exact hks.isExact hd
    · exact hd.isExact hks.toWellFormed
  · rcases hcase hd with hd | hd
    · exact hks.keyed hd
    · exact hd.keyed hks
  · rcases hcase hd with hd | hd
    · exact h.found_iff.1 ⟨_, hd⟩
    · exact h.found_iff.1 hd.found
  · rcases hcase hd with hd | hd
    · exact h.transGen_of_refers ⟨_, hd, hn⟩
    · exact h.transGen (hd.unresolved hks.toWellFormed hn).2

/-! ### Agreement -/

/-- What is cached under a name has lost nothing: rebuilt with what is there now, it is alike to the
name's own draft rebuilt with that. -/
def Faithful (cache : Cache) (drafts : Drafts) (atHand : Table Document) (name : String) : Prop :=
  ∀ d e, cache.held name = some d → drafts name = .ok e →
    joinAll (d.rebuild atHand).nodes = joinAll (e.rebuild atHand).nodes

theorem faithful_of_drafts {atHand : Table Document}
    (h : ∀ n d, cache.held n = some d → drafts n = .ok d) (name : String) :
    cache.Faithful drafts atHand name := by
  intro d e hd he
  have hsame : d = e := Except.ok.inj ((h name d hd).symm.trans he)
  rw [hsame]

section Agreement

variable {missing : Missing} {atHand : Table Document}

/-- If all names below are completed alike, the document that stands in is completed to itself rebuilt
with the drafts. -/
theorem Pending.alike_rebuild (h : cache.Pending drafts) (hk : drafts.Keyed)
    (hall : ∀ n m, Relation.TransGen (Refers drafts) n m → Table.get? atHand m = (drafts m).toOption)
    (hd : Completed drafts missing name d)
    (hbelow : ∀ n f g, Relation.TransGen (Refers drafts) name n → Completed drafts missing n f →
      Completed (cache.standIns drafts) missing n g → Alike g.nodes f.nodes)
    {held : Document} (hheld : cache.standIns drafts name = .ok held)
    (he : Completed (cache.standIns drafts) missing name e) :
    Alike e.nodes (held.rebuild atHand).nodes := by
  have hks := h.standIns_keyed hk
  have hexact : held.unresolved = bodyReferences held.nodes := hks.isExact hheld
  have hleads : ∀ n ∈ bodyReferences held.nodes, Relation.TransGen (Refers drafts) name n :=
    fun n hn => h.transGen_of_refers ⟨held, hheld, hexact ▸ hn⟩
  have hsupplies : ∀ n m, Relation.TransGen (Refers drafts) n m →
      Supplies drafts (Document.nodesOf atHand) m := by
    intro n m hm
    unfold Supplies
    rw [Document.get?_nodesOf, hall n m hm]
  refine Alike.trans ?_ (Document.alike_rebuild (hks.keyed hheld) atHand).symm
  cases he with
  | flat found flat =>
    obtain rfl := Except.ok.inj (found.symm.trans hheld)
    have hnone : bodyReferences e.nodes = [] := hexact ▸ Document.isFlat_iff.1 flat
    rw [inlineBody_of_absent fun n hn => absurd (hnone ▸ hn) List.not_mem_nil,
      inlineBody_nil_nil (hks.keyed hheld)]
  | @rebuilt _ held' done found _ needed complete absent =>
    obtain rfl := Except.ok.inj (found.symm.trans hheld)
    have hready : Ready drafts missing (Document.nodesOf atHand) done held'.nodes :=
      ⟨fun n hn hg => h.absent_iff.1 (absent n (hexact ▸ hn) hg), fun n hn => hsupplies name n (hleads n hn),
        fun n _ m hm => hsupplies n m hm⟩
    have hdone : ∀ n g, Table.get? done n = some g → StandsFor drafts done n g := by
      intro n g hg
      have hgc := complete n g hg
      have hreach := hleads n (hexact ▸ needed n g hg)
      obtain ⟨f, hf⟩ : ∃ f, Completed drafts missing n f :=
        (hd.of_reaches hreach.to_reflTransGen).resolve_right fun ha => hgc.not_absent (h.absent_iff.2 ha)
      obtain ⟨c, hc⟩ := hf.found
      refine ⟨hf.not_transGen_self, hgc.closed hks.toWellFormed complete, c, hc, fun M hM S => ?_⟩
      exact (hf.alike_inlineBody hk hc hM S).trans
        (.inlineBody (.refl _) (.refl _) (hbelow n f g hreach hf hgc).symm)
    exact (Document.alike_rebuild (hks.keyed hheld) done).trans
      (alike_inlineBody_of_standsFor hdone (.refl []) hready).symm

/-- If all names below are completed alike, a name is completed alike exactly if what is cached under it
has lost nothing. -/
theorem Pending.alike_iff_faithful (h : cache.Pending drafts) (hk : drafts.Keyed)
    (hall : ∀ n m, Relation.TransGen (Refers drafts) n m → Table.get? atHand m = (drafts m).toOption)
    (hd : Completed drafts missing name d)
    (hbelow : ∀ n f g, Relation.TransGen (Refers drafts) name n → Completed drafts missing n f →
      Completed (cache.standIns drafts) missing n g → Alike g.nodes f.nodes)
    (he : Completed (cache.standIns drafts) missing name e) :
    Alike e.nodes d.nodes ↔ cache.Faithful drafts atHand name := by
  obtain ⟨c, hc⟩ := hd.found
  have hfresh : Alike d.nodes (c.rebuild atHand).nodes := hd.alike_rebuild hk hc (hall name)
  cases hheld : cache.held name with
  | none =>
    have hsame := h.alike_rebuild hk hall hd hbelow ((standIns_of_not_held hheld).trans hc) he
    refine iff_of_true (hsame.trans hfresh.symm) fun f g hf => ?_
    rw [hheld] at hf
    cases hf
  | some held =>
    have hsession := h.alike_rebuild hk hall hd hbelow (standIns_of_held hheld) he
    constructor
    · intro halike f g hf hg
      obtain rfl := Option.some.inj (hheld.symm.trans hf)
      obtain rfl := Except.ok.inj (hc.symm.trans hg)
      exact hsession.symm.trans (halike.trans hfresh)
    · intro hfaithful
      have hrebuilt : Alike (held.rebuild atHand).nodes (c.rebuild atHand).nodes :=
        hfaithful held c hheld hc
      exact hsession.trans (hrebuilt.trans hfresh.symm)

theorem Pending.alike_of_faithful (h : cache.Pending drafts) (hk : drafts.Keyed)
    (hall : ∀ n m, Relation.TransGen (Refers drafts) n m → Table.get? atHand m = (drafts m).toOption)
    (hf : ∀ n, Relation.ReflTransGen (Refers drafts) name n → cache.Faithful drafts atHand n)
    (hd : Completed drafts missing name d) (he : Completed (cache.standIns drafts) missing name e) :
    Alike e.nodes d.nodes := by
  have hacc := hd.acc.transGen
  induction hacc generalizing d e with
  | intro name _ ih =>
    refine (h.alike_iff_faithful hk hall hd (fun n f g hn hfc hgc => ?_) he).2 (hf name .refl)
    exact ih n (Relation.transGen_swap.2 hn) (fun m hm => hf m (hn.to_reflTransGen.trans hm)) hfc hgc

end Agreement

end Cache

end Templating
