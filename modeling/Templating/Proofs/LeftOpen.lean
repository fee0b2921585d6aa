import Templating.Proofs.Requests

/-!
# What is left open

A resolution leaves open only what is nowhere: a name that an answered document still needs was not
cached when the template was asked for, and the search does not find it. Where a missing template is a
failure nothing is left open, so that no render is refused for an open document.
-/

namespace Templating

open Resolve Drafts

namespace Drafts

variable {drafts : Drafts} {missing : Missing} {chain : List String} {name : String}

theorem Fails.origin {e : Error} (h : Fails drafts missing chain name e) :
    (∃ x path, e = .cyclicalReference x path) ∨ ∃ n, drafts n = .error e := by
  induction h with
  | draft found => exact .inr ⟨_, found⟩
  | cyclic => exact .inl ⟨_, _, rfl⟩
  | reference _ _ _ _ _ _ ih => exact ih

end Drafts

namespace Registry

variable {registry : Registry} {source : Option String} {template name : String}

theorem draft_ne_unresolved (document : String) (references : Names) :
    registry.draft source template ≠ .error (.unresolvedDocument document references) := by
  intro h
  rcases draft_error h with ⟨why, he⟩ | he | ⟨text, problem, he⟩
  · cases he
  · cases he
  · cases he

theorem not_found_of_drafts {asked : String} (h : registry.drafts name = .error (.noTemplateExists asked)) :
    ¬ ∃ found, (registry.find name none).found = .ok found := by
  rintro ⟨found, hf⟩
  cases hf.symm.trans (find_of_drafts_missing h).2

end Registry

namespace Renderer

variable {renderer : Renderer} {p : Progress} {template : String} {source : Option String}

theorem documentFrom_ne_unresolved (hcache : p.cache.Filled) (document : String) (references : Names) :
    (exec (renderer.documentFrom source template) p).1 ≠
      .error (.unresolvedDocument document references) := by
  intro h
  cases hname : template.isEmpty with
  | true =>
    rw [exec_documentFrom_of_isEmpty hname] at h
    cases h
  | false =>
    have hend := (documentFrom_ends_of_filled renderer hcache source hname).result
    rw [h] at hend
    have hfails : Fails (p.cache.standIns (renderer.registry.sourced source template)) renderer.missing []
        (cacheKey template source) (.unresolvedDocument document references) := hend
    rcases hfails.origin with ⟨x, path, he⟩ | ⟨n, hn⟩
    · cases he
    · cases hheld : p.cache.held n with
      | some d =>
        rw [Cache.standIns_of_held hheld] at hn
        cases hn
      | none =>
        obtain ⟨asked, key, hdraft⟩ := renderer.registry.exists_draft_of_sourced source template n
        rw [Cache.standIns_of_not_held hheld, hdraft] at hn
        exact Registry.draft_ne_unresolved document references hn

theorem not_held_and_not_found (hcache : p.cache.Filled) {d : Document}
    (h : (exec (renderer.documentFrom source template) p).1 = .ok d) {n : String}
    (hn : n ∈ d.unresolved) :
    p.cache.held n = none ∧ ¬ ∃ found, (renderer.registry.find n none).found = .ok found := by
  have hw := Cache.standIns_wellFormed hcache.held (renderer.registry.wellFormed_sourced source template)
  have hd := completed_of_documentFrom hcache h
  obtain ⟨⟨-, asked, ha⟩, -⟩ := hd.unresolved hw hn
  have hother : n ≠ cacheKey template source := by
    rintro rfl
    obtain ⟨e, he⟩ := hd.found
    rw [he] at ha
    cases ha
  cases hheld : p.cache.held n with
  | some e =>
    rw [Cache.standIns_of_held hheld] at ha
    cases ha
  | none =>
    rw [Cache.standIns_of_not_held hheld, Registry.sourced_of_ne hother] at ha
    exact ⟨rfl, Registry.not_found_of_drafts ha⟩

theorem isFlat_of_documentFrom (hcache : p.cache.Filled) (hmissing : renderer.missing = .fail)
    {d : Document} (h : (exec (renderer.documentFrom source template) p).1 = .ok d) :
    d.isFlat = true := by
  have hw := Cache.standIns_wellFormed hcache.held (renderer.registry.wellFormed_sourced source template)
  have hd := completed_of_documentFrom hcache h
  rw [hmissing] at hd
  exact hd.isFlat_of_fail hw

theorem renderFrom_ne_unresolved (hcache : p.cache.Filled) (hmissing : renderer.missing = .fail)
    (context : Value) (document : String) (references : Names) :
    (exec (renderer.renderFrom source template context) p).1 ≠
      .error (.unresolvedDocument document references) := by
  intro h
  rw [exec_renderFrom] at h
  unfold written at h
  cases hc : context.context with
  | error e =>
    rw [hc] at h
    unfold Value.context at hc
    split at hc
    · cases hc
    · cases hc
    · cases hc
      cases h
  | ok entries =>
    rw [hc] at h
    cases hd : (exec (renderer.documentFrom source template) p).1 with
    | error e =>
      rw [hd] at h
      have he : e = .unresolvedDocument document references := Except.error.inj h
      rw [he] at hd
      exact documentFrom_ne_unresolved hcache document references hd
    | ok d =>
      rw [hd] at h
      have hwrite : d.write renderer.callables entries =
          .error (.unresolvedDocument document references) := h
      unfold Document.write at hwrite
      rw [isFlat_of_documentFrom hcache hmissing hd, if_pos rfl] at hwrite
      cases hw : writeNodes renderer.callables d.nodes entries with
      | error why => rw [hw] at hwrite; cases hwrite
      | ok text => rw [hw] at hwrite; cases hwrite

/-- Resolution is complete, whatever made documents are cached. What an answered document still needs
was not held and is not found, and with missing templates as failures it needs nothing: then no render
is refused for an open document. -/
theorem documentFrom_complete (hcache : p.cache.Filled) (source : Option String) (template : String) :
    (∀ d, (exec (renderer.documentFrom source template) p).1 = .ok d →
      ∀ n ∈ d.unresolved,
        p.cache.held n = none ∧ ¬ ∃ found, (renderer.registry.find n none).found = .ok found) ∧
      (renderer.missing = .fail →
        (∀ d, (exec (renderer.documentFrom source template) p).1 = .ok d → d.isFlat = true) ∧
          ∀ context document references,
            (exec (renderer.renderFrom source template context) p).1 ≠
              .error (.unresolvedDocument document references)) :=
  ⟨fun _ hd _ hn => not_held_and_not_found hcache hd hn, fun hmissing =>
    ⟨fun _ hd => isFlat_of_documentFrom hcache hmissing hd, renderFrom_ne_unresolved hcache hmissing⟩⟩

/-- Somebody has cached a site that extends the page. -/
def sited : Cache := ⟨true, [("site", .ofNodes "site" [.extend "page" []])]⟩

theorem filled_sited : sited.Filled :=
  .insert (.empty true) (.ofNodes "site" [.extend "page" []]) (by rfl : (Cache.empty true).insert _ false = _)

theorem documentFrom_complete_sited :
    sited.Filled ∧
      (∃ d, (exec (layered.documentFrom none "site") ⟨sited, []⟩).1 = .ok d ∧ d.unresolved = ["gone"] ∧
        sited.held "gone" = none ∧ ¬ ∃ found, (layered.registry.find "gone" none).found = .ok found) ∧
      ∀ context document references,
        (exec ({ layered with missing := .fail }.renderFrom none "site" context) ⟨sited, []⟩).1 ≠
          .error (.unresolvedDocument document references) := by
  have hrun : (exec (layered.documentFrom none "site") ⟨sited, []⟩).1.toOption.map
      Document.unresolved = some ["gone"] := by decide +kernel
  obtain ⟨d, hd, hneeds⟩ := exists_ok_of_map_toOption hrun
  have hcomplete := (@documentFrom_complete layered ⟨sited, []⟩ filled_sited none "site").1 d hd
  have hstrict := (@documentFrom_complete { layered with missing := .fail } ⟨sited, []⟩ filled_sited none
    "site").2 rfl
  exact ⟨filled_sited, ⟨d, hd, hneeds, hcomplete "gone" (by rw [hneeds]; exact List.mem_singleton_self _)⟩,
    hstrict.2⟩

end Renderer

end Templating
