import Templating.Proofs.Pending

/-!
# Requests

A template can be asked for in one source, and its document is then cached under a key of its own. Such
a request ends as completion says, if the key stands for what that source has. It does so on whatever was
cached before by operations on documents.
-/

namespace Templating

open Resolve Drafts

/-! ### What may be cached -/

/-- A document that the operations on documents make. -/
inductive Document.Made : Document → Prop where
  | ofNodes (name : String) (nodes : List Node) : Made (.ofNodes name nodes)
  | rebuild {d : Document} {atHand : Table Document} (h : Made d)
    (hall : ∀ n e, Table.get? atHand n = some e → Made e) : Made (d.rebuild atHand)
  | renamed {d : Document} (h : Made d) (name : String) : Made (d.renamed name)

theorem Document.Made.isExact {d : Document} (h : d.Made) : d.IsExact := by
  induction h with
  | ofNodes => rfl
  | rebuild => exact Document.isExact_rebuild _ _
  | renamed _ _ ih => exact ih

namespace Cache

/-- A cache into which anybody has put made documents and from which anybody has removed some. -/
inductive Filled : Cache → Prop where
  | empty (enabled : Bool) : Filled (.empty enabled)
  | insert {cache next : Cache} {d : Document} {replace : Bool} (h : Filled cache) (made : d.Made)
    (inserted : cache.insert d replace = .ok next) : Filled next
  | remove {cache next : Cache} {name : String} {removal : Removal} (h : Filled cache)
    (removed : cache.remove name = .ok (removal, next)) : Filled next
  | switch {cache : Cache} (h : Filled cache) (on : Bool) : Filled (cache.setEnabled on)

variable {cache next : Cache} {name : String} {d : Document}

theorem get?_documents_of_insert {e : Document} {replace : Bool} (h : cache.insert e replace = .ok next)
    (hget : Table.get? next.documents name = some d) :
    (name = e.name ∧ d = e) ∨ Table.get? cache.documents name = some d := by
  unfold insert at h
  split at h
  · obtain rfl := Except.ok.inj h
    exact .inr hget
  · split at h
    · cases h
    · obtain rfl := Except.ok.inj h
      rw [Table.get?_insert] at hget
      split at hget
      · next hname => exact .inl ⟨hname, (Option.some.inj hget).symm⟩
      · exact .inr hget

theorem get?_documents_of_remove {removed : String} {removal : Removal}
    (h : cache.remove removed = .ok (removal, next))
    (hget : Table.get? next.documents name = some d) : Table.get? cache.documents name = some d := by
  unfold remove at h
  split at h
  · cases h
  · obtain ⟨-, rfl⟩ := Prod.mk.inj (Except.ok.inj h)
    rw [Table.get?_erase] at hget
    split at hget
    · cases hget
    · exact hget

theorem Filled.get?_documents (h : cache.Filled) (hget : Table.get? cache.documents name = some d) :
    d.name = name ∧ d.Made := by
  induction h generalizing name d with
  | empty enabled => cases hget
  | insert _ made inserted ih =>
    rcases get?_documents_of_insert inserted hget with ⟨rfl, rfl⟩ | hget
    · exact ⟨rfl, made⟩
    · exact ih hget
  | remove _ removed ih => exact ih (get?_documents_of_remove removed hget)
  | switch _ _ ih => exact ih hget

theorem Filled.held (h : cache.Filled) (hheld : cache.held name = some d) :
    d.name = name ∧ d.IsExact := by
  have hmade := h.get?_documents (get?_of_held hheld)
  exact ⟨hmade.1, hmade.2.isExact⟩

end Cache

/-! ### Answering a request -/

namespace Surroundings

variable {world : Surroundings} {drafts : Drafts} {p : Progress} {template : String}
  {source : Option String}

theorem known_standIns (cache : Cache) :
    world.Known (cache.standIns (world.registry.sourced source template)) cache :=
  Cache.standIns_known (world.registry.exists_draft_of_sourced source template)

end Surroundings

namespace Renderer

variable {renderer : Renderer} {p : Progress} {template : String} {source : Option String}

theorem exec_documentFrom_of_isEmpty (h : template.isEmpty = true) (source : Option String)
    (p : Progress) :
    exec (renderer.documentFrom source template) p =
      (.error (.noTemplateExists "(no key provided)"), p) := by
  unfold documentFrom
  simp only [h, if_true]
  rfl

theorem exec_documentFrom_of_empty {enabled : Bool} (source : Option String)
    (hname : template.isEmpty = false) :
    exec (renderer.documentFrom source template) ⟨.empty enabled, []⟩ =
      exec (renderer.surroundings.resolve template source) ⟨.empty enabled, []⟩ := by
  apply exec_documentFrom_of_not_served hname
  rw [Cache.held_eq_none (.inl rfl), Option.filter_none]

theorem documentFrom_ends_of_filled (renderer : Renderer) (hcache : p.cache.Filled)
    (source : Option String) (hname : template.isEmpty = false) :
    (p.cache.standIns (renderer.registry.sourced source template)).Ends
      (renderer.registry.sourced source template) renderer.missing p
      ((p.cache.standIns (renderer.registry.sourced source template)).Outcome renderer.missing []
        (cacheKey template source))
      (exec (renderer.documentFrom source template) p) :=
  documentFrom_ends
    (Cache.standIns_wellFormed hcache.held (renderer.registry.wellFormed_sourced source template))
    (@Surroundings.known_standIns renderer.surroundings template source p.cache)
    (fun _ _ => rfl) (Cache.standIns_coherent fun hd => (hcache.held hd).1) hname

theorem completed_of_documentFrom (hcache : p.cache.Filled) {d : Document}
    (h : (exec (renderer.documentFrom source template) p).1 = .ok d) :
    Completed (p.cache.standIns (renderer.registry.sourced source template)) renderer.missing
      (cacheKey template source) d := by
  cases hname : template.isEmpty with
  | true =>
    rw [exec_documentFrom_of_isEmpty hname] at h
    cases h
  | false =>
    have hend := (documentFrom_ends_of_filled renderer hcache source hname).result
    rw [h] at hend
    exact hend

end Renderer

end Templating
