import Templating.Proofs.Relevance

/-!
# Policies

Missing templates are a failure or are left open. A template that is completed where they are a failure is
completed to the same document where they are left open. Conversely only a template that nobody has can stand
in the way: a text that cannot be read, a refused access and a cycle fail under both policies.
-/

namespace Templating

open Resolve

namespace Drafts

variable {drafts : Drafts} {chain : List String} {name : String} {d : Document} {e : Error}

theorem Completed.defer (h : Completed drafts .fail name d) : Completed drafts .defer name d := by
  induction h with
  | flat found flat => exact .flat found flat
  | rebuilt found unfinished needed _ absent ih =>
    apply Completed.rebuilt found unfinished needed ih
    intro n hn hget
    obtain ⟨hpolicy, -⟩ := absent n hn hget
    cases hpolicy

theorem Fails.defer (h : Fails drafts .fail chain name e) (hother : ∀ asked, e ≠ .noTemplateExists asked) :
    Fails drafts .defer chain name e := by
  induction h with
  | draft found => exact .draft found
  | cyclic found back => exact .cyclic found back
  | @reference chain before after name x d e found forward split earlier _ _ ih =>
    have hbefore : ∀ n ∈ before, Absent drafts .defer n ∨ ∃ f, Completed drafts .defer n f := by
      intro n hn
      rcases earlier n hn with ⟨hpolicy, -⟩ | ⟨f, hf⟩
      · cases hpolicy
      · exact .inr ⟨f, hf.defer⟩
    have hfails := ih hother
    exact .reference found forward split hbefore (hfails.not_absent hother) hfails

/-- Where a name is completed or absent once missing templates are left open, it fails without that only
for a template that is missing. -/
theorem Fails.exists_missing (h : Fails drafts .fail chain name e) (hl : Leads drafts chain name)
    (hlenient : (∃ d, Completed drafts .defer name d) ∨ Absent drafts .defer name) :
    ∃ n asked, Relation.ReflTransGen (Refers drafts) name n ∧
      drafts n = .error (.noTemplateExists asked) ∧ e = .noTemplateExists asked := by
  induction h with
  | @draft chain name e found =>
    rcases hlenient with ⟨d, hd⟩ | ⟨-, asked, hmissing⟩
    · exact (hd.not_fails hl (.draft found)).elim
    · exact ⟨name, asked, .refl, hmissing, Except.error.inj (found.symm.trans hmissing)⟩
  | cyclic found back =>
    rcases hlenient with ⟨d, hd⟩ | habsent
    · exact (hd.not_fails hl (.cyclic found back)).elim
    · exact (not_absent_of_ok found habsent).elim
  | @reference chain before after name x d e found _ split _ _ _ ih =>
    have hrefers := refers_of_split found split
    rcases hlenient with ⟨f, hf⟩ | habsent
    · obtain ⟨n, asked, hreach, hmissing, he⟩ := ih (hl.next hrefers) (hf.of_refers hrefers)
      exact ⟨n, asked, .head hrefers hreach, hmissing, he⟩
    · exact (habsent.not_refers x hrefers).elim

theorem Completed.sound_or_absent {missing : Missing} (h : Completed drafts missing name d) {n : String}
    (hreach : Relation.ReflTransGen (Refers drafts) name n) :
    ((∃ f, drafts n = .ok f) ∨ Absent drafts missing n) ∧ ¬ Relation.TransGen (Refers drafts) n n := by
  rcases h.of_reaches hreach with ⟨f, hf⟩ | habsent
  · exact ⟨.inl hf.found, hf.not_transGen_self⟩
  · refine ⟨.inr habsent, fun hcycle => ?_⟩
    obtain ⟨m, hrefers, -⟩ := Relation.TransGen.head'_iff.1 hcycle
    exact habsent.not_refers m hrefers

end Drafts

namespace Renderer

/-- What is answered under a policy while nothing is cached. -/
def answerUnder (renderer : Renderer) (missing : Missing) (enabled : Bool) (template : String) :
    Except Error Document :=
  (exec ({ renderer with missing }.document template) ⟨.empty enabled, []⟩).1

theorem answered_answerUnder (renderer : Renderer) (missing : Missing) (enabled : Bool) (template : String) :
    Answered renderer.registry.drafts missing template (renderer.answerUnder missing enabled template) :=
  @answered_of_not_held { renderer with missing } ⟨.empty enabled, []⟩ (Cache.held_eq_none (.inl rfl)) template

variable {renderer : Renderer} {missing : Missing} {enabled : Bool} {template : String} {d : Document}

theorem completed_of_answerUnder (h : renderer.answerUnder missing enabled template = .ok d) :
    template.isEmpty = false ∧ Drafts.Completed renderer.registry.drafts missing template d := by
  have hend := renderer.answered_answerUnder missing enabled template
  rw [h] at hend
  exact hend.completed

theorem answerUnder_eq_of_outcome {r : Except Error Document} (hname : template.isEmpty = false)
    (h : Drafts.Outcome renderer.registry.drafts missing [] template r) :
    renderer.answerUnder missing enabled template = r :=
  (renderer.answered_answerUnder missing enabled template).unique ((answered_iff_outcome hname).2 h)

theorem answerUnder_defer (h : renderer.answerUnder .fail enabled template = .ok d) :
    renderer.answerUnder .defer enabled template = .ok d := by
  obtain ⟨hname, hd⟩ := completed_of_answerUnder h
  exact answerUnder_eq_of_outcome hname hd.defer

theorem answerUnder_fail (h : renderer.answerUnder .defer enabled template = .ok d) :
    renderer.answerUnder .fail enabled template = .ok d ∨
      ∃ n, renderer.Reaches template n ∧
        (renderer.registry.find n none).found = .error (.noTemplateExists n) ∧
        renderer.answerUnder .fail enabled template = .error (.noTemplateExists n) := by
  obtain ⟨hname, hd⟩ := completed_of_answerUnder h
  have hend := (answered_iff_outcome hname).1 (renderer.answered_answerUnder .fail enabled template)
  cases hr : renderer.answerUnder .fail enabled template with
  | ok f => exact .inl ((answerUnder_defer hr).symm.trans h)
  | error e =>
    rw [hr] at hend
    have hfails : Drafts.Fails renderer.registry.drafts .fail [] template e := hend
    obtain ⟨n, asked, hreach, hmissing, rfl⟩ := hfails.exists_missing (.nil _ template) (.inl ⟨d, hd⟩)
    obtain ⟨rfl, hfind⟩ := Registry.find_of_drafts_missing hmissing
    exact .inr ⟨asked, hreach, hfind, rfl⟩

theorem answerUnder_defer_error {e : Error} (h : renderer.answerUnder .fail enabled template = .error e)
    (hother : ∀ n, e ≠ .noTemplateExists n) : renderer.answerUnder .defer enabled template = .error e := by
  have hend := renderer.answered_answerUnder .fail enabled template
  rw [h] at hend
  cases hname : template.isEmpty with
  | true => exact absurd (Except.error.inj ((answered_iff_refused hname).1 hend)) (hother _)
  | false =>
    have hfails : Drafts.Fails renderer.registry.drafts .fail [] template e :=
      (answered_iff_outcome hname).1 hend
    exact answerUnder_eq_of_outcome hname (hfails.defer hother)

theorem reached_of_answerUnder_defer (h : renderer.answerUnder .defer enabled template = .ok d) {n : String}
    (hreach : renderer.Reaches template n) :
    ((∃ f, renderer.registry.drafts n = .ok f) ∨
        (renderer.registry.find n none).found = .error (.noTemplateExists n)) ∧
      ¬ Relation.TransGen (Drafts.Refers renderer.registry.drafts) n n := by
  obtain ⟨-, hd⟩ := completed_of_answerUnder h
  obtain ⟨hreached, hacyclic⟩ := hd.sound_or_absent hreach
  refine ⟨hreached.imp_right ?_, hacyclic⟩
  rintro ⟨-, asked, hmissing⟩
  exact (Registry.find_of_drafts_missing hmissing).2

/-- The policies agree wherever they can. What is answered with missing templates as failures is answered
when they are left open; what is answered then is the answer or fails for a template that is led to and that
nobody has. No other failure is put off: it stays, and no template that an answer leads to is refused, cannot
be read or leads back to itself. -/
theorem policies_agree (renderer : Renderer) (enabled : Bool) (template : String) :
    (∀ d, renderer.answerUnder .fail enabled template = .ok d →
      renderer.answerUnder .defer enabled template = .ok d) ∧
    (∀ d, renderer.answerUnder .defer enabled template = .ok d →
      renderer.answerUnder .fail enabled template = .ok d ∨
        ∃ n, renderer.Reaches template n ∧
          (renderer.registry.find n none).found = .error (.noTemplateExists n) ∧
          renderer.answerUnder .fail enabled template = .error (.noTemplateExists n)) ∧
    (∀ e, renderer.answerUnder .fail enabled template = .error e → (∀ n, e ≠ .noTemplateExists n) →
      renderer.answerUnder .defer enabled template = .error e) ∧
    (∀ d, renderer.answerUnder .defer enabled template = .ok d → ∀ n, renderer.Reaches template n →
      ((∃ f, renderer.registry.drafts n = .ok f) ∨
          (renderer.registry.find n none).found = .error (.noTemplateExists n)) ∧
        ¬ Relation.TransGen (Drafts.Refers renderer.registry.drafts) n n) :=
  ⟨fun _ h => answerUnder_defer h, fun _ h => answerUnder_fail h, fun _ h hother =>
    answerUnder_defer_error h hother, fun _ h _ hreach => reached_of_answerUnder_defer h hreach⟩

/-- The page with an extend of what nobody has is answered under one policy only. -/
example : (scattered.answerUnder .defer true "page").toOption.map Document.unresolved = some ["gone"] ∧
    (scattered.answerUnder .fail true "page").toOption.isNone = true := by
  decide +kernel

end Renderer

end Templating
