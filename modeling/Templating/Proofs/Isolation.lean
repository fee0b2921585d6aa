import Templating.Proofs.Termination

/-!
# Isolation

Two requests that are answered one after the other share a cache. The second is answered as if it were
the only one, as long as both mean the same by every name that both ask for. The key of a request to one
source is a name like any other: where the search knows a template under it, or another source and
template have it too, the second request is answered with what the first one left there.
-/

namespace Templating

open Resolve Drafts

/-- A template that is asked for, in one source if its key is given. -/
structure Request where
  source : Option String
  template : String

namespace Registry

variable (registry : Registry) (first second r : Request)

def meant : Drafts := registry.sourced r.source r.template

/-- The names that a request asks for: its own key, and whatever that leads to. -/
def Asks (name : String) : Prop :=
  Relation.ReflTransGen (Refers (registry.meant r)) (cacheKey r.template r.source) name

/-- Two requests mean the same by every name that both ask for. -/
def Agree : Prop :=
  ∀ name, registry.Asks first name → registry.Asks second name →
    registry.meant first name = registry.meant second name

open Classical in
/-- What the names stand for in two requests: where the first asks, what they stand for there. -/
noncomputable def both : Drafts := fun name =>
  if registry.Asks first name then registry.meant first name else registry.meant second name

variable {registry first second r} {name : String} {drafts : Drafts}

theorem meant_eq_drafts (h : r.source = none ∨ name ≠ cacheKey r.template r.source) :
    registry.meant r name = registry.drafts name := by
  obtain ⟨source, template⟩ := r
  rcases h with rfl | h
  · exact congrFun (registry.sourced_none template) name
  · exact sourced_of_ne h

/-- Only the key of a request to one source can mean something else to it than to another request. -/
theorem agree_of_not_asked
    (hfirst : first.source = none ∨ ¬ registry.Asks second (cacheKey first.template first.source))
    (hsecond : second.source = none ∨ ¬ registry.Asks first (cacheKey second.template second.source)) :
    registry.Agree first second := by
  intro name hn hn'
  have hf : registry.meant first name = registry.drafts name :=
    meant_eq_drafts (hfirst.imp_right fun hnot he => hnot (he ▸ hn'))
  have hs : registry.meant second name = registry.drafts name :=
    meant_eq_drafts (hsecond.imp_right fun hnot he => hnot (he ▸ hn))
  exact hf.trans hs.symm

theorem asks_of_reaches (h : ∀ n, registry.Asks r n → drafts n = registry.meant r n)
    (hr : Relation.ReflTransGen (Refers drafts) (cacheKey r.template r.source) name) :
    registry.Asks r name := by
  induction hr with
  | refl => exact .refl
  | tail _ hr ih =>
    obtain ⟨d, hd, hn⟩ := hr
    exact ih.tail ⟨d, (h _ ih).symm.trans hd, hn⟩

theorem both_of_asks_first (h : registry.Asks first name) :
    registry.both first second name = registry.meant first name := if_pos h

theorem both_of_asks_second (hagree : registry.Agree first second) (h : registry.Asks second name) :
    registry.both first second name = registry.meant second name := by
  unfold both
  split
  · next hfirst => exact hagree name hfirst h
  · rfl

theorem exists_draft_of_both (name : String) :
    ∃ source template, registry.both first second name = registry.draft source template := by
  unfold both
  split
  · exact registry.exists_draft_of_sourced _ _ name
  · exact registry.exists_draft_of_sourced _ _ name

theorem wellFormed_both : (registry.both first second).WellFormed := by
  have hof : ∀ {name d}, registry.both first second name = .ok d →
      ∃ r, registry.meant r name = .ok d := by
    intro name d hd
    unfold both at hd
    split at hd
    · exact ⟨first, hd⟩
    · exact ⟨second, hd⟩
  refine ⟨fun hd => ?_, fun hd => ?_⟩
  · obtain ⟨r, hd⟩ := hof hd
    exact (registry.wellFormed_sourced _ _).name_eq hd
  · obtain ⟨r, hd⟩ := hof hd
    exact (registry.wellFormed_sourced _ _).isExact hd

end Registry

namespace Surroundings

variable {world : Surroundings} {p q : Progress} {template : String} {source : Option String}
  {d : Document}

theorem held_of_lookUp {done : Bool} (h : exec (world.lookUp template source) p = (.ok (d, done), q))
    (hdone : done = true) : q.cache.held (cacheKey template source) = some d := by
  cases hheld : p.cache.held (cacheKey template source) with
  | some e =>
    rw [exec_lookUp_of_held world hheld] at h
    obtain ⟨hr, rfl⟩ := Prod.mk.inj h
    rw [hheld, (Prod.mk.inj (Except.ok.inj hr)).1]
  | none =>
    rw [exec_lookUp_of_not_held world hheld] at h
    obtain ⟨hr, -⟩ := Prod.mk.inj h
    cases hd : world.registry.draft source template with
    | ok e =>
      rw [hd] at hr
      rw [← (Prod.mk.inj (Except.ok.inj hr)).2] at hdone
      cases hdone
    | error e => rw [hd] at hr; cases hr

theorem stored_of_finish {r : Except Error Document} (h : (finish r p).1 = .ok d) :
    (finish r p).2.cache = p.cache.stored d := by
  rw [(eq_ok_of_finish h).2]

theorem Fetches.held_or_stored {chain : List String} {call : Call} {r : Except Error Document}
    (h : world.Fetches chain template source p call r q) (hr : r = .ok d) :
    q.cache.held (cacheKey template source) = some d ∨ ∃ cache : Cache, q.cache = cache.stored d := by
  cases h with
  | refused => cases hr
  | complete look =>
    obtain rfl := Except.ok.inj hr
    exact .inl (held_of_lookUp look rfl)
  | flat => exact .inr ⟨_, stored_of_finish hr⟩
  | passes => exact .inr ⟨_, stored_of_finish hr⟩

end Surroundings

namespace Renderer

variable {renderer : Renderer} {p : Progress} {template : String} {source : Option String}
  {d : Document} {first second r : Request}

theorem held_of_documentFrom (hcache : p.cache.Filled) (hon : p.cache.enabled = true)
    (h : (exec (renderer.documentFrom source template) p).1 = .ok d) :
    (exec (renderer.documentFrom source template) p).2.cache.held (cacheKey template source) = some d := by
  cases hname : template.isEmpty with
  | true =>
    rw [exec_documentFrom_of_isEmpty hname] at h
    cases h
  | false =>
    have hw := Cache.standIns_wellFormed hcache.held (renderer.registry.wellFormed_sourced source template)
    have hkey : d.name = cacheKey template source := (completed_of_documentFrom hcache h).name_eq hw
    have hkeeps := (documentFrom_ends_of_filled renderer hcache source hname).keeps.1
    cases hserved : (p.cache.held (cacheKey template source)).filter Document.isFlat with
    | some e =>
      rw [exec_documentFrom_of_served hname hserved] at h ⊢
      rw [← Except.ok.inj h]
      exact (Option.filter_eq_some_iff.1 hserved).1
    | none =>
      rw [exec_documentFrom_of_not_served hname hserved] at h hkeeps ⊢
      obtain ⟨call, -, hcourse⟩ :=
        @Surroundings.resolve_course renderer.surroundings p hcache template source
      rcases hcourse.held_or_stored h with hheld | ⟨cache, hstored⟩
      · exact hheld
      · have honCache : cache.enabled = true := by
          rw [← (Cache.keeps_stored cache d).1, ← hstored, hkeeps, hon]
        rw [hstored, Cache.held_stored, if_pos ⟨honCache, hkey.symm⟩]

theorem documentFrom_ends_of_both {base : Drafts}
    (hbase : base = renderer.registry.both first second) (hagree : renderer.registry.Agree first second)
    (hr : r = first ∨ r = second) (h : base.Coherent base renderer.missing p.cache)
    (hname : r.template.isEmpty = false) :
    base.Ends base renderer.missing p (base.Outcome renderer.missing [] (cacheKey r.template r.source))
      (exec (renderer.documentFrom r.source r.template) p) := by
  subst hbase
  -- the drafts are common to both requests, so that neither can tell that the other was there
  have hmeant : ∀ n, renderer.registry.Asks r n →
      renderer.registry.both first second n = renderer.registry.meant r n := by
    rcases hr with rfl | rfl
    · exact fun n => Registry.both_of_asks_first
    · exact fun n => Registry.both_of_asks_second hagree
  exact documentFrom_ends Registry.wellFormed_both (fun n => .inl (Registry.exists_draft_of_both n))
    (fun n hn => hmeant n (Registry.asks_of_reaches hmeant hn)) h hname

theorem documentFrom_after (hagree : renderer.registry.Agree first second)
    {p q : Progress} (hp : ∀ n, p.cache.held n = none)
    (hq : q = p ∨ q = (exec (renderer.documentFrom first.source first.template) p).2) :
    (exec (renderer.documentFrom second.source second.template) q).1 =
      (exec (renderer.documentFrom second.source second.template) p).1 := by
  have hempty : (renderer.registry.both first second).Coherent (renderer.registry.both first second)
      renderer.missing p.cache := coherent_of_not_held hp
  have hafter : (renderer.registry.both first second).Coherent (renderer.registry.both first second)
      renderer.missing q.cache := by
    rcases hq with rfl | rfl
    · exact hempty
    · cases hname : first.template.isEmpty with
      | true =>
        rw [exec_documentFrom_of_isEmpty hname]
        exact hempty
      | false => exact (documentFrom_ends_of_both rfl hagree (.inl rfl) hempty hname).coherent
  cases hname : second.template.isEmpty with
  | true => rw [exec_documentFrom_of_isEmpty hname, exec_documentFrom_of_isEmpty hname]
  | false =>
    have halone := (documentFrom_ends_of_both rfl hagree (.inr rfl) hempty hname).result
    have hsecond := (documentFrom_ends_of_both rfl hagree (.inr rfl) hafter hname).result
    exact hsecond.unique halone (.nil _ _)

/-- Of two requests that mean the same by every name that both ask for, the second is answered as if it
were the only one. If they have one key, the second is answered with the first one's document. -/
theorem renderFrom_isolated (renderer : Renderer) (first second : Request) (reads : List Read) :
    (renderer.registry.Agree first second → ∀ context later : Value,
      (exec (renderer.renderFrom second.source second.template later)
        (exec (renderer.renderFrom first.source first.template context) ⟨.empty true, reads⟩).2).1 =
        (exec (renderer.renderFrom second.source second.template later) ⟨.empty true, reads⟩).1) ∧
      ∀ d, cacheKey first.template first.source = cacheKey second.template second.source →
        second.template.isEmpty = false →
        (exec (renderer.documentFrom first.source first.template) ⟨.empty true, reads⟩).1 = .ok d →
        d.isFlat = true →
        (exec (renderer.documentFrom second.source second.template)
          (exec (renderer.documentFrom first.source first.template) ⟨.empty true, reads⟩).2).1 = .ok d := by
  refine ⟨fun hagree context later => ?_, fun d hkey hname hd hflat => ?_⟩
  · rw [exec_renderFrom, exec_renderFrom]
    have hnone : ∀ n, (Cache.empty true).held n = none := Cache.held_eq_none (.inl rfl)
    exact congrArg (renderer.written later)
      (documentFrom_after hagree hnone (exec_renderFrom_progress _ _ context _))
  · have hheld := held_of_documentFrom (Cache.Filled.empty true) rfl hd
    rw [hkey] at hheld
    have hserved := Option.filter_eq_some_iff.2 ⟨hheld, hflat⟩
    rw [exec_documentFrom_of_served hname hserved]

/-- Two sources, of which only the first is searched. The search knows a template under the key of one
of the other source's templates. -/
def twoSources : Renderer :=
  .ofRegistry .blocking .fail
    ⟨[("main", (Memory.holding [("s:t", "default"), ("base", "<#import(\"body\")>"),
        ("page", "#extend(\"base\"):#export(\"body\"):searched#endexport#endextend")]).source),
      ("s", (Memory.holding [("t", "explicit"),
        ("page", "#extend(\"base\"):#export(\"body\"):given#endexport#endextend")]).source)],
      ["main"]⟩

theorem asks_page {name : String} (h : twoSources.registry.Asks ⟨none, "page"⟩ name) :
    name = "page" ∨ name = "base" := by
  have hpage : (twoSources.registry.drafts "page").toOption.map Document.unresolved = some ["base"] := by
    decide +kernel
  have hbase : (twoSources.registry.drafts "base").toOption.map Document.unresolved = some [] := by
    decide +kernel
  induction h with
  | refl => exact .inl rfl
  | tail _ hr ih =>
    obtain ⟨d, hd, hn⟩ := hr
    have hdraft : twoSources.registry.drafts _ = .ok d :=
      (congrFun (twoSources.registry.sourced_none "page") _).symm.trans hd
    rcases ih with rfl | rfl
    · rw [hdraft] at hpage
      have hneeds : d.unresolved = ["base"] := Option.some.inj hpage
      rw [hneeds] at hn
      exact .inr (List.mem_singleton.1 hn)
    · rw [hdraft] at hbase
      have hneeds : d.unresolved = [] := Option.some.inj hbase
      rw [hneeds] at hn
      cases hn

theorem agree_page : twoSources.registry.Agree ⟨some "s", "page"⟩ ⟨none, "page"⟩ := by
  refine Registry.agree_of_not_asked (.inr fun h => ?_) (.inl rfl)
  rcases asks_page h with h | h
  · exact absurd h (by decide)
  · exact absurd h (by decide)

theorem renderFrom_isolated_page :
    twoSources.registry.Agree ⟨some "s", "page"⟩ ⟨none, "page"⟩ ∧
      (exec (twoSources.renderFrom none "page" .null)
        (exec (twoSources.renderFrom (some "s") "page" .null) ⟨.empty true, []⟩).2).1 = .ok "<searched>" ∧
      ∃ d, (exec (twoSources.documentFrom (some "s") "t") ⟨.empty true, []⟩).1 = .ok d ∧
        (exec (twoSources.documentFrom none "s:t")
          (exec (twoSources.documentFrom (some "s") "t") ⟨.empty true, []⟩).2).1 = .ok d := by
  have halone : (exec (twoSources.renderFrom none "page" .null) ⟨.empty true, []⟩).1 = .ok "<searched>" :=
    ok_of_toOption (by decide +kernel)
  have hflat : (exec (twoSources.documentFrom (some "s") "t") ⟨.empty true, []⟩).1.toOption.map
      Document.isFlat = some true := by decide +kernel
  obtain ⟨d, hd, hdflat⟩ := exists_ok_of_map_toOption hflat
  have hpages := (renderFrom_isolated twoSources ⟨some "s", "page"⟩ ⟨none, "page"⟩ []).1 agree_page
  have hserved := (renderFrom_isolated twoSources ⟨some "s", "t"⟩ ⟨none, "s:t"⟩ []).2 d rfl rfl hd hdflat
  exact ⟨agree_page, (hpages .null .null).trans halone, d, hd, hserved⟩

/-- A template of one source takes the place of the one that the search knows under its key. -/
theorem render_after_collision :
    (exec (twoSources.render "s:t" .null) ⟨.empty true, []⟩).1 = .ok "default" ∧
      (exec (twoSources.render "s:t" .null)
        (exec (twoSources.renderFrom (some "s") "t" .null) ⟨.empty true, []⟩).2).1 = .ok "explicit" := by
  refine ⟨ok_of_toOption ?_, ok_of_toOption ?_⟩
  · decide +kernel
  · decide +kernel

end Renderer

end Templating
