import Templating.Proofs.Completion
import Templating.Proofs.Enclosing

/-!
# Running a resolution

A resolution runs from one state of progress to another. As long as the cache holds only drafts and
completed documents, each step of a run ends as completion says, whatever was cached before, and
leaves such a cache behind. The count that bounds the depth of a resolution is never used up, since
the names on a chain are distinct and all but the first are known beforehand.
-/

namespace Templating

/-! ### Steps -/

namespace Resolve

variable {α β : Type}

/-- The result of a step, and the progress after it. -/
def exec (step : Resolve α) (p : Progress) : Except Error α × Progress := (ExceptT.run step).run p

@[simp] theorem exec_pure (a : α) (p : Progress) : exec (pure a) p = (.ok a, p) := rfl

@[simp] theorem exec_get (p : Progress) : exec get p = (.ok p, p) := rfl

@[simp] theorem exec_modify (f : Progress → Progress) (p : Progress) :
    exec (modify f) p = (.ok ⟨⟩, f p) := rfl

theorem exec_bind (step : Resolve α) (next : α → Resolve β) (p : Progress) :
    exec (step >>= next) p =
      match exec step p with
      | (.ok a, q) => exec (next a) q
      | (.error e, q) => (.error e, q) := by
  show exec (ExceptT.bind step next) p = _
  unfold exec ExceptT.bind ExceptT.mk ExceptT.run
  show StateT.run (StateT.bind step _) p = _
  unfold StateT.run StateT.bind ExceptT.bindCont
  show (match step p with | (r, q) => _) = _
  rcases step p with ⟨r, q⟩
  cases r <;> rfl

theorem exec_bind_ok {step : Resolve α} {next : α → Resolve β} {p q : Progress} {a : α}
    (h : exec step p = (.ok a, q)) : exec (step >>= next) p = exec (next a) q := by
  rw [exec_bind, h]

theorem exec_bind_error {step : Resolve α} {next : α → Resolve β} {p q : Progress} {e : Error}
    (h : exec step p = (.error e, q)) : exec (step >>= next) p = (.error e, q) := by
  rw [exec_bind, h]

theorem exec_map (f : α → β) (step : Resolve α) (p : Progress) :
    exec (f <$> step) p = ((exec step p).1.map f, (exec step p).2) := by
  rw [map_eq_pure_bind, exec_bind]
  rcases exec step p with ⟨r, q⟩
  cases r <;> rfl

theorem exec_tryCatch (step : Resolve α) (handle : Error → Resolve α) (p : Progress) :
    exec (tryCatch step handle) p =
      match exec step p with
      | (.ok a, q) => (.ok a, q)
      | (.error e, q) => exec (handle e) q := by
  show exec (ExceptT.tryCatch step handle) p = _
  unfold exec ExceptT.tryCatch ExceptT.mk ExceptT.run
  show StateT.run (StateT.bind step _) p = _
  unfold StateT.run StateT.bind
  show (match step p with | (r, q) => _) = _
  rcases step p with ⟨r, q⟩
  cases r <;> rfl

theorem ok_of_toOption {r : Except Error α} {a : α} (h : r.toOption = some a) : r = .ok a := by
  cases r with
  | ok b => rw [Option.some.inj h]
  | error e => cases h

theorem exists_ok_of_map_toOption {r : Except Error α} {f : α → β} {b : β}
    (h : r.toOption.map f = some b) : ∃ a, r = .ok a ∧ f a = b := by
  cases r with
  | ok a => exact ⟨a, rfl, Option.some.inj h⟩
  | error e => cases h

end Resolve

open Resolve

/-! ### The cache and the sources -/

namespace Cache

/-- The document that a cache answers a name with. -/
def held (cache : Cache) (name : String) : Option Document :=
  if cache.enabled then Table.get? cache.documents name else none

/-- The cache after a document is stored in place of one of its name. -/
def stored (cache : Cache) (d : Document) : Cache :=
  if cache.enabled then { cache with documents := Table.insert d.name d cache.documents } else cache

theorem get?_of_held {cache : Cache} {name : String} {d : Document} (h : cache.held name = some d) :
    Table.get? cache.documents name = some d := by
  unfold held at h
  split at h
  · exact h
  · cases h

theorem held_eq_none {cache : Cache} (h : cache.documents = [] ∨ cache.enabled = false)
    (name : String) : cache.held name = none := by
  unfold held
  rcases h with h | h
  · rw [h, Table.get?_nil, ite_self]
  · rw [h]
    rfl

theorem held_stored (cache : Cache) (d : Document) (name : String) :
    (cache.stored d).held name =
      if cache.enabled = true ∧ name = d.name then some d else cache.held name := by
  unfold stored held
  cases h : cache.enabled with
  | true => simp [Table.get?_insert]
  | false => simp [h]

theorem insert_replace (cache : Cache) (d : Document) : cache.insert d true = .ok (cache.stored d) := by
  unfold insert stored
  cases cache.enabled <;> simp

/-- The switch stays, and while it is off nothing changes. -/
def Keeps (cache next : Cache) : Prop :=
  next.enabled = cache.enabled ∧ (cache.enabled = false → next = cache)

theorem Keeps.refl (cache : Cache) : cache.Keeps cache := ⟨rfl, fun _ => rfl⟩

theorem Keeps.trans {a b c : Cache} (h : a.Keeps b) (h' : b.Keeps c) : a.Keeps c :=
  ⟨h'.1.trans h.1, fun hoff => (h'.2 (h.1.trans hoff)).trans (h.2 hoff)⟩

theorem keeps_stored (cache : Cache) (d : Document) : cache.Keeps (cache.stored d) := by
  unfold Keeps stored
  cases h : cache.enabled with
  | true => simp
  | false => simp [h]

end Cache

/-- A memory of some templates. -/
def Memory.holding (templates : List (String × String)) : Memory :=
  templates.foldl (fun memory entry => memory.insert entry.1 entry.2) (Memory.empty defaultExtension)

namespace Registry

/-! ### Drafts -/

theorem mem_texts_of_searchAmong {template key text : String} {sources : List (String × Source)}
    (h : (searchAmong template sources).found = .ok (key, text)) :
    ∃ source, (key, source) ∈ sources ∧ text ∈ source.texts := by
  induction sources with
  | nil => cases h
  | cons entry sources ih =>
    obtain ⟨k, source⟩ := entry
    unfold searchAmong at h
    split at h
    · next t hread =>
      cases h
      exact ⟨source, List.mem_cons_self, source.mem_texts hread⟩
    · cases h
    · obtain ⟨s, hs, ht⟩ := ih h
      exact ⟨s, List.mem_cons_of_mem _ hs, ht⟩

theorem exists_of_map_eq_ok {α β : Type} {f : α → β} {r : Except Error α} {b : β}
    (h : r.map f = .ok b) : ∃ a, f a = b := by
  cases r with
  | error e => cases h
  | ok a => exact ⟨a, Except.ok.inj h⟩

theorem mem_texts_of_find {registry : Registry} {template key text : String} {explicit : Option String}
    (h : (registry.find template explicit).found = .ok (key, text)) : text ∈ registry.texts := by
  unfold find at h
  split at h
  · next sources hc =>
    obtain ⟨source, hs, ht⟩ := mem_texts_of_searchAmong h
    unfold candidates at hc
    obtain ⟨keys, rfl⟩ := exists_of_map_eq_ok hc
    obtain ⟨k, -, hk⟩ := List.mem_filterMap.1 hs
    obtain ⟨s, hget, he⟩ := Option.map_eq_some_iff.1 hk
    cases he
    exact List.mem_flatMap.2 ⟨_, Table.mem_of_get? hget, ht⟩
  · cases h

theorem searchAmong_error {template : String} {sources : List (String × Source)} {e : Error}
    (h : (searchAmong template sources).found = .error e) :
    (∃ why, e = .illegalAccess why) ∨ e = .noTemplateExists template := by
  induction sources with
  | nil => exact .inr (Except.error.inj h).symm
  | cons entry sources ih =>
    unfold searchAmong at h
    split at h
    · cases h
    · exact .inl ⟨_, (Except.error.inj h).symm⟩
    · exact ih h

theorem find_error {registry : Registry} {template : String} {explicit : Option String} {e : Error}
    (h : (registry.find template explicit).found = .error e) :
    (∃ why, e = .illegalAccess why) ∨ e = .noTemplateExists template := by
  unfold find at h
  split at h
  · exact searchAmong_error h
  · next why hc =>
    obtain rfl := Except.error.inj h
    unfold candidates at hc
    cases explicit with
    | none =>
      dsimp only at hc
      split at hc
      · exact .inl ⟨_, (Except.error.inj hc).symm⟩
      · cases hc
    | some key =>
      dsimp only at hc
      split at hc
      · cases hc
      · exact .inl ⟨_, (Except.error.inj hc).symm⟩

/-- The draft of a template's text, which one source is asked for if its key is given. -/
def draft (registry : Registry) (source : Option String) (template : String) :
    Except Error Document :=
  match (registry.find template source).found with
  | .error e => .error e
  | .ok (_, text) =>
    match parse text with
    | .ok nodes => .ok (Document.ofNodes (cacheKey template source) nodes)
    | .error problem => .error (.parse template text [problem])

/-- What the templates' texts say that names stand for. -/
def drafts (registry : Registry) : Drafts := registry.draft none

/-- What a request reads: its own template in the source that it gives, if any, and whatever that leads
to in the sources that are searched. -/
def sourced (registry : Registry) (source : Option String) (template : String) : Drafts := fun name =>
  if name = cacheKey template source then registry.draft source template else registry.drafts name

theorem sourced_key (registry : Registry) (source : Option String) (template : String) :
    registry.sourced source template (cacheKey template source) = registry.draft source template :=
  if_pos rfl

theorem sourced_of_ne {registry : Registry} {source : Option String} {template name : String}
    (h : name ≠ cacheKey template source) :
    registry.sourced source template name = registry.drafts name :=
  if_neg h

theorem sourced_none (registry : Registry) (template : String) :
    registry.sourced none template = registry.drafts := by
  funext name
  unfold sourced
  split
  · next h => rw [h]; rfl
  · rfl

theorem exists_draft_of_sourced (registry : Registry) (source : Option String) (template name : String) :
    ∃ asked key, registry.sourced source template name = registry.draft asked key := by
  unfold sourced
  split
  · exact ⟨source, template, rfl⟩
  · exact ⟨none, name, rfl⟩

theorem exists_parse_of_draft {registry : Registry} {source : Option String} {template : String}
    {d : Document} (h : registry.draft source template = .ok d) :
    ∃ text nodes, parse text = .ok nodes ∧ d = Document.ofNodes (cacheKey template source) nodes := by
  unfold draft at h
  split at h
  · cases h
  · split at h
    · next hparse => exact ⟨_, _, hparse, (Except.ok.inj h).symm⟩
    · cases h

theorem exists_ofNodes_of_drafts {registry : Registry} {name : String} {d : Document}
    (h : registry.drafts name = .ok d) : ∃ nodes, d = Document.ofNodes name nodes := by
  obtain ⟨-, nodes, -, hd⟩ := exists_parse_of_draft h
  exact ⟨nodes, hd⟩

theorem draft_error {registry : Registry} {source : Option String} {template : String} {e : Error}
    (h : registry.draft source template = .error e) :
    (∃ why, e = .illegalAccess why) ∨ e = .noTemplateExists template ∨
      ∃ text problem, e = .parse template text [problem] := by
  unfold draft at h
  split at h
  · next why hfound =>
    obtain rfl := Except.error.inj h
    exact (find_error hfound).imp_right .inl
  · next key text hfound =>
    split at h
    · cases h
    · next problem hparse => exact .inr (.inr ⟨text, problem, (Except.error.inj h).symm⟩)

theorem find_of_drafts_missing {registry : Registry} {name asked : String}
    (h : registry.drafts name = .error (.noTemplateExists asked)) :
    asked = name ∧ (registry.find name none).found = .error (.noTemplateExists name) := by
  unfold drafts draft at h
  cases hfound : (registry.find name none).found with
  | error e =>
    rw [hfound] at h
    obtain rfl : e = .noTemplateExists asked := Except.error.inj h
    rcases find_error hfound with ⟨why, he⟩ | he
    · cases he
    · exact ⟨Error.noTemplateExists.inj he, congrArg Except.error he⟩
  | ok found =>
    rw [hfound] at h
    dsimp only at h
    split at h
    · cases h
    · cases h

theorem exists_parse_of_sourced {registry : Registry} {source : Option String}
    {template name : String} {d : Document} (h : registry.sourced source template name = .ok d) :
    ∃ text nodes, parse text = .ok nodes ∧ d = Document.ofNodes name nodes := by
  unfold sourced at h
  split at h
  · next hname => exact hname ▸ exists_parse_of_draft h
  · exact exists_parse_of_draft h

theorem wellFormed_sourced (registry : Registry) (source : Option String) (template : String) :
    (registry.sourced source template).WellFormed where
  name_eq := by
    intro name d h
    obtain ⟨-, nodes, -, rfl⟩ := exists_parse_of_sourced h
    rfl
  isExact := by
    intro name d h
    obtain ⟨-, nodes, -, rfl⟩ := exists_parse_of_sourced h
    rfl

theorem wellFormed_drafts (registry : Registry) : registry.drafts.WellFormed :=
  registry.sourced_none "" ▸ registry.wellFormed_sourced none ""

theorem keyed_drafts (registry : Registry) : registry.drafts.Keyed where
  toWellFormed := registry.wellFormed_drafts
  keyed := by
    intro name d h
    obtain ⟨text, nodes, hparse, rfl⟩ := exists_parse_of_draft h
    exact Grammar.keyed_of_parse hparse

end Registry

/-! ### Steps of a resolution -/

/-- The progress once a template has been searched for. -/
def Progress.searched (p : Progress) (registry : Registry) (template : String)
    (source : Option String) : Progress :=
  { p with
    reads := p.reads ++ (registry.find template source).asked.map (⟨·, template, true⟩) }

namespace Surroundings

variable (world : Surroundings)

theorem exec_cached (name : String) (p : Progress) :
    exec (world.cached name) p = (.ok (p.cache.held name), p) := by
  unfold cached
  rw [exec_bind_ok (exec_get p)]
  unfold Cache.retrieve Cache.held
  cases p.cache.enabled with
  | true => rfl
  | false => cases world.access <;> rfl

theorem exec_store (d : Document) (p : Progress) :
    exec (store d) p = (.ok d, { p with cache := p.cache.stored d }) := by
  unfold store
  rw [exec_bind_ok (exec_get p), Cache.insert_replace]
  rfl

theorem exec_read (template : String) (source : Option String) (p : Progress) :
    exec (world.read template source) p =
      ((world.registry.find template source).found.map Prod.snd,
        p.searched world.registry template source) := by
  unfold read
  rw [exec_bind_ok (exec_modify _ p)]
  cases h : (world.registry.find template source).found with
  | error e => rfl
  | ok r => rfl

theorem exec_lookUp_of_held {template : String} {source : Option String} {p : Progress}
    {d : Document} (h : p.cache.held (cacheKey template source) = some d) :
    exec (world.lookUp template source) p = (.ok (d, d.isFlat), p) := by
  unfold lookUp
  rw [exec_bind_ok (exec_cached world _ p), h]
  rfl

theorem exec_lookUp_of_not_held {template : String} {source : Option String} {p : Progress}
    (h : p.cache.held (cacheKey template source) = none) :
    exec (world.lookUp template source) p =
      ((world.registry.draft source template).map (·, false),
        p.searched world.registry template source) := by
  unfold lookUp Registry.draft
  rw [exec_bind_ok (exec_cached world _ p), h]
  have hread := exec_read world template source p
  cases hf : (world.registry.find template source).found with
  | error e =>
    rw [hf] at hread
    exact exec_bind_error hread
  | ok r =>
    obtain ⟨key, text⟩ := r
    rw [hf] at hread
    refine (exec_bind_ok hread).trans ?_
    dsimp only
    cases parse text <;> rfl

end Surroundings

/-! ### What holds all along -/

namespace Drafts

variable (drafts base : Drafts) (missing : Missing)

/-- The cache holds drafts and completed documents, each under its own name, and the draft of a name
that it does not hold is the one of the base. -/
structure Coherent (cache : Cache) : Prop where
  held : ∀ {name d}, cache.held name = some d →
    d.name = name ∧ (drafts name = .ok d ∨ drafts.Completed missing name d)
  fresh : ∀ {name}, cache.held name = none → drafts name = base name

/-- A run from some progress ends with such a result, and what holds all along still holds. -/
structure Ends (p : Progress) {α : Type} (post : Except Error α → Prop)
    (run : Except Error α × Progress) : Prop where
  result : post run.1
  coherent : drafts.Coherent base missing run.2.cache
  keeps : p.cache.Keeps run.2.cache

variable {drafts base missing} {α β : Type} {p : Progress}

theorem Coherent.ends (h : drafts.Coherent base missing p.cache) {post : Except Error α → Prop}
    {r : Except Error α} (hr : post r) : drafts.Ends base missing p post (r, p) :=
  ⟨hr, h, .refl _⟩

theorem Ends.mono {post post' : Except Error α → Prop} {run : Except Error α × Progress}
    (h : drafts.Ends base missing p post run) (hp : ∀ r, post r → post' r) :
    drafts.Ends base missing p post' run :=
  ⟨hp _ h.result, h.coherent, h.keeps⟩

theorem Ends.of_searched {post : Except Error α → Prop} {run : Except Error α × Progress}
    {registry : Registry} {template : String} {source : Option String}
    (h : drafts.Ends base missing (p.searched registry template source) post run) :
    drafts.Ends base missing p post run :=
  ⟨h.result, h.coherent, h.keeps⟩

theorem Ends.bind {post : Except Error α → Prop} {post' : Except Error β → Prop}
    {step : Resolve α} {next : α → Resolve β} (h : drafts.Ends base missing p post (exec step p))
    (hok : ∀ a q, post (.ok a) → drafts.Coherent base missing q.cache →
      drafts.Ends base missing q post' (exec (next a) q))
    (herror : ∀ e, post (.error e) → post' (.error e)) :
    drafts.Ends base missing p post' (exec (step >>= next) p) := by
  rcases hr : exec step p with ⟨r, q⟩
  rw [hr] at h
  cases r with
  | ok a =>
    have hn := hok a q h.result h.coherent
    rw [exec_bind_ok hr]
    exact ⟨hn.result, hn.coherent, h.keeps.trans hn.keeps⟩
  | error e =>
    rw [exec_bind_error hr]
    exact ⟨herror e h.result, h.coherent, h.keeps⟩

theorem Coherent.stored (h : drafts.Coherent base missing p.cache) {name : String} {d : Document}
    (hn : d.name = name) (hd : drafts.Completed missing name d) :
    drafts.Coherent base missing (p.cache.stored d) where
  held := by
    intro n e he
    rw [Cache.held_stored] at he
    split at he
    · next hc =>
      obtain rfl := Option.some.inj he
      obtain rfl : n = name := hc.2.trans hn
      exact ⟨hn, .inr hd⟩
    · exact h.held he
  fresh := by
    intro n he
    rw [Cache.held_stored] at he
    split at he
    · cases he
    · exact h.fresh he

theorem store_ends (h : drafts.Coherent base missing p.cache) {name : String} {d : Document}
    (hn : d.name = name) (hd : drafts.Completed missing name d) :
    drafts.Ends base missing p (· = .ok d) (exec (Surroundings.store d) p) := by
  rw [Surroundings.exec_store]
  exact ⟨rfl, h.stored hn hd, Cache.keeps_stored _ _⟩

theorem coherent_of_not_held {cache : Cache} (h : ∀ n, cache.held n = none) :
    drafts.Coherent drafts missing cache where
  held := by
    intro n d hd
    rw [h] at hd
    cases hd
  fresh := fun _ => rfl

end Drafts

end Templating
