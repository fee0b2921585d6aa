import Templating.Proofs.Equality
import Templating.Proofs.Sessions
import Templating.Proofs.UnderWay

/-!
# What calls leave of a cache

One cache serves a series of calls. Renderers may differ from call to call, in what their sources have as
in anything else. A call is answered at once, or it is under way for a while and then ends or is given up.
None of this takes an entry from the cache or changes one that is flat, and every entry stands under its
document's own name, also while a call is under way and after one that failed.
-/

namespace Templating

open Resolve

/-- A cache, and the call that is under way over it, if there is one. -/
structure Moment where
  cache : Cache
  call : Option (Surroundings × Work)

namespace Moment

/-- What may happen next. -/
inductive Next : Moment → Moment → Prop where
  /-- A renderer writes a template, or fails to. -/
  | rendered (renderer : Renderer) (source : Option String) (template : String) (context : Value)
    (p : Progress) :
    Next ⟨p.cache, none⟩ ⟨(exec (renderer.renderFrom source template context) p).2.cache, none⟩
  /-- A renderer answers with the document of a template, or fails to. -/
  | answered (renderer : Renderer) (source : Option String) (template : String) (p : Progress) :
    Next ⟨p.cache, none⟩ ⟨(exec (renderer.documentFrom source template) p).2.cache, none⟩
  /-- A renderer that may be kept waiting is asked. -/
  | begun (renderer : Renderer) (source : Option String) (template : String) (cache : Cache) :
    Next ⟨cache, none⟩ ⟨cache, some (renderer.surroundings, .asking [] template source)⟩
  | advanced {world : Surroundings} {work work' : Work} {cache cache' : Cache}
    (advances : world.Advances (work, cache) (work', cache')) :
    Next ⟨cache, some (world, work)⟩ ⟨cache', some (world, work')⟩
  /-- The call that is under way has ended, or is given up. -/
  | left (call : Surroundings × Work) (cache : Cache) : Next ⟨cache, some call⟩ ⟨cache, none⟩

abbrev Leads : Moment → Moment → Prop := Relation.ReflTransGen Next

/-- The cache is filled, and the call that is under way has come where it is from some filled cache. -/
structure Sound (m : Moment) : Prop where
  filled : m.cache.Filled
  begun : ∀ world work, m.call = some (world, work) → ∃ start template source, start.Filled ∧
    world.GetsTo (.asking [] template source, start) (work, m.cache)

variable {a b : Moment}

theorem sound_of_filled {cache : Cache} (h : cache.Filled) : Sound ⟨cache, none⟩ :=
  ⟨h, fun _ _ hcall => by cases hcall⟩

end Moment

namespace Surroundings

variable {world : Surroundings}

/-- What a call that began on a filled cache makes of it. -/
theorem grows_of_getsTo {start : Cache} (hstart : start.Filled) {template : String} {source : Option String}
    {a b : Work × Cache} (ha : world.GetsTo (.asking [] template source, start) a) (hb : world.GetsTo a b) :
    a.2.Grows b.2 ∧ b.2.Filled := by
  have hs := @setting_standIns world start hstart template source
  obtain ⟨hcourse, -⟩ := (onCourse_asking hstart template source).getsTo hs ha
  obtain ⟨hlast, hgrows⟩ := hcourse.getsTo hs hb
  exact ⟨hgrows, hlast.filled⟩

end Surroundings

namespace Renderer

variable {renderer : Renderer} {p : Progress}

theorem grows_of_documentFrom (hcache : p.cache.Filled) (source : Option String) (template : String) :
    p.cache.Grows (exec (renderer.documentFrom source template) p).2.cache ∧
      (exec (renderer.documentFrom source template) p).2.cache.Filled := by
  cases hname : template.isEmpty with
  | true =>
    rw [exec_documentFrom_of_isEmpty hname]
    exact ⟨.refl _, hcache⟩
  | false =>
    cases hserved : (p.cache.held (cacheKey template source)).filter Document.isFlat with
    | some d =>
      rw [exec_documentFrom_of_served hname hserved]
      exact ⟨.refl _, hcache⟩
    | none =>
      rw [exec_documentFrom_of_not_served hname hserved]
      obtain ⟨call, -, hcourse⟩ :=
        @Surroundings.resolve_course renderer.surroundings p hcache template source
      exact Surroundings.grows_of_getsTo hcache .refl hcourse.getsTo

theorem grows_of_renderFrom (hcache : p.cache.Filled) (source : Option String) (template : String)
    (context : Value) :
    p.cache.Grows (exec (renderer.renderFrom source template context) p).2.cache ∧
      (exec (renderer.renderFrom source template context) p).2.cache.Filled := by
  rcases @exec_renderFrom_progress renderer source template context p with hp | hp
  · rw [hp]
    exact ⟨.refl _, hcache⟩
  · rw [hp]
    exact grows_of_documentFrom hcache source template

end Renderer

namespace Moment

variable {a b : Moment}

theorem Sound.next (h : a.Sound) (hab : Next a b) : b.Sound ∧ a.cache.Grows b.cache := by
  cases hab with
  | rendered renderer source template context p =>
    obtain ⟨hgrows, hfilled⟩ := Renderer.grows_of_renderFrom h.filled source template context
    exact ⟨sound_of_filled hfilled, hgrows⟩
  | answered renderer source template p =>
    obtain ⟨hgrows, hfilled⟩ := Renderer.grows_of_documentFrom h.filled source template
    exact ⟨sound_of_filled hfilled, hgrows⟩
  | begun renderer source template cache =>
    refine ⟨⟨h.filled, fun world work hcall => ?_⟩, .refl _⟩
    cases hcall
    exact ⟨cache, template, source, h.filled, .refl⟩
  | @advanced world work work' cache cache' advances =>
    obtain ⟨start, template, source, hstart, hbegun⟩ := h.begun world work rfl
    obtain ⟨hgrows, hfilled⟩ := Surroundings.grows_of_getsTo hstart hbegun (.single advances)
    refine ⟨⟨hfilled, fun world' work'' hcall => ?_⟩, hgrows⟩
    cases hcall
    exact ⟨start, template, source, hstart, hbegun.tail advances⟩
  | left call cache => exact ⟨sound_of_filled h.filled, .refl _⟩

theorem Sound.leads (h : a.Sound) (hab : Leads a b) : b.Sound ∧ a.cache.Grows b.cache := by
  induction hab with
  | refl => exact ⟨h, .refl _⟩
  | tail _ hnext ih =>
    obtain ⟨hmiddle, hgrows⟩ := ih
    obtain ⟨hlast, hgrows'⟩ := hmiddle.next hnext
    exact ⟨hlast, hgrows.trans hgrows'⟩

/-- Whatever is asked of whichever renderers over a filled cache, from one moment to a later one no entry is
lost and none that is flat changes, and each stands under its document's own name. -/
theorem calls_spare_entries {start : Cache} (hstart : start.Filled) (ha : Leads ⟨start, none⟩ a)
    (hab : Leads a b) :
    a.cache.Grows b.cache ∧
      ∀ name d, Table.get? b.cache.documents name = some d → d.name = name := by
  obtain ⟨hsound, -⟩ := (sound_of_filled hstart).leads ha
  obtain ⟨hlast, hgrows⟩ := hsound.leads hab
  exact ⟨hgrows, fun name d hget => (hlast.filled.get?_documents hget).1⟩

/-- A page with two siblings. -/
def page : Document := .ofNodes "page" [.extend "a" [], .extend "b" []]

def second : Document := .ofNodes "b" [.raw "B"]

def siblings : Renderer :=
  .ofRegistry .task .fail
    ⟨[("main", (Memory.holding [("page", "#extend(\"a\")#extend(\"b\")"), ("a", "A"), ("b", "B")]).source)],
      ["main"]⟩

/-- The first sibling is gone and the second is another. -/
def changed : Renderer :=
  .ofRegistry .blocking .fail
    ⟨[("main", (Memory.holding [("page", "#extend(\"a\")#extend(\"b\")"), ("b", "other")]).source)],
      ["main"]⟩

/-- While the sources are asked for the first sibling, the second has been stored. -/
def waiting : Moment :=
  ⟨⟨true, [("b", second)]⟩, some (siblings.surroundings,
    .filling ["page"] page [("a", .reading ["page"] "a" none), ("b", .done (.ok second))])⟩

theorem leads_waiting : Leads ⟨.empty true, none⟩ waiting := by
  have hpage : siblings.registry.draft none "page" = .ok page := ok_of_toOption (by decide +kernel)
  have hsecond : siblings.registry.draft none "b" = .ok second := ok_of_toOption (by decide +kernel)
  have hparts : Work.complete [] page = .filling ["page"] page
      ([] ++ [("a", .asking ["page"] "a" none), ("b", .asking ["page"] "b" none)]) := rfl
  have hbehind := @Surroundings.Advances.part siblings.surroundings ["page"] page
    [("a", .reading ["page"] "a" none)] [] "b"
  refine .head (.begun siblings none "page" _) ?_
  refine .head (.advanced (.missed rfl)) ?_
  refine .head (.advanced (.read hpage)) ?_
  rw [hparts]
  refine .head (.advanced (.part (.missed rfl))) ?_
  refine .head (.advanced (hbehind (.missed rfl))) ?_
  refine .head (.advanced (hbehind (.read hsecond))) ?_
  exact .single (.advanced (hbehind .stored))

/-- The second sibling stays as it is when the call is given up and a later one, on sources that have
changed, fails. -/
theorem calls_spare_entries_siblings :
    let later := exec (changed.renderFrom none "page" .null) ⟨waiting.cache, []⟩
    (Cache.empty true).Filled ∧ Leads ⟨.empty true, none⟩ waiting ∧
      Leads waiting ⟨later.2.cache, none⟩ ∧ later.1.toOption = none ∧
        Table.get? later.2.cache.documents "b" = some second := by
  intro later
  have hlater : Leads waiting ⟨later.2.cache, none⟩ :=
    .head (.left _ _) (.single (.rendered changed none "page" .null ⟨_, []⟩))
  have hspared := calls_spare_entries (.empty true) leads_waiting hlater
  exact ⟨.empty true, leads_waiting, hlater, by decide +kernel, hspared.1.flat rfl rfl⟩

end Moment

end Templating
