import Templating.Proofs.Equality
import Templating.Proofs.Settled
import Templating.Proofs.Writing

/-!
# Deferral

A session over one memory in which missing templates are left for later: templates are rendered, and
templates under new keys are inserted in between. Whatever a new renderer completes then, the session's
renderer completes too. It comes to a document that is alike exactly if no cached document has lost
blocks. They are lost where a template that is handed blocks extends one that is missing at the time:
the extend stays in place, but not the blocks in whose scope it stood.
-/

namespace Templating

open Node Resolve Drafts

/-! ### A growing memory -/

namespace Memory

variable {memory : Memory} {name text : String}

/-- What the templates of a memory say that names stand for. -/
def drafts (memory : Memory) : Drafts := (Registry.single memory.source).drafts

def references (memory : Memory) : Table Document := (Registry.single memory.source).references

theorem get?_references (memory : Memory) (n m : String)
    (h : Relation.TransGen (Refers memory.drafts) n m) :
    Table.get? memory.references m = (memory.drafts m).toOption :=
  Registry.get?_references h

theorem keyed_drafts (memory : Memory) : memory.drafts.Keyed :=
  Registry.keyed_drafts _

theorem find_single (memory : Memory) (name : String) :
    ((Registry.single memory.source).find name none).found =
      (memory.read name).map fun text => ("default", text) := by
  show (Registry.searchAmong name [("default", memory.source)]).found = _
  have hread : Readable.read memory.source name true = memory.read name := rfl
  unfold Registry.searchAmong
  rw [hread, read]
  cases Table.get? memory.files (memory.key name) <;> rfl

theorem drafts_eq (memory : Memory) (name : String) :
    memory.drafts name =
      match memory.read name with
      | .error e => .error e
      | .ok text =>
        match parse text with
        | .ok nodes => .ok (Document.ofNodes name nodes)
        | .error problem => .error (.parse name text [problem]) := by
  unfold drafts Registry.drafts Registry.draft
  rw [find_single]
  cases memory.read name <;> rfl

theorem read_eq_ok_iff {n t : String} :
    memory.read n = .ok t ↔ Table.get? memory.files (memory.key n) = some t := by
  unfold read
  cases Table.get? memory.files (memory.key n) with
  | none => simp
  | some text => simp

theorem read_insert (hnew : Table.get? memory.files (memory.key name) = none) {n t : String}
    (h : memory.read n = .ok t) : (memory.insert name text).read n = .ok t := by
  have hget := read_eq_ok_iff.1 h
  have hne : memory.key n ≠ memory.key name := by
    intro he
    rw [he, hnew] at hget
    cases hget
  refine read_eq_ok_iff.2 ?_
  show Table.get? (Table.insert (memory.key name) text memory.files) (memory.key n) = some t
  rw [Table.get?_insert, if_neg hne]
  exact hget

theorem drafts_insert (hnew : Table.get? memory.files (memory.key name) = none) {n : String}
    {d : Document} (h : memory.drafts n = .ok d) : (memory.insert name text).drafts n = .ok d := by
  rw [drafts_eq] at h ⊢
  cases hread : memory.read n with
  | error e => rw [hread] at h; cases h
  | ok t =>
    rw [hread] at h
    rw [read_insert hnew hread]
    exact h

theorem grows_insert (hnew : Table.get? memory.files (memory.key name) = none) :
    Grows memory.drafts (memory.insert name text).drafts := fun _ _ => drafts_insert hnew

end Memory

/-! ### Sessions -/

namespace Renderer

/-- The renderer over one memory, for which missing templates are no failure. -/
def onMemory (renderer : Renderer) (memory : Memory) : Renderer :=
  { renderer with missing := .defer, registry := .single memory.source }

/-- What a session leads to, from an empty cache and any memory: renders, at times when the memory is
as `when` says, and insertions under new keys. -/
inductive Reached (renderer : Renderer) (when : Memory → Prop) : Memory → Progress → Prop where
  | start (memory : Memory) : Reached renderer when memory ⟨Cache.empty true, []⟩
  | render {memory : Memory} {p : Progress} (h : Reached renderer when memory p) (now : when memory)
    (template : String) (context : Value) :
    Reached renderer when memory (exec ((renderer.onMemory memory).render template context) p).2
  | insert {memory : Memory} {p : Progress} (h : Reached renderer when memory p) {name : String}
    (text : String) (new : Table.get? memory.files (memory.key name) = none) :
    Reached renderer when (memory.insert name text) p

variable {renderer : Renderer} {when : Memory → Prop} {memory : Memory} {p : Progress}
  {template : String}

theorem document_ends_of_pending (h : p.cache.Pending memory.drafts) (template : String) :
    (p.cache.standIns memory.drafts).Ends memory.drafts .defer p
      (Answered (p.cache.standIns memory.drafts) .defer template)
      (exec ((renderer.onMemory memory).document template) p) :=
  @document_ends (renderer.onMemory memory) _ p (h.wellFormed memory.keyed_drafts.toWellFormed)
    (Cache.standIns_known fun n => ⟨none, n, rfl⟩) h.coherent template

/-- At any time of a session the cache holds pending documents of the templates that are there. -/
theorem Reached.pending (h : Reached renderer when memory p) : p.cache.Pending memory.drafts := by
  induction h with
  | start memory => exact Cache.pending_empty _
  | @render memory p _ _ template context ih =>
    rcases exec_render_progress template context p with hp | hp
    · rw [hp]
      exact ih
    · rw [hp]
      exact ih.of_ends memory.keyed_drafts (document_ends_of_pending ih template)
  | insert _ text new ih =>
    refine ⟨ih.enabled, ih.name_eq, ih.isExact, ih.keyed, fun hd => ?_, fun hd hn => ?_⟩
    · obtain ⟨e, he⟩ := ih.found hd
      exact ⟨e, Memory.drafts_insert new he⟩
    · exact (Memory.grows_insert new).transGen (ih.leads hd hn)

theorem exec_render_of_ok {d : Document} {entries : Table Value} {context : Value}
    (hd : (exec (renderer.document template) p).1 = .ok d) (hc : context.context = .ok entries) :
    (exec (renderer.render template context) p).1 = d.write renderer.callables entries := by
  rw [exec_render, hd]
  unfold written
  rw [hc]
  rfl

theorem exists_ok_of_render {context : Value} {text : String}
    (h : (exec (renderer.render template context) p).1 = .ok text) :
    ∃ d entries, (exec (renderer.document template) p).1 = .ok d ∧ context.context = .ok entries := by
  rw [exec_render] at h
  unfold written at h
  cases hc : context.context with
  | error e => rw [hc] at h; cases h
  | ok entries =>
    rw [hc] at h
    cases hd : (exec (renderer.document template) p).1 with
    | error e => rw [hd] at h; cases h
    | ok d => exact ⟨d, entries, rfl, rfl⟩

theorem Reached.exists_completed (h : Reached renderer when memory p) {d : Document}
    (hd : (exec ((renderer.onMemory memory).document template) ⟨Cache.empty true, []⟩).1 = .ok d) :
    Completed memory.drafts .defer template d ∧
      ∃ e, (exec ((renderer.onMemory memory).document template) p).1 = .ok e ∧
        Completed (p.cache.standIns memory.drafts) .defer template e := by
  have hcd : Completed memory.drafts .defer template d := completed_of_document (.inl rfl) hd
  obtain ⟨e, he⟩ := h.pending.exists_completed hcd
  have hend := (@document_ends_of_pending renderer memory p h.pending template).result
  have hfirst := @answered_of_not_held (renderer.onMemory memory) ⟨Cache.empty true, []⟩
    (Cache.held_eq_none (.inl rfl)) template
  rw [hd] at hfirst
  rw [answered_iff_outcome hfirst.completed.1] at hend
  exact ⟨hcd, e, hend.unique he (.nil _ template), he⟩

/-- Where nothing was lost in any template that is led to, the session renders what a new renderer
renders. -/
theorem Reached.render_eq (h : Reached renderer when memory p)
    (hf : ∀ d, Completed memory.drafts .defer template d →
      ∀ n, Relation.ReflTransGen (Refers memory.drafts) template n →
        p.cache.Faithful memory.drafts memory.references n)
    {context : Value} {text : String}
    (ht : (exec ((renderer.onMemory memory).render template context) ⟨Cache.empty true, []⟩).1 = .ok text) :
    (exec ((renderer.onMemory memory).render template context) p).1 = .ok text := by
  have hk := memory.keyed_drafts
  have hw := hk.toWellFormed
  have hws := h.pending.wellFormed hw
  obtain ⟨d, entries, hd, hc⟩ := exists_ok_of_render ht
  obtain ⟨hcd, e, he, hce⟩ := h.exists_completed hd
  have halike : Alike e.nodes d.nodes :=
    h.pending.alike_of_faithful hk memory.get?_references (hf d hcd) hcd hce
  have hname : e.name = d.name := (hce.name_eq hws).trans (hcd.name_eq hw).symm
  rw [exec_render_of_ok hd hc] at ht
  rw [exec_render_of_ok he hc, ← ht]
  exact Document.write_eq_of_alike hname (hce.isExact hws) (hcd.isExact hw) halike _ _

/-- If renders happen only while the drafts are settled, all that is cached lasts. -/
theorem Reached.lasting (h : Reached renderer when memory p)
    (hwhen : ∀ memory, when memory → Settled memory.drafts) {n : String} {f : Document}
    (hheld : p.cache.held n = some f) : Lasting memory.drafts .defer n f := by
  induction h generalizing n f with
  | start memory => cases hheld
  | @render memory p h now template context ih =>
    rcases exec_render_progress template context p with hp | hp
    · rw [hp] at hheld
      exact ih hheld
    · have hend := @document_ends_of_pending renderer memory p h.pending template
      rw [hp] at hheld
      rcases (hend.coherent.held hheld).2 with hd | hd
      · exact Cache.lasting_standIns (fun _ _ => ih) hd
      · exact h.pending.lasting memory.keyed_drafts (hwhen memory now) (fun _ _ => ih) hd
  | insert _ text new ih => exact (ih hheld).grow (Memory.grows_insert new)

/-- If renders happen only while the drafts are settled, nothing that a new renderer completes a name from
was lost in the cache. -/
theorem Reached.faithful (h : Reached renderer when memory p)
    (hwhen : ∀ memory, when memory → Settled memory.drafts) {d : Document}
    (hd : Completed memory.drafts .defer template d) {n : String}
    (hn : Relation.ReflTransGen (Refers memory.drafts) template n) :
    p.cache.Faithful memory.drafts memory.references n := by
  intro f c hf hc
  obtain ⟨e, he⟩ : ∃ e, Completed memory.drafts .defer n e :=
    (hd.of_reaches hn).resolve_right (not_absent_of_ok hc)
  have hbelow : SuppliesBelow memory.drafts (Document.nodesOf memory.references) n := by
    intro m hm
    unfold Supplies
    rw [Document.get?_nodesOf, memory.get?_references n m hm]
  have hk := memory.keyed_drafts
  have hlast := (h.lasting hwhen hf).alike _ (.refl _) hk e he _ hbelow c hc
  have hkept := Document.alike_rebuild (h.pending.keyed hf) memory.references
  exact hkept.trans (hlast.trans (Document.alike_rebuild (hk.keyed hc) _).symm)

/-- Deferred resolution converges exactly where no cached document has lost anything. The session's
renderer completes what a new renderer completes; it comes to alike nodes, as long as nothing was lost
below, exactly if nothing was lost in the template's own cached document; and it renders the same where
nothing was lost in any template that is led to. Nothing is lost if, whenever something is rendered, no
template that is there and is handed blocks leads to one that is missing. -/
theorem deferral_converges (h : Reached renderer when memory p) (template : String) :
    (∀ d, (exec ((renderer.onMemory memory).document template) ⟨Cache.empty true, []⟩).1 = .ok d →
      ∃ e, (exec ((renderer.onMemory memory).document template) p).1 = .ok e ∧
        ((∀ n, Relation.TransGen (Refers memory.drafts) template n →
            p.cache.Faithful memory.drafts memory.references n) →
          (joinAll e.nodes = joinAll d.nodes ↔
            p.cache.Faithful memory.drafts memory.references template))) ∧
      ((∀ n, Relation.ReflTransGen (Refers memory.drafts) template n →
          p.cache.Faithful memory.drafts memory.references n) ∨
          (∀ earlier, when earlier → Settled earlier.drafts) →
        ∀ context text,
          (exec ((renderer.onMemory memory).render template context) ⟨Cache.empty true, []⟩).1 = .ok text →
            (exec ((renderer.onMemory memory).render template context) p).1 = .ok text) := by
  have hk := memory.keyed_drafts
  refine ⟨fun d hd => ?_, fun hkept context text ht => h.render_eq (fun d hd n hn => ?_) ht⟩
  · obtain ⟨hcd, e, he, hce⟩ := h.exists_completed hd
    refine ⟨e, he, fun hbelow => ?_⟩
    refine h.pending.alike_iff_faithful hk memory.get?_references hcd (fun n f g hn hfc hgc => ?_) hce
    refine h.pending.alike_of_faithful hk memory.get?_references (fun m hm => hbelow m ?_) hfc hgc
    exact hn.trans_left hm
  · rcases hkept with hfaithful | hsettled
    · exact hfaithful n hn
    · exact h.faithful hsettled hd hn

/-! ### Two sessions -/

/-- A renderer with the tags known from the start. -/
def plain : Renderer := .ofRegistry .blocking .defer .empty

/-- The progress after a page has been asked for while another template was missing. -/
def askedOnce (memory : Memory) : Progress :=
  (exec ((plain.onMemory memory).render "page" .null) ⟨Cache.empty true, []⟩).2

theorem reached_askedOnce {memory : Memory} {name text : String}
    (new : Table.get? memory.files (memory.key name) = none) :
    Reached plain (fun _ => True) (memory.insert name text) (askedOnce memory) :=
  .insert (.render (.start memory) trivial "page" .null) text new

/-- A page that hands a block to a base. -/
def page : Memory :=
  .holding [("page", "#extend(\"base\"):#export(\"body\"):hi#endexport#endextend")]

/-- The base arrives, and has the place of the block itself. -/
def pageWithBase : Memory := page.insert "base" "<body>#import(\"body\")</body>"

theorem faithful_page (name : String) :
    (askedOnce page).cache.Faithful pageWithBase.drafts pageWithBase.references name := by
  have hkeys : Table.keys (askedOnce page).cache.documents = ["page"] := by decide +kernel
  have hpage : (askedOnce page).cache.held "page" = (pageWithBase.drafts "page").toOption := by
    decide +kernel
  refine Cache.faithful_of_drafts (fun n d hd => ?_) name
  obtain rfl : n = "page" := by
    have hn : n ∈ Table.keys (askedOnce page).cache.documents :=
      List.mem_map.2 ⟨_, Table.mem_of_get? (Cache.get?_of_held hd), rfl⟩
    rw [hkeys] at hn
    exact List.mem_singleton.1 hn
  rw [hpage] at hd
  cases hdraft : pageWithBase.drafts "page" with
  | error e => rw [hdraft] at hd; cases hd
  | ok e => rw [hdraft] at hd; rw [Option.some.inj hd]

theorem deferral_converges_page :
    (exec ((plain.onMemory pageWithBase).render "page" .null) (askedOnce page)).1 =
      .ok "<body>hi</body>" := by
  have hreached : Reached plain (fun _ => True) pageWithBase (askedOnce page) := reached_askedOnce (by decide +kernel)
  have hnew : (exec ((plain.onMemory pageWithBase).render "page" .null)
      ⟨Cache.empty true, []⟩).1.toOption = some "<body>hi</body>" := by decide +kernel
  exact (deferral_converges hreached "page").2 (.inl fun n _ => faithful_page n) .null _ (ok_of_toOption hnew)

/-- The same page, with a base that waits for a layout. -/
def layeredPage : Memory := page.insert "base" "#extend(\"layout\")"

/-- When the layout arrives, the block that the page hands over is gone. -/
theorem deferral_loses_block :
    Reached plain (fun _ => True) (layeredPage.insert "layout" "<body>#import(\"body\")</body>")
        (askedOnce layeredPage) ∧
      (exec ((plain.onMemory (layeredPage.insert "layout" "<body>#import(\"body\")</body>")).render
        "page" .null) ⟨Cache.empty true, []⟩).1 = .ok "<body>hi</body>" ∧
      (exec ((plain.onMemory (layeredPage.insert "layout" "<body>#import(\"body\")</body>")).render
        "page" .null) (askedOnce layeredPage)).1 = .ok "<body></body>" := by
  refine ⟨reached_askedOnce (by decide +kernel), ok_of_toOption ?_, ok_of_toOption ?_⟩
  · decide +kernel
  · decide +kernel

end Renderer

end Templating
