import Templating.Proofs.Resolving

/-!
# Sessions

One renderer answers a series of steps, while its cache fills with documents of renders that went well,
that failed or that left references open, and is emptied and switched in between. As long as the
sources stay the same no answer tells: each is the one that the same step has on a renderer without a
cache.
-/

namespace Templating

open Resolve

namespace Renderer

/-- What may be asked of a renderer or done to its cache. -/
inductive Step where
  | render (template : String) (context : Value)
  | document (template : String)
  | remove (name : String)
  | switch (on : Bool)

inductive Answer where
  | text (result : Except Error String)
  | document (result : Except Error Document)
  | removal (result : Except Error Removal)
  | switched

/-- Whether a step asks the renderer for something. -/
def Step.asks : Step → Bool
  | .render _ _ => true
  | .document _ => true
  | .remove _ => false
  | .switch _ => false

variable (renderer : Renderer)

/-- The answer to a step, and the progress after it. -/
def perform : Step → Progress → Answer × Progress
  | .render template context, p =>
    let (result, q) := exec (renderer.render template context) p
    (.text result, q)
  | .document template, p =>
    let (result, q) := exec (renderer.document template) p
    (.document result, q)
  | .remove name, p =>
    match p.cache.remove name with
    | .ok (removal, cache) => (.removal (.ok removal), { p with cache })
    | .error e => (.removal (.error e), p)
  | .switch on, p => (.switched, { p with cache := p.cache.setEnabled on })

/-- The answers to a series of steps. -/
def session : List Step → Progress → List Answer
  | [], _ => []
  | step :: steps, p =>
    let (answer, q) := renderer.perform step p
    answer :: session steps q

/-- A renderer without a cache that nobody has asked before. -/
def fresh : Progress := ⟨Cache.empty false, []⟩

variable {renderer} {p : Progress}

/-! ### What a render needs of the document -/

/-- The text of the document that was answered, in a context. -/
def written (renderer : Renderer) (context : Value) (answer : Except Error Document) :
    Except Error String := do
  let entries ← context.context
  let d ← answer
  d.write renderer.callables entries

theorem exec_liftExcept {α : Type} (result : Except Error α) (p : Progress) :
    exec (renderFrom.liftExcept result) p = (result, p) := by
  cases result <;> rfl

theorem exec_renderFrom (source : Option String) (template : String) (context : Value) (p : Progress) :
    (exec (renderer.renderFrom source template context) p).1 =
      renderer.written context (exec (renderer.documentFrom source template) p).1 := by
  unfold renderFrom written
  rw [exec_bind, exec_liftExcept]
  cases context.context with
  | error e => rfl
  | ok entries =>
    show (exec (renderer.documentFrom source template >>= _) p).1 = _
    rw [exec_bind]
    rcases exec (renderer.documentFrom source template) p with ⟨r, q⟩
    cases r with
    | error e => rfl
    | ok d => exact congrArg Prod.fst (exec_liftExcept _ q)

theorem exec_render (template : String) (context : Value) (p : Progress) :
    (exec (renderer.render template context) p).1 =
      renderer.written context (exec (renderer.document template) p).1 :=
  exec_renderFrom none template context p

theorem exec_renderFrom_progress (source : Option String) (template : String) (context : Value)
    (p : Progress) :
    (exec (renderer.renderFrom source template context) p).2 = p ∨
      (exec (renderer.renderFrom source template context) p).2 =
        (exec (renderer.documentFrom source template) p).2 := by
  unfold renderFrom
  rw [exec_bind, exec_liftExcept]
  cases context.context with
  | error e => exact .inl rfl
  | ok entries =>
    refine .inr ?_
    show (exec (renderer.documentFrom source template >>= _) p).2 = _
    rw [exec_bind]
    rcases exec (renderer.documentFrom source template) p with ⟨r, q⟩
    cases r with
    | error e => rfl
    | ok d => exact congrArg Prod.snd (exec_liftExcept _ q)

theorem exec_render_progress (template : String) (context : Value) (p : Progress) :
    (exec (renderer.render template context) p).2 = p ∨
      (exec (renderer.render template context) p).2 = (exec (renderer.document template) p).2 :=
  exec_renderFrom_progress none template context p

/-! ### What the cache holds at any time -/

/-- Switched on or off, the cache has stored drafts and completed documents only, each under its own
name. -/
def Stores (renderer : Renderer) (cache : Cache) : Prop :=
  ∀ name d, Table.get? cache.documents name = some d →
    d.name = name ∧ (renderer.registry.drafts name = .ok d ∨
      Drafts.Completed renderer.registry.drafts renderer.missing name d)

theorem stores_empty (enabled : Bool) : renderer.Stores (Cache.empty enabled) := fun _ _ h => by cases h

theorem Stores.coherent {cache : Cache} (h : renderer.Stores cache) :
    renderer.registry.drafts.Coherent renderer.registry.drafts renderer.missing cache where
  held hd := h _ _ (Cache.get?_of_held hd)
  fresh := fun _ => rfl

theorem Stores.of_ends {α : Type} {post : Except Error α → Prop} {run : Except Error α × Progress}
    (h : renderer.Stores p.cache)
    (hrun : renderer.registry.drafts.Ends renderer.registry.drafts renderer.missing p post run) :
    renderer.Stores run.2.cache := by
  cases hon : p.cache.enabled with
  | false =>
    rw [hrun.keeps.2 hon]
    exact h
  | true =>
    intro name d hd
    have hheld : run.2.cache.held name = some d := by
      unfold Cache.held
      rw [hrun.keeps.1.trans hon]
      exact hd
    exact hrun.coherent.held hheld

theorem Stores.document (h : renderer.Stores p.cache) (template : String) :
    Answered renderer.registry.drafts renderer.missing template
        (exec (renderer.document template) p).1 ∧
      renderer.Stores (exec (renderer.document template) p).2.cache := by
  have hrun := document_ends renderer.registry.wellFormed_drafts (fun n => .inl ⟨none, n, rfl⟩) h.coherent template
  exact ⟨hrun.result, h.of_ends hrun⟩

theorem Stores.perform (h : renderer.Stores p.cache) (step : Step) :
    renderer.Stores (renderer.perform step p).2.cache := by
  cases step with
  | render template context =>
    have hprogress := @exec_render_progress renderer template context p
    rcases hprogress with hp | hp
    · rw [← hp] at h
      exact h
    · have hdoc := (h.document template).2
      rw [← hp] at hdoc
      exact hdoc
  | document template => exact (h.document template).2
  | remove name =>
    unfold Renderer.perform Cache.remove
    dsimp only
    split
    · next removal cache hc =>
      split at hc
      · cases hc
      · cases hc
        intro n d hd
        rw [Table.get?_erase] at hd
        split at hd
        · cases hd
        · exact h n d hd
    · exact h
  | switch on => exact h

/-! ### The answers -/

theorem Stores.document_eq (h : renderer.Stores p.cache) (template : String) :
    (exec (renderer.document template) p).1 = (exec (renderer.document template) fresh).1 :=
  Answered.unique (h.document template).1 ((stores_empty false).document template).1

theorem Stores.perform_eq (h : renderer.Stores p.cache) {step : Step} (hs : step.asks = true) :
    (renderer.perform step p).1 = (renderer.perform step fresh).1 := by
  cases step with
  | render template context =>
    have heq : (exec (renderer.render template context) p).1 =
        (exec (renderer.render template context) fresh).1 := by
      rw [exec_render, exec_render, h.document_eq]
    exact congrArg Answer.text heq
  | document template => exact congrArg Answer.document (h.document_eq template)
  | remove name => cases hs
  | switch on => cases hs

/-- Over every session that starts with an empty cache, switched on or off, each step that asks something
is answered as on a fresh renderer whose cache is off. -/
theorem session_transparent (renderer : Renderer) (steps : List Step) (enabled : Bool) :
    List.Forall₂
      (fun step answer => step.asks = true → answer = (renderer.perform step fresh).1)
      steps (renderer.session steps ⟨Cache.empty enabled, []⟩) := by
  have run : ∀ p : Progress, renderer.Stores p.cache →
      List.Forall₂ (fun step answer => step.asks = true → answer = (renderer.perform step fresh).1)
        steps (renderer.session steps p) := by
    induction steps with
    | nil => exact fun _ _ => .nil
    | cons step steps ih => exact fun p h => .cons h.perform_eq (ih _ (h.perform step))
  exact run ⟨Cache.empty enabled, []⟩ (stores_empty enabled)

end Renderer

end Templating
