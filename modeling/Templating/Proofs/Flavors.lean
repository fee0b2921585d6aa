import Templating.Proofs.Effects

/-!
# Threads and tasks

A renderer that waits for the answer and one that is told later go through the same steps, over memories
that are written to, a registry that grows and a cache that is filled, emptied and switched. They answer
alike, put the same questions to the sources in the same order and leave the same cache, whatever failed
before.
-/

namespace Templating

open Resolve

namespace Surroundings

variable {world : Surroundings} {join : Join}

/-! ### Who asks -/

theorem cached_access (access : Access) (name : String) :
    { world with access }.cached name = world.cached name :=
  exec_ext fun p => by rw [exec_cached, exec_cached]

theorem fetch_access (access : Access) (passes depth : Nat) (template : String) (source : Option String)
    (chain : List String) :
    { world with access }.fetch passes depth template source chain =
      world.fetch passes depth template source chain := by
  induction depth generalizing template source chain with
  | zero => rfl
  | succ depth ih =>
    have hlookUp : { world with access }.lookUp template source = world.lookUp template source := by
      simp only [lookUp, @cached_access world access]
      rfl
    have hmissing : ∀ step, { world with access }.orMissing step = world.orMissing step := fun _ => rfl
    rw [fetch, fetch, hlookUp]
    simp only [hmissing, ih]

/-- The completed document of a template, by the resolver of whoever asks. -/
def resolveThrough (world : Surroundings) (join : Join) (template : String) (source : Option String) :
    Resolve Document := do
  let bound := (world.mentioned (← get).cache).length + 2
  (world.resolver join).fetch bound bound template source []

theorem resolveThrough_eq (h : join.PollsInOrder) (template : String) (source : Option String) :
    world.resolveThrough join template source = world.resolve template source := by
  unfold resolveThrough resolve
  simp only [resolver_fetch h]

theorem resolve_access (access : Access) (template : String) (source : Option String) :
    { world with access }.resolve template source = world.resolve template source := by
  unfold resolve
  simp only [fetch_access]
  rfl

end Surroundings

namespace Renderer

variable {renderer : Renderer} {join : Join}

/-! ### Renderers -/

/-- A document that is complete in the cache, or else the one that a resolution ends with. -/
def servedOr (source : Option String) (template : String) (resolution : Resolve Document) :
    Resolve Document := do
  if template.isEmpty then throw (.noTemplateExists "(no key provided)")
  match ← served template source with
  | some d => pure d
  | none => resolution

theorem documentFrom_eq (source : Option String) (template : String) :
    renderer.documentFrom source template =
      servedOr source template (renderer.surroundings.resolve template source) := rfl

/-- The completed document of a template, by the resolver of a thread or of a task. -/
def documentThrough (renderer : Renderer) (join : Join) (source : Option String) (template : String) :
    Resolve Document :=
  servedOr source template (renderer.surroundings.resolveThrough join template source)

def renderThrough (renderer : Renderer) (join : Join) (source : Option String) (template : String)
    (context : Value) : Resolve String := do
  let entries ← renderFrom.liftExcept context.context
  let d ← renderer.documentThrough join source template
  renderFrom.liftExcept (d.write renderer.callables entries)

theorem documentThrough_eq (h : join.PollsInOrder) (source : Option String) (template : String) :
    renderer.documentThrough join source template = renderer.documentFrom source template := by
  rw [documentThrough, Surroundings.resolveThrough_eq h, documentFrom_eq]

theorem renderThrough_eq (h : join.PollsInOrder) (source : Option String) (template : String)
    (context : Value) :
    renderer.renderThrough join source template context = renderer.renderFrom source template context := by
  rw [renderThrough, documentThrough_eq h]
  rfl

theorem documentFrom_access (access : Access) (source : Option String) (template : String) :
    { renderer with access }.documentFrom source template = renderer.documentFrom source template :=
  congrArg (servedOr source template)
    (@Surroundings.resolve_access renderer.surroundings access template source)

theorem renderFrom_access (access : Access) (source : Option String) (template : String) (context : Value) :
    { renderer with access }.renderFrom source template context =
      renderer.renderFrom source template context := by
  rw [renderFrom, renderFrom, documentFrom_access]
  rfl

end Renderer

/-! ### Sites -/

/-- A source as it is registered: a memory, by the name under which it goes on being written to, or any
other. -/
inductive Supply where
  | memory (name : String)
  | other (source : Source)

/-- What a renderer reads from and what it has changed. -/
structure Site where
  memories : Table Memory
  supplies : Table Supply
  /-- The keys of the searchable sources, in the order of their registration. -/
  order : List String
  progress : Progress

/-- What a renderer is set up with. -/
structure Setup where
  missing : Missing
  tags : Tags
  info : Table Value

def Setup.renderer (setup : Setup) (access : Access) (registry : Registry) : Renderer :=
  ⟨access, setup.missing, registry, setup.tags, setup.info⟩

namespace Site

inductive Step where
  | render (template : String) (context : Value)
  | renderFrom (source template : String) (context : Value)
  | document (template : String)
  | register (key : String) (supply : Supply) (searchable : Bool)
  | write (memory name text : String)
  | insert (d : Document) (replace : Bool)
  | remove (name : String)
  | switch (on : Bool)

inductive Answer where
  | text (result : Except Error String)
  | document (result : Except Error Document)
  | registered (result : Except Error Unit)
  | written
  | removal (result : Except Error Removal)
  | switched

/-- The memory of a name as it is now; one that was never written to is empty. -/
def memory (site : Site) (name : String) : Memory :=
  (Table.get? site.memories name).getD (.empty defaultExtension)

def source (site : Site) : Supply → Source
  | .memory name => (site.memory name).source
  | .other source => source

def registry (site : Site) : Registry := ⟨Table.mapValues site.source site.supplies, site.order⟩

def withCache (site : Site) (cache : Cache) : Site := { site with progress := { site.progress with cache } }

/-- A step of a resolution, taken here. -/
def run {α : Type} (site : Site) (answer : Except Error α → Answer) (step : Resolve α) : Answer × Site :=
  let (result, progress) := exec step site.progress
  (answer result, { site with progress })

/-- The answer to a step and the site after it, by a renderer that asks as told and, as a task, makes
progress on several documents through `join`. -/
def perform (join : Join) (setup : Setup) (access : Access) (site : Site) : Step → Answer × Site
  | .render template context =>
    site.run .text ((setup.renderer access site.registry).renderThrough join none template context)
  | .renderFrom source template context =>
    site.run .text ((setup.renderer access site.registry).renderThrough join (some source) template context)
  | .document template =>
    site.run .document ((setup.renderer access site.registry).documentThrough join none template)
  | .register key supply searchable =>
    match site.registry.register key (site.source supply) searchable with
    | .ok registry =>
      (.registered (.ok ()),
        { site with supplies := Table.insert key supply site.supplies, order := registry.order })
    | .error e => (.registered (.error e), site)
  | .write name key text =>
    (.written, { site with memories := Table.insert name ((site.memory name).insert key text) site.memories })
  | .insert d replace =>
    match site.progress.cache.insert d replace with
    | .ok cache => (.document (.ok d), site.withCache cache)
    | .error e => (.document (.error e), site)
  | .remove name =>
    match site.progress.cache.remove name with
    | .ok (removal, cache) => (.removal (.ok removal), site.withCache cache)
    | .error e => (.removal (.error e), site)
  | .switch on => (.switched, site.withCache (site.progress.cache.setEnabled on))

/-- What can be seen of a step: its answer, the questions it put to sources, and the cache it left. -/
structure Seen where
  answer : Answer
  reads : List Read
  cache : Cache

/-- What is seen of a series of steps. -/
def trace (join : Join) (setup : Setup) (access : Access) : List Step → Site → List Seen
  | [], _ => []
  | step :: steps, site =>
    let (answer, next) :=
      { site with progress := { site.progress with reads := [] } }.perform join setup access step
    ⟨answer, next.progress.reads, next.progress.cache⟩ :: trace join setup access steps next

variable {join : Join}

theorem perform_access (h : join.PollsInOrder) (setup : Setup) (access : Access) (site : Site) (step : Step) :
    site.perform join setup access step = site.perform join setup .blocking step := by
  have hrender : ∀ source template context,
      (setup.renderer access site.registry).renderThrough join source template context =
        (setup.renderer .blocking site.registry).renderThrough join source template context := by
    intro source template context
    rw [Renderer.renderThrough_eq h, Renderer.renderThrough_eq h]
    exact @Renderer.renderFrom_access (setup.renderer .blocking site.registry) access source template context
  have hdocument : ∀ template, (setup.renderer access site.registry).documentThrough join none template =
      (setup.renderer .blocking site.registry).documentThrough join none template := by
    intro template
    rw [Renderer.documentThrough_eq h, Renderer.documentThrough_eq h]
    exact @Renderer.documentFrom_access (setup.renderer .blocking site.registry) access none template
  cases step with
  | render template context => simp only [perform, hrender]
  | renderFrom source template context => simp only [perform, hrender]
  | document template => simp only [perform, hdocument]
  | _ => rfl

/-- Whatever the steps are, a task sees what a thread sees, and both see what the renderer does. -/
theorem trace_task_eq_blocking (h : join.PollsInOrder) (setup : Setup) (steps : List Step) (site : Site) :
    trace join setup .task steps site = trace join setup .blocking steps site ∧
      ∀ (access : Access) (registry : Registry) (source : Option String) (template : String)
        (context : Value),
        (setup.renderer access registry).renderThrough join source template context =
          (setup.renderer access registry).renderFrom source template context := by
  refine ⟨?_, fun access registry => Renderer.renderThrough_eq h⟩
  induction steps generalizing site with
  | nil => rfl
  | cons step steps ih =>
    unfold trace
    rw [perform_access h setup .task]
    exact congrArg _ (ih _)

/-- Makes a list of steps one step, each on its own. -/
def eachInTurn : Join := fun steps => steps.mapM id

theorem pollsInOrder_eachInTurn : Join.PollsInOrder eachInTurn := by
  intro steps p result q hpolled
  induction hpolled with
  | done p => rfl
  | failed hstep =>
    unfold eachInTurn
    rw [List.mapM_cons]
    exact exec_bind_error hstep
  | later hstep _ ih =>
    unfold eachInTurn at ih ⊢
    rw [List.mapM_cons]
    exact (exec_bind_ok hstep).trans (exec_bind_error ih)
  | all hstep _ ih =>
    unfold eachInTurn at ih ⊢
    rw [List.mapM_cons]
    exact (exec_bind_ok hstep).trans ((exec_bind_ok ih).trans rfl)

/-- A page with two siblings of which the first is there only for the second render. -/
theorem trace_siblings :
    let steps : List Step := [.register "main" (.memory "m") true,
      .write "m" "page" "#extend(\"a\")#extend(\"b\")", .write "m" "b" "B",
      .render "page" .null, .write "m" "a" "A", .render "page" .null, .switch false, .render "b" .null]
    let site : Site := ⟨[], [], [], ⟨Cache.empty true, []⟩⟩
    let setup : Setup := ⟨.fail, Tags.builtin, []⟩
    let read := fun template => Read.mk "main" template true
    Join.PollsInOrder eachInTurn ∧
      trace eachInTurn setup .task steps site = trace eachInTurn setup .blocking steps site ∧
      (trace eachInTurn setup .task steps site).map Seen.reads =
        [[], [], [], [read "page", read "a"], [], [read "page", read "a", read "b"], [], [read "b"]] := by
  intro steps site setup read
  refine ⟨pollsInOrder_eachInTurn, (trace_task_eq_blocking pollsInOrder_eachInTurn setup steps site).1, ?_⟩
  decide +kernel

end Site

end Templating
