import Templating.Output.Write
import Templating.Renderer.Resolution
import Templating.Tag.Builtin

/-!
# Renderers

A renderer completes the document of a template and writes it in a context. It asks its cache as a
blocking thread or as a task; a document that is complete in the cache is served at once.
-/

namespace Templating

structure Renderer where
  access : Access
  missing : Missing
  registry : Registry
  tags : Tags
  /-- The data that every tag is given. -/
  info : Table Value

namespace Renderer

def ofRegistry (access : Access) (missing : Missing) (registry : Registry) : Renderer :=
  ⟨access, missing, registry, Tags.builtin, []⟩

def callables (renderer : Renderer) : Callables := ⟨renderer.tags, renderer.info⟩

def surroundings (renderer : Renderer) : Surroundings :=
  ⟨renderer.access, renderer.missing, renderer.registry⟩

/-- The document that the cache holds complete, asked by a blocking thread in either case. -/
def served (template : String) (source : Option String) : Resolve (Option Document) := do
  match (← get).cache.retrieve .blocking (cacheKey template source) with
  | .ok (some d) => pure (if d.isFlat then some d else none)
  | .ok none => pure none
  | .error .cachingDisabled => pure none
  | .error e => throw e

/-- The completed document of a template, from one source if its key is given. -/
def documentFrom (renderer : Renderer) (source : Option String) (template : String) :
    Resolve Document := do
  if template.isEmpty then throw (.noTemplateExists "(no key provided)")
  match ← served template source with
  | some d => pure d
  | none => renderer.surroundings.resolve template source

/-- The completed document of a template. -/
def document (renderer : Renderer) (template : String) : Resolve Document :=
  renderer.documentFrom none template

/-- The text of a template in a context, the template being read from one source if its key is
given. -/
def renderFrom (renderer : Renderer) (source : Option String) (template : String)
    (context : Value) : Resolve String := do
  let entries ← liftExcept context.context
  let d ← renderer.documentFrom source template
  liftExcept (d.write renderer.callables entries)
where
  liftExcept {α : Type} (result : Except Error α) : Resolve α :=
    match result with
    | .ok a => pure a
    | .error e => throw e

def render (renderer : Renderer) (template : String) (context : Value) : Resolve String :=
  renderer.renderFrom none template context

end Renderer

/-- The text of a template that is given itself, and that may not refer to others. -/
def renderText (source : String) (context : Value) : Except Error String :=
  match parse source with
  | .error problem => .error (.parse "(inline)" source [problem])
  | .ok nodes => do
    let entries ← context.context
    (Document.ofNodes "(inline)" nodes).write ⟨Tags.builtin, []⟩ entries

end Templating
