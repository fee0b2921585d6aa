import Templating.Cache
import Templating.Grammar.Template
import Templating.Source.Registry

/-!
# Resolution

A document is completed by completing the documents that it refers to and inlining them. Documents
come from the cache or from the text that a source answers with, and completed ones are stored. A
chain of the documents being completed shows a document that needs itself.

How deeply documents can refer to each other is bounded by the number of names that the texts and
the cached documents mention, since the names on a chain are distinct; resolution counts down from
there.
-/

namespace Templating

/-- What a reference to a template that nobody has does to the document. -/
inductive Missing where
  /-- It cannot be completed. -/
  | fail
  /-- It is left with the reference in place. -/
  | defer
deriving DecidableEq, Repr

structure Read where
  source : String
  template : String
  /-- Whether the source was allowed to leave its view. -/
  escape : Bool
deriving DecidableEq, Repr

/-- What a resolution changes: the cache, and the questions put to sources so far. -/
structure Progress where
  cache : Cache
  reads : List Read

/-- What a resolution depends on. -/
structure Surroundings where
  access : Access
  missing : Missing
  registry : Registry

/-- A step of a resolution; what it has changed stays so even if it fails. -/
abbrev Resolve := ExceptT Error (StateM Progress)

/-- The name under which a template is cached. One that is asked of a given source has the source's
key in front. -/
def cacheKey (template : String) (source : Option String) : String :=
  match source with
  | some key => key ++ ":" ++ template
  | none => template

namespace Surroundings

variable (world : Surroundings)

/-! ### Cache and sources -/

/-- The cached document of a name; there is none while the cache is off. -/
def cached (name : String) : Resolve (Option Document) := do
  match (← get).cache.retrieve world.access name with
  | .ok found => pure found
  | .error .cachingDisabled => pure none
  | .error e => throw e

/-- Stores a document in place of one of the same name. -/
def store (d : Document) : Resolve Document := do
  match (← get).cache.insert d true with
  | .ok cache =>
    modify fun progress => { progress with cache }
    pure d
  | .error e => throw e

def read (template : String) (source : Option String) : Resolve String := do
  let search := world.registry.find template source
  modify fun progress =>
    { progress with reads := progress.reads ++ search.asked.map (⟨·, template, true⟩) }
  match search.found with
  | .ok (_, text) => pure text
  | .error e => throw e

/-! ### Completing a document -/

def fetchAll (fetch : String → Resolve (Option Document)) :
    List String → Resolve (Table Document)
  | [] => pure []
  | name :: names => do
    let found ← fetch name
    let rest ← fetchAll fetch names
    match found with
    | some d => pure (Table.insert name d rest)
    | none => pure rest

/-- A document with what `fetch` finds inlined, again and again as long as that reveals names which
were not missing before, at most `passes` times. The names on the chain may not be needed. -/
def complete (fetch : String → Resolve (Option Document)) (chain : List String) :
    Nat → Document → Resolve Document
  | 0, d => pure d
  | passes + 1, d => do
    if let some name := d.unresolved.find? chain.contains then
      throw (.cyclicalReference name (chain ++ [name]))
    let found ← fetchAll fetch d.unresolved
    let next := d.rebuild found
    if Names.subset next.unresolved d.unresolved then pure next
    else complete fetch chain passes next

/-- What `fetch` finds, or nothing if the template does not exist and that is no failure. -/
def orMissing (fetch : Resolve Document) : Resolve (Option Document) :=
  tryCatch (some <$> fetch) fun
    | .noTemplateExists name =>
      match world.missing with
      | .defer => pure none
      | .fail => throw (.noTemplateExists name)
    | e => throw e

/-- A template's document before it is completed, and whether it is complete as it stands in the
cache. -/
def lookUp (template : String) (source : Option String) : Resolve (Document × Bool) := do
  let key := cacheKey template source
  match ← world.cached key with
  | some d => pure (d, d.isFlat)
  | none =>
    let text ← world.read template source
    match parse text with
    | .ok nodes => pure (Document.ofNodes key nodes, false)
    | .error problem => throw (.parse template text [problem])

/-- The completed document of a template, below the documents of a chain. The first number bounds
how deeply documents may refer to each other from here, the second how often one is gone over. -/
def fetch (passes : Nat) :
    Nat → String → Option String → List String → Resolve Document
  | 0, template, _, chain => throw (.cyclicalReference template (chain ++ [template]))
  | depth + 1, template, source, chain => do
    let (d, done) ← world.lookUp template source
    if done then pure d
    else if d.isFlat then store d
    else
      let chain := chain ++ [d.name]
      let next ← complete (fun name => world.orMissing (fetch passes depth name none chain)) chain
        passes d
      store next

/-! ### Bounds -/

def textReferences (text : String) : Names :=
  match parse text with
  | .ok nodes => Node.bodyReferences nodes
  | .error _ => []

/-- The names that the sources' texts and the cached documents refer to. -/
def mentioned (cache : Cache) : Names :=
  Names.ofList (world.registry.texts.flatMap textReferences ++
    cache.documents.flatMap fun (_, d) => d.unresolved ++ Node.bodyReferences d.nodes)

def resolve (template : String) (source : Option String) : Resolve Document := do
  let bound := (world.mentioned (← get).cache).length + 2
  world.fetch bound bound template source []

end Surroundings

end Templating
