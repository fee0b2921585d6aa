import Templating.Source.Basic

/-!
# The registry of sources

Sources by key, with the order in which those that are searchable are asked. A search asks one
source after the other, until one answers with a text or refuses access; any other error only means
that the next is asked.
-/

namespace Templating

structure Registry (σ : Type := Source) where
  sources : Table σ
  /-- The keys of the searchable sources, in the order of their registration. -/
  order : List String

/-- What a search found, and the keys of the sources that it asked. -/
structure Search where
  asked : List String
  /-- The key of the source that answered, and its text. -/
  found : Except Error (String × String)

namespace Registry

variable {σ : Type}

def empty : Registry σ := ⟨[], []⟩

def single (source : σ) : Registry σ := ⟨[("default", source)], ["default"]⟩

/-- The registry with one more source, if its key is new. -/
def register (registry : Registry σ) (key : String) (source : σ) (searchable : Bool) :
    Except Error (Registry σ) :=
  if Table.has registry.sources key then .error (.duplicateSource key)
  else .ok
    { sources := Table.insert key source registry.sources
      order := if searchable then registry.order ++ [key] else registry.order }

def all (registry : Registry σ) : List String := Table.keys registry.sources

/-- The keys to be asked: the one that is given, or else all that are searchable. -/
def candidates (registry : Registry σ) (explicit : Option String) :
    Except Error (List (String × σ)) :=
  let keys : Except Error (List String) :=
    match explicit with
    | some key =>
      if Table.has registry.sources key then .ok [key]
      else .error (.illegalAccess (.unknownSource key))
    | none =>
      if registry.order.isEmpty then .error (.illegalAccess .nothingToSearch)
      else .ok registry.order
  keys.map fun keys => keys.filterMap fun key => (Table.get? registry.sources key).map (key, ·)

/-- The search for a template through some sources. Every source may leave its view. -/
def searchAmong [Readable σ] (template : String) : List (String × σ) → Search
  | [] => ⟨[], .error (.noTemplateExists template)⟩
  | (key, source) :: rest =>
    match Readable.read source template true with
    | .ok text => ⟨[key], .ok (key, text)⟩
    | .error (.illegalAccess why) => ⟨[key], .error (.illegalAccess why)⟩
    | .error _ =>
      let search := searchAmong template rest
      { search with asked := key :: search.asked }

/-- The search for a template, through one source if its key is given. -/
def find [Readable σ] (registry : Registry σ) (template : String) (explicit : Option String) : Search :=
  match registry.candidates explicit with
  | .ok sources => searchAmong template sources
  | .error e => ⟨[], .error e⟩

/-- All texts that the sources hold. -/
def texts (registry : Registry) : List String := registry.sources.flatMap fun (_, s) => s.texts

end Registry

end Templating
