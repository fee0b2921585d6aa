import Templating.Error.Basic
import Templating.Files.Path

/-!
# Sources

A source answers template names with texts. It may be asked to stay in its view or be allowed to
leave it. Whatever answers so can be searched; to be rendered from, a source has to be known with all
the texts that it can answer with.
-/

namespace Templating

def defaultExtension : String := "tess"

class Readable (σ : Type) where
  /-- The text of a template; the flag allows leaving the view. -/
  read : σ → String → Bool → Except Error String

/-- What answers with finitely many texts. -/
structure Source where
  read : String → Bool → Except Error String
  /-- All texts that the source holds. -/
  texts : List String
  mem_texts : ∀ {template escape text}, read template escape = .ok text → text ∈ texts

namespace Source

instance : Readable Source := ⟨read⟩

/-- A source that holds nothing and answers every name with an error. -/
def failing (error : String → Error) : Source where
  read template _ := .error (error template)
  texts := []
  mem_texts h := by simp at h

end Source

/-! ### Texts in memory -/

structure Memory where
  extension : String
  files : Table String

namespace Memory

def empty (extension : String) : Memory := ⟨extension, []⟩

/-- The key of a name: with one `/` in front, and the extension behind if the last part has no
dot. -/
def key (memory : Memory) (name : String) : String :=
  let path := '/' :: name.toList.dropWhile (· == '/')
  if (Path.lastPart path).contains '.' then String.ofList path
  else String.ofList (path ++ '.' :: memory.extension.toList)

/-- The memory with a template, in place of one with the same key. -/
def insert (memory : Memory) (name text : String) : Memory :=
  { memory with files := Table.insert (memory.key name) text memory.files }

def size (memory : Memory) : Nat := memory.files.length

def read (memory : Memory) (template : String) : Except Error String :=
  match Table.get? memory.files (memory.key template) with
  | some text => .ok text
  | none => .error (.noTemplateExists template)

/-- The texts of a memory as a source, whose view is everything. -/
def source (memory : Memory) : Source where
  read template _ := memory.read template
  texts := memory.files.map Prod.snd
  mem_texts h := by
    simp only [read] at h
    split at h
    · next text hget =>
      cases h
      exact List.mem_map.2 ⟨_, Table.mem_of_get? hget, rfl⟩
    · cases h

end Memory

end Templating
