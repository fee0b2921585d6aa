import Templating.Document.Basic
import Templating.Error.Basic

/-!
# The cache

Documents kept under their own names between renders, behind a switch. While it is off nothing is
stored or removed, and what was stored before is still there when it is on again. A thread that
waits for the answer and a task that is told later use the same cache; they differ only in what they
are told by a cache that is off.
-/

namespace Templating

inductive Access where
  /-- By a thread that waits for the answer. -/
  | blocking
  /-- By a task that is told later. -/
  | task
deriving DecidableEq, Repr

inductive Removal where
  | removed
  | notFound
deriving DecidableEq, Repr

structure Cache where
  enabled : Bool
  documents : Table Document

namespace Cache

def empty (enabled : Bool) : Cache := ⟨enabled, []⟩

def setEnabled (cache : Cache) (enabled : Bool) : Cache := { cache with enabled }

def count (cache : Cache) : Nat := cache.documents.length

/-- The cache with a document stored; one of the same name is in the way unless it may be
replaced. -/
def insert (cache : Cache) (d : Document) (replace : Bool) : Except Error Cache :=
  if !cache.enabled then .ok cache
  else if !replace && Table.has cache.documents d.name then .error (.keyExists d.name)
  else .ok { cache with documents := Table.insert d.name d cache.documents }

def retrieve (cache : Cache) (access : Access) (name : String) : Except Error (Option Document) :=
  if cache.enabled then .ok (Table.get? cache.documents name)
  else
    match access with
    | .blocking => .error .cachingDisabled
    | .task => .ok none

def remove (cache : Cache) (name : String) : Except Error (Removal × Cache) :=
  if !cache.enabled then .error .cachingDisabled
  else
    let removal := if Table.has cache.documents name then Removal.removed else .notFound
    .ok (removal, { cache with documents := Table.erase name cache.documents })

theorem retrieve_of_enabled {cache : Cache} (h : cache.enabled = true) (access : Access)
    (name : String) : cache.retrieve access name = .ok (Table.get? cache.documents name) := by
  simp [retrieve, h]

theorem insert_of_disabled {cache : Cache} (h : cache.enabled = false) (d : Document)
    (replace : Bool) : cache.insert d replace = .ok cache := by
  simp [insert, h]

end Cache

end Templating
