import Templating.Text.OsString

/-!
# Paths

A path is followed part by part, and nothing is looked up on the way. The slash at its beginning leads to the
root, empty names and `.` stay where they are, and `..` goes one up, which at the root or with nothing to go up
from stays there too. What is left is a root or none and names that an entry of a directory can have. A path
need not be text; its text has a replacement for what is none.
-/

namespace Templating

/-- What a path is made of. -/
inductive Part where
  /-- The slash at the beginning. -/
  | root
  /-- A `.` at the beginning; elsewhere it is no part. -/
  | here
  | up
  | name (name : OsString)
deriving DecidableEq, Repr

/-- What is between the slashes. -/
def splitSlash {α : Type} [DecidableEq α] (slash : α) : List α → List (List α)
  | [] => [[]]
  | c :: cs =>
    if c = slash then [] :: splitSlash slash cs
    else
      match splitSlash slash cs with
      | [] => [[c]]
      | part :: parts => (c :: part) :: parts

namespace OsString

def isAbsolute (path : OsString) : Bool := path.bytes.head? == some 0x2f

def partOf (name : List UInt8) : Part := if name = [0x2e, 0x2e] then .up else .name ⟨name⟩

def parts (path : OsString) : List Part :=
  let names := splitSlash 0x2f path.bytes
  let front := if path.isAbsolute then [.root] else if names.head? = some [0x2e] then [.here] else []
  front ++ (names.filter fun name => name != [] && name != [0x2e]).map partOf

end OsString

/-- A path that has been followed: from the root or from nowhere down to an entry. -/
structure Path where
  rooted : Bool
  entries : List OsString
deriving DecidableEq, Repr

namespace Path

/-! ### Following -/

def step (path : Path) : Part → Path
  | .root => ⟨true, []⟩
  | .here => path
  | .up => { path with entries := path.entries.dropLast }
  | .name name => { path with entries := path.entries ++ [name] }

def follow (path : Path) (parts : List Part) : Path := parts.foldl step path

def ofParts (parts : List Part) : Path := follow ⟨false, []⟩ parts

/-- Where `path` leads from the directory `cwd`; if that is not known, a path that does not begin at the root
begins nowhere. -/
def located (cwd : Option OsString) (path : OsString) : Path :=
  ofParts <|
    if path.isAbsolute then path.parts
    else
      match cwd with
      | some cwd => cwd.parts ++ path.parts
      | none => path.parts

/-! ### Showing and comparing -/

def parts (path : Path) : List Part := (if path.rooted then [.root] else []) ++ path.entries.map .name

def bytes (path : Path) : List UInt8 :=
  (if path.rooted then [0x2f] else []) ++ [0x2f].intercalate (path.entries.map OsString.bytes)

def display (path : Path) : String := (OsString.mk path.bytes).lossy

/-- Whether the parts of a path begin with those of a directory. -/
def isWithin (parts : List Part) (directory : Path) : Bool := directory.parts.isPrefixOf parts

/-- Whether two texts of paths have the same parts. -/
def sameText (a b : OsString) : Bool := a.parts == b.parts

/-- Whether a name begins with a dot and something follows. -/
def isHidden (name : String) : Bool := 1 < name.utf8ByteSize && name.toList.head? == some '.'

/-! ### Texts -/

def lastPart (cs : List Char) : List Char := (cs.reverse.takeWhile (· != '/')).reverse

/-- The names in the text of a path that lead somewhere. -/
def names (text : String) : List String :=
  ((splitSlash '/' text.toList).map String.ofList).filter fun name => name != "" && name != "."

end Path

/-! ### The names that are left -/

section SplitSlash

variable {α : Type} [DecidableEq α] {slash : α}

theorem slash_not_mem_of_mem_splitSlash {cs part : List α} (h : part ∈ splitSlash slash cs) : slash ∉ part := by
  induction cs generalizing part with
  | nil => simp_all [splitSlash]
  | cons c cs ih =>
    simp only [splitSlash] at h
    split at h
    · rcases List.mem_cons.1 h with rfl | h
      · exact List.not_mem_nil
      · exact ih h
    · next hc =>
      split at h
      · simp_all [Ne.symm hc]
      · next first rest heq =>
        rcases List.mem_cons.1 h with rfl | h
        · have := ih (heq ▸ List.mem_cons_self ..)
          simp [Ne.symm hc, this]
        · exact ih (heq ▸ List.mem_cons_of_mem _ h)

end SplitSlash

namespace OsString

/-- A text that an entry of a directory can have as its name. -/
def IsEntry (name : OsString) : Prop :=
  name.bytes ≠ [] ∧ name.bytes ≠ [0x2e] ∧ name.bytes ≠ [0x2e, 0x2e] ∧ 0x2f ∉ name.bytes

instance (name : OsString) : Decidable name.IsEntry := inferInstanceAs (Decidable (_ ∧ _))

theorem isEntry_of_mem_parts {path name : OsString} (h : .name name ∈ path.parts) : name.IsEntry := by
  rcases List.mem_append.1 h with h | h
  · split at h
    · simp at h
    · split at h <;> simp at h
  · obtain ⟨bytes, hbytes, heq⟩ := List.mem_map.1 h
    simp only [List.mem_filter, Bool.and_eq_true, bne_iff_ne, ne_eq] at hbytes
    unfold partOf at heq
    split at heq
    · cases heq
    · next hup =>
      obtain rfl := Part.name.inj heq
      exact ⟨hbytes.2.1, hbytes.2.2, hup, slash_not_mem_of_mem_splitSlash hbytes.1⟩

end OsString

namespace Path

open OsString

theorem isEntry_of_mem_follow {path : Path} {parts : List Part} (hparts : ∀ name, .name name ∈ parts → name.IsEntry)
    (hpath : ∀ name ∈ path.entries, name.IsEntry) : ∀ name ∈ (path.follow parts).entries, name.IsEntry := by
  induction parts generalizing path with
  | nil => exact hpath
  | cons part parts ih =>
    refine ih (fun name hn => hparts name (List.mem_cons_of_mem part hn)) ?_
    cases part with
    | root => exact fun _ hn => absurd hn List.not_mem_nil
    | here => exact hpath
    | up => exact fun name hn => hpath name ((List.dropLast_sublist _).mem hn)
    | name next =>
      intro name hn
      rcases List.mem_append.1 hn with hn | hn
      · exact hpath name hn
      · rw [List.mem_singleton.1 hn]
        exact hparts next List.mem_cons_self

theorem isEntry_of_mem_located {cwd : Option OsString} {path name : OsString}
    (h : name ∈ (located cwd path).entries) : name.IsEntry := by
  refine isEntry_of_mem_follow (fun name hn => ?_) (fun _ hn => absurd hn List.not_mem_nil) name h
  split at hn
  · exact isEntry_of_mem_parts hn
  · split at hn
    · rcases List.mem_append.1 hn with hn | hn
      · exact isEntry_of_mem_parts hn
      · exact isEntry_of_mem_parts hn
    · exact isEntry_of_mem_parts hn

end Path

end Templating
