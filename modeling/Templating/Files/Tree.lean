import Templating.Files.Basic
import Templating.Files.Path

/-!
# File trees

The directories and files below a root, as they are at one moment. Opening a path walks down name by
name, so `..` goes up from a directory that is really there.
-/

namespace Templating

inductive FileTree where
  /-- A file, with its text unless its bytes are not UTF-8. -/
  | file (text : Option String)
  | directory (entries : List (String × FileTree))

namespace FileTree

/-! ### Contents -/

mutual

def texts : FileTree → List String
  | .file text => text.toList
  | .directory entries => entryTexts entries

def entryTexts : List (String × FileTree) → List String
  | [] => []
  | (_, tree) :: entries => tree.texts ++ entryTexts entries

end

/-- The tree with a file or directory put at a path, and the directories that lead to it. -/
def put (leaf : FileTree) : List String → FileTree → FileTree
  | [], _ => leaf
  | name :: path, tree =>
    let entries := match tree with
      | .directory entries => entries
      | .file _ => []
    let below := (Table.get? entries name).getD (.directory [])
    .directory (Table.insert name (put leaf path below) entries)

/-! ### Opening -/

/-- The longest name that a directory can hold, in bytes. -/
def maxName : Nat := 255

def maxPath : Nat := 4095

/-- What some names lead to from a tree, whose parents are listed from the nearest on. -/
def find (parents : List FileTree) (tree : FileTree) : List String → Except ReadFailure FileTree
  | [] => .ok tree
  | name :: names =>
    match tree with
    | .file _ => .error .notDirectory
    | .directory entries =>
      if name = ".." then
        match parents with
        | [] => find [] tree names
        | parent :: parents => find parents parent names
      else if maxName < name.utf8ByteSize then .error .nameTooLong
      else
        match Table.get? entries name with
        | some below => find (tree :: parents) below names
        | none => .error .missing

/-- Whether the text of a path can only name a directory: nothing or `.` is behind its last
slash. -/
def namesDirectory (text : String) : Bool :=
  let last := Path.lastPart text.toList
  last.isEmpty || last == ['.']

def content (text : String) : FileTree → Except ReadFailure String
  | .directory _ => .error .isDirectory
  | .file none => .error (if namesDirectory text then .notDirectory else .notUtf8)
  | .file (some content) =>
    if namesDirectory text then .error .notDirectory else .ok content

/-- The text of the file that `text` names from the directory `cwd`. -/
def read (tree : FileTree) (cwd text : String) : Except ReadFailure String :=
  if text.toList.contains '\x00' then .error .nulInName
  else if maxPath < text.utf8ByteSize then .error .nameTooLong
  else if text.isEmpty then .error .missing
  else
    let start := if text.toList.head? == some '/' then [] else Path.names cwd
    match find [] tree (start ++ Path.names text) with
    | .ok found => found.content text
    | .error why => .error why

/-! ### What can be read is a text of the tree -/

theorem texts_subset_entryTexts {entries : List (String × FileTree)} {name : String}
    {tree : FileTree} (h : (name, tree) ∈ entries) : tree.texts ⊆ entryTexts entries := by
  induction entries with
  | nil => cases h
  | cons entry entries ih =>
    obtain ⟨n, t⟩ := entry
    simp only [entryTexts]
    rcases List.mem_cons.1 h with h | h
    · cases h
      exact List.subset_append_left _ _
    · exact List.subset_append_of_subset_right _ (ih h)

theorem texts_subset_of_find {names : List String} {parents : List FileTree}
    {tree found : FileTree} {all : List String} (htree : tree.texts ⊆ all)
    (hparents : ∀ parent ∈ parents, parent.texts ⊆ all)
    (h : find parents tree names = .ok found) : found.texts ⊆ all := by
  induction names generalizing parents tree with
  | nil =>
    simp only [find, Except.ok.injEq] at h
    exact h ▸ htree
  | cons name names ih =>
    cases tree with
    | file text => simp [find] at h
    | directory entries =>
      simp only [find] at h
      split at h
      · cases parents with
        | nil => exact ih htree hparents h
        | cons parent parents =>
          exact ih (hparents _ (List.mem_cons_self ..))
            (fun p hp => hparents p (List.mem_cons_of_mem _ hp)) h
      · split at h
        · simp at h
        · split at h
          · next below hget =>
            refine ih ?_ ?_ h
            · refine List.Subset.trans ?_ htree
              rw [texts]
              exact texts_subset_entryTexts (Table.mem_of_get? hget)
            · intro p hp
              rcases List.mem_cons.1 hp with rfl | hp
              · exact htree
              · exact hparents p hp
          · simp at h

theorem mem_texts_of_content {tree : FileTree} {text content : String}
    (h : tree.content text = .ok content) : content ∈ tree.texts := by
  unfold FileTree.content at h
  split at h
  · cases h
  · cases h
  · split at h
    · cases h
    · cases h
      simp [texts]

theorem mem_texts_of_read {tree : FileTree} {cwd text content : String}
    (h : tree.read cwd text = .ok content) : content ∈ tree.texts := by
  simp only [read] at h
  split at h
  · cases h
  split at h
  · cases h
  split at h
  · cases h
  split at h
  · next found hfind =>
    exact texts_subset_of_find (List.Subset.refl _) (by simp) hfind (mem_texts_of_content h)
  · cases h

/-- The files of a tree, texts of paths being seen from the directory `cwd`. -/
def files (tree : FileTree) (cwd : String) : Files where
  read := tree.read cwd
  texts := tree.texts
  mem_texts := mem_texts_of_read

end FileTree

end Templating
