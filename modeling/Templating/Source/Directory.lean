import Templating.Files.Basic
import Templating.Source.Basic

/-!
# Directories of templates

Templates in the files of a directory, the view, that lies inside another, the sandbox. The name of
a template is followed from the view, an extension is put behind it, and what comes out is refused
if it leads outside or through something hidden.
-/

namespace Templating

/-- What the files of a directory have to comply with. -/
structure Limits where
  /-- A name whose last part has no dot is given the extension. -/
  requireExtensions : Bool := true
  /-- Every name that does not end in the extension is given it. -/
  onlyDefaultExtension : Bool := false
  /-- A path may not lead out of the view, or of the sandbox if leaving the view is allowed. -/
  toSandbox : Bool := true
  /-- A path may not lead through names that begin with a dot. -/
  toVisibleFiles : Bool := true
deriving DecidableEq, Repr

def Limits.asGiven : Limits := { requireExtensions := false }

structure Directory where
  sandbox : Path
  view : Path
  extension : String
  limits : Limits
  view_inside : Path.isWithin view.parts sandbox = true
  view_entries : ∀ name ∈ view.entries, name.IsEntry

namespace Directory

/-- A view in a sandbox, both named from the directory `cwd`. -/
def sandboxed (cwd : Option OsString) (sandbox view : OsString) (extension : String) (limits : Limits) :
    Except Denial Directory :=
  let sandbox := Path.located cwd sandbox
  let viewPath := Path.located cwd view
  if h : Path.isWithin viewPath.parts sandbox = true then
    .ok ⟨sandbox, viewPath, extension, limits, h, fun _ => Path.isEntry_of_mem_located⟩
  else .error (.viewOutsideSandbox viewPath.display sandbox.display)

variable (directory : Directory)

/-- The text of a path with the extension behind it, if the limits want that. -/
def withExtension (text : String) : String :=
  let extended := text ++ "." ++ directory.extension
  if directory.limits.onlyDefaultExtension then
    if ('.' :: directory.extension.toList).isSuffixOf text.toList then text else extended
  else if directory.limits.requireExtensions && !(Path.lastPart text.toList).contains '.' then
    extended
  else text

/-- The names below the sandbox that begin with a dot; all are looked at if the path is not below
the sandbox. -/
def hiddenNames (parts : List Part) : List String :=
  let below :=
    if Path.isWithin parts directory.sandbox then parts.drop directory.sandbox.parts.length else parts
  below.filterMap fun
    | .name name => if Path.isHidden name.lossy then some name.lossy else none
    | _ => none

/-- The text of the path of a template's file; the flag allows leaving the view. -/
def pathFor (template : String) (escape : Bool) : Except Denial String :=
  let name := String.ofList (template.toList.dropWhile (· == '/'))
  let text := directory.withExtension (directory.view.follow (OsString.ofString name).parts).display
  let parts := (OsString.ofString text).parts
  let hidden := directory.hiddenNames parts
  let scope := if escape then directory.sandbox else directory.view
  if directory.limits.toVisibleFiles && !hidden.isEmpty then .error (.hidden hidden)
  else if directory.limits.toSandbox && !Path.isWithin parts scope then .error (.escape text)
  else .ok text

/-- The text of a template, by what opening its path answers. -/
def read (opened : String → Except ReadFailure String) (template : String) (escape : Bool) :
    Except Error String :=
  match directory.pathFor template escape with
  | .error why => .error (.illegalAccess why)
  | .ok path =>
    match opened path with
    | .ok text => .ok text
    | .error .missing => .error (.noTemplateExists template)
    | .error why => .error (.readFailed path why)

def source (files : Files) : Source where
  read := directory.read files.read
  texts := files.texts
  mem_texts h := by
    unfold read at h
    split at h
    · cases h
    · split at h
      · next hread =>
        cases h
        exact files.mem_texts hread
      · cases h
      · cases h

end Directory

end Templating
