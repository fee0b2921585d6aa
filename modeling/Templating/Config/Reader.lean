import Templating.Config.Basic
import Templating.Config.Line

/-!
# Reading configurations

The settings of a configuration are overlaid on the default one, each at most once. How missing
references are treated may be written as a text, as a table with one key, under a dotted key or
below headings.
-/

namespace Templating

def Missing.ofName? (name : String) : Option Missing :=
  match name with
  | "fail" => some .fail
  | "defer" => some .defer
  | _ => none

namespace Config

def set (config : Config) (path : List String) (value : Setting) : Option Config :=
  match path, value with
  | ["root_directory"], .text s => some { config with root := s }
  | ["sandbox_directory"], .text s => some { config with sandbox := some s }
  | ["default_extension"], .text s => some { config with extension := s }
  | ["cache_enabled"], .flag on => some { config with cacheEnabled := on }
  | ["missing_references"], .text name
  | ["missing_references"], .choice name
  | ["missing_references", name], .empty =>
    (Missing.ofName? name).map fun missing => { config with missing }
  | _, _ => none

def setAll (config : Config) : List (List String × Setting) → Option Config
  | [] => some config
  | (path, value) :: settings => do (← config.set path value).setAll settings

/-- The settings above the first heading, and the lines from there on. -/
def untilHeading : List Line → List (List String × Setting) × List Line
  | .setting path value :: lines =>
    let (settings, rest) := untilHeading lines
    ((path, value) :: settings, rest)
  | lines => ([], lines)

/-- The setting that headings make, alone or with a setting below them. -/
def underHeadings : List Line → Option (List (List String × Setting))
  | [] => some []
  | [.heading [table], .setting [name] .empty]
  | [.heading [table, name]] => some [([table, name], .empty)]
  | [.heading [table], .heading path]
  | [.heading path, .heading [table]] =>
    if path.head? = some table then some [(path, .empty)] else none
  | _ => none

def ofLines? (lines : List Line) : Option Config := do
  let (settings, rest) := untilHeading lines
  let settings := settings ++ (← underHeadings rest)
  if (settings.map fun (path, _) => path.head?).Nodup then setAll {} settings else none

def ofText (text : String) : Except ConfigError Config :=
  match (Line.ofText? text).bind ofLines? with
  | some config => .ok config
  | none => .error .malformed

def ofFile (files : Files) (path : String) : Except ConfigError Config :=
  match files.read path with
  | .ok text => ofText text
  | .error why => .error (.unreadable why)

end Config

end Templating
