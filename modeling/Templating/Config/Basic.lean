import Templating.Renderer.Basic
import Templating.Source.Directory

/-!
# Configurations

A configuration says where the templates of a renderer are, and what the renderer does with them.
-/

namespace Templating

structure Config where
  /-- The directory in which templates are looked up, as a text. -/
  root : String := "."
  /-- The directory that they may lead to; it is the root if there is none. -/
  sandbox : Option String := none
  extension : String := defaultExtension
  cacheEnabled : Bool := true
  missing : Missing := .fail
deriving DecidableEq, Repr

inductive ConfigError where
  | unreadable (why : ReadFailure)
  | malformed

def ConfigError.message : ConfigError → String
  | unreadable why => "Failed to read config file: " ++ why.message
  | malformed => "Failed to parse config TOML: it is not a configuration"

namespace Config

/-- The directory that a configuration describes, its paths being named from `cwd`. -/
def directory (config : Config) (cwd : Option OsString) : Except Error Directory :=
  (Directory.sandboxed cwd (config.sandbox.getD config.root) config.root config.extension {}).mapError
    .illegalAccess

def renderer (config : Config) (access : Access) (cwd : Option OsString) (files : Files) :
    Except Error Renderer :=
  (config.directory cwd).map fun directory =>
    .ofRegistry access config.missing (.single (directory.source files))

def cache (config : Config) : Cache := .empty config.cacheEnabled

/-- Whether two configurations are the same, texts of paths being compared part by part. -/
def same (config other : Config) : Bool :=
  let sandbox := match config.sandbox, other.sandbox with
    | none, none => true
    | some a, some b => Path.sameText a b
    | _, _ => false
  Path.sameText config.root other.root && sandbox && config.extension == other.extension &&
    config.cacheEnabled == other.cacheEnabled && config.missing == other.missing

end Config

end Templating
