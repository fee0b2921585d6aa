import Templating.CommandLine.Options
import Templating.Config.Reader
import Templating.Value.Reader

/-!
# The command line

One template is completed and either written in a context or shown as a tree. The configuration is
read first, then the context, and each thing that goes wrong ends the run.
-/

namespace Templating.CommandLine

inductive ContextError where
  | unreadable (place : String) (why : ReadFailure)
  | malformed

inductive Failure where
  | stopped (why : Stop)
  | config (path : String) (why : ConfigError)
  | context (why : ContextError)
  | template (why : Error)

structure World where
  /-- The directory from which paths are named, if it is known. -/
  cwd : Option OsString
  files : Files
  /-- The text on standard input, if it is one. -/
  input : Option String

structure Outcome where
  code : Nat
  output : String
  errors : String
deriving DecidableEq, Repr

/-- A part of a run; what it adds to are the texts of the paths that were opened. -/
abbrev Run := ExceptT Failure (StateM (List String))

/-! ### Texts -/

def usage : String :=
  "Usage: [OPTIONS] <TEMPLATE>\n\nOptions:\n" ++
  "  -r, --root <DIR>        Directory templates are looked up in\n" ++
  "      --sandbox <DIR>     Directory that they may lead to\n" ++
  "      --config <FILE>     Configuration in TOML\n" ++
  "  -c, --context <FILE>    Context in JSON; - is standard input\n" ++
  "      --ext <EXT>         Extension of names that carry none\n" ++
  "      --ast               Show the tree of the completed document\n" ++
  "      --async             Ask the cache as a task\n" ++
  "  -v, --verbose           Tell more; may be repeated\n" ++
  "  -h, --help              Show this\n"

def ContextError.message : ContextError → String
  | .unreadable place why => place ++ ": " ++ why.message
  | .malformed => "it is not a JSON value"

def Failure.outcome : Failure → Outcome
  | stopped .help => ⟨0, usage, ""⟩
  | stopped .misuse => ⟨2, "", usage⟩
  | config path why => ⟨1, "", "Error loading config '" ++ path ++ "': " ++ why.message ++ "\n"⟩
  | context why => ⟨1, "", "Error reading context: " ++ why.message ++ "\n"⟩
  | template why => ⟨1, "", why.report ++ "\n"⟩

/-! ### A run -/

variable (world : World)

def readConfig (options : Options) : Run Config := do
  let config ← match options.config with
    | none => pure {}
    | some path =>
      modify (· ++ [path])
      match Config.ofFile world.files path with
      | .ok config => pure config
      | .error why => throw (.config path why)
  pure { config with
    root := options.root.getD config.root
    sandbox := options.sandbox.or config.sandbox
    extension := options.extension.getD config.extension }

/-- The text of the context in a file or on standard input. -/
def contextText (path : String) : Run String := do
  if path = "-" then
    match world.input with
    | some text => pure text
    | none => throw (.context (.unreadable "stdin" .notUtf8))
  else
    modify (· ++ [path])
    match world.files.read path with
    | .ok text => pure text
    | .error why => throw (.context (.unreadable ("'" ++ path ++ "'") why))

/-- The context that the options ask for; it is empty if they do not. -/
def readContext (options : Options) : Run Value := do
  match options.context with
  | none => pure (.dict [])
  | some path =>
    match Value.ofJson? (← contextText world path) with
    | some context => pure context
    | none => throw (.context .malformed)

def rendering (renderer : Renderer) (options : Options) (template : String) (context : Value) :
    Resolve String :=
  if options.tree then Document.tree <$> renderer.document template
  else renderer.render template context

def produce (options : Options) : Run String := do
  let config ← readConfig world options
  let context ← readContext world options
  match config.directory world.cwd with
  | .error why => throw (.template why)
  | .ok directory =>
    let access := if options.task then .task else .blocking
    let renderer := Renderer.ofRegistry access config.missing (.single (directory.source world.files))
    let (result, progress) :=
      (rendering renderer options (options.template.getD "") context).run ⟨config.cache, []⟩
    modify (· ++ progress.reads.filterMap fun read =>
      (directory.pathFor read.template read.escape).toOption)
    match result with
    | .ok output => pure output
    | .error why => throw (.template why)

/-- The outcome of a run, and the texts of the paths that were opened. -/
def run (arguments : List String) : Outcome × List String :=
  match Options.ofArguments arguments with
  | .error why => ((Failure.stopped why).outcome, [])
  | .ok options =>
    let (result, opened) := (produce world options).run []
    match result with
    | .ok output => (⟨0, output, ""⟩, opened)
    | .error why => (why.outcome, opened)

end Templating.CommandLine
