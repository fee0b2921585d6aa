import Templating.Cache

/-!
# Options

The arguments of the command line are gone over one after the other. A word is the name of the
template, or the value of the option before it; options are written with two dashes and their name,
or with one dash and a row of letters. Every option that takes a value may have it attached.
-/

namespace Templating.CommandLine

inductive Field where
  | root
  | sandbox
  | config
  | context
  | extension
deriving DecidableEq, Repr

inductive Flag where
  | tree
  | task
  | verbose
  | help
deriving DecidableEq, Repr

inductive Switch where
  | field (f : Field)
  | flag (f : Flag)
deriving DecidableEq, Repr

structure Options where
  template : Option String := none
  root : Option String := none
  sandbox : Option String := none
  config : Option String := none
  context : Option String := none
  extension : Option String := none
  /-- Whether the tree of the completed document is asked for, not its text. -/
  tree : Bool := false
  /-- Whether the cache is asked as a task. -/
  task : Bool := false
deriving DecidableEq, Repr

inductive Stop where
  | help
  | misuse
deriving DecidableEq, Repr

def Switch.ofName? (name : String) : Option Switch :=
  match name with
  | "root" => some (.field .root)
  | "sandbox" => some (.field .sandbox)
  | "config" => some (.field .config)
  | "context" => some (.field .context)
  | "ext" => some (.field .extension)
  | "ast" => some (.flag .tree)
  | "async" => some (.flag .task)
  | "verbose" => some (.flag .verbose)
  | "help" => some (.flag .help)
  | _ => none

def Switch.ofLetter? (letter : Char) : Option Switch :=
  match letter with
  | 'r' => some (.field .root)
  | 'c' => some (.field .context)
  | 'v' => some (.flag .verbose)
  | 'h' => some (.flag .help)
  | _ => none

namespace Options

def fill (old : Option String) (value : String) : Except Stop (Option String) :=
  if old.isSome then .error .misuse else .ok (some value)

def raise (old : Bool) : Except Stop Bool := if old then .error .misuse else .ok true

/-- The options with a value for a field. Only the extension may be empty. -/
def put (o : Options) (field : Field) (value : String) : Except Stop Options :=
  if value.isEmpty && field != .extension then .error .misuse
  else
    match field with
    | .root => return { o with root := ← fill o.root value }
    | .sandbox => return { o with sandbox := ← fill o.sandbox value }
    | .config => return { o with config := ← fill o.config value }
    | .context => return { o with context := ← fill o.context value }
    | .extension => return { o with extension := ← fill o.extension value }

/-- The options with a flag. How much is told about the work may be asked for again and again. -/
def mark (o : Options) (flag : Flag) : Except Stop Options :=
  match flag with
  | .tree => return { o with tree := ← raise o.tree }
  | .task => return { o with task := ← raise o.task }
  | .verbose => .ok o
  | .help => .error .help

def name (o : Options) (word : String) : Except Stop Options :=
  return { o with template := ← fill o.template word }

end Options

/-! ### Going over the arguments -/

structure Reading where
  options : Options := {}
  /-- The option whose value has to come next. -/
  pending : Option Field := none
  /-- Whether only words follow. -/
  wordsOnly : Bool := false

/-- A row of letters. The letters behind one that takes a value are its value, with or without `=`
before it; if there are none, the next argument is. -/
def letters (options : Options) : List Char → Except Stop Reading
  | [] => .ok { options }
  | c :: cs =>
    match Switch.ofLetter? c with
    | none => .error .misuse
    | some (.flag flag) =>
      match options.mark flag with
      | .ok options => letters options cs
      | .error stop => .error stop
    | some (.field field) =>
      match cs with
      | [] => .ok { options, pending := some field }
      | '=' :: value => return { options := ← options.put field (String.ofList value) }
      | value => return { options := ← options.put field (String.ofList value) }

/-- An option by its long name, with a value if there is a `=`. -/
def long (options : Options) (cs : List Char) : Except Stop Reading :=
  let name := String.ofList (cs.takeWhile (· != '='))
  match Switch.ofName? name, cs.dropWhile (· != '=') with
  | some (.flag flag), [] => return { options := ← options.mark flag }
  | some (.field field), [] => .ok { options, pending := some field }
  | some (.field field), _ :: value => return { options := ← options.put field (String.ofList value) }
  | _, _ => .error .misuse

def Reading.next (p : Reading) (argument : String) : Except Stop Reading :=
  let word : Except Stop Reading :=
    match p.pending with
    | some field => return { options := ← p.options.put field argument }
    | none => return { p with options := ← p.options.name argument }
  if p.wordsOnly then word
  else
    match argument.toList, p.pending with
    | ['-'], _ => word
    | '-' :: _, some _ => .error .misuse
    | ['-', '-'], none => .ok { p with wordsOnly := true }
    | '-' :: '-' :: cs, none => long p.options cs
    | '-' :: cs, none => letters p.options cs
    | _, _ => word

def Options.ofArguments (arguments : List String) : Except Stop Options := do
  let p ← arguments.foldlM Reading.next {}
  if p.pending.isSome || p.options.template.isNone then .error .misuse else .ok p.options

end Templating.CommandLine
