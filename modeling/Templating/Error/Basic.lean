import Templating.Names
import Templating.Problem.Report
import Templating.Syntax.Expr
import Templating.Value.Json

/-!
# Errors

Everything that can go wrong, by its cause; the wording is in one function for each type.
-/

namespace Templating

/-! ### Writing -/

inductive Mismatch where
  | operands (op : BinaryOp) (lhs rhs : Value)
  | negation (operand : Value)
  | other (detail : String)

inductive WriteError where
  /-- An extend was left in place. -/
  | unresolved (template : String)
  | unknownTag (name : String)
  /-- The first part of a path whose value has no keys. -/
  | expectedDictionary (path : List String)
  | notIterable (collection : Expr)
  | typeMismatch (why : Mismatch)
  | divisionByZero
  | tag (name message : String)

def Mismatch.message : Mismatch → String
  | operands op lhs rhs =>
    "cannot apply '" ++ op.symbol ++ "' to " ++ lhs.kind ++ " and " ++ rhs.kind
  | negation operand => "cannot negate " ++ operand.kind
  | other detail => detail

def WriteError.message : WriteError → String
  | unresolved template => "#extend(\"" ++ template ++ "\") was never resolved"
  | unknownTag name => "no tag registered under the name " ++ name
  | expectedDictionary path => "expected dictionary at key: " ++ ".".intercalate path
  | notIterable collection => collection.display ++ " is not iterable"
  | typeMismatch why => "type mismatch: " ++ why.message
  | divisionByZero => "division by zero"
  | tag name message => "tag " ++ name ++ " failed: " ++ message

/-! ### Finding -/

/-- Why a source, or the registry of sources, refuses access. -/
inductive Denial where
  | unknownSource (key : String)
  | nothingToSearch
  | viewOutsideSandbox (view sandbox : String)
  | hidden (parts : List String)
  | escape (path : String)
  | other (detail : String)

inductive ReadFailure where
  | missing
  | isDirectory
  | notDirectory
  | nameTooLong
  | nulInName
  | notUtf8
  | other (message : String)

/-- Why a value cannot be the context of a template. -/
inductive ContextFault where
  | notKeyed (found : Value)
  | other (detail : String)

/-- What stops a template from being found, completed or written. -/
inductive Error where
  | noTemplateExists (name : String)
  | illegalAccess (why : Denial)
  /-- The templates from the one asked for down to one that is among them already. -/
  | cyclicalReference (name : String) (chain : List String)
  | unresolvedDocument (name : String) (references : Names)
  | keyExists (name : String)
  | cachingDisabled
  | duplicateSource (key : String)
  | readFailed (path : String) (why : ReadFailure)
  | parse (name source : String) (problems : List Problem)
  | write (why : WriteError)
  | invalidContext (why : ContextFault)

def Denial.message : Denial → String
  | unknownSource key => "no source registered under key " ++ key
  | nothingToSearch => "no searchable sources"
  | viewOutsideSandbox view sandbox =>
    "view directory " ++ view ++ " must be inside sandbox directory " ++ sandbox
  | hidden parts => "attempted to access " ++ ",".intercalate parts
  | escape path => "attempted to escape sandbox: " ++ path
  | other detail => detail

def ReadFailure.message : ReadFailure → String
  | missing => "No such file or directory (os error 2)"
  | isDirectory => "Is a directory (os error 21)"
  | notDirectory => "Not a directory (os error 20)"
  | nameTooLong => "File name too long (os error 36)"
  | nulInName => "file name contained an unexpected NUL byte"
  | notUtf8 => "stream did not contain valid UTF-8"
  | other message => message

def ContextFault.message : ContextFault → String
  | notKeyed found => "expected a keyed object, found " ++ found.json
  | other detail => detail

namespace Error

def message : Error → String
  | noTemplateExists name => "no template found for " ++ name
  | illegalAccess why => "illegal access: " ++ why.message
  | cyclicalReference name chain =>
    name ++ " cyclically referenced in [" ++ " -> ".intercalate chain ++ "]"
  | unresolvedDocument name references =>
    "flattening " ++ name ++ " failed, unresolved references: [" ++ ", ".intercalate references ++
      "]"
  | keyExists name => name ++ " already exists in the cache"
  | cachingDisabled => "caching is disabled"
  | duplicateSource key => "source already registered under key " ++ key
  | readFailed path why => "error reading template file " ++ path ++ ": " ++ why.message
  | parse name _ problems =>
    "failed to parse " ++ name ++ ": " ++ "; ".intercalate (problems.map Problem.display)
  | write why => "serialize error: " ++ why.message
  | invalidContext why => "invalid render context: " ++ why.message

/-- The error for a reader at a terminal: what is wrong with a template's text is drawn. -/
def report : Error → String
  | parse name source problems => "\n".intercalate (problems.map (Problem.report name source))
  | e => "Error: " ++ e.message

end Error

end Templating
