import Templating.CommandLine.Basic

/-!
# The program

The outermost layer. A run is repeated with more and more files opened, until it opens none that has
not been opened before.
-/

namespace Templating.Program

def failureOf (e : IO.Error) : ReadFailure :=
  match e with
  | .noFileOrDirectory .. => .missing
  | .inappropriateType _ 21 _ => .isDirectory
  | .inappropriateType _ 20 _ => .notDirectory
  | .invalidArgument _ 36 _ => .nameTooLong
  | .permissionDenied _ code details => .other (details ++ " (os error " ++ toString code ++ ")")
  | e => .other (toString e)

def openFile (path : String) : IO (Except ReadFailure String) := do
  if path.toList.contains '\x00' then return .error .nulInName
  try
    match String.fromUTF8? (← IO.FS.readBinFile path) with
    | some text => return .ok text
    | none => return .error .notUtf8
  catch e => return .error (failureOf e)

/-- All bytes of a stream, behind some that have been read. -/
partial def readAll (stream : IO.FS.Stream) (read : ByteArray) : IO ByteArray := do
  let more ← stream.read 65536
  if more.isEmpty then return read else readAll stream (read ++ more)

def readInput (arguments : List String) : IO (Option String) := do
  match CommandLine.Options.ofArguments arguments with
  | .ok options =>
    if options.context == some "-" then
      return String.fromUTF8? (← readAll (← IO.getStdin) .empty)
    else return some ""
  | .error _ => return some ""

/-- The outcome of a run, once all files that it opens are at hand. -/
partial def finish (arguments : List String) (cwd : Option OsString) (input : Option String)
    (answers : Table (Except ReadFailure String)) : IO CommandLine.Outcome := do
  let (outcome, opened) := CommandLine.run ⟨cwd, .ofAnswers answers, input⟩ arguments
  match opened.find? fun path => !Table.has answers path with
  | none => return outcome
  | some path => finish arguments cwd input (Table.insert path (← openFile path) answers)

def execute (arguments : List String) : IO UInt32 := do
  let input ← readInput arguments
  let cwd ← try pure (some (OsString.ofString (← IO.currentDir).toString)) catch _ => pure none
  let outcome ← finish arguments cwd input []
  (← IO.getStdout).putStr outcome.output
  (← IO.getStderr).putStr outcome.errors
  return outcome.code.toUInt32

end Templating.Program

def main (arguments : List String) : IO UInt32 := Templating.Program.execute arguments
