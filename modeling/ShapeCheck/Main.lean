import ShapeCheck.Command.Run

set_option autoImplicit false

/-! # The program

Reads what a call needs, prints what it leaves behind, and writes its file. What to do is decided
elsewhere.
-/

namespace ShapeCheck

namespace Program

/-! ## Reading -/

/-- Why an operation on a file failed. -/
def explain : IO.Error → FileError
  | .noFileOrDirectory _ _ _ => .notFound
  -- one kind of error for both, told apart by a number that some calls give with a minus sign
  | .inappropriateType _ code _ =>
    if code == 20 || code == -20 then .notDirectory else .isDirectory
  | .permissionDenied _ _ _ => .permissionDenied
  | error => .other (toString error)

/-- All that is left of a stream. -/
partial def readRest (stream : IO.FS.Stream) (before : String) : IO String := do
  let line ← stream.getLine
  if line.isEmpty then return before else readRest stream (before ++ line)

/-- Does something that may fail, and says why it failed. -/
def attempt {α : Type} (action : IO α) : IO (Except FileError α) := do
  try return .ok (← action)
  catch error => return .error (explain error)

/-- The text of a file. -/
def readText (location : String) : IO (Except FileError String) := do
  match ← attempt (IO.FS.readBinFile location) with
  | .error why => return .error why
  | .ok bytes =>
    match String.fromUTF8? bytes with
    | some text => return .ok text
    | none => return .error .notText

/-- Looks at a source. -/
def look : Source → IO Sight
  | .standardInput => do
    return ⟨"", false, ← attempt (do readRest (← IO.getStdin) "")⟩
  | .file location => do
    let place ← attempt (IO.FS.realPath location)
    let text ← readText location
    match place with
    | .error _ => return ⟨location, false, text⟩
    | .ok real =>
      let isFile ← attempt (do return (← real.metadata).type == .file)
      return ⟨real.toString, isFile.toOption.getD false, text⟩

/-- Carries out a call, and looks at whatever it asks for on the way. -/
partial def carryOut (call : Invocation) (color : Bool) (files : Files) :
    IO (Except RunError Output) := do
  match call.run files color with
  | .ok output => return .ok output
  | .error (.failed error) => return .error error
  | .error (.needs source) => carryOut call color ((source, ← look source) :: files)

/-! ## Writing -/

/-- How the program is called. -/
def usage : String :=
  "Usage: shapecheck [OPTIONS] <COMMAND>\n\n" ++
    "  compile <DOCUMENT> [-o <FILE>]  Print the script that checks values of a type\n" ++
    "  check <DOCUMENT> <VALUE>        Check a JSON value against a type\n" ++
    "  names <DOCUMENT>                List the predicates of a type\n\n" ++
    "  -c, --config <FILE>, --showConfig, --pretty <BOOL>, --superfluousPropertyCheck,\n" ++
    "  --ignoreMethods, --valueMayBeAbsent, --inlineTrivialPredicates, --shortCircuit\n"

/-- Answers a command line that is not carried out. -/
def refuse (error : ArgumentError) : IO UInt32 := do
  match error with
  | .helpWanted =>
    IO.print usage
    return 0
  | .versionWanted =>
    IO.println "shapecheck 0.1.0"
    return 0
  | .nothingWanted =>
    IO.eprint usage
    return 2
  | error =>
    IO.eprintln ("error: " ++ error.message)
    return 2

/-- Reports that a call was broken off. -/
def report (error : RunError) : IO UInt32 := do
  match error.causes.map Cause.message with
  | [] => return 1
  | message :: causes =>
    IO.eprintln ("Error: " ++ message)
    causes.forM fun cause => IO.eprintln ("  caused by: " ++ cause)
    return 1

/-- Prints and writes what a call leaves behind. -/
def deliver (output : Output) : IO UInt32 := do
  IO.print output.stdout
  (← IO.getStdout).flush
  IO.eprint output.stderr
  match output.written with
  | none => return UInt32.ofNat output.status
  | some (location, text) =>
    match ← attempt (IO.FS.writeFile location text) with
    | .ok () => return UInt32.ofNat output.status
    | .error why => report (.outputUnwritable location why)

end Program

end ShapeCheck

open ShapeCheck in
/-- Runs the program on the words of its command line. -/
def main (words : List String) : IO UInt32 := do
  match Invocation.ofWords words with
  | .error error => Program.refuse error
  | .ok call =>
    let isTerminal ← (← IO.getStderr).isTty
    match ← Program.carryOut call (call.pretty.getD isTerminal) [] with
    | .ok output => Program.deliver output
    | .error error => Program.report error
