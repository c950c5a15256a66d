import ShapeCheck.Command.Arguments
import ShapeCheck.Command.Report
import ShapeCheck.Compile.Basic
import ShapeCheck.Document.Lowering
import ShapeCheck.Document.Reader
import ShapeCheck.Script.Program
import ShapeCheck.Settings.Config
import ShapeCheck.Validation.Diagnosis

set_option autoImplicit false

/-! # Carrying out a call

A call reads its files from what has been looked at, and ends with what is to be printed and
written. Nothing is read, printed or written here.

Main fact: `Invocation.run_showConfig` (a call that shows the options reads no document).
-/

namespace ShapeCheck

/-! ## Results -/

/-- What a call leaves behind. -/
structure Output where
  stdout : String := ""
  stderr : String := ""
  /-- Zero if all went well, one if the value was rejected, two if the type cannot be compiled. -/
  status : Nat := 0
  /-- A file to write, with its contents. -/
  written : Option (String × String) := none
  deriving DecidableEq, Repr, Inhabited

/-- Why a call was broken off. -/
inductive RunError
  | config (error : ConfigError)
  | documentUnreadable (location : String) (why : FileError)
  | documentInvalid (location : String) (why : DocumentError)
  | valueUnreadable (source : Source) (why : FileError)
  | valueMalformed (location : String) (why : Json.Fault)
  | outputUnwritable (location : String) (why : FileError)
  deriving DecidableEq, Repr, Inhabited

/-- A link in the chain of causes of an error. -/
inductive Cause
  | text (message : String)
  | file (why : FileError)
  | json (why : Json.Fault)
  | document (why : DocumentError)
  deriving DecidableEq, Repr, Inhabited

/-- The cause in words. -/
def Cause.message : Cause → String
  | text message => message
  | file why => why.message
  | json .ended => "the text ends too early"
  | json .malformed => "the text is not valid JSON"
  | json .mismatch => "the JSON is not of the expected form"
  | document why => why.message

namespace ConfigError

/-- The causes of the error, the outermost first. -/
def causes : ConfigError → List Cause
  | unreadable location why => [.text ("failed to read config: " ++ location), .file why]
  | malformed location why =>
    [.text ("failed to parse config: " ++ location), .text "failed to parse tyguard.json",
      .json why]
  | cycle identity => [.text ("tyguard.json extends cycle detected at " ++ identity)]

end ConfigError

namespace RunError

/-- The causes of an invalid document, of which an unreadable text has one of its own. -/
def documentCauses (why : DocumentError) : List Cause :=
  match why with
  | .unreadable fault => [.document why, .json fault]
  | why => [.document why]

/-- The causes of the error, the outermost first. -/
def causes : RunError → List Cause
  | config error => error.causes
  | documentUnreadable location why =>
    [.text ("failed to read type document: " ++ location), .file why]
  | documentInvalid location why =>
    .text ("invalid type document: " ++ location) :: documentCauses why
  | valueUnreadable (.file location) why =>
    [.text ("failed to read value: " ++ location), .file why]
  | valueUnreadable .standardInput why => [.text "failed to read value from stdin", .file why]
  | valueMalformed location why =>
    [.text ("value is not valid JSON: " ++ location), .json why]
  | outputUnwritable location why => [.text ("failed to write " ++ location), .file why]

end RunError

/-! ## Steps -/

namespace Invocation

/-- The options of a call. -/
def options (call : Invocation) (files : Files) : Except (Stop RunError) CompileOptions :=
  match ConfigFile.resolve files call.command.document call.config call.choices with
  | .ok options => .ok options
  | .error (.needs source) => .error (.needs source)
  | .error (.failed error) => .error (.failed (.config error))

/-- The validator of a document, or why it cannot be compiled. -/
def validator (files : Files) (location : String) (options : CompileOptions) :
    Except (Stop RunError) (Except CompileError Validator) := do
  let text ← files.read (.file location) (.documentUnreadable location)
  match Document.ofText text with
  | .error why => throw (.failed (.documentInvalid location why))
  | .ok document =>
    match document.lower .initial with
    | (.error why, _) => throw (.failed (.documentInvalid location why))
    | (.ok root, arena) => return arena.compile root options

/-- The source of a value; a hyphen stands for the standard input. -/
def valueSource (location : String) : Source :=
  if location = "-" then .standardInput else .file location

/-- The value at a location. -/
def value (files : Files) (location : String) : Except (Stop RunError) Value := do
  let source := valueSource location
  let text ← files.read source (.valueUnreadable source)
  match Json.parse text with
  | .ok json => return Value.ofJson json
  | .error why => throw (.failed (.valueMalformed location why))

/-- Carries out a command with the validator of its document. -/
def perform (files : Files) (color : Bool) (v : Validator) :
    Command → Except (Stop RunError) Output
  | .compile _ none => return { stdout := v.script ++ "\n" }
  | .compile _ (some location) => return { written := some (location, v.script ++ "\n") }
  | .names _ => return { stdout := Report.table color v.identifiers }
  | .check _ location => do
    let value ← value files location
    return match v.check value with
      | .ok () => { stdout := Report.passed color ++ "\n" }
      | .error failure =>
        { stdout := failure.toJson.pretty ++ "\n"
          stderr := Report.rejected color failure ++ "\n"
          status := 1 }

/-- Carries out a call. -/
def run (call : Invocation) (files : Files) (color : Bool) : Except (Stop RunError) Output := do
  let options ← call.options files
  -- options are shown before the document is looked at
  if call.showConfig then return { stdout := options.toJson.pretty ++ "\n" }
  else
    match ← validator files call.command.document options with
    | .error e => return { stderr := Report.uncompiled color e ++ "\n", status := 2 }
    | .ok v => perform files color v call.command

theorem run_showConfig {call : Invocation} {files : Files} {color : Bool}
    {options : CompileOptions} (shown : call.showConfig = true)
    (resolved : call.options files = .ok options) :
    call.run files color = .ok { stdout := options.toJson.pretty ++ "\n" } := by
  simp [run, resolved, shown, bind, Except.bind, pure, Except.pure]

end Invocation

end ShapeCheck
