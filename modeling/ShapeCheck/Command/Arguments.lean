import ShapeCheck.Settings.Options

set_option autoImplicit false

/-! # The command line

The program is called with a command, its arguments, and flags. Flags are spelled `--name`,
`--name=value`, `--name value`, or by one letter, as in `-o value`, `-ovalue` and `-o=value`. All
but a few of them may stand in front of the command as well as behind it; what stands behind it
counts then. Behind a bare `--` every word is an argument.

A flag that takes a value keeps it pending until the next flag or argument shows that no more is to
come, and only then is the value looked at. So of two mistakes that of the later word may be
reported.

Main facts: `Progress.settle_of_pending_eq_none` (nothing happens while nothing is pending) and
`Invocation.ofWords_nil` (a call without any word is answered by help).
-/

namespace ShapeCheck

/-! ## What is asked for -/

/-- What the program is to do. -/
inductive Command
  /-- Writes the script of a document, to a file if one is given. -/
  | compile (document : String) (outFile : Option String)
  /-- Checks a value against a document. -/
  | check (document value : String)
  /-- Lists the predicates of a document. -/
  | names (document : String)
  deriving DecidableEq, Repr, Inhabited

/-- The document that a command works on. -/
def Command.document : Command → String
  | compile document _ => document
  | check document _ => document
  | names document => document

/-- A call of the program. -/
structure Invocation where
  command : Command
  /-- The configuration to use instead of the nearest one. -/
  config : Option String
  /-- The options are to be shown, and nothing else is to be done. -/
  showConfig : Bool
  /-- Whether to colour messages, if that is said. -/
  pretty : Option Bool
  choices : OptionChoices
  deriving DecidableEq, Repr, Inhabited

/-- Why a command line is not carried out. -/
inductive ArgumentError
  | missingArgument
  | unknownArgument
  | unknownCommand
  | missingCommand
  | invalidValue
  /-- A flag is given twice. -/
  | repeated
  /-- A flag that takes no value has one. -/
  | unexpectedValue
  | helpWanted
  | versionWanted
  /-- Nothing is asked for. -/
  | nothingWanted
  deriving DecidableEq, Repr, Inhabited

/-- The error in words. -/
def ArgumentError.message : ArgumentError → String
  | missingArgument => "a required argument is missing"
  | unknownArgument => "there is no such argument"
  | unknownCommand => "there is no such command"
  | missingCommand => "a command is required"
  | invalidValue => "a value is missing or not of the right form"
  | repeated => "a flag cannot be given twice"
  | unexpectedValue => "a flag that takes no value has one"
  | helpWanted => "help is wanted"
  | versionWanted => "the version is wanted"
  | nothingWanted => "nothing is asked for"

/-! ## Flags -/

/-- Where a word stands: in front of the command, or behind one of them. -/
inductive Level
  | program
  | compile
  | check
  | names
  deriving DecidableEq, Repr, Inhabited

/-- The command of this name. -/
def Level.ofWord? : String → Option Level
  | "compile" => some .compile
  | "check" => some .check
  | "names" => some .names
  | _ => none

/-- The word names a command; one of them gives help on the others. -/
def isCommandWord (word : String) : Bool := (Level.ofWord? word).isSome || word == "help"

/-- The number of arguments at a level, all of them required. -/
def Level.arity : Level → Nat
  | program => 0
  | compile => 1
  | check => 2
  | names => 1

/-- A flag. -/
inductive Flag
  | help
  | version
  | showConfig
  | config
  | pretty
  | outFile
  /-- The option of this name. -/
  | choice (name : String)
  deriving DecidableEq, Repr, Inhabited

/-- How many values a flag takes. -/
inductive ValueCount
  | none
  | one
  | atMostOne
  deriving DecidableEq, Repr, Inhabited

namespace Flag

/-- How many values a flag takes. -/
def values : Flag → ValueCount
  | help | version | showConfig => .none
  | config | pretty | outFile => .one
  | choice _ => .atMostOne

/-- The name of an option with hyphens between small words. -/
def hyphenated (name : String) : String :=
  String.ofList (name.toList.flatMap fun c => if c.isUpper then ['-', c.toLower] else [c])

/-- The long names of flags at every level. -/
def commonNames : List (String × Flag) :=
  [("help", help), ("config", config), ("showConfig", showConfig), ("show-config", showConfig),
    ("pretty", pretty)] ++
  CompileOptions.names.flatMap fun name => [(name, choice name), (hyphenated name, choice name)]

/-- The flag of a long name. -/
def ofLong? (level : Level) (name : String) : Option Flag :=
  let own :=
    match level with
    | .program => [("version", version)]
    | .compile => [("outFile", outFile), ("out-file", outFile)]
    | _ => []
  (own ++ commonNames).lookup name

/-- The flag of a letter. -/
def ofShort? (level : Level) (letter : Char) : Option Flag :=
  match letter, level with
  | 'h', _ => some help
  | 'c', _ => some config
  | 'V', .program => some version
  | 'o', .compile => some outFile
  | _, _ => none

end Flag

/-! ## Values -/

/-- What a value is given for: a flag, or the argument at a position. -/
inductive Slot
  | flag (flag : Flag)
  | argument (position : Nat)
  deriving DecidableEq, Repr, Inhabited

namespace Slot

/-- The value is of the right form: a truth value, or a location, which is not empty. -/
def accepts (slot : Slot) (value : String) : Bool :=
  match slot with
  | flag .pretty => value == "true" || value == "false"
  | flag (.choice _) => value == "true" || value == "false"
  | flag .showConfig => true
  | _ => !value.isEmpty

/-- The slot is empty only if a value is missing. -/
def needsValue : Slot → Bool
  | flag f => f.values == .one
  | argument _ => true

end Slot

/-- What has been found on a level. -/
structure Progress where
  /-- Values that have been looked at. -/
  given : List (Slot × String) := []
  /-- A flag or argument that has not been looked at, with its values. -/
  pending : Option (Slot × List String) := none
  /-- The pending flag takes the next word. -/
  awaiting : Bool := false
  /-- Every further word is an argument. -/
  argumentsOnly : Bool := false
  /-- The number of arguments so far. -/
  position : Nat := 0
  deriving DecidableEq, Repr, Inhabited

namespace Progress

/-- Looks at the values of a slot. A flag without a value means yes. -/
def accept (p : Progress) (slot : Slot) (values : List String) :
    Except ArgumentError Progress :=
  if values.isEmpty && slot.needsValue then .error .invalidValue
  else if p.given.any (·.1 == slot) then .error .repeated
  else
    let value := values.headD "true"
    if slot.accepts value then .ok { p with given := p.given ++ [(slot, value)] }
    else .error .invalidValue

/-- Looks at what is pending. -/
def settle (p : Progress) : Except ArgumentError Progress :=
  match p.pending with
  | none => .ok p
  | some (slot, values) => { p with pending := none }.accept slot values

theorem settle_of_pending_eq_none {p : Progress} (h : p.pending = none) : p.settle = .ok p := by
  simp [settle, h]

/-- Takes a flag, with a value that is attached to it. -/
def takeFlag (p : Progress) (flag : Flag) (attached : Option String) :
    Except ArgumentError Progress := do
  match flag.values, attached with
  | .none, some _ => throw .unexpectedValue
  | .none, none =>
    let p ← p.settle
    match flag with
    | .help => throw .helpWanted
    | .version => throw .versionWanted
    | flag => return { (← p.accept (.flag flag) []) with awaiting := false }
  | _, some value =>
    let p ← p.settle
    return { (← p.accept (.flag flag) [value]) with awaiting := false }
  | _, none =>
    let p ← p.settle
    return { p with pending := some (.flag flag, []), awaiting := true }

/-- Takes a long flag. -/
def takeLong (level : Level) (p : Progress) (body : List Char) : Except ArgumentError Progress :=
  let name := String.ofList (body.takeWhile (· != '='))
  let attached :=
    match body.dropWhile (· != '=') with
    | _ :: value => some (String.ofList value)
    | [] => none
  match Flag.ofLong? level name with
  | some flag => p.takeFlag flag attached
  | none => .error .unknownArgument

/-- Takes flags of one letter, the last of which may have its value attached. -/
def takeShort (level : Level) (p : Progress) : List Char → Except ArgumentError Progress
  | [] => .ok p
  | letter :: rest =>
    match Flag.ofShort? level letter with
    | none => .error .unknownArgument
    | some flag =>
      if flag.values == .none then do
        takeShort level (← p.takeFlag flag none) rest
      else
        match rest with
        | [] => p.takeFlag flag none
        | '=' :: value => p.takeFlag flag (some (String.ofList value))
        | value => p.takeFlag flag (some (String.ofList value))

/-- Takes an argument. -/
def takeArgument (level : Level) (p : Progress) (word : String) :
    Except ArgumentError Progress := do
  if p.position < level.arity then
    let p ← p.settle
    return { p with
      pending := some (.argument p.position, [word])
      awaiting := false
      position := p.position + 1 }
  else if level == .program && !(p.argumentsOnly && isCommandWord word) then
    throw .unknownCommand
  else throw .unknownArgument

/-- Takes a value of the pending flag. -/
def takeValue (p : Progress) (word : String) : Progress :=
  { p with
    pending := p.pending.map fun (slot, values) => (slot, values ++ [word])
    awaiting := false }

/-- Takes a word that is not the name of a command. -/
def takeWord (level : Level) (p : Progress) (word : String) : Except ArgumentError Progress :=
  if p.argumentsOnly then p.takeArgument level word
  else
    match word.toList with
    -- this ends the flags, but a pending flag stays pending
    | ['-', '-'] => .ok { p with argumentsOnly := true }
    | '-' :: '-' :: body => p.takeLong level body
    | '-' :: c :: body => p.takeShort level (c :: body)
    -- a lone hyphen is a word like any other
    | _ => if p.awaiting then .ok (p.takeValue word) else p.takeArgument level word

/-- Takes all words of a level. -/
def takeAll (level : Level) (p : Progress) (words : List String) :
    Except ArgumentError Progress := do
  (← words.foldlM (fun p word => p.takeWord level word) p).settle

/-- The value of a slot. -/
def value? (p : Progress) (slot : Slot) : Option String := p.given.lookup slot

end Progress

/-! ## The whole line -/

/-- The answer to a request for help on some commands, of which there may be one. -/
def helpAnswer : List String → ArgumentError
  | [] => .helpWanted
  | [word] => if isCommandWord word then .helpWanted else .unknownCommand
  | _ => .unknownCommand

/-- Takes the words in front of the command: what was found, and the command with the words behind
it. -/
def Progress.takeFront (p : Progress) : List String →
    Except ArgumentError (Progress × Option (Level × List String))
  | [] => .ok (p, none)
  | word :: rest => do
    let isFree := !p.awaiting && !p.argumentsOnly
    match if isFree then Level.ofWord? word else none with
    | some level => return (p, some (level, rest))
    | none =>
      if isFree && word == "help" then throw (helpAnswer rest)
      else takeFront (← p.takeWord .program word) rest

namespace Invocation

/-- The call that the words in front of a command and behind it spell. -/
def assemble (level : Level) (front back : Progress) : Invocation :=
  let flag (f : Flag) : Option String := back.value? (.flag f) <|> front.value? (.flag f)
  let truth (f : Flag) : Option Bool := (flag f).map (· == "true")
  let argument (position : Nat) : String := (back.value? (.argument position)).getD ""
  { command :=
      match level with
      | .compile => .compile (argument 0) (flag .outFile)
      | .check => .check (argument 0) (argument 1)
      | _ => .names (argument 0)
    config := flag .config
    showConfig := (flag .showConfig).isSome
    pretty := truth .pretty
    choices :=
      CompileOptions.names.foldl (fun choices name =>
        choices.set name (truth (.choice name))) {} }

/-- The call that the words of a command line spell. -/
def ofWords (words : List String) : Except ArgumentError Invocation := do
  let (front, found) ← Progress.takeFront {} words
  match found with
  | some (level, rest) =>
    let back ← Progress.takeAll level {} rest
    -- what is pending in front of the command is looked at last
    if back.position < level.arity then throw .missingArgument
    else return assemble level (← front.settle) back
  | none =>
    let front ← front.settle
    throw (if front.given.isEmpty then .nothingWanted else .missingCommand)

theorem ofWords_nil : ofWords [] = .error .nothingWanted := rfl

end Invocation

end ShapeCheck
