import ShapeCheck.Files.Basic
import ShapeCheck.Files.Location
import ShapeCheck.Json.Relaxed
import ShapeCheck.Settings.Options

set_option autoImplicit false

/-! # Configurations

A configuration is a file that chooses options and may extend another one, whose choices count where
its own are open. A chain of configurations that comes back to one of its files is an error.

The chain is followed through the files that have been looked at. Every step adds an identity that
was not on the chain, so the chain ends.

Main facts: `ConfigFile.load_of_mem` (a configuration on its own chain is a cycle) and
`ConfigFile.load_of_base_eq_none` (without a base its own choices count).
-/

namespace ShapeCheck

/-! ## One configuration -/

/-- The contents of a configuration. -/
structure ConfigFile where
  /-- The configuration that it extends. -/
  base : Option String
  choices : Option OptionChoices
  deriving DecidableEq, Repr, Inhabited

namespace ConfigFile

/-- The name of configurations that are found without being asked for. -/
def defaultName : String := "tyguard.json"

/-- The parts of a configuration as they are read. -/
structure Parts where
  base : Option (Option String) := none
  choices : Option (Option OptionChoices) := none

/-- Reads a configuration. -/
def readDraft : Json.Draft.Reader ConfigFile := fun depth draft => do
  let parts ← Json.Draft.readRecord
    [⟨"extends", false, fun p => p.base.isSome, fun depth draft p => do
        let base ← Json.Draft.readOption Json.Draft.readString depth draft
        return { p with base := some base }⟩,
      ⟨"compilerOptions", false, fun p => p.choices.isSome, fun depth draft p => do
        let choices ← Json.Draft.readOption OptionChoices.read depth draft
        return { p with choices := some choices }⟩]
    ({} : Parts) depth draft
  return ⟨parts.base.join, parts.choices.join⟩

/-- The configuration that a text describes. Comments and trailing commas are allowed. -/
def ofText (text : String) : Except Json.Fault ConfigFile :=
  Json.readText readDraft (Json.plainText text)

/-- The location of what a configuration extends, as seen from the configuration. -/
def baseLocation (location base : String) : String :=
  Location.join ((Location.parent? location).getD "") (Location.withDefaultExtension base "json")

end ConfigFile

/-! ## Chains -/

/-- Why a configuration cannot be loaded. -/
inductive ConfigError
  | unreadable (location : String) (why : FileError)
  | malformed (location : String) (why : Json.Fault)
  /-- A chain of configurations comes back to this file. -/
  | cycle (identity : String)
  deriving DecidableEq, Repr, Inhabited

namespace ConfigFile

/-- Layers what one configuration chooses over what its base chooses. -/
def layer : Option OptionChoices → Option OptionChoices → Option OptionChoices
  | some own, some base => some (own.withFallback base)
  | own, base => own <|> base

/-- The files that are not on a chain. -/
def remaining (files : Files) (chain : List String) : Nat :=
  (files.filter fun entry => !chain.contains entry.2.identity).length

theorem remaining_cons_lt {files : Files} {chain : List String} {source : Source} {sight : Sight}
    (seen : files.lookup source = some sight) (new : sight.identity ∉ chain) :
    remaining files (sight.identity :: chain) < remaining files chain := by
  obtain ⟨before, after, rfl, _⟩ := List.lookup_eq_some_iff.1 seen
  have twice : ∀ all : Files,
      (all.filter fun entry => !(sight.identity :: chain).contains entry.2.identity) =
        (all.filter fun entry => !chain.contains entry.2.identity).filter
          fun entry => entry.2.identity != sight.identity := by
    intro all
    rw [List.filter_filter]
    congr
    funext entry
    by_cases h : entry.2.identity = sight.identity <;> simp [h]
  unfold remaining
  rw [twice, List.length_filter_lt_length_iff_exists]
  refine ⟨(source, sight), ?_, by simp⟩
  rw [List.mem_filter]
  exact ⟨by simp, by simpa using new⟩

/-- The configuration that was seen at a location. -/
def ofSight (location : String) (sight : Sight) : Except ConfigError ConfigFile :=
  match sight.text with
  | .error why => .error (.unreadable location why)
  | .ok text =>
    match ofText text with
    | .error why => .error (.malformed location why)
    | .ok config => .ok config

/-- Loads a configuration and what it extends. The chain holds the files that lead to it. -/
def load (files : Files) (chain : List String) (location : String) :
    Except (Stop ConfigError) (Option OptionChoices) :=
  match _seen : files.lookup (.file location) with
  | none => .error (.needs (.file location))
  | some sight =>
    if _onChain : sight.identity ∈ chain then .error (.failed (.cycle sight.identity))
    else
      match ofSight location sight with
      | .error why => .error (.failed why)
      | .ok config =>
        match config.base with
        | none => .ok config.choices
        | some base =>
          (load files (sight.identity :: chain) (baseLocation location base)).map
            (layer config.choices)
termination_by remaining files chain
decreasing_by exact remaining_cons_lt _seen _onChain

theorem load_of_mem {files : Files} {chain : List String} {location : String} {sight : Sight}
    (seen : files.lookup (.file location) = some sight) (onChain : sight.identity ∈ chain) :
    load files chain location = .error (.failed (.cycle sight.identity)) := by
  rw [load]
  split
  · simp_all
  · rename_i other found
    have same : other = sight := by simpa [seen] using found.symm
    subst same
    simp [onChain]

theorem load_of_base_eq_none {files : Files} {chain : List String} {location : String}
    {sight : Sight} {config : ConfigFile} (seen : files.lookup (.file location) = some sight)
    (new : sight.identity ∉ chain) (made : ofSight location sight = .ok config)
    (last : config.base = none) : load files chain location = .ok config.choices := by
  rw [load]
  split
  · simp_all
  · rename_i other found
    have same : other = sight := by simpa [seen] using found.symm
    subst same
    simp [new, made, last]

/-- The configurations that apply to a document, the nearest first. -/
def candidates (document : String) : List String :=
  match Location.parent? document with
  | some directory => (Location.ancestors directory).map fun d => Location.join d defaultName
  | none => []

/-- The options for a document: the choices of the command line over those of the configuration,
over the defaults. Without a given configuration the nearest one is taken, if there is one. -/
def resolve (files : Files) (document : String) (config : Option String) (flags : OptionChoices) :
    Except (Stop ConfigError) CompileOptions := do
  let location ←
    match config with
    | some location => pure (some location)
    | none => files.findFile (candidates document)
  let chosen ←
    match location with
    | some location => load files [] location
    | none => pure none
  return (flags.withFallback (chosen.getD {})).apply {}

end ConfigFile

end ShapeCheck
