import ShapeCheck.Proofs.Settings.Exploring
import ShapeCheck.Settings.Config

set_option autoImplicit false

/-! # Chains of configurations

In a world where only some files can be read, a configuration is followed to what it extends, then to what
that one extends, and so on. The chain ends at a configuration without a base or at a file that cannot be
read as one, or it comes back to a file that stands on it already.

Main fact: `resolve_chain` (loading ends; it ends in a cycle if and only if the chain comes back, and the
options of a chain that does not are those of the first file that decides them).
-/

namespace ShapeCheck

namespace ConfigFile

/-! ## The chain -/

section
variable (look : Source → Sight)

/-- The configuration at a location, or why there is none. -/
def at? (location : String) : Except ConfigError ConfigFile := ofSight location (look (.file location))

/-- The identity of the file that a location leads to. -/
def identityAt (location : String) : String := (look (.file location)).identity

/-- The location that the configuration at a location extends. -/
def next? (location : String) : Option String :=
  match at? look location with
  | .ok config => config.base.map (baseLocation location)
  | .error _ => none

/-- The location that is reached from a start in some number of steps. -/
def visit (start : String) : Nat → Option String
  | 0 => some start
  | steps + 1 => (next? look start).bind fun location => visit location steps

/-- The chain from a start comes to a file for the second time. -/
def ComesBack (start : String) : Prop :=
  ∃ i j, i < j ∧ ∃ a b, visit look start i = some a ∧ visit look start j = some b ∧
    identityAt look a = identityAt look b

/-- What the configuration at a location chooses. -/
def choicesAt (location : String) : Option OptionChoices :=
  match at? look location with
  | .ok config => config.choices
  | .error _ => none

end

/-! ## Layers -/

theorem lookup_apply (c : OptionChoices) (o : CompileOptions) (name : String) :
    (c.apply o).fields.lookup name = (c.get? name <|> o.fields.lookup name) := by
  have decided (choice : Option Bool) (value : Bool) :
      some (choice.getD value) = (choice <|> some value) := by cases choice <;> rfl
  simp only [CompileOptions.fields, OptionChoices.get?, OptionChoices.fields, OptionChoices.apply,
    List.lookup_cons, List.lookup_nil]
  repeat' split
  all_goals first | exact decided _ _ | rfl

/-- What a layer of choices that may be missing decides. -/
def decided (name : String) (choices : Option OptionChoices) : Option Bool := choices.bind (·.get? name)

theorem decided_layer (name : String) (own base : Option OptionChoices) :
    decided name (layer own base) = (decided name own <|> decided name base) := by
  cases own with
  | none => cases base <;> rfl
  | some own =>
    cases base with
    | none => simp [decided, layer]
    | some base => exact OptionChoices.get?_withFallback own base name

theorem decided_getD (name : String) (choices : Option OptionChoices) :
    (choices.getD {}).get? name = decided name choices := by
  cases choices with
  | some choices => rfl
  | none =>
    simp only [Option.getD_none, decided, Option.bind_none, OptionChoices.get?, OptionChoices.fields,
      List.lookup_cons, List.lookup_nil]
    repeat' split
    all_goals rfl

/-! ## Following a chain -/

section
variable (look : Source → Sight)

/-- A chain that is followed from a location, with the identities of the files that lead to it, ends with an
outcome; the path holds the locations that were looked at. -/
inductive Follows : List String → String → List String → Except ConfigError (Option OptionChoices) → Prop
  | cycle {chain location} (again : identityAt look location ∈ chain) :
    Follows chain location [location] (.error (.cycle (identityAt look location)))
  | broken {chain location why} (new : identityAt look location ∉ chain)
    (failed : at? look location = .error why) : Follows chain location [location] (.error why)
  | last {chain location config} (new : identityAt look location ∉ chain)
    (made : at? look location = .ok config) (open_ : config.base = none) :
    Follows chain location [location] (.ok config.choices)
  | step {chain location config base path outcome} (new : identityAt look location ∉ chain)
    (made : at? look location = .ok config) (extends_ : config.base = some base)
    (rest : Follows (identityAt look location :: chain) (baseLocation location base) path outcome) :
    Follows chain location (location :: path) (outcome.map (layer config.choices))

end

/-! ## Loading a chain -/

section
variable {files : Files} {chain : List String} {location : String}

theorem load_of_unseen (new : files.lookup (.file location) = none) :
    load files chain location = .error (.needs (.file location)) := by
  rw [load]
  split
  · rfl
  · simp_all

theorem load_of_error {sight : Sight} {why : ConfigError}
    (seen : files.lookup (.file location) = some sight) (new : sight.identity ∉ chain)
    (failed : ofSight location sight = .error why) : load files chain location = .error (.failed why) := by
  rw [load]
  split
  · simp_all
  · rename_i other found
    obtain rfl : other = sight := Option.some.inj (found.symm.trans seen)
    simp [new, failed]

theorem load_of_base {sight : Sight} {config : ConfigFile} {base : String}
    (seen : files.lookup (.file location) = some sight) (new : sight.identity ∉ chain)
    (made : ofSight location sight = .ok config) (extends_ : config.base = some base) :
    load files chain location =
      (load files (sight.identity :: chain) (baseLocation location base)).map (layer config.choices) := by
  rw [load]
  split
  · simp_all
  · rename_i other found
    obtain rfl : other = sight := Option.some.inj (found.symm.trans seen)
    simp [new, made, extends_]

end

namespace Follows

variable {look : Source → Sight} {chain : List String} {location : String} {path : List String}
  {outcome : Except ConfigError (Option OptionChoices)}

/-- A task that first asks for a source is settled if it is as soon as the source has been looked at. -/
theorem settled_of_seen {task : Files → Except (Stop ConfigError) (Option OptionChoices)} {source : Source}
    {sources : List Source} (asks : ∀ files : Files, files.lookup source = none →
      task files = .error (.needs source))
    (goesOn : ∀ files, Files.AreSeen look files → files.lookup source = some (look source) →
      task files = Files.ended outcome ∨
        ∃ other ∈ sources, files.lookup other = none ∧ task files = .error (.needs other)) :
    Files.IsSettled look task (source :: sources) outcome := by
  intro files seen
  cases found : files.lookup source with
  | none => exact .inr ⟨source, by simp, found, asks files found⟩
  | some sight =>
    obtain rfl := seen _ _ found
    refine (goesOn files seen found).imp_right ?_
    exact fun ⟨other, listed, rest⟩ => ⟨other, List.mem_cons_of_mem _ listed, rest⟩

/-- A chain that ends is loaded as soon as its files have been looked at. -/
theorem isSettled (h : Follows look chain location path outcome) :
    Files.IsSettled look (fun files => load files chain location) (path.map .file) outcome := by
  induction h with
  | cycle again =>
    exact settled_of_seen (fun _ => load_of_unseen) fun files _ found => .inl (load_of_mem found again)
  | broken new failed =>
    exact settled_of_seen (fun _ => load_of_unseen) fun files _ found =>
      .inl (load_of_error found new failed)
  | last new made open_ =>
    exact settled_of_seen (fun _ => load_of_unseen) fun files _ found =>
      .inl (load_of_base_eq_none found new made open_)
  | @step _ _ config _ _ _ new made extends_ _ ih =>
    refine settled_of_seen (fun _ => load_of_unseen) fun files seen found => ?_
    rw [load_of_base found new made extends_]
    exact ih.map (layer config.choices) files seen

end Follows

/-! ## The world -/

section
variable {look : Source → Sight} {location : String}

theorem exists_text_of_at? {config : ConfigFile} (made : at? look location = .ok config) :
    ∃ text, (look (.file location)).text = .ok text := by
  unfold at? ofSight at made
  cases found : (look (.file location)).text with
  | error why => simp [found] at made
  | ok text => exact ⟨text, rfl⟩

theorem at?_ne_cycle (identity : String) : at? look location ≠ .error (.cycle identity) := by
  unfold at? ofSight
  split
  · nofun
  · split <;> nofun

/-- Where only the known files can be read, every chain ends: each step adds a file to it. -/
theorem exists_follows {known : List String} (finite : ∀ location text,
    (look (.file location)).text = .ok text → identityAt look location ∈ known) (chain : List String)
    (location : String) : ∃ path outcome, Follows look chain location path outcome := by
  -- the induction is on how many of the known files are not on the chain
  induction left : (known.filter (· ∉ chain)).length using Nat.strongRecOn generalizing chain location with
  | ind left ih =>
    by_cases again : identityAt look location ∈ chain
    · exact ⟨_, _, .cycle again⟩
    cases made : at? look location with
    | error why => exact ⟨_, _, .broken again made⟩
    | ok config =>
      cases extends_ : config.base with
      | none => exact ⟨_, _, .last again made extends_⟩
      | some base =>
        obtain ⟨text, read⟩ := exists_text_of_at? made
        have fewer : (known.filter (· ∉ identityAt look location :: chain)).length <
            (known.filter (· ∉ chain)).length := by
          have twice : known.filter (· ∉ identityAt look location :: chain) =
              (known.filter (· ∉ chain)).filter (· ≠ identityAt look location) := by
            simp [List.filter_filter, not_or, Bool.and_comm]
          rw [twice, List.length_filter_lt_length_iff_exists]
          exact ⟨_, List.mem_filter.2 ⟨finite location text read, by simpa using again⟩, by simp⟩
        obtain ⟨path, outcome, rest⟩ := ih _ (left ▸ fewer) _ (baseLocation location base) rfl
        exact ⟨_, _, .step again made extends_ rest⟩

/-! ## What the chain tells -/

theorem next?_of_error {why : ConfigError} (failed : at? look location = .error why) :
    next? look location = none := by
  simp [next?, failed]

theorem next?_of_none {config : ConfigFile} (made : at? look location = .ok config)
    (open_ : config.base = none) : next? look location = none := by
  simp [next?, made, open_]

theorem next?_of_some {config : ConfigFile} {base : String} (made : at? look location = .ok config)
    (extends_ : config.base = some base) : next? look location = some (baseLocation location base) := by
  simp [next?, made, extends_]

theorem visit_of_next?_eq_none (ended : next? look location = none) (steps : Nat) :
    visit look location (steps + 1) = none := by
  simp [visit, ended]

theorem visit_of_next?_eq_some {next : String} (goesOn : next? look location = some next) (steps : Nat) :
    visit look location (steps + 1) = visit look next steps := by
  simp [visit, goesOn]

/-- A chain comes back if it comes back behind its first step, or at some step to its first file. -/
theorem comesBack_iff {next : String} (goesOn : next? look location = some next) :
    ComesBack look location ↔ ComesBack look next ∨ ∃ steps reached, visit look next steps = some reached ∧
      identityAt look reached = identityAt look location := by
  constructor
  · rintro ⟨i, j, lt, a, b, first, second, same⟩
    obtain ⟨j, rfl⟩ := Nat.exists_eq_succ_of_ne_zero (Nat.ne_zero_of_lt lt)
    rw [visit_of_next?_eq_some goesOn] at second
    cases i with
    | zero =>
      obtain rfl : location = a := Option.some.inj first
      exact .inr ⟨j, b, second, same.symm⟩
    | succ i =>
      rw [visit_of_next?_eq_some goesOn] at first
      exact .inl ⟨i, j, Nat.lt_of_succ_lt_succ lt, a, b, first, second, same⟩
  · rintro (⟨i, j, lt, a, b, first, second, same⟩ | ⟨steps, reached, there, same⟩)
    · exact ⟨i + 1, j + 1, Nat.succ_lt_succ lt, a, b, by rwa [visit_of_next?_eq_some goesOn],
        by rwa [visit_of_next?_eq_some goesOn], same⟩
    · exact ⟨0, steps + 1, Nat.succ_pos _, location, reached, rfl,
        by rwa [visit_of_next?_eq_some goesOn], same.symm⟩

theorem not_comesBack (ended : next? look location = none) : ¬ ComesBack look location := by
  rintro ⟨i, j, lt, a, b, first, second, same⟩
  obtain ⟨j, rfl⟩ := Nat.exists_eq_succ_of_ne_zero (Nat.ne_zero_of_lt lt)
  rw [visit_of_next?_eq_none ended] at second
  cases second

end

namespace Follows

variable {look : Source → Sight} {chain : List String} {location : String} {path : List String}
  {outcome : Except ConfigError (Option OptionChoices)}

theorem map_eq_error_iff {α β : Type} {f : α → β} {result : Except ConfigError α} {why : ConfigError} :
    result.map f = .error why ↔ result = .error why := by
  cases result <;> simp [Except.map]

/-- A chain ends in a cycle if it comes to a file that leads to it, or comes back to one of its own. -/
theorem cycle_iff (h : Follows look chain location path outcome) :
    (∃ identity, outcome = .error (.cycle identity)) ↔
      ComesBack look location ∨
        ∃ steps reached, visit look location steps = some reached ∧ identityAt look reached ∈ chain := by
  -- where the chain ends, only its last file could lead to it
  have last {location : String} {chain : List String} (new : identityAt look location ∉ chain)
      (ended : next? look location = none) : ¬ (ComesBack look location ∨
        ∃ steps reached, visit look location steps = some reached ∧ identityAt look reached ∈ chain) := by
    rintro (again | ⟨steps, reached, there, listed⟩)
    · exact not_comesBack ended again
    · cases steps with
      | zero => exact new (Option.some.inj there ▸ listed)
      | succ steps => simp [visit_of_next?_eq_none ended] at there
  induction h with
  | @cycle _ location again => exact ⟨fun _ => .inr ⟨0, location, rfl, again⟩, fun _ => ⟨_, rfl⟩⟩
  | broken new failed =>
    refine iff_of_false ?_ (last new (next?_of_error failed))
    rintro ⟨identity, same⟩
    exact at?_ne_cycle identity (failed.trans (congrArg _ (Except.error.inj same)))
  | last new made open_ =>
    exact iff_of_false nofun (last new (next?_of_none made open_))
  | @step chain location config base _ _ new made extends_ _ ih =>
    have goesOn := next?_of_some made extends_
    simp only [map_eq_error_iff, ih, comesBack_iff goesOn]
    -- the chain below has the file at this location as well
    constructor
    · rintro (again | ⟨steps, reached, there, listed⟩)
      · exact .inl (.inl again)
      · rcases List.mem_cons.1 listed with same | listed
        · exact .inl (.inr ⟨steps, reached, there, same⟩)
        · exact .inr ⟨steps + 1, reached, by rwa [visit_of_next?_eq_some goesOn], listed⟩
    · rintro ((again | ⟨steps, reached, there, same⟩) | ⟨steps, reached, there, listed⟩)
      · exact .inl again
      · exact .inr ⟨steps, reached, there, by simp [same]⟩
      · cases steps with
        | zero => exact absurd (Option.some.inj there ▸ listed) new
        | succ steps =>
          rw [visit_of_next?_eq_some goesOn] at there
          exact .inr ⟨steps, reached, there, List.mem_cons_of_mem _ listed⟩

/-- A chain that does not end in a cycle is loaded exactly if all its files are configurations. -/
theorem ok_iff (h : Follows look chain location path outcome) :
    (∃ chosen, outcome = .ok chosen) ↔ (¬ ∃ identity, outcome = .error (.cycle identity)) ∧
      ∀ steps reached, visit look location steps = some reached →
        ∃ config, at? look reached = .ok config := by
  induction h with
  | cycle again => exact iff_of_false nofun fun both => both.1 ⟨_, rfl⟩
  | @broken _ location why new failed =>
    refine iff_of_false nofun fun both => ?_
    obtain ⟨config, made⟩ := both.2 0 location rfl
    rw [failed] at made
    cases made
  | @last _ location config new made open_ =>
    have ended := next?_of_none made open_
    refine iff_of_true ⟨_, rfl⟩ ⟨nofun, fun steps reached there => ?_⟩
    cases steps with
    | zero => exact ⟨config, Option.some.inj there ▸ made⟩
    | succ steps => simp [visit_of_next?_eq_none ended] at there
  | @step _ location config base _ outcome new made extends_ _ ih =>
    have goesOn := next?_of_some made extends_
    have loaded : (∃ chosen, outcome.map (layer config.choices) = .ok chosen) ↔
        ∃ chosen, outcome = .ok chosen := by
      cases outcome <;> simp [Except.map]
    simp only [loaded, ih, map_eq_error_iff]
    refine and_congr_right fun _ => ⟨fun all steps reached there => ?_, fun all steps reached there => ?_⟩
    · cases steps with
      | zero => exact ⟨config, Option.some.inj there ▸ made⟩
      | succ steps => exact all steps reached (by rwa [visit_of_next?_eq_some goesOn] at there)
    · exact all (steps + 1) reached (by rwa [visit_of_next?_eq_some goesOn])

/-- A chain that is loaded has been looked at from its start to its end, and of its files the first one that
decides an option does so. -/
theorem decided_path {chosen : Option OptionChoices} (h : Follows look chain location path outcome)
    (loaded : outcome = .ok chosen) : (∀ steps, path[steps]? = visit look location steps) ∧
      ∀ name, decided name chosen = path.findSome? fun reached => decided name (choicesAt look reached) := by
  induction h generalizing chosen with
  | cycle again => cases loaded
  | broken new failed => cases loaded
  | @last _ location config new made open_ =>
    have ended := next?_of_none made open_
    have own : choicesAt look location = config.choices := by simp [choicesAt, made]
    obtain rfl := Except.ok.inj loaded
    refine ⟨fun steps => ?_, fun name => by simp [own]⟩
    cases steps with
    | zero => rfl
    | succ steps => simp [visit_of_next?_eq_none ended]
  | @step _ location config base path outcome new made extends_ _ ih =>
    have goesOn := next?_of_some made extends_
    have own : choicesAt look location = config.choices := by simp [choicesAt, made]
    cases outcome with
    | error why => cases loaded
    | ok below =>
      obtain rfl := Except.ok.inj loaded
      obtain ⟨looked, first⟩ := ih rfl
      refine ⟨fun steps => ?_, fun name => ?_⟩
      · cases steps with
        | zero => rfl
        | succ steps => simpa [visit_of_next?_eq_some goesOn] using looked steps
      · rw [decided_layer, first name, List.findSome?_cons, own]
        cases decided name config.choices <;> rfl

end Follows

/-! ## Resolving options -/

theorem resolve_of_config (files : Files) (document start : String) (flags : OptionChoices) :
    resolve files document (some start) flags =
      (load files [] start).map fun chosen => (flags.withFallback (chosen.getD {})).apply {} := by
  cases loaded : load files [] start <;> simp [resolve, loaded, bind, Except.bind, pure, Except.pure, Except.map]

/-- Where only the known files can be read, loading a configuration ends. It ends in a cycle exactly if its
chain comes back to a file, and in choices exactly if it does not and all files of the chain are configurations.
Then an option is what the first of the flags and the files of the chain decides that decides it at all. -/
theorem resolve_chain (look : Source → Sight) (known : List String)
    (finite : ∀ location text, (look (.file location)).text = .ok text →
      identityAt look location ∈ known) (start document : String) (flags : OptionChoices) :
    ∃ loaded : Except ConfigError (Option OptionChoices),
      (∃ enough, ∀ attempts, enough ≤ attempts →
        Files.explore look (fun files => load files [] start) attempts [] = some loaded) ∧
      ((∃ identity, loaded = .error (.cycle identity)) ↔ ComesBack look start) ∧
      ((∃ chosen, loaded = .ok chosen) ↔ ¬ ComesBack look start ∧
        ∀ steps reached, visit look start steps = some reached → ∃ config, at? look reached = .ok config) ∧
      ∀ chosen, loaded = .ok chosen → ∃ options : CompileOptions,
        (∃ enough, ∀ attempts, enough ≤ attempts →
          Files.explore look (fun files => resolve files document (some start) flags) attempts [] =
            some (.ok options)) ∧
        ∃ path : List String, (∀ steps, path[steps]? = visit look start steps) ∧
          ∀ name, options.fields.lookup name =
            ((flags :: path.filterMap (choicesAt look)).findSome? (·.get? name) <|>
              ({} : CompileOptions).fields.lookup name) := by
  obtain ⟨path, loaded, follows⟩ := exists_follows finite [] start
  have cycles : (∃ identity, loaded = .error (.cycle identity)) ↔ ComesBack look start := by
    simpa using follows.cycle_iff
  refine ⟨loaded, follows.isSettled.exists_explore, cycles, by rw [follows.ok_iff, cycles], ?_⟩
  rintro chosen rfl
  obtain ⟨looked, first⟩ := follows.decided_path rfl
  refine ⟨(flags.withFallback (chosen.getD {})).apply {}, ?_, path, looked, fun name => ?_⟩
  · simp only [resolve_of_config]
    exact (follows.isSettled.map _).exists_explore
  · have layers : (path.filterMap (choicesAt look)).findSome? (·.get? name) =
        path.findSome? fun reached => decided name (choicesAt look reached) := by
      rw [← List.head?_filterMap, List.filterMap_filterMap, List.head?_filterMap]
      rfl
    rw [lookup_apply, OptionChoices.get?_withFallback, decided_getD, first, List.findSome?_cons, layers]
    cases flags.get? name <;> rfl

/-! ## Two configurations -/

/-- A configuration that chooses one option, and extends one that chooses this option and another. -/
def twoLayers : FileTree where
  texts :=
    [(["a.json"], "\x7b\"extends\": \"b.json\", \"compilerOptions\": \x7b\"ignoreMethods\": false\x7d\x7d"),
      (["b.json"], "\x7b\"compilerOptions\": \x7b\"ignoreMethods\": true, \"valueMayBeAbsent\": true\x7d\x7d")]

theorem splitOn_twoLayers :
    "a.json".splitOn "/" = ["a.json"] ∧ "b.json".splitOn "/" = ["b.json"] := by
  constructor
  · unfold String.splitOn
    rw [if_neg (by decide)]
    iterate 6 rw [String.splitOnAux, if_neg (by decide +kernel), if_neg (by decide +kernel)]
    rw [String.splitOnAux, if_pos (by decide +kernel)]
    decide +kernel
  · unfold String.splitOn
    rw [if_neg (by decide)]
    iterate 6 rw [String.splitOnAux, if_neg (by decide +kernel), if_neg (by decide +kernel)]
    rw [String.splitOnAux, if_pos (by decide +kernel)]
    decide +kernel

theorem find_twoLayers :
    (∃ text, twoLayers.texts.lookup ["a.json"] = some text ∧
      twoLayers.find "a.json" = .ok (.file ["a.json"] text)) ∧
    ∃ text, twoLayers.texts.lookup ["b.json"] = some text ∧
      twoLayers.find "b.json" = .ok (.file ["b.json"] text) := by
  constructor
  · exact ⟨_, rfl, by simp [FileTree.find, splitOn_twoLayers, FileTree.walk, twoLayers]⟩
  · exact ⟨_, rfl, by simp [FileTree.find, splitOn_twoLayers, FileTree.walk, twoLayers, List.lookup_cons]⟩

theorem at?_twoLayers :
    at? twoLayers.look "a.json" = .ok ⟨some "b.json", some { ignoreMethods := some false }⟩ ∧
      at? twoLayers.look "b.json" =
        .ok ⟨none, some { ignoreMethods := some true, valueMayBeAbsent := some true }⟩ := by
  have first : ofText
      "\x7b\"extends\": \"b.json\", \"compilerOptions\": \x7b\"ignoreMethods\": false\x7d\x7d" =
        .ok ⟨some "b.json", some { ignoreMethods := some false }⟩ := rfl
  have second : ofText
      "\x7b\"compilerOptions\": \x7b\"ignoreMethods\": true, \"valueMayBeAbsent\": true\x7d\x7d" =
        .ok ⟨none, some { ignoreMethods := some true, valueMayBeAbsent := some true }⟩ := rfl
  obtain ⟨⟨text, stored, found⟩, other, stored', found'⟩ := find_twoLayers
  obtain rfl := Option.some.inj stored
  obtain rfl := Option.some.inj stored'
  constructor
  · simp [at?, ofSight, FileTree.look, found, first]
  · simp [at?, ofSight, FileTree.look, found', second]

theorem baseLocation_twoLayers : baseLocation "a.json" "b.json" = "b.json" := by
  have directory : Location.parent? "a.json" = some "" := by
    rw [Location.parent?, Location.reversedNames, splitOn_twoLayers.1]
    decide +kernel
  have extension : Location.withDefaultExtension "b.json" "json" = "b.json" := by
    rw [Location.withDefaultExtension, Location.reversedNames, splitOn_twoLayers.2]
    decide +kernel
  rw [baseLocation, directory, extension]
  simp [Location.join, Location.isAbsolute]

theorem visit_twoLayers : visit twoLayers.look "a.json" 1 = some "b.json" ∧
    ∀ steps, visit twoLayers.look "a.json" (steps + 2) = none := by
  have goesOn : next? twoLayers.look "a.json" = some "b.json" := by
    rw [next?_of_some at?_twoLayers.1 rfl, baseLocation_twoLayers]
  have ended : next? twoLayers.look "b.json" = none := next?_of_none at?_twoLayers.2 rfl
  exact ⟨visit_of_next?_eq_some goesOn 0, fun steps =>
    (visit_of_next?_eq_some goesOn (steps + 1)).trans (visit_of_next?_eq_none ended steps)⟩

/-- The flag, the first file and the second one decide an option each. -/
theorem resolve_chain_twoLayers :
    (∀ location text, (twoLayers.look (.file location)).text = .ok text →
      identityAt twoLayers.look location ∈ twoLayers.texts.map fun entry => FileTree.spell entry.1) ∧
    ∃ enough, ∀ attempts, enough ≤ attempts →
      Files.explore twoLayers.look
          (fun files => resolve files "type.json" (some "a.json") { shortCircuit := some true })
          attempts [] =
        some (.ok { ignoreMethods := false, valueMayBeAbsent := true, shortCircuit := true }) := by
  have finite : ∀ location text, (twoLayers.look (.file location)).text = .ok text →
      identityAt twoLayers.look location ∈ twoLayers.texts.map fun entry => FileTree.spell entry.1 :=
    fun _ _ => FileTree.identity_mem_of_text
  refine ⟨finite, ?_⟩
  obtain ⟨loaded, -, -, succeeds, options⟩ :=
    resolve_chain twoLayers.look _ finite "a.json" "type.json" { shortCircuit := some true }
  have onward : ∀ steps reached, visit twoLayers.look "a.json" steps = some reached →
      steps = 0 ∧ reached = "a.json" ∨ steps = 1 ∧ reached = "b.json" := by
    intro steps reached there
    match steps with
    | 0 => exact .inl ⟨rfl, (Option.some.inj there).symm⟩
    | 1 =>
      rw [visit_twoLayers.1] at there
      exact .inr ⟨rfl, (Option.some.inj there).symm⟩
    | steps + 2 => simp [visit_twoLayers.2] at there
  have staysNew : ¬ ComesBack twoLayers.look "a.json" := by
    rintro ⟨i, j, lt, a, b, first, second, same⟩
    obtain ⟨rfl, rfl⟩ | ⟨rfl, rfl⟩ := onward i a first <;>
      obtain ⟨rfl, rfl⟩ | ⟨rfl, rfl⟩ := onward j b second
    · cases lt
    · obtain ⟨⟨_, -, found⟩, _, -, found'⟩ := find_twoLayers
      rw [identityAt, identityAt, FileTree.look_identity found, FileTree.look_identity found'] at same
      exact absurd same (by decide)
    · cases lt
    · exact absurd lt (Nat.lt_irrefl 1)
  have all : ∀ steps reached, visit twoLayers.look "a.json" steps = some reached →
      ∃ config, at? twoLayers.look reached = .ok config := by
    intro steps reached there
    obtain ⟨-, rfl⟩ | ⟨-, rfl⟩ := onward steps reached there
    · exact ⟨_, at?_twoLayers.1⟩
    · exact ⟨_, at?_twoLayers.2⟩
  obtain ⟨chosen, rfl⟩ := succeeds.2 ⟨staysNew, all⟩
  obtain ⟨options, explored, path, looked, decides⟩ := options chosen rfl
  have both : path = ["a.json", "b.json"] := by
    refine List.ext_getElem? fun steps => ?_
    match steps with
    | 0 => exact looked 0
    | 1 => exact (looked 1).trans visit_twoLayers.1
    | steps + 2 => exact (looked _).trans (visit_twoLayers.2 steps)
  have choices : path.filterMap (choicesAt twoLayers.look) = [{ ignoreMethods := some false },
      { ignoreMethods := some true, valueMayBeAbsent := some true }] := by
    simp [both, choicesAt, at?_twoLayers]
  rw [choices] at decides
  obtain rfl : options = { ignoreMethods := false, valueMayBeAbsent := true, shortCircuit := true } := by
    obtain ⟨exact_, methods, absent, inlined, short⟩ := options
    have first := Option.some.inj (decides "superfluousPropertyCheck")
    have second := Option.some.inj (decides "ignoreMethods")
    have third := Option.some.inj (decides "valueMayBeAbsent")
    have fourth := Option.some.inj (decides "inlineTrivialPredicates")
    have fifth := Option.some.inj (decides "shortCircuit")
    simp only [CompileOptions.mk.injEq]
    exact ⟨first, second, third, fourth, fifth⟩
  exact explored

end ConfigFile

end ShapeCheck
