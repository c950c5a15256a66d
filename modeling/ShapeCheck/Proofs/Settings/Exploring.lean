import ShapeCheck.Files.Tree

set_option autoImplicit false

/-! # Work that looks at files on demand

A task works on the files that have been seen so far and may stop at a source that has not been looked at.
`Files.explore` runs it in a world, in which every source has a sight: whenever the task asks for a source,
the sight is added and the task starts again.

A task that asks only for some sources, and otherwise comes to one outcome whatever else has been seen,
comes to it after at most one look at each of them.

Main facts: `IsSettled.exists_explore` and `FileTree.identity_mem_of_text` (only files can be read).
-/

namespace ShapeCheck

namespace Files

variable {ε α β : Type}

/-- Runs a task in a world, with a number of attempts. Between two of them it looks at what was asked for. -/
def explore (look : Source → Sight) (task : Files → Except (Stop ε) α) : Nat → Files → Option (Except ε α)
  | 0, _ => none
  | attempts + 1, files =>
    match task files with
    | .ok result => some (.ok result)
    | .error (.failed error) => some (.error error)
    | .error (.needs source) => explore look task attempts ((source, look source) :: files)

/-- All that has been seen is so in the world. -/
def AreSeen (look : Source → Sight) (files : Files) : Prop :=
  ∀ source sight, files.lookup source = some sight → sight = look source

/-- How a task ends that has come to an outcome. -/
def ended : Except ε α → Except (Stop ε) α := Except.mapError .failed

/-- In a world, the task comes to an outcome as soon as some sources have been looked at. -/
def IsSettled (look : Source → Sight) (task : Files → Except (Stop ε) α) (sources : List Source)
    (outcome : Except ε α) : Prop :=
  ∀ files, AreSeen look files → task files = ended outcome ∨
    ∃ source ∈ sources, files.lookup source = none ∧ task files = .error (.needs source)

variable {look : Source → Sight}

theorem areSeen_nil : AreSeen look [] := nofun

theorem AreSeen.cons {files : Files} (h : AreSeen look files) (source : Source) :
    AreSeen look ((source, look source) :: files) := by
  intro other sight found
  rw [List.lookup_cons] at found
  split at found
  · rename_i same
    rw [← Option.some.inj found, ← beq_iff_eq.1 same]
  · exact h other sight found

/-- The sources that have not been looked at. -/
def unseen (files : Files) (sources : List Source) : List Source :=
  sources.filter fun source => (files.lookup source).isNone

theorem length_unseen_cons_lt {files : Files} {sources : List Source} {source : Source}
    (asked : source ∈ sources) (new : files.lookup source = none) (sight : Sight) :
    (unseen ((source, sight) :: files) sources).length < (unseen files sources).length := by
  have fewer : unseen ((source, sight) :: files) sources =
      (unseen files sources).filter fun other => other != source := by
    unfold unseen
    rw [List.filter_filter]
    refine List.filter_congr fun other _ => ?_
    rw [List.lookup_cons]
    by_cases same : other = source
    · simp [same]
    · simp [same, beq_eq_false_iff_ne.2 same]
  rw [fewer, List.length_filter_lt_length_iff_exists]
  exact ⟨source, List.mem_filter.2 ⟨asked, by simp [new]⟩, by simp⟩

namespace IsSettled

variable {task : Files → Except (Stop ε) α} {sources : List Source} {outcome : Except ε α}

theorem explore_eq (h : IsSettled look task sources outcome) :
    ∀ (attempts : Nat) (files : Files), AreSeen look files → (unseen files sources).length < attempts →
      explore look task attempts files = some outcome := by
  intro attempts
  induction attempts with
  | zero => exact fun _ _ enough => absurd enough (Nat.not_lt_zero _)
  | succ attempts ih =>
    intro files seen enough
    unfold explore
    rcases h files seen with done | ⟨source, asked, new, stopped⟩
    · rw [done]
      cases outcome <;> rfl
    · have fewer := length_unseen_cons_lt asked new (look source)
      rw [stopped]
      exact ih _ (seen.cons source) (by omega)

/-- The task is carried out in the end, and more attempts change nothing. -/
theorem exists_explore (h : IsSettled look task sources outcome) :
    ∃ enough, ∀ attempts, enough ≤ attempts → explore look task attempts [] = some outcome :=
  ⟨(unseen [] sources).length + 1, fun attempts le => h.explore_eq attempts [] areSeen_nil le⟩

theorem map (h : IsSettled look task sources outcome) (f : α → β) :
    IsSettled look (fun files => (task files).map f) sources (outcome.map f) := by
  intro files seen
  dsimp only
  rcases h files seen with done | ⟨source, asked, new, stopped⟩
  · left
    rw [done]
    cases outcome <;> rfl
  · right
    exact ⟨source, asked, new, by rw [stopped]; rfl⟩

end IsSettled

end Files

/-! ## Files in memory -/

namespace FileTree

/-- What can be read at a source is the text of a file of the tree, or nothing at all. -/
theorem identity_mem_of_walk {t : FileTree} {place : Place} {names : List String} {path : List String}
    {text : String} (found : t.walk place names = .ok (.file path text))
    (inside : ∀ path text, place = .file path text → path ∈ t.texts.map Prod.fst) :
    path ∈ t.texts.map Prod.fst := by
  fun_induction walk t place names with
  | case1 place => exact inside path text (Except.ok.inj found)
  | case2 => cases found
  | case3 names name rest stays ih => exact ih found fun _ _ same => by cases same
  | case4 => cases found
  | case5 name rest above stays ih => exact ih found fun _ _ same => by cases same
  | case6 names name rest _ _ other known ih =>
    refine ih found fun path text same => ?_
    obtain ⟨before, after, split, -⟩ := List.lookup_eq_some_iff.1 known
    cases same
    rw [split]
    simp
  | case7 names name rest _ _ _ _ ih => exact ih found fun _ _ same => by cases same
  | case8 => cases found

/-- Only the files of a tree can be read. -/
theorem identity_mem_of_text {t : FileTree} {location text : String}
    (read : (t.look (.file location)).text = .ok text) :
    (t.look (.file location)).identity ∈ t.texts.map fun entry => spell entry.1 := by
  cases found : t.find location with
  | error why => simp [look, found] at read
  | ok place =>
    cases place with
    | directory names => simp [look, found] at read
    | file names other =>
      rw [look_identity found]
      unfold find at found
      split at found
      · cases found
      · have inside := identity_mem_of_walk found fun _ _ same => by cases same
        obtain ⟨entry, listed, rfl⟩ := List.mem_map.1 inside
        exact List.mem_map.2 ⟨entry, listed, rfl⟩

end FileTree

end ShapeCheck
