import Mathlib.Data.List.Nodup
import Mathlib.Data.List.Perm.Subperm
import ShapeCheck.Script.Identifier

set_option autoImplicit false

/-! # Names and their identifiers

Names that leave the same stem are told apart by numbers, and a numbered stem may be the stem of another
name. What keeps identifiers apart is that only a free one is ever given, and one of the identifiers that are
tried for a name is always free: they differ from each other, and there are more of them than are taken.

Main facts: `Identifiers.isApart_assignAll` (neither names nor identifiers are repeated),
`Identifiers.of_assignAll` (a name keeps its identifier) and `Identifiers.candidate_eq` (the characters of
identifiers).
-/

namespace ShapeCheck

namespace Script

/-! ## Characters -/

/-- A character of a stem: an ASCII letter or digit, or an underscore. -/
def isStemChar (c : Char) : Bool := c.isAlphanum || c == '_'

theorem extendStem_chars {stem : List Char} (chars : ∀ c ∈ stem, isStemChar c = true) (gap : Bool)
    (cs : List Char) : ∀ c ∈ extendStem stem gap cs, isStemChar c = true := by
  induction cs generalizing stem gap with
  | nil => exact chars
  | cons d rest ih =>
    rw [extendStem]
    split
    · rename_i alphanum
      have last : isStemChar d = true := by rw [isStemChar, alphanum, Bool.true_or]
      -- an underscore stands for a gap, but not in front of the first character
      have longer : ∀ c ∈ if gap && !stem.isEmpty then stem ++ ['_', d] else stem ++ [d],
          isStemChar c = true := by
        split
        · simpa [or_imp, forall_and] using ⟨chars, by decide, last⟩
        · simpa [or_imp, forall_and] using ⟨chars, last⟩
      dsimp only
      generalize (if gap && !stem.isEmpty then stem ++ ['_', d] else stem ++ [d]) = next at longer ⊢
      split
      · exact longer
      · exact ih longer false
    · exact ih chars true

theorem stem_eq (name : String) :
    ∃ c rest, (stem name).toList = c :: rest ∧ ∀ d ∈ c :: rest, isStemChar d = true := by
  have chars : ∀ c ∈ extendStem [] false name.toList, isStemChar c = true :=
    extendStem_chars (List.forall_mem_nil _) false name.toList
  unfold stem
  split
  · exact ⟨'a', _, rfl, List.all_eq_true.1 rfl⟩
  · rename_i some
    cases spelled : extendStem [] false name.toList with
    | nil => exact absurd spelled some
    | cons c rest => exact ⟨c, rest, String.toList_ofList, spelled ▸ chars⟩

namespace Identifiers

/-! ## Candidates -/

/-- An identifier that is tried is made of a mark and of characters of stems. -/
theorem candidate_eq (name : String) (n : Nat) :
    ∃ c rest, (candidate name n).toList = 'i' :: 's' :: '_' :: c :: rest ∧
      ∀ d ∈ c :: rest, isStemChar d = true := by
  obtain ⟨c, rest, spelled, chars⟩ := stem_eq name
  cases n with
  | zero => exact ⟨c, rest, by simp [candidate, spelled], chars⟩
  | succ n =>
    refine ⟨c, rest ++ '_' :: (toString (n + 2)).toList, by simp [candidate, spelled], fun d inside => ?_⟩
    rcases List.mem_append.1 (List.cons_append ▸ inside) with inside | inside
    · exact chars d inside
    rcases List.mem_cons.1 inside with rfl | inside
    · decide
    · rw [Nat.toString_eq_ofList_toDigits, String.toList_ofList] at inside
      have digit : d.isDigit = true := Nat.isDigit_of_mem_toDigits (by decide) (by decide) inside
      simp [isStemChar, Char.isAlphanum, digit]

theorem candidate_injective (name : String) : Function.Injective (candidate name) := by
  have ahead (n : Nat) : (candidate name (n + 1)).toList =
      (candidate name 0).toList ++ '_' :: Nat.toDigits 10 (n + 2) := by
    simp [candidate]
  have other (n : Nat) : candidate name 0 ≠ candidate name (n + 1) := by
    intro same
    have lengths := congrArg (List.length ∘ String.toList) same
    simp [ahead] at lengths
  intro m n same
  cases m with
  | zero =>
    cases n with
    | zero => rfl
    | succ n => exact absurd same (other n)
  | succ m =>
    cases n with
    | zero => exact absurd same.symm (other m)
    | succ n =>
      -- behind the stem the numbers are the same
      have chars := congrArg String.toList same
      rw [ahead, ahead, List.append_cancel_left_eq, List.cons.injEq] at chars
      have value := congrArg (fun digits => Nat.ofDigitChars 10 digits 0) chars.2
      simpa using value

/-- Of the identifiers that are tried one is free. -/
theorem fresh_not_used (ids : Identifiers) (name : String) : ids.isUsed (ids.fresh name) = false := by
  -- one more identifier is tried than identifiers are taken
  have free : ∃ n ∈ List.range (ids.assigned.length + 1), ids.isUsed (candidate name n) = false := by
    by_contra taken
    have used : (List.range (ids.assigned.length + 1)).map (candidate name) ⊆ ids.assigned.map Prod.snd := by
      intro identifier listed
      obtain ⟨n, small, rfl⟩ := List.mem_map.1 listed
      have isTaken : ids.isUsed (candidate name n) = true := by
        rw [← Bool.not_eq_false]
        exact fun unused => taken ⟨n, small, unused⟩
      simpa [isUsed] using isTaken
    have distinct := List.nodup_range (n := ids.assigned.length + 1).map (candidate_injective name)
    have few := (List.subperm_of_subset distinct used).length_le
    rw [List.length_map, List.length_range, List.length_map] at few
    omega
  unfold fresh
  cases found : (List.range (ids.assigned.length + 1)).find? fun n => !ids.isUsed (candidate name n) with
  | some n => simpa using List.find?_some found
  | none =>
    obtain ⟨n, small, unused⟩ := free
    have := List.find?_eq_none.1 found n small
    simp [unused] at this

/-! ## Assignment -/

/-- No name has two identifiers, and no identifier two names. -/
structure IsApart (ids : Identifiers) : Prop where
  names : (ids.assigned.map Prod.fst).Nodup
  identifiers : (ids.assigned.map Prod.snd).Nodup

theorem isApart_empty : empty.IsApart := ⟨List.nodup_nil, List.nodup_nil⟩

theorem IsApart.assign {ids : Identifiers} (h : ids.IsApart) (name : String) : (ids.assign name).IsApart := by
  unfold Identifiers.assign
  split
  · exact h
  · rename_i absent
    have new : name ∉ ids.assigned.map Prod.fst := by
      rintro listed
      obtain ⟨pair, inside, rfl⟩ := List.mem_map.1 listed
      have other := List.lookup_eq_none_iff.1 absent pair inside
      simp at other
    have unused : ids.fresh name ∉ ids.assigned.map Prod.snd := by
      rintro taken
      obtain ⟨pair, inside, same⟩ := List.mem_map.1 taken
      have isUsed : ids.isUsed (ids.fresh name) = true :=
        List.any_eq_true.2 ⟨pair, inside, beq_iff_eq.2 same⟩
      rw [ids.fresh_not_used name] at isUsed
      cases isUsed
    constructor
    · rw [List.map_append, List.map_singleton, ← List.concat_eq_append]
      exact h.names.concat new
    · rw [List.map_append, List.map_singleton, ← List.concat_eq_append]
      exact h.identifiers.concat unused

theorem isApart_assignAll {ids : Identifiers} (h : ids.IsApart) (names : List String) :
    (ids.assignAll names).IsApart := by
  induction names generalizing ids with
  | nil => exact h
  | cons name rest ih => exact ih (h.assign name)

/-- A name keeps its identifier when others get theirs. -/
theorem get?_assign_of_get? {ids : Identifiers} {name identifier : String}
    (known : ids.get? name = some identifier) (other : String) :
    (ids.assign other).get? name = some identifier := by
  unfold assign
  split
  · exact known
  · unfold get? at known ⊢
    rw [List.lookup_append, known, Option.some_or]

theorem get?_assignAll_of_get? {ids : Identifiers} {name identifier : String}
    (known : ids.get? name = some identifier) (names : List String) :
    (ids.assignAll names).get? name = some identifier := by
  induction names generalizing ids with
  | nil => exact known
  | cons other rest ih => exact ih (get?_assign_of_get? known other)

/-- A name that has been given an identifier has it from then on. -/
theorem get?_assignAll (ids : Identifiers) {names : List String} {name : String} (given : name ∈ names) :
    (ids.assignAll names).get? name = some ((ids.assignAll names).of name) := by
  induction names generalizing ids with
  | nil => cases given
  | cons other rest ih =>
    rcases List.mem_cons.1 given with rfl | given
    · have kept := get?_assignAll_of_get? (get?_assign ids name) rest
      show ((ids.assign name).assignAll rest).get? name = some (((ids.assign name).assignAll rest).of name)
      rw [of, kept, Option.getD_some]
    · exact ih (ids.assign other) given

theorem of_assignAll (ids : Identifiers) {names : List String} {name : String} (given : name ∈ names)
    (more : List String) : ((ids.assignAll names).assignAll more).of name = (ids.assignAll names).of name := by
  rw [of, get?_assignAll_of_get? (get?_assignAll ids given) more, Option.getD_some]

/-- Two names with one identifier are one name. -/
theorem eq_of_of_eq {names : List String} {a b : String} (first : a ∈ names) (second : b ∈ names)
    (same : (empty.assignAll names).of a = (empty.assignAll names).of b) : a = b := by
  have apart := isApart_assignAll isApart_empty names
  have entry {name : String} (given : name ∈ names) :
      (name, (empty.assignAll names).of name) ∈ (empty.assignAll names).assigned := by
    obtain ⟨before, after, split, -⟩ := List.lookup_eq_some_iff.1 (get?_assignAll empty given)
    rw [split]
    simp
  exact congrArg Prod.fst (List.inj_on_of_nodup_map apart.identifiers (entry first) (entry second) same)

/-- Every identifier that has been given was tried for some name. -/
theorem mem_assignAll {ids : Identifiers}
    (h : ∀ pair ∈ ids.assigned, ∃ name n, pair.2 = candidate name n) (names : List String) :
    ∀ pair ∈ (ids.assignAll names).assigned, ∃ name n, pair.2 = candidate name n := by
  induction names generalizing ids with
  | nil => exact h
  | cons name rest ih =>
    refine ih fun pair inside => ?_
    unfold assign at inside
    split at inside
    · exact h pair inside
    · rcases List.mem_append.1 inside with inside | inside
      · exact h pair inside
      · rw [List.mem_singleton.1 inside]
        exact ⟨name, _, rfl⟩

theorem exists_of_eq_candidate (names : List String) (name : String) :
    ∃ other n, (empty.assignAll names).of name = candidate other n := by
  unfold of
  cases found : (empty.assignAll names).get? name with
  | none => exact ⟨name, _, rfl⟩
  | some identifier =>
    obtain ⟨before, after, split, -⟩ := List.lookup_eq_some_iff.1 found
    have none : ∀ pair ∈ empty.assigned, ∃ name n, pair.2 = candidate name n := nofun
    exact mem_assignAll none names (name, identifier) (by rw [split]; simp)

/-- An identifier starts with a mark that no word of the script has, and goes on with characters of stems. -/
theorem of_eq (names : List String) (name : String) :
    ∃ c rest, ((empty.assignAll names).of name).toList = 'i' :: 's' :: '_' :: c :: rest ∧
      ∀ d ∈ c :: rest, isStemChar d = true := by
  obtain ⟨other, n, same⟩ := exists_of_eq_candidate names name
  rw [same]
  exact candidate_eq other n

end Identifiers

end Script

end ShapeCheck
