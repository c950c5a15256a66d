import ShapeCheck.Script.Identifier

set_option autoImplicit false

/-! # The length of stems

A stem is made of the words of a name, that is, of its runs of letters and digits, joined by underscores and
cut off at a limit. The limit is looked at only behind a letter or digit, and an underscore is added together
with what follows it. So where the limit falls on an underscore, the stem has one character too many.

Main facts: `isStem_stem` (what stems look like), `stem_eq_cut` (which part of the joined words a stem is) and
`stem_bounds`.
-/

namespace ShapeCheck

namespace Script

/-! ## Adding a letter -/

/-- A stem with one more letter or digit, and with an underscore in front of it where something has been left
out between the two. -/
def lengthen (stem : List Char) (gap : Bool) (c : Char) : List Char :=
  if gap && !stem.isEmpty then stem ++ ['_', c] else stem ++ [c]

theorem lengthen_ne_nil (stem : List Char) (gap : Bool) (c : Char) : lengthen stem gap c ≠ [] := by
  unfold lengthen
  split <;> simp

section
variable (stem : List Char) (gap : Bool) {c : Char} (rest : List Char)

theorem extendStem_letter (letter : c.isAlphanum = true) :
    extendStem stem gap (c :: rest) =
      if stemLimit ≤ (lengthen stem gap c).length then lengthen stem gap c
      else extendStem (lengthen stem gap c) false rest := by
  rw [extendStem, if_pos letter]
  rfl

theorem extendStem_other (other : ¬ c.isAlphanum = true) :
    extendStem stem gap (c :: rest) = extendStem stem true rest := by
  rw [extendStem, if_neg other]

end

/-! ## The form of stems -/

/-- Letters and digits, and single underscores between two of them. -/
inductive IsStem : List Char → Prop
  | single {c : Char} : c.isAlphanum = true → IsStem [c]
  | letter {c : Char} {rest : List Char} : c.isAlphanum = true → IsStem rest → IsStem (c :: rest)
  | separated {c : Char} {rest : List Char} : c.isAlphanum = true → IsStem rest → IsStem (c :: '_' :: rest)

theorem IsStem.append_letter {chars : List Char} (h : IsStem chars) {c : Char} (letter : c.isAlphanum = true) :
    IsStem (chars ++ [c]) := by
  induction h with
  | single first => exact .letter first (.single letter)
  | letter first _ ih => exact .letter first ih
  | separated first _ ih => exact .separated first ih

theorem IsStem.append_separated {chars : List Char} (h : IsStem chars) {c : Char}
    (letter : c.isAlphanum = true) : IsStem (chars ++ ['_', c]) := by
  induction h with
  | single first => exact .separated first (.single letter)
  | letter first _ ih => exact .letter first ih
  | separated first _ ih => exact .separated first ih

theorem isStem_lengthen {stem : List Char} (h : stem = [] ∨ IsStem stem) (gap : Bool) {c : Char}
    (letter : c.isAlphanum = true) : IsStem (lengthen stem gap c) := by
  unfold lengthen
  rcases h with rfl | h
  · simpa using IsStem.single letter
  · split
    · exact h.append_separated letter
    · exact h.append_letter letter

theorem isStem_extendStem {stem : List Char} (h : stem = [] ∨ IsStem stem) (gap : Bool) (cs : List Char) :
    extendStem stem gap cs = [] ∨ IsStem (extendStem stem gap cs) := by
  induction cs generalizing stem gap with
  | nil => exact h
  | cons c rest ih =>
    by_cases letter : c.isAlphanum = true
    · rw [extendStem_letter stem gap rest letter]
      have longer := isStem_lengthen h gap letter
      split
      · exact .inr longer
      · exact ih (.inr longer) false
    · rw [extendStem_other stem gap rest letter]
      exact ih h true

theorem isStem_stem (name : String) : IsStem (stem name).toList := by
  unfold stem
  split
  · repeat' first | exact .single rfl | refine .letter rfl ?_
  · rename_i some
    rw [String.toList_ofList]
    exact (isStem_extendStem (.inl rfl) false name.toList).resolve_left some

/-! ## The words of a name -/

/-- The runs of letters and digits in a text. -/
def wordsOf (cs : List Char) : List (List Char) :=
  (cs.splitOnP fun c => !c.isAlphanum).filter fun word => !word.isEmpty

/-- The words of a name, joined by underscores. -/
def joined (name : String) : List Char := ['_'].intercalate (wordsOf name.toList)

/-- Extends a stem without a limit. -/
def extendFreely (stem : List Char) (gap : Bool) : List Char → List Char
  | [] => stem
  | c :: rest =>
    if c.isAlphanum then extendFreely (lengthen stem gap c) false rest else extendFreely stem true rest

/-- Words as they follow others. -/
def followed (words : List (List Char)) : List Char :=
  (words.filter fun word => !word.isEmpty).flatMap (List.cons '_')

theorem intercalate_cons (word : List Char) (words : List (List Char)) :
    ['_'].intercalate (word :: words) = word ++ words.flatMap (List.cons '_') := by
  induction words generalizing word with
  | nil => simp [List.intercalate]
  | cons next rest ih =>
    have step : ['_'].intercalate (word :: next :: rest) = word ++ '_' :: ['_'].intercalate (next :: rest) := by
      simp [List.intercalate, List.intersperse]
    rw [step, ih, List.flatMap_cons]
    rfl

/-- Behind a stem, the words follow one after the other; the first may go on with the last one of the stem. -/
theorem extendFreely_of_started {stem : List Char} (started : stem ≠ []) (gap : Bool) {cs : List Char}
    {head : List Char} {tail : List (List Char)} (pieces : cs.splitOnP (fun c => !c.isAlphanum) = head :: tail) :
    extendFreely stem gap cs = stem ++ if gap then followed (head :: tail) else head ++ followed tail := by
  induction cs generalizing stem gap head tail with
  | nil =>
    obtain ⟨rfl, rfl⟩ : [] = head ∧ [] = tail := by simpa using pieces
    cases gap <;> simp [extendFreely, followed]
  | cons c rest ih =>
    obtain ⟨head', tail', pieces'⟩ :=
      List.exists_cons_of_ne_nil (List.splitOnP_ne_nil (fun c => !Char.isAlphanum c) rest)
    rw [List.splitOnP_cons_eq_if_modifyHead, pieces'] at pieces
    rw [extendFreely]
    by_cases letter : c.isAlphanum = true
    · obtain ⟨rfl, rfl⟩ : c :: head' = head ∧ tail' = tail := by simpa [letter] using pieces
      rw [if_pos letter, ih (lengthen_ne_nil stem gap c) false pieces']
      cases gap <;> simp [lengthen, followed, started]
    · obtain ⟨rfl, rfl⟩ : [] = head ∧ head' :: tail' = tail := by simpa [letter] using pieces
      rw [if_neg letter, ih started true pieces']
      cases gap <;> simp [followed]

theorem extendFreely_eq (gap : Bool) (cs : List Char) :
    extendFreely [] gap cs = ['_'].intercalate (wordsOf cs) := by
  induction cs generalizing gap with
  | nil => rfl
  | cons c rest ih =>
    obtain ⟨head, tail, pieces⟩ :=
      List.exists_cons_of_ne_nil (List.splitOnP_ne_nil (fun c => !Char.isAlphanum c) rest)
    rw [extendFreely, wordsOf, List.splitOnP_cons_eq_if_modifyHead]
    by_cases letter : c.isAlphanum = true
    · rw [if_pos letter, extendFreely_of_started (lengthen_ne_nil [] gap c) false pieces, pieces]
      simp [letter, lengthen, followed, intercalate_cons]
    · rw [if_neg letter, ih, wordsOf]
      simp [letter]

/-! ## The limit -/

/-- Cuts off characters behind the limit, but never right behind an underscore. -/
def cut (chars : List Char) : List Char :=
  if chars[stemLimit - 1]? = some '_' then chars.take (stemLimit + 1) else chars.take stemLimit

theorem cut_of_short {chars : List Char} (short : chars.length < stemLimit) : cut chars = chars := by
  have none : chars[stemLimit - 1]? = none := List.getElem?_eq_none (Nat.le_sub_one_of_lt short)
  rw [cut, none, if_neg nofun, List.take_of_length_le (Nat.le_of_lt short)]

theorem prefix_lengthen (stem : List Char) (gap : Bool) (c : Char) : stem <+: lengthen stem gap c := by
  unfold lengthen
  split <;> exact List.prefix_append _ _

theorem prefix_extendFreely (stem : List Char) (gap : Bool) (cs : List Char) :
    stem <+: extendFreely stem gap cs := by
  induction cs generalizing stem gap with
  | nil => exact List.prefix_rfl
  | cons c rest ih =>
    rw [extendFreely]
    split
    · exact (prefix_lengthen stem gap c).trans (ih _ false)
    · exact ih stem true

/-- Where the limit is reached, the stem is what is left of any text that starts with it. -/
theorem cut_of_lengthen {stem chars : List Char} (short : stem.length < stemLimit) {gap : Bool} {c : Char}
    (letter : c.isAlphanum = true) (reached : stemLimit ≤ (lengthen stem gap c).length)
    (more : lengthen stem gap c <+: chars) : cut chars = lengthen stem gap c := by
  obtain ⟨rest, rfl⟩ := more
  have plain : c ≠ '_' := by
    rintro rfl
    exact absurd letter (by decide)
  have limit : stemLimit = 48 := rfl
  unfold cut
  unfold lengthen at reached ⊢
  split at reached
  · rename_i separated
    rw [if_pos separated]
    rw [List.length_append, List.length_cons, List.length_singleton] at reached
    by_cases onLimit : stem.length = stemLimit - 1
    · -- the underscore has the last place that is left, so the letter is one too many
      rw [if_pos (by simp [← onLimit]), List.take_left' (by simp; omega)]
    · have last : (stem ++ ['_', c] ++ rest)[stemLimit - 1]? = some c := by
        rw [show stemLimit - 1 = stem.length + 1 by omega]
        simp
      rw [last, if_neg (by simpa using plain), List.take_left' (by simp; omega)]
  · rename_i together
    rw [if_neg together]
    rw [List.length_append, List.length_singleton] at reached
    have last : (stem ++ [c] ++ rest)[stemLimit - 1]? = some c := by
      rw [show stemLimit - 1 = stem.length by omega]
      simp
    rw [last, if_neg (by simpa using plain), List.take_left' (by simp; omega)]

theorem extendStem_eq_cut {stem : List Char} (short : stem.length < stemLimit) (gap : Bool) (cs : List Char) :
    extendStem stem gap cs = cut (extendFreely stem gap cs) := by
  induction cs generalizing stem gap with
  | nil => exact (cut_of_short short).symm
  | cons c rest ih =>
    rw [extendFreely]
    by_cases letter : c.isAlphanum = true
    · rw [extendStem_letter stem gap rest letter, if_pos letter]
      split
      · rename_i reached
        exact (cut_of_lengthen short letter reached (prefix_extendFreely _ _ _)).symm
      · rename_i within
        exact ih (Nat.lt_of_not_le within) false
    · rw [extendStem_other stem gap rest letter, if_neg letter]
      exact ih short true

/-- A stem is the joined words of its name, cut off at the limit. -/
theorem stem_eq_cut (name : String) :
    (stem name).toList = if joined name = [] then "anonymous".toList else cut (joined name) := by
  have spelled : extendStem [] false name.toList = cut (joined name) := by
    rw [extendStem_eq_cut (by decide), extendFreely_eq, joined]
  have nothing : cut (joined name) = [] ↔ joined name = [] := by
    unfold cut
    split <;> simp [stemLimit]
  unfold stem
  rw [spelled]
  split
  · rename_i none
    rw [if_pos (nothing.1 none)]
  · rename_i some
    rw [if_neg fun none => some (nothing.2 none), String.toList_ofList]

theorem IsStem.length_pos {chars : List Char} (h : IsStem chars) : 0 < chars.length := by
  cases h <;> exact Nat.succ_pos _

theorem length_cut (chars : List Char) : (cut chars).length ≤ stemLimit + 1 ∧
    (stemLimit < (cut chars).length ↔ stemLimit < chars.length ∧ chars[stemLimit - 1]? = some '_') := by
  unfold cut
  split
  · rename_i separated
    simp only [List.length_take, separated, and_true]
    omega
  · rename_i other
    simp only [List.length_take, other, and_false, iff_false]
    omega

/-- A stem has at least one letter or digit, and it has one character more than the limit exactly if the limit
falls on an underscore between two words of the name. An identifier without a number is a mark and a stem. -/
theorem stem_bounds (name : String) :
    IsStem (stem name).toList ∧ 1 ≤ (stem name).length ∧ (stem name).length ≤ stemLimit + 1 ∧
      (stemLimit < (stem name).length ↔
        stemLimit < (joined name).length ∧ (joined name)[stemLimit - 1]? = some '_') ∧
      (Identifiers.candidate name 0).length = "is_".length + (stem name).length := by
  have form := isStem_stem name
  have positive : 1 ≤ (stem name).length := by
    rw [← String.length_toList]
    exact form.length_pos
  have bounds : (stem name).length ≤ stemLimit + 1 ∧ (stemLimit < (stem name).length ↔
      stemLimit < (joined name).length ∧ (joined name)[stemLimit - 1]? = some '_') := by
    rw [← String.length_toList, stem_eq_cut]
    split
    · rename_i none
      rw [none]
      decide
    · exact length_cut (joined name)
  exact ⟨form, positive, bounds.1, bounds.2, String.length_append _ _⟩

/-- Two words of which the second one begins right behind the limit: the stem is too long by one. -/
theorem stemLimit_lt_length_stem :
    stemLimit < (stem "aaaaaaaaaaaaaaaaaaaaaaaaaaaaaaaaaaaaaaaaaaaaaaa b").length := by
  decide

end Script

end ShapeCheck
