set_option autoImplicit false

/-! # Sorted lists of texts

Sets of keys and of names are kept as lists in ascending order without repetitions, so that equal
sets are equal lists. Texts are ordered character by character, by code point.

Main facts: `Text.mem_sortUnique` (sorting keeps exactly the given texts) and
`Text.pairwise_sortUnique` (the result ascends strictly).
-/

namespace ShapeCheck

namespace Text

/-- The first text is not behind the second one. -/
def atMost (a b : String) : Bool := !(b < a)

/-- Sorts texts; repetitions stay. -/
def sort (texts : List String) : List String := texts.mergeSort atMost

/-- Puts a text at its place in an ascending list, unless it is there already. -/
def insertSorted (text : String) : List String → List String
  | [] => [text]
  | head :: rest =>
    if text < head then text :: head :: rest
    else if head < text then head :: insertSorted text rest
    else head :: rest

/-- The texts in ascending order, each once. -/
def sortUnique (texts : List String) : List String := texts.foldr insertSorted []

theorem mem_insertSorted {x text : String} {texts : List String} :
    x ∈ insertSorted text texts ↔ x = text ∨ x ∈ texts := by
  induction texts with
  | nil => simp [insertSorted]
  | cons head rest ih =>
    unfold insertSorted
    split
    · simp
    · split
      · simp only [List.mem_cons, ih]
        exact or_left_comm
      · rename_i below above
        have same : text = head :=
          String.le_antisymm (String.not_lt.1 above) (String.not_lt.1 below)
        simp [same]

theorem mem_sortUnique {x : String} {texts : List String} :
    x ∈ sortUnique texts ↔ x ∈ texts := by
  induction texts with
  | nil => simp [sortUnique]
  | cons head rest ih =>
    show x ∈ insertSorted head (sortUnique rest) ↔ _
    rw [mem_insertSorted, ih, List.mem_cons]

theorem pairwise_insertSorted {text : String} {texts : List String}
    (h : texts.Pairwise (· < ·)) : (insertSorted text texts).Pairwise (· < ·) := by
  induction texts with
  | nil => simp [insertSorted]
  | cons head rest ih =>
    obtain ⟨least, ascending⟩ := List.pairwise_cons.1 h
    unfold insertSorted
    split
    · rename_i below
      refine List.pairwise_cons.2 ⟨?_, h⟩
      intro x hx
      rcases List.mem_cons.1 hx with rfl | hx
      · exact below
      · exact String.lt_trans below (least x hx)
    · split
      · rename_i above
        refine List.pairwise_cons.2 ⟨?_, ih ascending⟩
        intro x hx
        rcases mem_insertSorted.1 hx with rfl | hx
        · exact above
        · exact least x hx
      · exact h

theorem pairwise_sortUnique (texts : List String) :
    (sortUnique texts).Pairwise (· < ·) := by
  induction texts with
  | nil => exact List.Pairwise.nil
  | cons head rest ih => exact pairwise_insertSorted ih

end Text

end ShapeCheck
