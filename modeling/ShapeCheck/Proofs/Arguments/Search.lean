import ShapeCheck.Validation.Guards

set_option autoImplicit false

/-! # Looking for a position by halving

A search for a position goes on among fewer and fewer entries. While the entries are in order, those in
front of what is left are for lower positions and those behind it for higher ones, and each look in the middle
keeps this. So the search ends at the entry for the position if there is one, and otherwise where an
entry for it belongs.

Main facts: `Guards.search_fits` (a search in order finds the right place) and `Guards.exists_set_eq` (what
becomes of guards when one is set).
-/

namespace ShapeCheck

namespace Guards

variable {entries : List (Nat × Validator)} {position low count : Nat}

/-- The positions of the entries ascend, so none of them stands twice. -/
def IsAscending (guards : Guards) : Prop := guards.entries.Pairwise fun a b => a.1 < b.1

/-! ## Searching -/

/-- If there is an entry for the position, it is one of the `count` entries from `low` on. -/
structure Narrows (entries : List (Nat × Validator)) (position low count : Nat) : Prop where
  inside : low + count ≤ entries.length
  below : ∀ (i : Nat) entry, entries[i]? = some entry → i < low → entry.1 < position
  above : ∀ (i : Nat) entry, entries[i]? = some entry → low + count ≤ i → position < entry.1

/-- A search can start with all entries. -/
theorem narrows_all (entries : List (Nat × Validator)) (position : Nat) :
    Narrows entries position 0 entries.length where
  inside := Nat.le_of_eq (Nat.zero_add _)
  below _ _ _ less := absurd less (Nat.not_lt_zero _)
  above i entry here beyond := by
    rw [List.getElem?_eq_none (by omega)] at here
    cases here

/-- The slot is the right one: at the entry for the position, or between the lower and the higher ones. -/
def Fits (entries : List (Nat × Validator)) (position : Nat) : GuardSlot → Prop
  | .taken i => ∃ w, entries[i]? = some (position, w)
  | .free i => Narrows entries position i 0

section
variable (ascending : entries.Pairwise fun a b => a.1 < b.1)
include ascending

theorem lt_of_getElem? {i j : Nat} {a b : Nat × Validator} (first : entries[i]? = some a)
    (second : entries[j]? = some b) (less : i < j) : a.1 < b.1 := by
  obtain ⟨_, rfl⟩ := List.getElem?_eq_some_iff.1 first
  obtain ⟨_, rfl⟩ := List.getElem?_eq_some_iff.1 second
  exact List.pairwise_iff_getElem.1 ascending i j _ _ less

/-- Where the middle is too low, the search goes on behind it. -/
theorem Narrows.behind (h : Narrows entries position low count) (some : count ≠ 0) {p : Nat} {w : Validator}
    (middle : entries[low + count / 2]? = .some (p, w)) (lower : p < position) :
    Narrows entries position (low + count / 2 + 1) (count - count / 2 - 1) where
  inside := by
    have := h.inside
    omega
  below i entry here less := by
    by_cases last : i = low + count / 2
    · rw [last, middle] at here
      cases here
      exact lower
    · exact Nat.lt_trans (lt_of_getElem? ascending here middle (by omega)) lower
  above i entry here beyond := h.above i entry here (by omega)

/-- Where the middle is too high, the search goes on in front of it. -/
theorem Narrows.front (h : Narrows entries position low count) {p : Nat} {w : Validator}
    (middle : entries[low + count / 2]? = .some (p, w)) (higher : position < p) :
    Narrows entries position low (count / 2) where
  inside := by
    have := h.inside
    omega
  below := h.below
  above i entry here beyond := by
    by_cases first : i = low + count / 2
    · rw [first, middle] at here
      cases here
      exact higher
    · exact Nat.lt_trans higher (lt_of_getElem? ascending middle here (by omega))

theorem searchFrom_fits (h : Narrows entries position low count) :
    Fits entries position (searchFrom entries position low count) := by
  fun_induction searchFrom entries position low count with
  | case1 low => exact h
  | case2 low count some w middle => exact ⟨w, middle⟩
  | case3 low count some p w middle other lower ih => exact ih (h.behind ascending some middle lower)
  | case4 low count some p w middle other notLower ih => exact ih (h.front ascending middle (by omega))
  | case5 low count some outside =>
    -- the middle is always among the entries
    have := h.inside
    rw [List.getElem?_eq_none_iff] at outside
    omega

end

theorem search_fits {guards : Guards} (ascending : guards.IsAscending) (position : Nat) :
    Fits guards.entries position (guards.search position) :=
  searchFrom_fits ascending (narrows_all guards.entries position)

/-! ## Setting -/

/-- A guard that is set stands behind those for lower positions and in front of those for higher ones, and no
other one is left for its position. -/
theorem exists_set_eq {guards : Guards} (ascending : guards.IsAscending) (position : Nat) (v : Validator) :
    ∃ before old after, guards.entries = before ++ old ++ after ∧
      (∀ entry ∈ before, entry.1 < position) ∧ (∀ entry ∈ old, entry.1 = position) ∧
      (∀ entry ∈ after, position < entry.1) ∧
      guards.set position v = ⟨before ++ (position, v) :: after⟩ := by
  have fits := search_fits ascending position
  unfold set
  cases found : guards.search position with
  | taken i =>
    rw [found] at fits
    obtain ⟨w, here⟩ := fits
    obtain ⟨inside, same⟩ := List.getElem?_eq_some_iff.1 here
    obtain ⟨before, entry, after, split, length, replaced⟩ :=
      List.exists_of_modify (fun entry : Nat × Validator => (entry.1, v)) inside
    obtain rfl : entry = (position, w) := by
      simpa [split, length] using same
    rw [IsAscending, split, List.pairwise_append, List.pairwise_cons] at ascending
    refine ⟨before, [(position, w)], after, by rw [split, List.append_assoc, List.singleton_append], ?_, ?_, ?_,
      congrArg Guards.mk replaced⟩
    · exact fun entry listed => ascending.2.2 entry listed (position, w) List.mem_cons_self
    · exact List.forall_mem_singleton.2 rfl
    · exact ascending.2.1.1
  | free i =>
    rw [found] at fits
    obtain ⟨before, after, split, rfl, inserted⟩ :=
      List.exists_of_modifyTailIdx (List.cons (position, v)) fits.inside
    refine ⟨before, [], after, by rw [split, List.append_nil], ?_, List.forall_mem_nil _, ?_,
      congrArg Guards.mk inserted⟩
    · intro entry listed
      obtain ⟨j, less, rfl⟩ := List.getElem_of_mem listed
      refine fits.below j _ ?_ less
      rw [split, List.getElem?_append_left less, List.getElem?_eq_getElem less]
    · intro entry listed
      obtain ⟨j, less, rfl⟩ := List.getElem_of_mem listed
      refine fits.above (before.length + j) _ ?_ (Nat.le_add_right _ _)
      rw [split, List.getElem?_append_right (Nat.le_add_right _ _), Nat.add_sub_cancel_left,
        List.getElem?_eq_getElem less]

end Guards

end ShapeCheck
