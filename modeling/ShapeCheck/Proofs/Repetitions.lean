import Mathlib.Data.List.Forall2
import Mathlib.Data.List.Nodup

set_option autoImplicit false

/-! # Lists without repetitions

`List.eraseDups` keeps the first of equal items, and the order of the items. Taking out the repetitions of a
part first changes nothing about the whole, and lists whose items correspond one to one have their
repetitions at the same places.

Main facts: `eraseDups_append_congr` and `forall₂_eraseDups`.
-/

namespace ShapeCheck

section
variable {α : Type} [BEq α]

/-- Lists are built by putting an item before a list, and that without the item is the smaller one. -/
theorem induction_of_filter {motive : List α → Prop} (nil : motive [])
    (cons : ∀ item rest, motive (rest.filter fun other => !other == item) → motive (item :: rest))
    (items : List α) : motive items := by
  generalize bound : items.length = n
  induction n using Nat.strongRecOn generalizing items with
  | ind n ih =>
    cases items with
    | nil => exact nil
    | cons item rest =>
      refine cons item rest (ih _ ?_ _ rfl)
      subst bound
      exact Nat.lt_succ_of_le (List.length_filter_le _ _)

theorem eq_nil_of_eraseDups {items : List α} (h : items.eraseDups = []) : items = [] := by
  cases items with
  | nil => rfl
  | cons item rest =>
    rw [List.eraseDups_cons] at h
    cases h

end

section
variable {α : Type} [BEq α] [LawfulBEq α]

theorem nodup_eraseDups (items : List α) : items.eraseDups.Nodup := by
  induction items using induction_of_filter with
  | nil => exact List.nodup_nil
  | cons item rest ih =>
    rw [List.eraseDups_cons]
    exact List.nodup_cons.2 ⟨fun inside => by simpa using List.mem_eraseDups.1 inside, ih⟩

theorem filter_eraseDups (p : α → Bool) (items : List α) :
    items.eraseDups.filter p = (items.filter p).eraseDups := by
  induction items using induction_of_filter with
  | nil => rfl
  | cons item rest ih =>
    rw [List.eraseDups_cons, List.filter_cons, ih, List.filter_cons]
    split
    · rw [List.eraseDups_cons, List.filter_filter, List.filter_filter]
      simp only [Bool.and_comm]
    · rename_i dropped
      -- the item itself does not pass the filter, so it need not be taken out
      rw [List.filter_filter]
      refine congrArg List.eraseDups (List.filter_congr fun other _ => ?_)
      by_cases same : other = item
      · subst same
        simp [dropped]
      · simp [same]

theorem eraseDups_eraseDups (items : List α) : items.eraseDups.eraseDups = items.eraseDups := by
  induction items using induction_of_filter with
  | nil => rfl
  | cons item rest ih =>
    rw [List.eraseDups_cons, List.eraseDups_cons, filter_eraseDups, List.filter_filter]
    simp only [Bool.and_self]
    rw [ih]

theorem eraseDups_append_congr {as as' bs bs' : List α} (h : as.eraseDups = as'.eraseDups)
    (h' : bs.eraseDups = bs'.eraseDups) : (as ++ bs).eraseDups = (as' ++ bs').eraseDups := by
  have known (b : α) : as.elem b = as'.elem b := by
    rw [Bool.eq_iff_iff, List.elem_iff, List.elem_iff, ← List.mem_eraseDups, h, List.mem_eraseDups]
  rw [List.eraseDups_append, List.eraseDups_append, h]
  simp only [List.removeAll, ← filter_eraseDups, h', known]

end

/-! ## Repetitions in corresponding lists -/

/-- Repetitions are found at the same places if nothing is related to two different items. -/
theorem forall₂_eraseDups {α β : Type} [BEq α] [LawfulBEq α] [BEq β] [LawfulBEq β] {R : α → β → Prop}
    (unique : Relator.BiUnique R) {as : List α} {bs : List β} (h : List.Forall₂ R as bs) :
    List.Forall₂ R as.eraseDups bs.eraseDups := by
  induction as using induction_of_filter generalizing bs with
  | nil =>
    cases h
    exact .nil
  | cons a as ih =>
    cases h with
    | @cons _ b _ bs here rest =>
      have same : Relator.LiftFun R (· ↔ ·) (fun c => (!c == a) = true) fun d => (!d == b) = true := by
        intro c d related
        simp only [Bool.not_eq_true', beq_eq_false_iff_ne]
        refine not_congr ⟨?_, ?_⟩
        · rintro rfl
          exact unique.2 related here
        · rintro rfl
          exact unique.1 related here
      rw [List.eraseDups_cons, List.eraseDups_cons]
      exact .cons here (ih (List.rel_filter same rest))

end ShapeCheck
