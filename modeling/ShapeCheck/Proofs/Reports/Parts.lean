import ShapeCheck.Proofs.Evaluation.Tests
import ShapeCheck.Proofs.Meaning.Equations
import ShapeCheck.Proofs.Number.Positions
import ShapeCheck.Validation.Diagnosis

set_option autoImplicit false

/-! # Parts of a value

A path leads from a value to one of its parts: a key leads into an object, a position into an array.
Predicates reach the parts of a value through accesses, which also find lengths and things that are not
there. The lemmas say when an access finds the part that a step leads to, for values that come from
JSON.

Main facts: `Located.follow?_append` (a path can be followed in two halves), `Located.step?_key` and
`Located.step?_index` (accesses that find parts) and `Value.isData_ofJson`.
-/

namespace ShapeCheck

/-! ## Steps -/

namespace Located

/-- The part one step away. A key leads into objects only, and a position into arrays. -/
def step? (x : Located) (segment : Segment) : Option Located :=
  match x.value, segment with
  | .object _, .key name => (x.value.part? name).map fun part => ⟨part.2, part.1 :: x.place⟩
  | .array items, .index position => (items[position]?).map fun item => ⟨item, position :: x.place⟩
  | _, _ => none

/-- The part that a path leads to. -/
def follow? (x : Located) : Path → Option Located
  | [] => some x
  | segment :: rest => (x.step? segment).bind fun part => part.follow? rest

theorem follow?_append (x : Located) (path rest : Path) :
    x.follow? (path ++ rest) = (x.follow? path).bind fun part => part.follow? rest := by
  induction path generalizing x with
  | nil => rfl
  | cons segment path ih => simp [follow?, ih, Option.bind_assoc]

end Located

/-! ## Data -/

/-- A value that JSON can describe, with no array that is longer than doubles can count. -/
inductive Value.IsData : Value → Prop
  | null : IsData .null
  | bool (b : Bool) : IsData (.bool b)
  | number (x : Double) : IsData (.number x)
  | string (s : String) : IsData (.string s)
  | array {items : List Value} : items.length < 2 ^ 53 → (∀ item ∈ items, IsData item) →
      IsData (.array items)
  | object {entries : List (String × Value)} : (∀ entry ∈ entries, IsData entry.2) →
      IsData (.object entries)

namespace Json

mutual

/-- No array in the value has as many as `2 ^ 53` items. -/
def hasShortArrays : Json → Bool
  | .array items => decide (items.length < 2 ^ 53) && itemsHaveShortArrays items
  | .object entries => entriesHaveShortArrays entries
  | _ => true

/-- The same of all items of an array. -/
def itemsHaveShortArrays : List Json → Bool
  | [] => true
  | item :: rest => item.hasShortArrays && itemsHaveShortArrays rest

/-- The same of all entries of an object. -/
def entriesHaveShortArrays : List (String × Json) → Bool
  | [] => true
  | (_, value) :: rest => value.hasShortArrays && entriesHaveShortArrays rest

end

/-- The values of the entries are those that were there, but for one. -/
theorem mem_setEntry {α : Type} {entries : List (String × α)} {key : String} {value : α}
    {entry : String × α} (h : entry ∈ setEntry entries key value) :
    entry ∈ entries ∨ entry = (key, value) := by
  unfold setEntry at h
  split at h
  · obtain ⟨other, inside, rfl⟩ := List.mem_map.1 h
    split
    · exact .inr rfl
    · exact .inl inside
  · simpa using h

end Json

namespace Value

theorem length_ofItems (items : List Json) : (ofItems items).length = items.length := by
  induction items with
  | nil => rfl
  | cons item rest ih => simp [ofItems, ih]

mutual

theorem isData_ofJson (json : Json) (short : json.hasShortArrays = true) : (ofJson json).IsData := by
  cases json with
  | null => exact .null
  | bool b => exact .bool b
  | number n => exact .number _
  | string s => exact .string s
  | array items =>
    rw [Json.hasShortArrays, Bool.and_eq_true, decide_eq_true_eq] at short
    exact .array ((length_ofItems items).trans_lt short.1) (isData_ofItems items short.2)
  | object entries => exact .object (isData_ofEntries [] entries (by simp) short)

theorem isData_ofItems (items : List Json) (short : Json.itemsHaveShortArrays items = true) :
    ∀ item ∈ ofItems items, item.IsData := by
  cases items with
  | nil => simp [ofItems]
  | cons item rest =>
    rw [Json.itemsHaveShortArrays, Bool.and_eq_true] at short
    rw [ofItems, List.forall_mem_cons]
    exact ⟨isData_ofJson item short.1, isData_ofItems rest short.2⟩

theorem isData_ofEntries (known : List (String × Value)) (entries : List (String × Json))
    (before : ∀ entry ∈ known, entry.2.IsData)
    (short : Json.entriesHaveShortArrays entries = true) :
    ∀ entry ∈ ofEntries known entries, entry.2.IsData := by
  cases entries with
  | nil => exact before
  | cons entry rest =>
    obtain ⟨key, value⟩ := entry
    rw [Json.entriesHaveShortArrays, Bool.and_eq_true] at short
    refine isData_ofEntries _ rest (fun other inside => ?_) short.2
    obtain there | rfl := Json.mem_setEntry inside
    · exact before other there
    · exact isData_ofJson value short.1

end

/-- Data that is an object and not an array has entries. -/
theorem IsData.exists_entries {v : Value} (data : v.IsData) (isObject : v.IsObject)
    (notArray : v.isArray = false) : ∃ entries, v = .object entries := by
  obtain ⟨tag, some⟩ := isObject
  cases data with
  | null => exact absurd rfl some
  | array => cases notArray
  | object => exact ⟨_, rfl⟩
  | _ => simp [typeOf] at tag

end Value

/-! ## Parts of data -/

namespace Located

variable {x part : Located}

theorem isData_of_step? {segment : Segment} (data : x.value.IsData)
    (h : x.step? segment = some part) : part.value.IsData := by
  unfold step? at h
  split at h
  · rename_i entries name same
    rw [same] at data
    obtain ⟨⟨i, member⟩, found, rfl⟩ := Option.map_eq_some_iff.1 h
    rw [same, Value.part?] at found
    split at found
    · obtain ⟨entry, listed, here⟩ := Option.map_eq_some_iff.1 found
      obtain ⟨-, rfl⟩ := Prod.mk.inj here
      cases data with
      | object below => exact below entry (List.mem_of_getElem? listed)
    · cases found
  · rename_i items position same
    rw [same] at data
    obtain ⟨item, listed, rfl⟩ := Option.map_eq_some_iff.1 h
    cases data with
    | array _ below => exact below item (List.mem_of_getElem? listed)
  · cases h

theorem isData_of_follow? {path : Path} (data : x.value.IsData) (h : x.follow? path = some part) :
    part.value.IsData := by
  induction path generalizing x with
  | nil =>
    obtain rfl := Option.some.inj h
    exact data
  | cons segment rest ih =>
    obtain ⟨next, here, below⟩ := Option.bind_eq_some_iff.1 h
    exact ih (isData_of_step? data here) below

/-! ## Keys -/

section
variable {entries : List (String × Value)} {key : String}

/-- What an access finds under a key of an object is a part of it. -/
theorem step?_key (object : x.value = .object entries) (present : x.value.hasKey key = true) :
    x.step? (.key key) = some (x.get key) := by
  have found : x.step? (.key key) =
      (x.value.part? key).map fun part => ⟨part.2, part.1 :: x.place⟩ := by
    simp only [step?, object]
  rw [found, get]
  cases there : x.value.part? key with
  | some part => rfl
  | none =>
    rw [object, Value.hasKey, List.any_eq_true] at present
    rw [object, Value.part?] at there
    obtain ⟨entry, listed, same⟩ := present
    have some : (entries.findIdx? (·.1 == key)).isSome = true := by
      rw [List.findIdx?_isSome, List.any_eq_true]
      exact ⟨entry, listed, same⟩
    obtain ⟨i, position⟩ := Option.isSome_iff_exists.1 some
    obtain ⟨inside, -⟩ := List.findIdx?_eq_some_iff_getElem.1 position
    rw [position] at there
    simp [inside] at there

theorem hasKey_of_get_ne_undefined (object : x.value = .object entries)
    (some : (x.get key).value ≠ .undefined) : x.value.hasKey key = true := by
  by_contra missing
  rw [object, Value.hasKey, List.any_eq_true] at missing
  refine some ?_
  have nothing : entries.findIdx? (·.1 == key) = none := by
    rw [List.findIdx?_eq_none_iff]
    exact fun entry listed => Bool.eq_false_iff.2 fun same => missing ⟨entry, listed, same⟩
  rw [get_value, object, Value.get, Value.part?, nothing]
  rfl

end

/-! ## Positions -/

section
variable {items : List Value} {i : Nat}

theorem getKeyOf_position (array : x.value = .array items) (small : i < 2 ^ 53) :
    x.getKeyOf (.number (Double.ofNat i)) =
      match items[i]? with
      | some item => ⟨item, i :: x.place⟩
      | none => .computed .undefined := by
  obtain ⟨isPosition, position⟩ := Double.toPosition_ofNat small
  cases found : items[i]? <;> simp [getKeyOf, getIndex, array, isPosition, position, found]

/-- What an access finds at a position of an array is a part of it. -/
theorem step?_index (array : x.value = .array items) (inside : i < items.length)
    (small : i < 2 ^ 53) :
    x.step? (.index i) = some (x.getKeyOf (.number (Double.ofNat i))) := by
  rw [getKeyOf_position array small]
  simp only [step?, array, List.getElem?_eq_getElem inside, Option.map_some]

/-- Behind the last position of an array there is nothing. -/
theorem getKeyOf_of_length_le (array : x.value = .array items) (short : items.length < 2 ^ 53)
    (outside : items.length ≤ i) :
    x.getKeyOf (.number (Double.ofNat i)) = .computed .undefined := by
  obtain small | large := Nat.lt_or_ge i (2 ^ 53)
  · rw [getKeyOf_position array small, List.getElem?_eq_none outside]
  rw [getKeyOf, getIndex, array]
  obtain isPosition | infinite := Double.isPosition_ofNat_or i
  · have far := Double.le_toPosition_ofNat large isPosition
    simp only [isPosition, if_true, List.getElem?_eq_none (short.le.trans far)]
  · dsimp only
    split
    · rename_i isPosition
      have far := Double.le_toPosition_ofNat large isPosition
      rw [List.getElem?_eq_none (short.le.trans far)]
    · have nothing : Value.position? "Infinity" = none := by decide
      rw [infinite, get, array, Value.part?, nothing]
      rfl

theorem segment_position (small : i < 2 ^ 53) :
    Segment.ofNumber (Double.ofNat i) = .index i := by
  obtain ⟨isPosition, position⟩ := Double.toPosition_ofNat small
  rw [Segment.ofNumber, isPosition, if_pos rfl, position]

end

end Located

end ShapeCheck
