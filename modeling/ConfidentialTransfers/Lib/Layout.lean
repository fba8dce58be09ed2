-- SUMMARY: Lists cut into fields of fixed widths.
import Mathlib.Data.List.Basic

/-!
# Fixed layouts

A record of fixed layout is the concatenation of its fields, each of its own
width. Cutting by the widths gives back the fields, and only what is such a
concatenation can be cut.
-/

namespace Layout

variable {α : Type}

/-- Cut a list into fields of these widths; `none` unless they use it up. -/
def split : List Nat → List α → Option (List (List α))
  | [], [] => some []
  | [], _ :: _ => none
  | w :: ws, xs => if w ≤ xs.length then (split ws (xs.drop w)).map (xs.take w :: ·) else none

theorem split_eq_some_iff {ws : List Nat} {xs : List α} {fields : List (List α)} :
    split ws xs = some fields ↔ fields.map List.length = ws ∧ fields.flatten = xs := by
  induction ws generalizing xs fields with
  | nil =>
    cases xs with
    | nil =>
      simp only [split, Option.some.injEq, List.map_eq_nil_iff]
      constructor
      · rintro rfl
        exact ⟨rfl, rfl⟩
      · exact fun h => h.1.symm
    | cons x xs =>
      simp only [split, List.map_eq_nil_iff, reduceCtorEq, false_iff, not_and]
      rintro rfl
      simp
  | cons w ws ih =>
    constructor
    · intro h
      simp only [split, Option.ite_none_right_eq_some, Option.map_eq_some_iff] at h
      obtain ⟨hw, rest, hrest, rfl⟩ := h
      obtain ⟨hwidths, hflatten⟩ := ih.1 hrest
      constructor
      · simp [hwidths, hw]
      · simp [hflatten]
    · rintro ⟨hwidths, rfl⟩
      cases fields with
      | nil => simp at hwidths
      | cons field fields =>
        obtain ⟨rfl, rfl⟩ := List.cons_eq_cons.1 hwidths
        have hrest : split (fields.map List.length) fields.flatten = some fields := ih.2 ⟨rfl, rfl⟩
        simp [split, hrest]

/-- A concatenation of fields can be cut by their widths. -/
theorem split_flatten (fields : List (List α)) :
    split (fields.map List.length) fields.flatten = some fields :=
  split_eq_some_iff.2 ⟨rfl, rfl⟩

end Layout
