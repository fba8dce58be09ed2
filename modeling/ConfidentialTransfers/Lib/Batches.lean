-- SUMMARY: Cutting a list into consecutive pieces of a given size.
import Mathlib.Data.List.Nodup
import Mathlib.Data.List.Pairwise

/-!
# Batches

The loop `for (i = 0; i < xs.length; i += n) … xs.slice(i, i + n)` of the source
as a list of slices.
-/

namespace List

variable {α : Type}

/-- The slices of `xs` of length `n`, taken at most `fuel` times. -/
def batchesFrom (n : Nat) : (fuel : Nat) → List α → List (List α)
  | 0, _ => []
  | _ + 1, [] => []
  | fuel + 1, x :: xs => (x :: xs).take n :: batchesFrom n fuel ((x :: xs).drop n)

/-- `xs` in consecutive pieces of `n` elements, the last one possibly shorter. -/
def batches (n : Nat) (xs : List α) : List (List α) := xs.batchesFrom n xs.length

@[simp] theorem batches_nil (n : Nat) : batches n ([] : List α) = [] := rfl

/-- Enough fuel cuts up the whole list. -/
theorem flatten_batchesFrom {n : Nat} (hn : 0 < n) (fuel : Nat) (xs : List α)
    (hfuel : xs.length ≤ fuel) : (xs.batchesFrom n fuel).flatten = xs := by
  induction fuel generalizing xs with
  | zero =>
    have hxs : xs = [] := List.length_eq_zero_iff.mp (by omega)
    simp [hxs, batchesFrom]
  | succ fuel ih =>
    cases xs with
    | nil => rfl
    | cons x xs =>
      have hdrop : ((x :: xs).drop n).length ≤ fuel := by
        simp only [length_drop, length_cons] at hfuel ⊢
        omega
      simp only [batchesFrom, flatten_cons]
      rw [ih _ hdrop, take_append_drop]

/-- Every element is in exactly one batch, in order. -/
@[simp] theorem flatten_batches {n : Nat} (hn : 0 < n) (xs : List α) : (xs.batches n).flatten = xs :=
  flatten_batchesFrom hn _ xs (Nat.le_refl _)

/-- Filtering a list by values listed next to its elements. -/
theorem map_fst_filter_zip_map {β : Type} (xs : List α) (f : α → β) (p : β → Bool) :
    ((xs.zip (xs.map f)).filter fun x => p x.2).map Prod.fst = xs.filter fun a => p (f a) := by
  induction xs with
  | nil => rfl
  | cons x xs ih =>
    rw [map_cons, zip_cons_cons, filter_cons, filter_cons]
    by_cases h : p (f x) = true
    · simpa [h] using ih
    · simpa [h] using ih

/-- Keeping the batches whose elements all satisfy `p` keeps the elements that satisfy `p` exactly if
    no batch is mixed. -/
theorem mem_flatten_filter_all_iff (p : α → Bool) (bss : List (List α)) (h : bss.flatten.Nodup) :
    (∀ a, a ∈ (bss.filter fun b => b.all p).flatten ↔ a ∈ bss.flatten ∧ p a = true) ↔
      ∀ b ∈ bss, (∀ a ∈ b, p a = true) ∨ (∀ a ∈ b, p a = false) := by
  constructor
  · intro hiff b hb
    by_cases hall : b.all p = true
    · exact .inl (all_eq_true.mp hall)
    · refine .inr fun a ha => ?_
      by_contra hp
      rw [Bool.not_eq_false] at hp
      have hmem := (hiff a).mpr ⟨mem_flatten.mpr ⟨b, hb, ha⟩, hp⟩
      obtain ⟨b', hb', ha'⟩ := mem_flatten.mp hmem
      obtain ⟨hb', hall'⟩ := mem_filter.mp hb'
      have hne : b ≠ b' := by
        rintro rfl
        exact hall hall'
      have hsymm : Std.Symm (Disjoint : List α → List α → Prop) := ⟨fun _ _ hd _ ha hb => hd hb ha⟩
      exact (nodup_flatten.mp h).2.forall hb hb' hne ha ha'
  · intro hpure a
    constructor
    · intro ha
      obtain ⟨b, hb, hab⟩ := mem_flatten.mp ha
      obtain ⟨hb, hall⟩ := mem_filter.mp hb
      exact ⟨mem_flatten.mpr ⟨b, hb, hab⟩, all_eq_true.mp hall a hab⟩
    · rintro ⟨ha, hp⟩
      obtain ⟨b, hb, hab⟩ := mem_flatten.mp ha
      rcases hpure b hb with hall | hnone
      · exact mem_flatten.mpr ⟨b, mem_filter.mpr ⟨hb, all_eq_true.mpr hall⟩, hab⟩
      · simp [hnone a hab] at hp

end List
