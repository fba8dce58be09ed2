-- SUMMARY: Runs of a step relation over a list of labels, with their induction rules.
import Mathlib.Algebra.BigOperators.Group.List.Basic

/-!
# Runs of a step relation

`Steps step s as s'` says that the labels `as` lead from `s` to `s'`, one step
each. What a step adds or requires carries over to runs.
-/

variable {σ α : Type}

/-- The labels lead from the first state to the last. -/
inductive Steps (step : σ → α → σ → Prop) : σ → List α → σ → Prop
  | nil (s : σ) : Steps step s [] s
  | cons {s s' s'' : σ} {a : α} {as : List α} (head : step s a s') (tail : Steps step s' as s'') :
    Steps step s (a :: as) s''

namespace Steps

variable {step : σ → α → σ → Prop} {s s' s'' : σ} {a : α} {as bs : List α}

theorem single (h : step s a s') : Steps step s [a] s' :=
  .cons h (.nil s')

theorem of_nil (h : Steps step s [] s') : s' = s := by
  cases h
  rfl

theorem of_single (h : Steps step s [a] s') : step s a s' := by
  cases h with
  | cons head tail =>
    cases tail
    exact head

theorem append (h : Steps step s as s') (h' : Steps step s' bs s'') : Steps step s (as ++ bs) s'' := by
  induction h with
  | nil => exact h'
  | cons head _ ih => exact .cons head (ih h')

/-- What every step requires of its label holds of all labels of a run. -/
theorem forall_mem {p : α → Prop} (hstep : ∀ s a s', step s a s' → p a) (h : Steps step s as s') :
    ∀ a ∈ as, p a := by
  induction h with
  | nil => simp
  | cons head _ ih => exact List.forall_mem_cons.mpr ⟨hstep _ _ _ head, ih⟩

/-- What every step adds by its label, a run adds by the sum over its labels. -/
theorem sum {M : Type} [AddMonoid M] {m : σ → M} {d : α → M}
    (hstep : ∀ s a s', step s a s' → m s' = m s + d a) (h : Steps step s as s') :
    m s' = m s + (as.map d).sum := by
  induction h with
  | nil => simp
  | cons head _ ih => rw [ih, hstep _ _ _ head, List.map_cons, List.sum_cons, add_assoc]

end Steps

/-! ## Traces -/

/-- `p` holds of every step of the trace, which lists each label with the state it leads to. A run of
    `step` is a trace along `step`. -/
def Along (p : σ → α → σ → Prop) : σ → List (α × σ) → Prop
  | _, [] => True
  | s, (a, s') :: trace => p s a s' ∧ Along p s' trace

namespace Along

variable {step p : σ → α → σ → Prop} {good inv : σ → Prop} {s : σ} {trace : List (α × σ)}

variable (good) in
/-- If, from states with the invariant, the steps with `p` are those that lead to a good state, and
    good states keep the invariant, then all states of a run are good exactly if `p` holds along it. -/
theorem forall_good_iff
    (hstep : ∀ s a s', inv s → step s a s' → (good s' ↔ p s a s') ∧ (good s' → inv s'))
    (hinv : inv s) (hrun : Along step s trace) :
    (∀ state ∈ trace.map Prod.snd, good state) ↔ Along p s trace := by
  induction trace generalizing s with
  | nil => simp [Along]
  | cons head trace ih =>
    obtain ⟨a, s'⟩ := head
    obtain ⟨hhead, htail⟩ := hrun
    obtain ⟨hiff, hkeep⟩ := hstep s a s' hinv hhead
    rw [List.map_cons, List.forall_mem_cons]
    constructor
    · rintro ⟨hgood, hrest⟩
      exact ⟨hiff.mp hgood, (ih (hkeep hgood) htail).mp hrest⟩
    · rintro ⟨hp, hrest⟩
      have hgood := hiff.mpr hp
      exact ⟨hgood, (ih (hkeep hgood) htail).mpr hrest⟩

end Along
