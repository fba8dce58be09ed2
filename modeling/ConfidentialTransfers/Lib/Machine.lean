-- SUMMARY: Machines that take one input after another, and what holds of all their runs.
import Mathlib.Order.Defs.Unbundled

/-!
# Machines

A machine is a function from states and inputs to states. What one input keeps,
any run keeps.
-/

namespace Machine

variable {σ α β : Type} {next : σ → α → σ} {s : σ}

/-- The state after the inputs, taken one after another. -/
def run (next : σ → α → σ) (s : σ) (inputs : List α) : σ := inputs.foldl next s

@[simp] theorem run_nil : run next s [] = s := rfl

@[simp] theorem run_cons (a : α) (as : List α) : run next s (a :: as) = run next (next s a) as := rfl

theorem run_append (as bs : List α) : run next s (as ++ bs) = run next (run next s as) bs := by
  unfold run
  exact List.foldl_append

/-- An invariant that every input keeps holds after every run. -/
theorem run_invariant {inv : σ → Prop} (hnext : ∀ s a, inv s → inv (next s a)) (h : inv s)
    (inputs : List α) : inv (run next s inputs) := by
  induction inputs generalizing s with
  | nil => exact h
  | cons a as ih => exact ih (hnext s a h)

/-- A preorder that every input respects, in states that meet an invariant, relates the ends of every
    run. -/
theorem run_within {R : σ → σ → Prop} [IsPreorder σ R] {inv : σ → Prop}
    (hinv : ∀ s a, inv s → inv (next s a)) (hnext : ∀ s a, inv s → R s (next s a)) (h : inv s)
    (inputs : List α) : R s (run next s inputs) := by
  induction inputs generalizing s with
  | nil => exact refl s
  | cons a as ih => exact trans_of R (hnext s a h) (ih (hinv s a h))

/-- What holds after a run and not before it began to hold with one of its inputs. -/
theorem exists_first {p : σ → Prop} {inputs : List α} (hs : ¬ p s) (h : p (run next s inputs)) :
    ∃ before a after, inputs = before ++ a :: after ∧ ¬ p (run next s before) ∧
      p (next (run next s before) a) := by
  induction inputs generalizing s with
  | nil => exact absurd h hs
  | cons a as ih =>
    by_cases ha : p (next s a)
    · exact ⟨[], a, as, rfl, hs, ha⟩
    · obtain ⟨before, b, after, rfl, hbefore, hb⟩ := ih ha h
      exact ⟨a :: before, b, after, rfl, hbefore, hb⟩

end Machine
