-- SUMMARY: Running an effect again and again while its failures may be retried.
import ConfidentialTransfers.Lib.Effect

/-!
# Retry loops

`Retry.run` makes attempt after attempt until one returns or fails with an error
that is not to be retried. A policy may retry for ever, so the loop carries fuel
and a run that has used it up has no outcome yet. The run keeps the failures that
were retried, with the states they left.
-/

namespace Retry

variable {σ ε α : Type}

/-- What a retry loop has done so far. -/
structure Run (σ ε α : Type) where
  /-- The failures that were retried, in order, each with the state it left. -/
  retried : List (ε × σ)
  /-- How the last attempt ended; `none` while the loop still runs. -/
  outcome : Option (Except ε α)
  state : σ

/-- The number of attempts made. -/
def Run.attempts (r : Run σ ε α) : Nat := r.retried.length + r.outcome.toList.length

/-- The same run with another result. -/
def Run.map {β : Type} (f : α → β) (r : Run σ ε α) : Run σ ε β where
  retried := r.retried
  outcome := r.outcome.map (·.map f)
  state := r.state

@[simp] theorem Run.map_attempts {β : Type} (f : α → β) (r : Run σ ε α) :
    (r.map f).attempts = r.attempts := by
  cases h : r.outcome <;> simp [attempts, Run.map, h]

/-- The loop has ended in `Q`, or still runs and is between two attempts. -/
def Run.Satisfies (Between : σ → Prop) (Q : Except ε α → σ → Prop) (r : Run σ ε α) : Prop :=
  match r.outcome with
  | some outcome => Q outcome r.state
  | none => Between r.state

/-- Attempt number `n` and those after it, at most `fuel` of them. `again n e` says whether the
    failure `e` of attempt `n` is retried. -/
def run (again : Nat → ε → Bool) (attempt : Effect σ ε α) : (fuel n : Nat) → σ → Run σ ε α
  | 0, _, s => { retried := [], outcome := none, state := s }
  | fuel + 1, n, s =>
    match attempt s with
    | (.ok a, s') => { retried := [], outcome := some (.ok a), state := s' }
    | (.error e, s') =>
      if again n e then
        let rest := run again attempt fuel (n + 1) s'
        { rest with retried := (e, s') :: rest.retried }
      else
        { retried := [], outcome := some (.error e), state := s' }

variable {again : Nat → ε → Bool} {attempt : Effect σ ε α}

/-- What a loop does from one attempt on: it returns, stops at a failure, or goes on. -/
theorem run_succ_cases (again : Nat → ε → Bool) (attempt : Effect σ ε α) (fuel n : Nat) (s : σ) :
    (∃ a s', attempt s = (.ok a, s') ∧
      run again attempt (fuel + 1) n s = ⟨[], some (.ok a), s'⟩) ∨
    (∃ e s', attempt s = (.error e, s') ∧ again n e = false ∧
      run again attempt (fuel + 1) n s = ⟨[], some (.error e), s'⟩) ∨
    (∃ e s', attempt s = (.error e, s') ∧ again n e = true ∧
      run again attempt (fuel + 1) n s =
        { run again attempt fuel (n + 1) s' with
          retried := (e, s') :: (run again attempt fuel (n + 1) s').retried }) := by
  rcases h : attempt s with ⟨r, s'⟩
  cases r with
  | ok a => exact .inl ⟨a, s', rfl, by simp [run, h]⟩
  | error e =>
    cases hagain : again n e with
    | false => exact .inr (.inl ⟨e, s', rfl, hagain, by simp [run, h, hagain]⟩)
    | true => exact .inr (.inr ⟨e, s', rfl, hagain, by simp [run, h, hagain]⟩)

/-- The rule for retry loops. `Between` holds before every attempt; a failure that is retried
    restores it, and the attempt that ends the loop gives `Q`. -/
theorem run_induction (Between : σ → Prop) (Q : Except ε α → σ → Prop)
    (step : ∀ n s, Between s → Effect.wp attempt (fun r s' =>
      match r with
      | .ok a => Q (.ok a) s'
      | .error e => if again n e then Between s' else Q (.error e) s') s) :
    ∀ fuel n s, Between s → (run again attempt fuel n s).Satisfies Between Q := by
  intro fuel
  induction fuel with
  | zero => intro n s hs; exact hs
  | succ fuel ih =>
    intro n s hs
    have h := step n s hs
    rcases run_succ_cases again attempt fuel n s with
      ⟨a, s', ha, hr⟩ | ⟨e, s', ha, hag, hr⟩ | ⟨e, s', ha, hag, hr⟩
    · rw [hr]
      exact h.run ha
    · rw [hr]
      have h' := h.run ha
      simpa [hag, Run.Satisfies] using h'
    · rw [hr]
      have h' := h.run ha
      simp only [hag, if_true] at h'
      exact ih (n + 1) s' h'

/-- What every attempt does to the state, the loop does. -/
theorem run_within {R : σ → σ → Prop} [IsPreorder σ R] (h : attempt.Within R) (fuel n : Nat) (s : σ) :
    R s (run again attempt fuel n s).state := by
  induction fuel generalizing n s with
  | zero => exact refl s
  | succ fuel ih =>
    rcases run_succ_cases again attempt fuel n s with
      ⟨a, s', ha, hr⟩ | ⟨e, s', ha, hag, hr⟩ | ⟨e, s', ha, hag, hr⟩
    · rw [hr]
      exact (h s).run ha
    · rw [hr]
      exact (h s).run ha
    · rw [hr]
      exact IsTrans.trans _ _ _ ((h s).run ha) (ih (n + 1) s')

/-- Only failures the policy retries are followed by another attempt. -/
theorem run_retried (fuel n : Nat) (s : σ) :
    ∀ failure ∈ (run again attempt fuel n s).retried, ∃ k, again k failure.1 = true := by
  induction fuel generalizing n s with
  | zero => simp [run]
  | succ fuel ih =>
    rcases run_succ_cases again attempt fuel n s with
      ⟨a, s', ha, hr⟩ | ⟨e, s', ha, hag, hr⟩ | ⟨e, s', ha, hag, hr⟩
    · simp [hr]
    · simp [hr]
    · rw [hr]
      intro failure hmem
      rcases List.mem_cons.mp hmem with rfl | hmem
      · exact ⟨n, hag⟩
      · exact ih (n + 1) s' failure hmem

/-- A loop that has not ended has used its fuel on retries. -/
theorem run_running (fuel n : Nat) (s : σ) :
    (run again attempt fuel n s).outcome = none →
      (run again attempt fuel n s).retried.length = fuel := by
  induction fuel generalizing n s with
  | zero => intro _; rfl
  | succ fuel ih =>
    rcases run_succ_cases again attempt fuel n s with
      ⟨a, s', ha, hr⟩ | ⟨e, s', ha, hag, hr⟩ | ⟨e, s', ha, hag, hr⟩
    · rw [hr]; intro h; simp at h
    · rw [hr]; intro h; simp at h
    · rw [hr]
      intro h
      simpa using ih (n + 1) s' h

/-- Where every failure is retried the loop does not end: it makes as many attempts as it has fuel. -/
theorem run_endless (h : ∀ s, ∃ e s', attempt s = (.error e, s') ∧ ∀ n, again n e = true)
    (fuel n : Nat) (s : σ) :
    (run again attempt fuel n s).outcome = none ∧ (run again attempt fuel n s).attempts = fuel := by
  have hnone : (run again attempt fuel n s).outcome = none := by
    induction fuel generalizing n s with
    | zero => rfl
    | succ fuel ih =>
      obtain ⟨e, s', hs, hagain⟩ := h s
      simp only [run, hs, hagain n, if_true]
      exact ih (n + 1) s'
  refine ⟨hnone, ?_⟩
  rw [Run.attempts, run_running fuel n s hnone, hnone]
  rfl

variable (attempt) in
/-- If no attempt from number `limit` on is retried, at most `limit` failures are. -/
theorem run_retried_le {limit : Nat} (hlimit : ∀ n e, again n e = true → n < limit)
    (fuel n : Nat) (s : σ) : (run again attempt fuel n s).retried.length ≤ limit - n := by
  induction fuel generalizing n s with
  | zero => simp [run]
  | succ fuel ih =>
    rcases run_succ_cases again attempt fuel n s with
      ⟨a, s', ha, hr⟩ | ⟨e, s', ha, hag, hr⟩ | ⟨e, s', ha, hag, hr⟩
    · simp [hr]
    · simp [hr]
    · have hn := hlimit n e hag
      have hrest := ih (n + 1) s'
      rw [hr]
      simp only [List.length_cons]
      omega

/-- If an attempt ends well exactly when it starts clean, and leaves a clean state only when it starts
    from one, then the loop ends well exactly if it starts clean and every retried failure leaves a
    clean state. -/
theorem run_good_iff {inv clean : σ → Prop} {good : Except ε α → σ → Prop}
    (hstep : ∀ s, inv s →
      attempt.wp (fun r s' => inv s' ∧ (clean s' → clean s) ∧ (good r s' ↔ clean s)) s)
    (fuel n : Nat) {s : σ} (hs : inv s) {outcome : Except ε α}
    (h : (run again attempt fuel n s).outcome = some outcome) :
    good outcome (run again attempt fuel n s).state ↔
      clean s ∧ ∀ failure ∈ (run again attempt fuel n s).retried, clean failure.2 := by
  induction fuel generalizing n s with
  | zero => simp [run] at h
  | succ fuel ih =>
    have hattempt := hstep s hs
    rcases run_succ_cases again attempt fuel n s with
      ⟨a, s', ha, hr⟩ | ⟨e, s', ha, hag, hr⟩ | ⟨e, s', ha, hag, hr⟩
    · rw [hr] at h ⊢
      obtain rfl := Option.some.inj h
      obtain ⟨-, -, hgood⟩ := hattempt.run ha
      simpa using hgood
    · rw [hr] at h ⊢
      obtain rfl := Option.some.inj h
      obtain ⟨-, -, hgood⟩ := hattempt.run ha
      simpa using hgood
    · rw [hr] at h ⊢
      obtain ⟨hinv, hclean, -⟩ := hattempt.run ha
      have hrest := ih (n + 1) hinv h
      simp only [List.forall_mem_cons]
      rw [hrest]
      constructor
      · rintro ⟨hs', hretried⟩
        exact ⟨hclean hs', hs', hretried⟩
      · rintro ⟨-, hs', hretried⟩
        exact ⟨hs', hretried⟩

end Retry
