-- SUMMARY: Computations that read and change a state and may throw, with their weakest preconditions.
import Mathlib.Data.List.Forall2
import Mathlib.Order.RelClasses
import Mathlib.Tactic.Common

/-!
# Effects

An `Effect` runs from a state and ends in a state, returning or throwing. What
it did to the state stays done when it throws, so a handler sees the effects of
the body. `Effect.wp` is its weakest precondition; since an effect is
deterministic the rules below are equivalences.
-/

/-- Every error of `r` satisfies `P`. -/
def Except.Raises {ε α : Type} (P : ε → Prop) (r : Except ε α) : Prop := ∀ e, r = .error e → P e

namespace Except.Raises

variable {ε ε' α β : Type} {P : ε → Prop}

theorem ok (a : α) : Except.Raises P (.ok a) := by
  intro e h
  cases h

theorem error {e : ε} (h : P e) : Except.Raises P (.error e : Except ε α) := by
  rintro _ ⟨⟩
  exact h

theorem mapError {f : ε' → ε} (h : ∀ e, P (f e)) (r : Except ε' α) : (r.mapError f).Raises P := by
  cases r with
  | ok a => exact ok a
  | error e => exact error (h e)

theorem bind {r : Except ε β} {f : β → Except ε α} (hr : r.Raises P) (hf : ∀ b, (f b).Raises P) :
    (r >>= f).Raises P := by
  cases r with
  | ok b => exact hf b
  | error e => exact error (hr e rfl)

theorem mono {Q : ε → Prop} {r : Except ε α} (h : r.Raises P) (hPQ : ∀ e, P e → Q e) : r.Raises Q :=
  fun e he => hPQ e (h e he)

end Except.Raises

/-- A sequence returns what its second step returns on what its first step returned. -/
theorem Except.bind_eq_ok_iff {ε α β : Type} {x : Except ε α} {f : α → Except ε β} {b : β} :
    x >>= f = .ok b ↔ ∃ a, x = .ok a ∧ f a = .ok b := by
  cases x with
  | error e => simp [bind, Except.bind]
  | ok a => simp [bind, Except.bind]

/-- Renaming the error does not touch what is returned. -/
theorem Except.mapError_eq_ok_iff {ε ε' α : Type} {f : ε → ε'} {x : Except ε α} {a : α} :
    x.mapError f = .ok a ↔ x = .ok a := by
  cases x with
  | error e => simp [Except.mapError]
  | ok a' => simp [Except.mapError]

theorem Except.ok_bind {ε α β : Type} (a : α) (f : α → Except ε β) : (Except.ok a >>= f) = f a := rfl

/-- A list is read element by element. -/
theorem Except.mapM_eq_ok_iff {ε α β : Type} {f : α → Except ε β} {xs : List α} {ys : List β} :
    xs.mapM f = .ok ys ↔ List.Forall₂ (fun x y => f x = .ok y) xs ys := by
  induction xs generalizing ys with
  | nil => cases ys <;> simp [pure, Except.pure]
  | cons x xs ih =>
    rw [List.mapM_cons]
    simp only [bind_eq_ok_iff, ih, List.forall₂_cons_left_iff]
    constructor
    · rintro ⟨y, hy, rest, hrest, hys⟩
      exact ⟨y, rest, hy, hrest, (Except.ok.inj hys).symm⟩
    · rintro ⟨y, rest, hy, hrest, rfl⟩
      exact ⟨y, hy, rest, hrest, rfl⟩

/-- A list that cannot be read has an element that cannot. -/
theorem Except.exists_error_of_mapM {ε α β : Type} {f : α → Except ε β} {xs : List α} {e : ε}
    (h : xs.mapM f = .error e) : ∃ x ∈ xs, f x = .error e := by
  induction xs with
  | nil => cases h
  | cons x xs ih =>
    rw [List.mapM_cons] at h
    cases hx : f x with
    | error e' =>
      rw [hx] at h
      cases h
      exact ⟨x, List.mem_cons_self, hx⟩
    | ok y =>
      rw [hx] at h
      cases hxs : xs.mapM f with
      | error e' =>
        simp only [hxs, bind, Except.bind, Except.error.injEq] at h
        subst h
        obtain ⟨z, hz, he⟩ := ih hxs
        exact ⟨z, List.mem_cons_of_mem x hz, he⟩
      | ok ys =>
        simp only [hxs, bind, Except.bind, pure, Except.pure] at h
        cases h

/-- A computation over the state `σ` that returns an `α` or throws an `ε`. -/
def Effect (σ ε α : Type) : Type := σ → Except ε α × σ

namespace Effect

variable {σ τ ε ε' α β : Type}

instance : Monad (Effect σ ε) where
  pure a := fun s => (.ok a, s)
  bind m f := fun s =>
    match m s with
    | (.ok a, s') => f a s'
    | (.error e, s') => (.error e, s')

instance : LawfulMonad (Effect σ ε) := by
  refine LawfulMonad.mk' _ (fun m => ?_) (fun a f => rfl) fun m f g => ?_
  · funext s
    change (match m s with
      | (.ok a, s') => (.ok a, s')
      | (.error e, s') => (.error e, s')) = m s
    rcases m s with ⟨r, s'⟩
    cases r <;> rfl
  · funext s
    simp only [bind]
    rcases m s with ⟨r, s'⟩
    cases r <;> rfl

/-- Throw, leaving the state as it is. -/
def throw (e : ε) : Effect σ ε α := fun s => (.error e, s)

/-- Read the state. -/
def get : Effect σ ε σ := fun s => (.ok s, s)

/-- Change the state. -/
def modify (f : σ → σ) : Effect σ ε Unit := fun s => (.ok (), f s)

/-- Run `m` and hand its outcome over as a value: the `try` of `try … catch`. -/
def attempt (m : Effect σ ε α) : Effect σ ε' (Except ε α) := fun s => (.ok (m s).1, (m s).2)

/-- A computation that touches no state. -/
def ofExcept (r : Except ε α) : Effect σ ε α := fun s => (r, s)

/-- The same computation throwing another type of error. -/
def mapError (f : ε → ε') (m : Effect σ ε α) : Effect σ ε' α := fun s => ((m s).1.mapError f, (m s).2)

/-- Run `m` on the first component of a larger state. -/
def onFst (m : Effect σ ε α) : Effect (σ × τ) ε α := fun s => ((m s.1).1, ((m s.1).2, s.2))

/-- Run `m` with a state of its own that starts as `t`; its outcome and that state are handed over. -/
def withState (t : τ) (m : Effect (σ × τ) ε α) : Effect σ ε' (Except ε α × τ) := fun s =>
  (.ok ((m (s, t)).1, (m (s, t)).2.2), (m (s, t)).2.1)

theorem onFst_bind (m : Effect σ ε β) (f : β → Effect σ ε α) :
    (onFst (m >>= f) : Effect (σ × τ) ε α) = onFst m >>= fun b => onFst (f b) := by
  funext s
  rcases h : m s.1 with ⟨r, s'⟩
  cases r with
  | ok b => simp [onFst, bind, h]
  | error e => simp [onFst, bind, h]

/-- A sequence that returns ran both of its parts. -/
theorem run_bind_ok_iff {m : Effect σ ε β} {f : β → Effect σ ε α} {s s' : σ} {a : α} :
    (m >>= f) s = (.ok a, s') ↔ ∃ b s₁, m s = (.ok b, s₁) ∧ f b s₁ = (.ok a, s') := by
  rcases h : m s with ⟨r, s₁⟩
  cases r with
  | ok b => simp [bind, h]
  | error e => simp [bind, h]

theorem run_ofExcept_ok_iff {r : Except ε α} {s s' : σ} {a : α} :
    ofExcept r s = (.ok a, s') ↔ r = .ok a ∧ s = s' := by
  unfold ofExcept
  exact Prod.mk.injEq _ _ _ _ ▸ Iff.rfl

theorem run_pure_ok_iff {a b : α} {s s' : σ} :
    (pure a : Effect σ ε α) s = (.ok b, s') ↔ a = b ∧ s = s' := by
  have hrun : (pure a : Effect σ ε α) s = (.ok a, s) := rfl
  rw [hrun, Prod.mk.injEq, Except.ok.injEq]

/-- Steps that touch no state, in sequence, touch no state. -/
theorem ofExcept_bind (r : Except ε β) (f : β → Except ε α) :
    (ofExcept r >>= fun b => ofExcept (f b) : Effect σ ε α) = ofExcept (r >>= f) := by
  cases r <;> rfl

/-- After a first part that returned, the second one runs. -/
theorem run_bind_of_ok {m : Effect σ ε β} {f : β → Effect σ ε α} {s s' : σ} {b : β} (h : m s = (.ok b, s')) :
    (m >>= f) s = f b s' := by
  simp only [bind, h]

/-- After a first part that threw, nothing runs. -/
theorem run_bind_of_error {m : Effect σ ε β} {f : β → Effect σ ε α} {s s' : σ} {e : ε}
    (h : m s = (.error e, s')) : (m >>= f) s = (.error e, s') := by
  simp only [bind, h]

/-! ## Weakest preconditions -/

/-- `m` run from `s` ends in an outcome and a state that satisfy `Q`. -/
def wp (m : Effect σ ε α) (Q : Except ε α → σ → Prop) (s : σ) : Prop := Q (m s).1 (m s).2

variable {Q : Except ε α → σ → Prop} {s : σ}

theorem wp_iff_run {m : Effect σ ε α} {r : Except ε α} {s' : σ} (h : m s = (r, s')) :
    wp m Q s ↔ Q r s' := by
  simp [wp, h]

/-- The same rule, given how the run ends. -/
theorem wp_of_run {m : Effect σ ε α} (r : Except ε α) (s' : σ) (h : m s = (r, s')) (hQ : Q r s') :
    wp m Q s :=
  (wp_iff_run h).mpr hQ

@[simp] theorem wp_pure {a : α} : wp (pure a : Effect σ ε α) Q s ↔ Q (.ok a) s := Iff.rfl

@[simp] theorem wp_throw {e : ε} : wp (throw e : Effect σ ε α) Q s ↔ Q (.error e) s := Iff.rfl

@[simp] theorem wp_get {Q : Except ε σ → σ → Prop} :
    wp (get : Effect σ ε σ) Q s ↔ Q (.ok s) s := Iff.rfl

@[simp] theorem wp_modify {f : σ → σ} {Q : Except ε Unit → σ → Prop} :
    wp (modify f : Effect σ ε Unit) Q s ↔ Q (.ok ()) (f s) := Iff.rfl

@[simp] theorem wp_ofExcept {r : Except ε α} : wp (ofExcept r : Effect σ ε α) Q s ↔ Q r s := Iff.rfl

@[simp] theorem wp_attempt {m : Effect σ ε α} {Q : Except ε' (Except ε α) → σ → Prop} :
    wp (attempt m : Effect σ ε' (Except ε α)) Q s ↔ wp m (fun r s' => Q (.ok r) s') s := Iff.rfl

@[simp] theorem wp_mapError {f : ε → ε'} {m : Effect σ ε α} {Q : Except ε' α → σ → Prop} :
    wp (mapError f m) Q s ↔ wp m (fun r s' => Q (r.mapError f) s') s := Iff.rfl

@[simp] theorem wp_onFst {m : Effect σ ε α} {Q : Except ε α → σ × τ → Prop} {s : σ × τ} :
    wp (onFst m : Effect (σ × τ) ε α) Q s ↔ wp m (fun r s' => Q r (s', s.2)) s.1 := Iff.rfl

@[simp] theorem wp_withState {t : τ} {m : Effect (σ × τ) ε α}
    {Q : Except ε' (Except ε α × τ) → σ → Prop} :
    wp (withState t m : Effect σ ε' (Except ε α × τ)) Q s ↔
      wp m (fun r s' => Q (.ok (r, s'.2)) s'.1) (s, t) := Iff.rfl

/-- Sequencing: the continuation runs where the first part returned. -/
theorem wp_bind {m : Effect σ ε β} {f : β → Effect σ ε α} :
    wp (m >>= f) Q s ↔
      wp m (fun r s' => match r with
        | .ok b => wp (f b) Q s'
        | .error e => Q (.error e) s') s := by
  unfold wp
  rcases h : m s with ⟨r, s'⟩
  cases r with
  | ok b => simp [bind, h]
  | error e => simp [bind, h]

theorem wp.mono {m : Effect σ ε α} {P Q : Except ε α → σ → Prop} (h : wp m P s)
    (hPQ : ∀ r s', P r s' → Q r s') : wp m Q s :=
  hPQ _ _ h

theorem wp.and {m : Effect σ ε α} {P : Except ε α → σ → Prop} (h : wp m P s) (h' : wp m Q s) :
    wp m (fun r s' => P r s' ∧ Q r s') s :=
  ⟨h, h'⟩

/-- A rule for `m >>= f` from a rule for `m`. -/
theorem wp.bind {m : Effect σ ε β} {f : β → Effect σ ε α} {P : Except ε β → σ → Prop}
    (h : wp m P s) (hok : ∀ b s', P (.ok b) s' → wp (f b) Q s')
    (herr : ∀ e s', P (.error e) s' → Q (.error e) s') : wp (m >>= f) Q s := by
  rw [wp_bind]
  refine h.mono fun r s' hr => ?_
  cases r with
  | ok b => exact hok b s' hr
  | error e => exact herr e s' hr

/-- A loop over a list. `I` holds of the elements done, the accumulator and the state. -/
theorem wp.foldlM {f : β → α → Effect σ ε β} {I : List α → β → σ → Prop} {all : List α}
    (hstep : ∀ done a rest b s, all = done ++ a :: rest → I done b s →
      wp (f b a) (fun r s' => ∃ b', r = .ok b' ∧ I (done ++ [a]) b' s') s)
    {done rest : List α} (hall : all = done ++ rest) {b : β} {s : σ} (h : I done b s) :
    wp (rest.foldlM f b) (fun r s' => ∃ b', r = .ok b' ∧ I all b' s') s := by
  induction rest generalizing done b s with
  | nil =>
    rw [List.append_nil] at hall
    exact ⟨b, rfl, hall ▸ h⟩
  | cons a rest ih =>
    rw [List.foldlM_cons]
    refine wp.bind (hstep done a rest b s hall h) (fun b' s' h' => ?_) fun e s' h' => ?_
    · obtain ⟨b'', hb, hI⟩ := h'
      obtain rfl := Except.ok.inj hb
      exact ih (by rw [hall, List.append_assoc, List.singleton_append]) hI
    · obtain ⟨b'', hb, -⟩ := h'
      cases hb

/-- What holds of every run holds of this one. -/
theorem wp.run {m : Effect σ ε α} {r : Except ε α} {s' : σ} (h : wp m Q s) (hrun : m s = (r, s')) :
    Q r s' :=
  (wp_iff_run hrun).1 h

/-! ## Relations between the states before and after -/

/-- However `m` runs, it ends in a state that `R` relates to the one it started from. -/
def Within (R : σ → σ → Prop) (m : Effect σ ε α) : Prop := ∀ s, m.wp (fun _ s' => R s s') s

section Within

variable {R : σ → σ → Prop}

theorem Within.pure [Std.Refl R] (a : α) : Within R (pure a : Effect σ ε α) := fun s => refl s

theorem Within.throw [Std.Refl R] (e : ε) : Within R (throw e : Effect σ ε α) := fun s => refl s

theorem Within.ofExcept [Std.Refl R] (r : Except ε α) : Within R (ofExcept r) := fun s => refl s

theorem Within.get [Std.Refl R] : Within R (get : Effect σ ε σ) := fun s => refl s

theorem Within.mapError {m : Effect σ ε α} (h : Within R m) (f : ε → ε') : Within R (mapError f m) := h

theorem Within.attempt {m : Effect σ ε α} (h : Within R m) :
    Within R (attempt m : Effect σ ε' (Except ε α)) := h

theorem Within.bind [IsTrans σ R] {m : Effect σ ε β} {f : β → Effect σ ε α} (hm : Within R m)
    (hf : ∀ b, Within R (f b)) : Within R (m >>= f) := by
  intro s
  refine wp.bind (hm s) (fun b s₁ h₁ => ?_) (fun _ _ h => h)
  exact (hf b s₁).mono fun _ s' h₂ => IsTrans.trans s s₁ s' h₁ h₂

theorem Within.foldlM [IsPreorder σ R] {f : β → α → Effect σ ε β} (hf : ∀ b a, Within R (f b a)) (xs : List α)
    (b : β) : Within R (xs.foldlM f b) := by
  induction xs generalizing b with
  | nil => exact .pure b
  | cons a xs ih =>
    rw [List.foldlM_cons]
    exact .bind (hf b a) ih

theorem Within.onFst {m : Effect σ ε α} (h : Within R m) :
    Within (Order.Preimage Prod.fst R) (onFst m : Effect (σ × τ) ε α) :=
  fun s => h s.1

theorem Within.mono {S : σ → σ → Prop} {m : Effect σ ε α} (h : Within R m)
    (hRS : ∀ s s', R s s' → S s s') : Within S m :=
  fun s => hRS s _ (h s)

end Within

/-! ## Errors -/

/-- Every error `m` may throw satisfies `P`. -/
def Raises (P : ε → Prop) (m : Effect σ ε α) : Prop := ∀ s, m.wp (fun r _ => r.Raises P) s

section Raises

variable {P : ε → Prop}

theorem Raises.pure (a : α) : Raises P (pure a : Effect σ ε α) := fun _ => .ok a

theorem Raises.throw {e : ε} (h : P e) : Raises P (throw e : Effect σ ε α) := fun _ => .error h

theorem Raises.ofExcept {r : Except ε α} (h : r.Raises P) : Raises P (ofExcept r : Effect σ ε α) :=
  fun _ => h

theorem Raises.get : Raises P (get : Effect σ ε σ) := fun s => .ok s

theorem Raises.modify (f : σ → σ) : Raises P (modify f : Effect σ ε Unit) := fun _ => .ok ()

theorem Raises.mapError {f : ε' → ε} (h : ∀ e, P (f e)) (m : Effect σ ε' α) :
    Raises P (mapError f m) :=
  fun s => .mapError h (m s).1

theorem Raises.bind {m : Effect σ ε β} {f : β → Effect σ ε α} (hm : Raises P m)
    (hf : ∀ b, Raises P (f b)) : Raises P (m >>= f) :=
  fun s => wp.bind (hm s) (fun b s' _ => hf b s') fun e _ h => .error (h e rfl)

theorem Raises.onFst {m : Effect σ ε α} (h : Raises P m) :
    Raises P (onFst m : Effect (σ × τ) ε α) :=
  fun s => h s.1

theorem Raises.mono {Q : ε → Prop} {m : Effect σ ε α} (h : Raises P m) (hPQ : ∀ e, P e → Q e) :
    Raises Q m :=
  fun s => wp.mono (h s) fun _ _ hr => hr.mono hPQ

end Raises

/-! ## Results -/

/-- Everything `m` may return satisfies `P`. -/
def Returns (P : α → Prop) (m : Effect σ ε α) : Prop := ∀ s, m.wp (fun r _ => ∀ a, r = .ok a → P a) s

section Returns

variable {P : α → Prop}

theorem Returns.pure {a : α} (h : P a) : Returns P (pure a : Effect σ ε α) := by
  rintro s _ ⟨⟩
  exact h

theorem Returns.throw (e : ε) : Returns P (throw e : Effect σ ε α) := by
  rintro s _ ⟨⟩

theorem Returns.bind {R : β → Prop} {m : Effect σ ε β} {f : β → Effect σ ε α} (hm : Returns R m)
    (hf : ∀ b, R b → Returns P (f b)) : Returns P (m >>= f) := by
  intro s
  refine wp.bind (hm s) (fun b s₁ h => hf b (h b rfl) s₁) ?_
  rintro e s₁ _ _ ⟨⟩

theorem Returns.onFst {m : Effect σ ε α} (h : Returns P m) :
    Returns P (onFst m : Effect (σ × τ) ε α) :=
  fun s => h s.1

end Returns

/-! ## Checks that come first -/

/-- Whenever `checks` fails, `m` fails with the same error. -/
def Guards (checks : Effect σ ε β) (m : Effect σ ε α) : Prop :=
  ∀ s e, (checks s).1 = .error e → (m s).1 = .error e

section Guards

variable {γ : Type}

theorem Guards.pure {b : β} {m : Effect σ ε α} : Guards (pure b : Effect σ ε β) m := by
  intro s e h
  cases h

/-- The same first step, and checks that guard what follows. -/
theorem Guards.bind {m : Effect σ ε γ} {checks : γ → Effect σ ε β} {f : γ → Effect σ ε α}
    (h : ∀ a, Guards (checks a) (f a)) : Guards (m >>= checks) (m >>= f) := by
  intro s e hchecks
  rcases hm : m s with ⟨r, s'⟩
  cases r with
  | ok a =>
    simp only [Bind.bind, hm] at hchecks ⊢
    exact h a s' e hchecks
  | error e' =>
    simp only [Bind.bind, hm] at hchecks ⊢
    rw [Except.error.inj hchecks]

end Guards

end Effect
