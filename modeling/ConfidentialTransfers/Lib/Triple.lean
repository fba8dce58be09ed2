-- SUMMARY: Hoare triples for computations that keep an invariant, whether they return or throw.
import ConfidentialTransfers.Lib.Effect

/-!
# Triples

A triple has an invariant next to its pre- and postcondition. A computation that
throws still leaves a state that meets the invariant; the postcondition is about
what it returns.
-/

namespace Effect

variable {σ ε α β : Type} {I P P' : σ → Prop} {Q Q' : α → σ → Prop}

/-- From a state that meets `I` and `P`, `m` ends in one that meets `I`; if it returns, `Q` holds. -/
def Triple (I P : σ → Prop) (m : Effect σ ε α) (Q : α → σ → Prop) : Prop :=
  ∀ s, I s → P s → m.wp (fun r s' => I s' ∧ ∀ a, r = .ok a → Q a s') s

namespace Triple

theorem pure {a : α} (h : ∀ s, I s → P s → Q a s) : Triple I P (pure a : Effect σ ε α) Q := by
  intro s hI hP
  refine ⟨hI, ?_⟩
  rintro b ⟨⟩
  exact h s hI hP

theorem throw {e : ε} : Triple I P (throw e : Effect σ ε α) Q := by
  intro s hI _
  refine ⟨hI, ?_⟩
  rintro b ⟨⟩

/-- The state that was read is the one that is still there. -/
theorem get {Q : σ → σ → Prop} (h : ∀ s, I s → P s → Q s s) : Triple I P (get : Effect σ ε σ) Q := by
  intro s hI hP
  refine ⟨hI, ?_⟩
  rintro b ⟨⟩
  exact h s hI hP

theorem modify {f : σ → σ} {Q : Unit → σ → Prop} (hI : ∀ s, I s → P s → I (f s))
    (hQ : ∀ s, I s → P s → Q () (f s)) : Triple I P (modify f : Effect σ ε Unit) Q :=
  fun s h hP => ⟨hI s h hP, fun _ _ => hQ s h hP⟩

theorem bind {R : β → σ → Prop} {m : Effect σ ε β} {f : β → Effect σ ε α} (hm : Triple I P m R)
    (hf : ∀ b, Triple I (R b) (f b) Q) : Triple I P (m >>= f) Q := by
  intro s hI hP
  refine wp.bind (hm s hI hP) (fun b s' h => hf b s' h.1 (h.2 b rfl)) fun e s' h => ⟨h.1, ?_⟩
  rintro a ⟨⟩

theorem mono {m : Effect σ ε α} (h : Triple I P' m Q') (hP : ∀ s, I s → P s → P' s)
    (hQ : ∀ a s, I s → Q' a s → Q a s) : Triple I P m Q := by
  intro s hI hs
  exact (h s hI (hP s hI hs)).mono fun r s' hr => ⟨hr.1, fun a ha => hQ a s' hr.1 (hr.2 a ha)⟩

/-- A stronger precondition. -/
theorem pre {m : Effect σ ε α} (h : Triple I P' m Q) (hP : ∀ s, I s → P s → P' s) : Triple I P m Q :=
  h.mono hP fun _ _ _ hQ => hQ

/-- A fact about no state may be used to prove the triple. -/
theorem given {φ : Prop} {m : Effect σ ε α} (h : φ → Triple I P m Q) : Triple I (fun s => φ ∧ P s) m Q :=
  fun s hI hP => h hP.1 s hI hP.2

/-- A part of the first state may be given a name. -/
theorem fix {γ : Type} (f : σ → γ) {m : Effect σ ε α} (h : ∀ c, Triple I (fun s => f s = c ∧ P s) m Q) :
    Triple I P m Q :=
  fun s hI hP => h (f s) s hI ⟨rfl, hP⟩

/-- Both branches, where their conditions hold. -/
theorem ite {c : Prop} [Decidable c] {m m' : Effect σ ε α} (h : c → Triple I P m Q)
    (h' : ¬ c → Triple I P m' Q) : Triple I P (if c then m else m') Q := by
  split
  · rename_i hc
    exact h hc
  · rename_i hc
    exact h' hc

/-- Whatever comes out of `m`, the triple says what it leaves. -/
theorem attempt {ε' : Type} {m : Effect σ ε α} (h : Triple I P m Q) :
    Triple I P (attempt m : Effect σ ε' (Except ε α)) fun r s => ∀ a, r = .ok a → Q a s := by
  intro s hI hP
  refine ⟨(h s hI hP).1, ?_⟩
  rintro r ⟨⟩
  exact (h s hI hP).2

end Triple

end Effect
