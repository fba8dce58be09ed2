-- SUMMARY: The invariant of the playground: what is saved fits the acts that devnet has confirmed.
import ConfidentialTransfers.Playground.Ledger

/-!
# The playground's invariant

What is saved fits what devnet has confirmed, because each act and its record are
saved together. Here is what one more act does to the parts of the invariant.
-/

open Solana

namespace Playground

/-! ## The invariant -/

/-- What holds of the acts, whatever state the page is in. `base` is what had been confirmed about the
    tokens given up. -/
structure Ledger (base : List Act) (GivenUp : Key → Prop) (generated : Nat) (confirmed : List Act)
    (failed : List (Act × JsError)) : Prop where
  known : ∀ act ∈ confirmed, ∀ mint, act.mint = some mint → mint < generated
  once : (onces confirmed).Nodup
  rules : ∀ mint auditor, .createMint mint auditor true ∈ confirmed →
    ∃ seeds c, RulesSound confirmed failed seeds mint c
  givenUp : ∀ mint, GivenUp mint → mint < generated ∧ onMint mint confirmed = onMint mint base

/-- What is saved of the token without rules fits the acts. -/
structure PlainSound (confirmed : List Act) (s : State) (mint : Key) : Prop where
  created : ∃ auditor, .createMint mint auditor false ∈ confirmed
  configured : (mint, .configureAccount .bob) ∈ onces confirmed → s.bobMint = some mint
  paid : (mint, .payBob) ∈ onces confirmed → s.sent.isSome

/-- The state fits the acts. -/
structure Fits (GivenUp : Key → Prop) (confirmed : List Act) (failed : List (Act × JsError)) (s : State) :
    Prop where
  plain : ∀ mint, s.mint = some mint → PlainSound confirmed s mint ∧ ¬ GivenUp mint
  rules : ∀ mint, s.c.mint = some mint → RulesSound confirmed failed s.seeds mint s.c ∧ ¬ GivenUp mint
  noRules : s.c.mint = none → s.c = {}
  setUp : 7 ≤ s.done → s.c.stage = 8
  finished : 8 ≤ s.done → s.c.applied = true

/-- The page is as it should be. -/
structure Sound (d : Devnet) (base : List Act) (GivenUp : Key → Prop) (p : Page) : Prop where
  unsaved : d.storage = false → p.stored = none
  stored : p.stored = none ∨ p.stored = some p.state
  ledger : Ledger base GivenUp p.generated p.confirmed p.failed
  fits : Fits GivenUp p.confirmed p.failed p.state

variable {d : Devnet} {base confirmed : List Act} {GivenUp : Key → Prop} {failed : List (Act × JsError)}
  {generated : Nat} {s : State} {p : Page} {act : Act} {mint : Key} {seeds : Seeds} {c : Rules}

/-! ## Acts -/

theorem Ledger.fail (h : Ledger base GivenUp generated confirmed failed) (x : Act × JsError) :
    Ledger base GivenUp generated confirmed (failed ++ [x]) where
  known := h.known
  once := h.once
  rules mint auditor hmem := by
    obtain ⟨seeds, c, hc⟩ := h.rules mint auditor hmem
    exact ⟨seeds, c, hc.fail x⟩
  givenUp := h.givenUp

/-- One more act, about a token that is not given up. -/
theorem Ledger.confirm (h : Ledger base GivenUp generated confirmed failed) (hmint : act.mint = some mint)
    (hlt : mint < generated) (hkept : ¬ GivenUp mint) (honce : (onces (confirmed ++ [act])).Nodup)
    (hrules : ∀ auditor, .createMint mint auditor true ∈ confirmed ++ [act] →
      ∃ seeds c, RulesSound (confirmed ++ [act]) failed seeds mint c) :
    Ledger base GivenUp generated (confirmed ++ [act]) failed where
  known a ha mint' hmint' := by
    rcases List.mem_append.1 ha with ha | ha
    · exact h.known a ha mint' hmint'
    · obtain rfl := List.mem_singleton.1 ha
      obtain rfl := Option.some.inj (hmint.symm.trans hmint')
      exact hlt
  once := honce
  rules mint' auditor hmem := by
    by_cases heq : mint = mint'
    · subst heq
      exact hrules auditor hmem
    · have hother : act.mint ≠ some mint' := fun h => heq (Option.some.inj (hmint.symm.trans h))
      rcases List.mem_append.1 hmem with hmem | hmem
      · obtain ⟨seeds, c, hc⟩ := h.rules mint' auditor hmem
        exact ⟨seeds, c, hc.other hother⟩
      · obtain rfl := List.mem_singleton.1 hmem
        exact absurd rfl hother
  givenUp mint' hgiven := by
    have hother : act.mint ≠ some mint' := by
      intro h
      obtain rfl := Option.some.inj (hmint.symm.trans h)
      exact hkept hgiven
    rw [onMint_other hother]
    exact h.givenUp mint' hgiven

/-- One more act about a token without rules. -/
theorem Ledger.confirm_plain (h : Ledger base GivenUp generated confirmed failed)
    (hcreated : ∃ auditor, .createMint mint auditor false ∈ confirmed) (hmint : act.mint = some mint)
    (hkept : ¬ GivenUp mint) (honce : (onces (confirmed ++ [act])).Nodup) :
    Ledger base GivenUp generated (confirmed ++ [act]) failed := by
  obtain ⟨auditor, hcreated⟩ := hcreated
  apply h.confirm hmint (h.known _ hcreated mint rfl) hkept honce
  intro auditor' hmem
  exact absurd (List.mem_append_left _ hcreated) (sentinel_unique honce hmem)

/-- One more act about a token with rules, by which what is saved still fits. -/
theorem Ledger.confirm_rules (h : Ledger base GivenUp generated confirmed failed) (hlt : mint < generated)
    (hkept : ¬ GivenUp mint) (hmint : act.mint = some mint)
    (hc : RulesSound (confirmed ++ [act]) failed seeds mint c) :
    Ledger base GivenUp generated (confirmed ++ [act]) failed := by
  refine h.confirm hmint hlt hkept ?_ fun _ _ => ⟨seeds, c, hc⟩
  apply nodup_onces_confirm h.once hmint
  obtain ⟨toMallory, hhistory, -⟩ := hc.history
  rw [← onMint_confirm hmint, hhistory]
  exact nodup_onces_history c seeds mint toMallory

theorem Ledger.generate (h : Ledger base GivenUp generated confirmed failed) (n : Nat) :
    Ledger base GivenUp (generated + n) confirmed failed where
  known a ha mint hmint := Nat.lt_add_right n (h.known a ha mint hmint)
  once := h.once
  rules := h.rules
  givenUp mint hgiven := ⟨Nat.lt_add_right n (h.givenUp mint hgiven).1, (h.givenUp mint hgiven).2⟩

theorem PlainSound.confirm (h : PlainSound confirmed s mint) (act : Act)
    (hbob : act.once = some (mint, .configureAccount .bob) → s.bobMint = some mint)
    (hpaid : act.once = some (mint, .payBob) → s.sent.isSome) :
    PlainSound (confirmed ++ [act]) s mint where
  created := by
    obtain ⟨auditor, hmem⟩ := h.created
    exact ⟨auditor, List.mem_append_left _ hmem⟩
  configured hmem := by
    rw [onces_append] at hmem
    rcases List.mem_append.1 hmem with hmem | hmem
    · exact h.configured hmem
    · exact hbob (by simpa [onces] using hmem)
  paid hmem := by
    rw [onces_append] at hmem
    rcases List.mem_append.1 hmem with hmem | hmem
    · exact h.paid hmem
    · exact hpaid (by simpa [onces] using hmem)

theorem PlainSound.other (h : PlainSound confirmed s mint) (hact : act.mint ≠ some mint) :
    PlainSound (confirmed ++ [act]) s mint :=
  h.confirm act (fun honce => absurd (Act.mint_of_once honce) hact) fun honce =>
    absurd (Act.mint_of_once honce) hact

theorem Fits.fail (h : Fits GivenUp confirmed failed s) (x : Act × JsError) :
    Fits GivenUp confirmed (failed ++ [x]) s where
  plain := h.plain
  rules mint hmint := ⟨(h.rules mint hmint).1.fail x, (h.rules mint hmint).2⟩
  noRules := h.noRules
  setUp := h.setUp
  finished := h.finished

/-- The two tokens of a state are not the same. -/
theorem Fits.ne (h : Fits GivenUp confirmed failed s) (honce : (onces confirmed).Nodup)
    (hmint : s.mint = some mint) : s.c.mint ≠ some mint := by
  intro hrules
  obtain ⟨auditor, hcreated⟩ := (h.plain mint hmint).1.created
  exact sentinel_unique honce (h.rules mint hrules).1.created hcreated

/-- An act about the token without rules, and a change of what is saved of it. -/
theorem Fits.confirm_plain {s' : State} (h : Fits GivenUp confirmed failed s)
    (honce : (onces confirmed).Nodup) (hs : s.mint = some mint) (hmint : act.mint = some mint)
    (hmint' : s'.mint = s.mint) (hc' : s'.c = s.c) (hseeds' : s'.seeds = s.seeds) (hdone' : s'.done = s.done)
    (hplain : PlainSound (confirmed ++ [act]) s' mint) :
    Fits GivenUp (confirmed ++ [act]) failed s' := by
  have hne := h.ne honce hs
  obtain ⟨seeds', done', mint', bobMint', sent', signatures', c'⟩ := s'
  subst hmint' hc' hseeds' hdone'
  refine ⟨fun mint' hmint' => ?_, fun mint' hmint' => ?_, h.noRules, h.setUp, h.finished⟩
  · obtain rfl := Option.some.inj (hs.symm.trans hmint')
    exact ⟨hplain, (h.plain mint hs).2⟩
  · refine ⟨(h.rules mint' hmint').1.other fun heq => ?_, (h.rules mint' hmint').2⟩
    obtain rfl := Option.some.inj (hmint.symm.trans heq)
    exact hne hmint'

/-- An act about the token with rules, and a change of what is saved of it. -/
theorem Fits.confirm_rules (h : Fits GivenUp confirmed failed s) (hmint : act.mint = some mint)
    (hplain : s.mint ≠ some mint) (hkept : ¬ GivenUp mint) (hc : c.mint = some mint)
    (hrules : RulesSound (confirmed ++ [act]) failed s.seeds mint c) (hsetUp : 7 ≤ s.done → c.stage = 8)
    (hfinished : 8 ≤ s.done → c.applied = true) :
    Fits GivenUp (confirmed ++ [act]) failed { s with c } where
  plain mint' hmint' := by
    refine ⟨?_, (h.plain mint' hmint').2⟩
    have hother : act.mint ≠ some mint' := by
      intro heq
      obtain rfl := Option.some.inj (hmint.symm.trans heq)
      exact hplain hmint'
    have hother := (h.plain mint' hmint').1.other hother
    exact ⟨hother.created, hother.configured, hother.paid⟩
  rules mint' hmint' := by
    obtain rfl := Option.some.inj (hc.symm.trans hmint')
    exact ⟨hrules, hkept⟩
  noRules hnone := by
    rw [hc] at hnone
    cases hnone
  setUp := hsetUp
  finished := hfinished

end Playground
