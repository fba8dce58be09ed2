-- SUMMARY: What the playground's confirmed acts say about each token.
import ConfidentialTransfers.Playground.App

/-!
# Acts and tokens

The confirmed acts, token by token. Some acts must not be made twice (`Act.once`).
For a token with rules the acts have to be those of the plan, in its order
(`Rules.history`); how far they got is what the page has saved.
-/

open Solana

namespace Playground

/-! ## Acts of one token -/

/-- The acts about this token. -/
def onMint (mint : Key) (acts : List Act) : List Act := acts.filter (·.mint = some mint)

variable {acts confirmed : List Act} {act : Act} {mint : Key}

theorem mem_onMint : act ∈ onMint mint acts ↔ act ∈ acts ∧ act.mint = some mint := by
  simp [onMint]

theorem onMint_confirm (h : act.mint = some mint) :
    onMint mint (acts ++ [act]) = onMint mint acts ++ [act] := by
  simp [onMint, h]

theorem onMint_other (h : act.mint ≠ some mint) : onMint mint (acts ++ [act]) = onMint mint acts := by
  simp [onMint, h]

/-! ## Acts that must not be made twice -/

inductive OnceKind
  | createMint
  | addRules
  | configureAccount (owner : Role)
  | mintTo
  | payBob
deriving DecidableEq, Repr

/-- What must happen to a token only once. -/
def Act.once : Act → Option (Key × OnceKind)
  | .createMint mint _ _ => some (mint, .createMint)
  | .addRules mint _ => some (mint, .addRules)
  | .configureAccount mint owner => some (mint, .configureAccount owner.role)
  | .mintTo mint _ _ => some (mint, .mintTo)
  | .transfer mint _ ⟨.bob, _⟩ _ => some (mint, .payBob)
  | _ => none

theorem Act.mint_of_once {kind : OnceKind} (h : act.once = some (mint, kind)) : act.mint = some mint := by
  unfold Act.once at h
  split at h <;> simp_all [Act.mint]

/-- What was done once, as a list. -/
def onces (acts : List Act) : List (Key × OnceKind) := acts.filterMap Act.once

theorem onces_append (as bs : List Act) : onces (as ++ bs) = onces as ++ onces bs := List.filterMap_append

theorem mem_onces_onMint {kind : OnceKind} :
    (mint, kind) ∈ onces (onMint mint acts) ↔ (mint, kind) ∈ onces acts := by
  simp only [onces, List.mem_filterMap, mem_onMint]
  constructor
  · rintro ⟨a, ⟨ha, -⟩, honce⟩
    exact ⟨a, ha, honce⟩
  · rintro ⟨a, ha, honce⟩
    exact ⟨a, ⟨ha, Act.mint_of_once honce⟩, honce⟩

/-- An act is made once if its token's acts are. -/
theorem nodup_onces_confirm (h : (onces acts).Nodup) (hmint : act.mint = some mint)
    (hnew : (onces (onMint mint acts ++ [act])).Nodup) : (onces (acts ++ [act])).Nodup := by
  rw [onces_append] at hnew ⊢
  refine List.nodup_append.2 ⟨h, (List.nodup_append.1 hnew).2.1, ?_⟩
  rintro ⟨mint', kind⟩ hold _ hact rfl
  have honce : act.once = some (mint', kind) := by simpa [onces] using hact
  obtain rfl : mint = mint' := Option.some.inj (hmint.symm.trans (Act.mint_of_once honce))
  exact (List.nodup_append.1 hnew).2.2 _ (mem_onces_onMint.2 hold) _ hact rfl

/-- An act that has not been made, or may be repeated. -/
theorem nodup_onces_new (h : (onces acts).Nodup) (hnew : ∀ k, act.once = some k → k ∉ onces acts) :
    (onces (acts ++ [act])).Nodup := by
  rw [onces_append]
  refine List.nodup_append.2 ⟨h, ?_, ?_⟩
  · cases honce : act.once <;> simp [onces, honce]
  · rintro k hk _ hact rfl
    exact hnew k (by simpa [onces] using hact) hk

/-- Only one act did what must be done once. -/
theorem eq_of_once {a b : Act} {k : Key × OnceKind} (h : (onces acts).Nodup) (ha : a ∈ acts) (hb : b ∈ acts)
    (hk : a.once = some k) (hk' : b.once = some k) : a = b := by
  induction acts with
  | nil => cases ha
  | cons x xs ih =>
    have hmem : ∀ {y}, y ∈ xs → y.once = some k → k ∈ onces xs := fun hy hyk =>
      List.mem_filterMap.2 ⟨_, hy, hyk⟩
    have hnodup : (onces xs).Nodup := by
      cases hx : x.once <;> simp_all [onces]
    have hhead : x.once = some k → k ∉ onces xs := by
      intro hx
      simp only [onces, List.filterMap_cons, hx, List.nodup_cons] at h
      exact h.1
    cases List.mem_cons.1 ha with
    | inl ha =>
      cases List.mem_cons.1 hb with
      | inl hb => exact ha.trans hb.symm
      | inr hb => exact absurd (hmem hb hk') (hhead (ha ▸ hk))
    | inr ha =>
      cases List.mem_cons.1 hb with
      | inl hb => exact absurd (hmem ha hk) (hhead (hb ▸ hk'))
      | inr hb => exact ih hnodup ha hb

/-- A token is made with a transfer hook or without. -/
theorem sentinel_unique {auditor auditor' : Wallet} (h : (onces acts).Nodup)
    (hwith : .createMint mint auditor true ∈ acts) : .createMint mint auditor' false ∉ acts := by
  intro hwithout
  cases eq_of_once h hwith hwithout rfl rfl

/-! ## A token with rules -/

/-- The acts of step 7, in order. -/
def rulesPlan (seeds : Seeds) (mint : Key) : List Act :=
  [.createMint mint (seeds.wallet .auditor) true,
    .addRules mint (seeds.wallet .mallory),
    .configureAccount mint (seeds.wallet .you),
    .configureAccount mint (seeds.wallet .bob),
    .configureAccount mint (seeds.wallet .mallory),
    .mintTo mint (seeds.wallet .you) (100 * UNIT),
    .deposit mint (seeds.wallet .you) (100 * UNIT),
    .applyPendingBalance mint (seeds.wallet .you)]

/-- Payments of these amounts to the wallet of this role. -/
def paymentsTo (seeds : Seeds) (mint : Key) (role : Role) (amounts : List Nat) : List Act :=
  amounts.map (.transfer mint (seeds.wallet .you) (seeds.wallet role))

/-- What has happened to the token `c`, by what is saved of it; only payments to Mallory that were let
    through are not saved. -/
def Rules.history (c : Rules) (seeds : Seeds) (mint : Key) (toMallory : List Nat) : List Act :=
  (rulesPlan seeds mint).take c.stage ++ paymentsTo seeds mint .mallory toMallory ++
    paymentsTo seeds mint .bob c.sent.toList ++
    if c.applied then [.applyPendingBalance mint (seeds.wallet .bob)] else []

theorem onces_rulesPlan (seeds : Seeds) (mint : Key) :
    onces (rulesPlan seeds mint) =
      [(mint, .createMint), (mint, .addRules), (mint, .configureAccount .you),
        (mint, .configureAccount .bob), (mint, .configureAccount .mallory), (mint, .mintTo)] := rfl

theorem onces_mallory (seeds : Seeds) (mint : Key) (amounts : List Nat) :
    onces (paymentsTo seeds mint .mallory amounts) = [] := by
  simp [onces, paymentsTo, Act.once, Seeds.wallet]

/-- Whatever is saved, nothing that must be done once is in the history twice. -/
theorem nodup_onces_history (c : Rules) (seeds : Seeds) (mint : Key) (toMallory : List Nat) :
    (onces (c.history seeds mint toMallory)).Nodup := by
  have hplan : (onces (rulesPlan seeds mint)).Nodup := by
    simp [onces_rulesPlan]
  have hbob : (mint, .payBob) ∉ onces (rulesPlan seeds mint) := by
    simp [onces_rulesPlan]
  have htake : (onces ((rulesPlan seeds mint).take c.stage)).Sublist (onces (rulesPlan seeds mint)) :=
    (List.take_sublist _ _).filterMap _
  have happlied : onces (if c.applied then [.applyPendingBalance mint (seeds.wallet .bob)] else []) = [] := by
    cases c.applied <;> rfl
  simp only [Rules.history, onces_append, onces_mallory, happlied, List.append_nil]
  cases hsent : c.sent with
  | none => simpa [paymentsTo, onces] using htake.nodup hplan
  | some amount =>
    have hpaid : onces (paymentsTo seeds mint .bob (some amount).toList) = [(mint, .payBob)] := rfl
    rw [hpaid]
    refine List.nodup_append.2 ⟨htake.nodup hplan, List.nodup_singleton _, ?_⟩
    rintro k hk _ hk' rfl
    obtain rfl := List.mem_singleton.1 hk'
    exact hbob (htake.subset hk)

/-- What is saved of a token with rules fits the acts. -/
structure RulesSound (confirmed : List Act) (failed : List (Act × JsError)) (seeds : Seeds) (mint : Key)
    (c : Rules) : Prop where
  stage_pos : 1 ≤ c.stage
  stage_le : c.stage ≤ 8
  history : ∃ toMallory, onMint mint confirmed = c.history seeds mint toMallory ∧
    (c.stage < 8 → toMallory = [])
  /-- The refusal is one that devnet gave. -/
  refused : ∀ why, c.refused = some why → c.stage = 8 ∧ ∃ amount e,
    (.transfer mint (seeds.wallet .you) (seeds.wallet .mallory) amount, e) ∈ failed ∧ refusal e = some why
  cleaned : c.cleaned = true → c.refused.isSome
  sent : c.sent.isSome → c.cleaned = true
  applied : c.applied = true → c.sent.isSome

variable {failed : List (Act × JsError)} {seeds : Seeds} {c : Rules}

namespace RulesSound

/-- The token was made with the transfer hook. -/
theorem created (h : RulesSound confirmed failed seeds mint c) :
    .createMint mint (seeds.wallet .auditor) true ∈ confirmed := by
  obtain ⟨toMallory, hhistory, -⟩ := h.history
  have hmem : .createMint mint (seeds.wallet .auditor) true ∈ onMint mint confirmed := by
    obtain ⟨k, hk⟩ := Nat.exists_eq_add_of_le h.stage_pos
    rw [hhistory, Rules.history, hk, Nat.add_comm]
    simp [rulesPlan]
  exact (mem_onMint.1 hmem).1

/-- Nothing of step 8 has happened before step 7 is done. -/
theorem early (h : RulesSound confirmed failed seeds mint c) (hstage : c.stage < 8) :
    c.refused = none ∧ c.cleaned = false ∧ c.sent = none ∧ c.applied = false := by
  have hrefused : c.refused = none := by
    cases hrefused : c.refused with
    | none => rfl
    | some why =>
      have heq := (h.refused why hrefused).1
      omega
  have hcleaned : c.cleaned = false := by
    cases hcleaned : c.cleaned with
    | false => rfl
    | true => simpa [hrefused] using h.cleaned hcleaned
  have hsent : c.sent = none := by
    cases hsent : c.sent with
    | none => rfl
    | some amount => simpa [hcleaned] using h.sent (by rw [hsent]; rfl)
  refine ⟨hrefused, hcleaned, hsent, ?_⟩
  cases happlied : c.applied with
  | false => rfl
  | true => simpa [hsent] using h.applied happlied

/-- A token that was just made. -/
theorem create (hnew : ∀ a ∈ confirmed, a.mint ≠ some mint) (createdTx : Option Signature) :
    RulesSound (confirmed ++ [.createMint mint (seeds.wallet .auditor) true]) failed seeds mint
      { createdTx, mint := some mint, stage := 1 } where
  stage_pos := Nat.le_refl 1
  stage_le := by simp
  history := by
    refine ⟨[], ?_, fun _ => rfl⟩
    have hnone : onMint mint confirmed = [] := by simpa [onMint] using hnew
    rw [onMint_confirm rfl, hnone]
    rfl
  refused := nofun
  cleaned := nofun
  sent := nofun
  applied := nofun

/-- Acts about other tokens do not matter. -/
theorem other (h : RulesSound confirmed failed seeds mint c) (hact : act.mint ≠ some mint) :
    RulesSound (confirmed ++ [act]) failed seeds mint c :=
  { h with history := by rw [onMint_other hact]; exact h.history }

theorem fail (h : RulesSound confirmed failed seeds mint c) (x : Act × JsError) :
    RulesSound confirmed (failed ++ [x]) seeds mint c where
  stage_pos := h.stage_pos
  stage_le := h.stage_le
  history := h.history
  refused why hwhy := by
    obtain ⟨hstage, amount, e, hmem, he⟩ := h.refused why hwhy
    exact ⟨hstage, amount, e, List.mem_append_left _ hmem, he⟩
  cleaned := h.cleaned
  sent := h.sent
  applied := h.applied

/-- The next stage of step 7. -/
theorem advance (h : RulesSound confirmed failed seeds mint c)
    (hact : (rulesPlan seeds mint)[c.stage]? = some act) (hmint : act.mint = some mint)
    (rulesTx : Option Signature) :
    RulesSound (confirmed ++ [act]) failed seeds mint { c with rulesTx, stage := c.stage + 1 } := by
  have hstage : c.stage < 8 := (List.getElem?_eq_some_iff.1 hact).1
  obtain ⟨hrefused, hcleaned, hsent, happlied⟩ := h.early hstage
  obtain ⟨toMallory, hhistory, hnone⟩ := h.history
  obtain rfl := hnone hstage
  refine ⟨by simp, hstage, ⟨[], ?_, fun _ => rfl⟩, ?_, ?_, ?_, ?_⟩
  · rw [onMint_confirm hmint, hhistory]
    simp [Rules.history, paymentsTo, hsent, happlied, List.take_add_one, hact]
  · simp [hrefused]
  · simp [hcleaned]
  · simp [hsent]
  · simp [happlied]

/-- A payment to Mallory that was let through: it is not saved, and the step will be refused. -/
theorem letThrough (h : RulesSound confirmed failed seeds mint c) (hstage : c.stage = 8)
    (hrefused : c.refused = none) (amount : Nat) :
    RulesSound
      (confirmed ++ [.transfer mint (seeds.wallet .you) (seeds.wallet .mallory) amount]) failed seeds mint c := by
  have hcleaned : c.cleaned = false := by
    cases hcleaned : c.cleaned with
    | false => rfl
    | true => simpa [hrefused] using h.cleaned hcleaned
  have hsent : c.sent = none := by
    cases hsent : c.sent with
    | none => rfl
    | some amount => simpa [hcleaned] using h.sent (by rw [hsent]; rfl)
  have happlied : c.applied = false := by
    cases happlied : c.applied with
    | false => rfl
    | true => simpa [hsent] using h.applied happlied
  obtain ⟨toMallory, hhistory, -⟩ := h.history
  refine { h with history := ⟨toMallory ++ [amount], ?_, by omega⟩ }
  rw [onMint_confirm rfl, hhistory]
  simp [Rules.history, paymentsTo, hsent, happlied]

theorem refuse (h : RulesSound confirmed failed seeds mint c) (hstage : c.stage = 8) {why : Refusal}
    {amount : Nat} {e : JsError}
    (hmem : (.transfer mint (seeds.wallet .you) (seeds.wallet .mallory) amount, e) ∈ failed)
    (hwhy : refusal e = some why) :
    RulesSound confirmed failed seeds mint { c with refused := some why } where
  stage_pos := h.stage_pos
  stage_le := h.stage_le
  history := h.history
  refused why' hwhy' := by
    obtain rfl := Option.some.inj hwhy'
    exact ⟨hstage, amount, e, hmem, hwhy⟩
  cleaned _ := rfl
  sent := h.sent
  applied := h.applied

theorem clean (h : RulesSound confirmed failed seeds mint c) (hrefused : c.refused.isSome) (closed : Int) :
    RulesSound confirmed failed seeds mint { c with closed, cleaned := true } :=
  { h with cleaned := fun _ => hrefused, sent := fun _ => rfl }

/-- Bob is paid. -/
theorem pay (h : RulesSound confirmed failed seeds mint c) (hcleaned : c.cleaned = true)
    (hsent : c.sent = none) (amount : Nat) (signatures : List Signature) :
    RulesSound (confirmed ++ [.transfer mint (seeds.wallet .you) (seeds.wallet .bob) amount]) failed seeds mint
      { c with signatures, sent := some amount } := by
  have happlied : c.applied = false := by
    cases happlied : c.applied with
    | false => rfl
    | true => simpa [hsent] using h.applied happlied
  obtain ⟨toMallory, hhistory, hnone⟩ := h.history
  refine { h with
    history := ⟨toMallory, ?_, hnone⟩, sent := fun _ => hcleaned, applied := fun _ => rfl }
  rw [onMint_confirm rfl, hhistory]
  simp [Rules.history, paymentsTo, hsent, happlied]

/-- Bob applies his pending balance. -/
theorem apply (h : RulesSound confirmed failed seeds mint c) (hsent : c.sent.isSome)
    (happlied : c.applied = false) :
    RulesSound (confirmed ++ [.applyPendingBalance mint (seeds.wallet .bob)]) failed seeds mint
      { c with applied := true } := by
  obtain ⟨toMallory, hhistory, hnone⟩ := h.history
  refine { h with history := ⟨toMallory, ?_, hnone⟩, applied := fun _ => hsent }
  rw [onMint_confirm rfl, hhistory]
  simp [Rules.history, happlied]

end RulesSound

end Playground
