-- SUMMARY: What holds of the playground after any clicks, failures and reloads.
import ConfidentialTransfers.Playground.Steps

/-!
# Runs of the playground

The invariant holds after every input, and so after every run. From it: a token's
acts are those of the plan as far as the page has saved, nothing is done twice
that must not be, and the last step stands for a payment that was refused and one
that was made.
-/

open Solana Effect

namespace Playground

variable {d : Devnet} {base : List Act} {GivenUp : Key → Prop} {p : Page}

/-! ## Inputs -/

/-- A new state has no tokens. -/
theorem Fits.fresh {confirmed : List Act} {failed : List (Act × JsError)} (seeds : Seeds) :
    Fits GivenUp confirmed failed { seeds } :=
  ⟨nofun, nofun, fun _ => rfl, nofun, nofun⟩

theorem Sound.load (h : Sound d base GivenUp p) : Sound d base GivenUp (load p) := by
  unfold Playground.load
  cases hstored : p.stored with
  | none =>
    exact ⟨fun _ => hstored, .inl hstored, h.ledger.generate 4, .fresh _⟩
  | some s =>
    obtain rfl : s = p.state := by
      rcases h.stored with hnone | hsome
      · rw [hstored] at hnone
        cases hnone
      · exact Option.some.inj (hstored.symm.trans hsome)
    exact ⟨fun hstorage => absurd (h.unsaved hstorage) (by simp [hstored]), .inr rfl, h.ledger, h.fits⟩

/-- Another number of steps done. -/
theorem Sound.setDone {f : Nat → Nat} (h : Sound d base GivenUp p)
    (hsetUp : 7 ≤ f p.state.done → p.state.c.stage = 8)
    (hfinished : 8 ≤ f p.state.done → p.state.c.applied = true) :
    Sound d base GivenUp (Playground.update d (fun s => { s with done := f s.done }) p).2 := by
  refine Sound.update h.unsaved h.ledger ⟨fun mint hmint => ?_, h.fits.rules, h.fits.noRules, hsetUp, hfinished⟩
  obtain ⟨hplain, hkept⟩ := h.fits.plain mint hmint
  exact ⟨⟨hplain.created, hplain.configured, hplain.paid⟩, hkept⟩

/-- What a step leaves: after step 7 the token with rules is set up, after step 8 Bob has his payment. -/
theorem triple_STEPS {k : Nat} (cents : Option Nat) (hk : k < LAST) : Triple (Sound d base GivenUp)
    (fun p => p.state.done = k) (STEPS d cents (k + 1)) fun _ p => p.state.done = k ∧
      (7 ≤ k + 1 → p.state.c.stage = 8) ∧ (8 ≤ k + 1 → p.state.c.applied = true) := by
  have hearly : k + 1 < 7 → ∀ {m : App Unit}, Triple (Sound d base GivenUp) (fun p => p.state.done = k) m
      (fun _ p => p.state.done = k) → Triple (Sound d base GivenUp) (fun p => p.state.done = k) m
        fun _ p => p.state.done = k ∧ (7 ≤ k + 1 → p.state.c.stage = 8) ∧
          (8 ≤ k + 1 → p.state.c.applied = true) := by
    intro hlt m hm
    refine hm.mono (fun _ _ h => h) fun _ p _ h => ⟨h, fun hle => ?_, fun hle => ?_⟩
    · omega
    · omega
  match k, hk with
  | 0, _ => exact hearly (by decide) (triple_onlyAsked onlyAsked_fund fun _ _ h => h)
  | 1, _ => exact hearly (by decide) triple_createToken
  | 2, _ => exact hearly (by decide) triple_depositAndApply
  | 3, _ => exact hearly (by decide) (triple_payBob cents)
  | 4, _ => exact hearly (by decide) (triple_onlyAsked onlyAsked_decryptForEach fun _ _ h => h)
  | 5, _ => exact hearly (by decide) triple_withdrawBob
  | 6, _ => exact triple_setUpRules.mono (fun _ _ h => h) fun _ _ _ h => ⟨h.1, fun _ => h.2, nofun⟩
  | 7, _ =>
    have hset : ∀ p, Sound d base GivenUp p → p.state.done = 7 → p.state.done = 7 ∧ p.state.c.stage = 8 :=
      fun p hsound hdone => ⟨hdone, hsound.fits.setUp hdone.ge⟩
    refine ((triple_payUnderRules cents).pre hset).mono (fun _ _ h => h) fun _ p hsound h => ?_
    exact ⟨h.1, fun _ => hsound.fits.setUp h.1.ge, fun _ => h.2⟩

theorem Sound.run {n : Nat} (h : Sound d base GivenUp p) (cents : Option Nat) (hn : n = p.state.done + 1)
    (hlast : n ≤ LAST) : Sound d base GivenUp (run d n cents p) := by
  have hbody : Triple (Sound d base GivenUp) (fun p => p.state.done + 1 = n)
      (do
        STEPS d cents n
        Playground.update d fun s => { s with done := max s.done n }) fun _ _ => True := by
    subst hn
    refine .bind ((triple_STEPS cents hlast).pre fun _ _ hdone => Nat.succ.inj hdone) fun _ => ?_
    rintro p' hsound ⟨hdone, hsetUp, hfinished⟩
    have hmax : max p'.state.done (p.state.done + 1) = p.state.done + 1 := by omega
    refine ⟨hsound.setDone (f := fun k => max k (p.state.done + 1)) (fun hle => ?_) (fun hle => ?_),
      fun _ _ => trivial⟩
    · exact hsetUp (hmax ▸ hle)
    · exact hfinished (hmax ▸ hle)
  have hrun := hbody p h hn.symm
  unfold Playground.run
  dsimp only
  split
  · rename_i p' heq
    exact (wp.run hrun heq).1
  · rename_i e p' heq
    exact (wp.run hrun heq).1
  · rename_i p' heq
    exact (wp.run hrun heq).1.load

/-- The page starts over; what it had may be given up. -/
theorem Sound.startOver {base' : List Act} {GivenUp' : Key → Prop} (h : Sound d base GivenUp p)
    (hledger : Ledger base' GivenUp' p.generated p.confirmed p.failed) (seeds : Seeds) :
    Sound d base' GivenUp'
      (Playground.load (save d { p with generated := p.generated + 4, state := { seeds } }).2) :=
  Sound.load (Sound.update (p := { p with generated := p.generated + 4 }) (f := fun _ => { seeds })
    h.unsaved (hledger.generate 4) (.fresh seeds))

theorem Sound.next (h : Sound d base GivenUp p) (input : Input) : Sound d base GivenUp (next d p input) := by
  cases input with
  | press n cents =>
    unfold Playground.next
    dsimp only
    split
    · rename_i hn
      exact h.run cents hn.1 hn.2
    · exact h
  | fundingAnswer balance =>
    have hwatching : ∀ w, Sound d base GivenUp { p with watching := w } :=
      fun w => ⟨h.unsaved, h.stored, h.ledger, h.fits⟩
    unfold Playground.next Playground.fundingAnswer
    dsimp only
    split
    · exact h
    · split
      · split
        · have hdone : Sound d base GivenUp (Playground.update d (fun s => { s with done := 1 }) p).2 :=
            h.setDone (f := fun _ => 1) nofun nofun
          exact ⟨hdone.unsaved, hdone.stored, hdone.ledger, hdone.fits⟩
        · exact hwatching _
      · exact hwatching _
  | resetSimulation => exact h.startOver h.ledger _
  | restart => exact h.startOver h.ledger _
  | reload => exact h.load

/-- The invariant holds after every run. -/
theorem sound_after (d : Devnet) (inputs : List Input) : Sound d [] (fun _ => False) (after d inputs) := by
  refine Machine.run_invariant (fun p input h => h.next input) (Sound.load ?_) inputs
  exact ⟨fun _ => rfl, .inl rfl, ⟨nofun, List.nodup_nil, nofun, nofun⟩, .fresh _⟩

/-! ## A visit -/

namespace Example

/-- The payment to Mallory fails in the hook. -/
def blocked : JsError where
  links := [(some "transfer failed simulation", []),
    (none, ["Program log: AnchorError occurred. Error Code: RecipientBlocked. Error Number: 6003."])]

/-- A devnet that answers everything, but for one request; at another the visitor reloads the page. -/
def devnet : Devnet where
  reloaded n := n == 29
  perform n act :=
    if n = 8 then .error (.new "Failed to fetch")
    else
      match act with
      | .transfer _ _ ⟨.mallory, _⟩ _ => .error blocked
      | _ => .ok [toString n]
  requestAirdrop _ := .ok ()
  solBalance _ := .ok 1000000000
  minimumBalanceForRentExemption _ := .ok 4000000
  tokenAccountBalance _ _ _ := .ok 100000000
  decryptBalance _ _ _ := .ok 100000000
  decryptTransferAmountAsAuditor _ _ _ := .ok 10000000
  proofAccounts _ _ := .ok ["proof"]

def inputs : List Input := [.press 1 none, .press 2 none, .press 3 none, .press 3 none, .press 4 (some 1000),
  .press 5 none, .press 6 none, .press 7 none, .press 7 none, .press 8 (some 500), .press 8 (some 500)]

end Example

/-! ## Resuming -/

/-- However often step 7 failed or was cut off by a reload: what was confirmed about a token with rules is
    the plan as far as the saved stage says, in order and without repetition; and only when the plan is
    complete payments to Mallory that were let through, one payment to Bob and one application of it, the
    last two if they are saved. -/
theorem rules_resume (d : Devnet) (inputs : List Input) {mint : Key} {auditor : Wallet}
    (h : .createMint mint auditor true ∈ (after d inputs).confirmed) :
    ∃ seeds c toMallory, onMint mint (after d inputs).confirmed = Rules.history c seeds mint toMallory ∧
      (c.stage < 8 → onMint mint (after d inputs).confirmed = (rulesPlan seeds mint).take c.stage) ∧
      (c.applied = true → c.sent.isSome) ∧
      ((after d inputs).state.c.mint = some mint →
        c = (after d inputs).state.c ∧ seeds = (after d inputs).state.seeds) := by
  have hsound := sound_after d inputs
  generalize after d inputs = p at h hsound ⊢
  have hfits : ∃ seeds c, RulesSound p.confirmed p.failed seeds mint c ∧
      (p.state.c.mint = some mint → c = p.state.c ∧ seeds = p.state.seeds) := by
    by_cases hmint : p.state.c.mint = some mint
    · exact ⟨p.state.seeds, p.state.c, (hsound.fits.rules mint hmint).1, fun _ => ⟨rfl, rfl⟩⟩
    · obtain ⟨seeds, c, hc⟩ := hsound.ledger.rules mint auditor h
      exact ⟨seeds, c, hc, fun heq => absurd heq hmint⟩
  obtain ⟨seeds, c, hc, hcurrent⟩ := hfits
  obtain ⟨toMallory, hhistory, hnone⟩ := hc.history
  refine ⟨seeds, c, toMallory, hhistory, fun hstage => ?_, hc.applied, hcurrent⟩
  obtain ⟨-, -, hsent, happlied⟩ := hc.early hstage
  rw [hhistory, hnone hstage]
  simp [Rules.history, paymentsTo, hsent, happlied]

theorem rules_resume_example : ∃ seeds c toMallory,
    onMint 5 (after Example.devnet (Example.inputs.take 8)).confirmed = Rules.history c seeds 5 toMallory ∧
      c.stage = 6 := by
  have h : .createMint 5 ⟨.auditor, 2⟩ true ∈ (after Example.devnet (Example.inputs.take 8)).confirmed := by
    decide +kernel
  obtain ⟨seeds, c, toMallory, hhistory, -, -, hcurrent⟩ := rules_resume Example.devnet (Example.inputs.take 8) h
  refine ⟨seeds, c, toMallory, hhistory, ?_⟩
  rw [(hcurrent (by decide +kernel)).1]
  decide +kernel

/-- However often steps were pressed again after a failure or a reload: the page was told at most once
    that a token was made or given its rules, an account configured, or Bob paid in a token. -/
theorem nothing_twice (d : Devnet) (inputs : List Input) :
    ((after d inputs).confirmed.filterMap Act.once).Nodup :=
  (sound_after d inputs).ledger.once

/-- Once the finale is shown, and from then on, the whole plan was confirmed for the token with rules;
    devnet refused a payment to Mallory in Sentinel's words; and a payment of the saved amount to Bob was
    confirmed, once, and that he applied it. -/
theorem finale (d : Devnet) (inputs : List Input) (h : LAST ≤ (after d inputs).state.done) :
    ∃ mint amount toMallory, (after d inputs).state.c.mint = some mint ∧
      (after d inputs).state.c.sent = some amount ∧
      onMint mint (after d inputs).confirmed =
        rulesPlan (after d inputs).state.seeds mint ++
          paymentsTo (after d inputs).state.seeds mint .mallory toMallory ++
          [.transfer mint ((after d inputs).state.seeds.wallet .you) ((after d inputs).state.seeds.wallet .bob)
              amount,
            .applyPendingBalance mint ((after d inputs).state.seeds.wallet .bob)] ∧
      ∃ why amount' e, (after d inputs).state.c.refused = some why ∧ refusal e = some why ∧
        (.transfer mint ((after d inputs).state.seeds.wallet .you)
          ((after d inputs).state.seeds.wallet .mallory) amount', e) ∈ (after d inputs).failed := by
  have hsound := sound_after d inputs
  generalize after d inputs = p at h hsound ⊢
  have hstage : p.state.c.stage = 8 := hsound.fits.setUp (Nat.le_of_succ_le h)
  have happlied : p.state.c.applied = true := hsound.fits.finished h
  cases hmint : p.state.c.mint with
  | none =>
    have hnone := hsound.fits.noRules hmint
    rw [hnone] at hstage
    cases hstage
  | some mint =>
    obtain ⟨hrules, -⟩ := hsound.fits.rules mint hmint
    obtain ⟨amount, hsent⟩ := Option.isSome_iff_exists.1 (hrules.applied happlied)
    have hcleaned : p.state.c.cleaned = true := hrules.sent (by rw [hsent]; rfl)
    obtain ⟨why, hwhy⟩ := Option.isSome_iff_exists.1 (hrules.cleaned hcleaned)
    obtain ⟨-, amount', e, hfailed, he⟩ := hrules.refused why hwhy
    obtain ⟨toMallory, hhistory, -⟩ := hrules.history
    refine ⟨mint, amount, toMallory, rfl, hsent, ?_, why, amount', e, hwhy, he, hfailed⟩
    rw [hhistory]
    simp [Rules.history, hstage, hsent, happlied, paymentsTo, rulesPlan]

theorem finale_example : ∃ mint amount, (after Example.devnet Example.inputs).state.c.mint = some mint ∧
    (after Example.devnet Example.inputs).state.c.sent = some amount := by
  obtain ⟨mint, amount, -, hmint, hsent, -⟩ := finale Example.devnet Example.inputs (by decide +kernel)
  exact ⟨mint, amount, hmint, hsent⟩

/-! ## Starting over -/

theorem Ledger.giveUp {generated : Nat} {confirmed : List Act} {failed : List (Act × JsError)}
    (h : Ledger base GivenUp generated confirmed failed) :
    Ledger confirmed (fun mint => mint < generated) generated confirmed failed :=
  ⟨h.known, h.once, h.rules, fun _ hlt => ⟨hlt, rfl⟩⟩

/-- After "start over" or "throw away the keys", whatever happens later, nothing more is done with a token
    made before. -/
theorem startOver_abandons (d : Devnet) (before later : List Input) {input : Input} {mint : Key}
    (hinput : input = .resetSimulation ∨ input = .restart) (hmint : mint < (after d before).generated) :
    onMint mint (after d (before ++ input :: later)).confirmed = onMint mint (after d before).confirmed := by
  have hsound := sound_after d before
  have hstart : Sound d (after d before).confirmed (fun mint => mint < (after d before).generated)
      (next d (after d before) input) := by
    obtain rfl | rfl := hinput
    · exact hsound.startOver hsound.ledger.giveUp _
    · exact hsound.startOver hsound.ledger.giveUp _
  have hafter : after d (before ++ input :: later) =
      Machine.run (next d) (next d (after d before) input) later := Machine.run_append before (input :: later)
  rw [hafter]
  have hlater : Sound d (after d before).confirmed (fun mint => mint < (after d before).generated)
      (Machine.run (next d) (next d (after d before) input) later) :=
    Machine.run_invariant (fun p input h => h.next input) hstart later
  exact (hlater.ledger.givenUp mint hmint).2

theorem startOver_abandons_example :
    onMint 5 (after Example.devnet (Example.inputs ++ .resetSimulation :: Example.inputs)).confirmed =
      onMint 5 (after Example.devnet Example.inputs).confirmed :=
  startOver_abandons Example.devnet Example.inputs Example.inputs (.inl rfl) (by decide +kernel)

end Playground
