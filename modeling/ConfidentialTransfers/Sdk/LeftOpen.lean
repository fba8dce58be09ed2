-- SUMMARY: Which proof accounts a call leaves open without saying so.
import ConfidentialTransfers.Sdk.Agreement
import ConfidentialTransfers.Sdk.AtMostOnce
import ConfidentialTransfers.Sdk.EarlyErrors
import ConfidentialTransfers.Sdk.FlowAccounts

/-!
# Accounts left open

An attempt of a transfer or withdraw reports every proof account it created and
could not close again. A retry throws that report away, so a call reports all
its open accounts exactly if every failure it retried left none.
-/

open Solana

namespace Sdk

variable {τ π σ α β : Type}

/-! ## One attempt -/

/-- `a` is the address of a key pair generated between the two worlds. -/
def NewKey {χ : Type} (kit : Kit π) (w w' : World χ π) (a : Address) : Prop :=
  ∃ n, w.keyPairs ≤ n ∧ n < w'.keyPairs ∧ kit.generateKeyPair n = a

/-- What an attempt has done to proof accounts by the transactions `landed`: it worked on accounts of
    new key pairs only, and reports those it created and left on the chain. -/
structure AttemptTracks (net : Network (Chain τ) π) (programs : Programs τ π) (kit : Kit π)
    (payer : Address) (w : World (Chain τ) π) (landed : List (List (Instruction π)))
    (reported : List Address) (w' : World (Chain τ) π) : Prop where
  logged : landedTransactions w'.events = landedTransactions w.events ++ landed
  executed : Steps (net.withPrograms programs).Executes w.chain landed w'.chain
  keyPairs : w.keyPairs ≤ w'.keyPairs
  others : ∀ a, ¬ NewKey kit w w' a → landed.flatten.filterMap (·.about a) = []
  fates : ∀ a, NewKey kit w w' a →
    AccountFate payer a landed (w.chain.proofAccount a) (w'.chain.proofAccount a)
  listed : ∀ a ∈ createdAccounts landed, w'.chain.proofAccount a ≠ none → a ∈ reported
  subset : ∀ a ∈ reported, NewKey kit w w' a

section Rules

variable {net : Network (Chain τ) π} {programs : Programs τ π} {kit : Kit π} {payer : Address}
  {w w₁ w' : World (Chain τ) π} {landed : List (List (Instruction π))} {reported : List Address}

/-- An attempt that only generated key pairs. -/
theorem AttemptTracks.generated (hevents : landedTransactions w'.events = landedTransactions w.events)
    (hchain : w'.chain = w.chain) (hkeys : w.keyPairs ≤ w'.keyPairs) :
    AttemptTracks net programs kit payer w [] [] w' where
  logged := by rw [hevents, List.append_nil]
  executed := hchain ▸ .nil _
  keyPairs := hkeys
  others := by simp
  fates a _ := .notCreated (by simp [createdAccounts]) (.inr (by rw [hchain]))
  listed := by simp [createdAccounts]
  subset := by simp

/-- Reading before an attempt. -/
theorem AttemptTracks.after_reads (hread : w.ReadOnly w₁)
    (h : AttemptTracks net programs kit payer w₁ landed reported w') :
    AttemptTracks net programs kit payer w landed reported w' := by
  have hnew : ∀ a, NewKey kit w w' a ↔ NewKey kit w₁ w' a := by
    intro a
    simp only [NewKey, hread.keyPairs]
  refine ⟨by rw [h.logged, hread.landed], hread.chain ▸ h.executed, hread.keyPairs ▸ h.keyPairs,
    fun a ha => h.others a (mt (hnew a).mpr ha), fun a ha => ?_, h.listed,
    fun a ha => (hnew a).mpr (h.subset a ha)⟩
  rw [← hread.chain]
  exact h.fates a ((hnew a).mp ha)

/-- A flow over the accounts of key pairs generated just before. -/
theorem AttemptTracks.of_flow {proofAccounts : List Address} {r : Except Thrown ProofFlowResult}
    (hevents : w₁.events = w.events) (hchain : w₁.chain = w.chain)
    (hnew : ∀ a ∈ proofAccounts, NewKey kit w w₁ a) (hkeys : w.keyPairs ≤ w₁.keyPairs)
    (h : FlowTracks net programs payer proofAccounts w₁ landed r w') :
    AttemptTracks net programs kit payer w landed
      (reportedOpen ProofFlowResult.proofAccountsLeftOpen r) w' := by
  have hsame : w'.keyPairs = w₁.keyPairs := h.lands.keyPairs
  have hown : ∀ a ∈ proofAccounts, NewKey kit w w' a := by
    intro a ha
    obtain ⟨n, hle, hlt, hn⟩ := hnew a ha
    exact ⟨n, hle, hsame ▸ hlt, hn⟩
  refine ⟨by rw [h.lands.landed, hevents], hchain ▸ h.lands.executed, hsame ▸ hkeys,
    fun a ha => h.others a fun hmem => ha (hown a hmem), fun a _ => ?_, h.reported,
    fun a ha => hown a (h.subset ha)⟩
  by_cases ha : a ∈ proofAccounts
  · rw [← hchain]
    exact h.fates a ha
  · have hnone := h.others a ha
    have hlife := life_of_executed h.lands.executed a
    rw [hnone, hchain] at hlife
    refine .notCreated (fun hcreated => ?_) (.inr (Option.some.inj hlife).symm)
    obtain ⟨lamports, hmem⟩ := mem_createdAccounts.mp hcreated
    simp [hnone] at hmem

end Rules

/-- However the attempt ends, it keeps track of its proof accounts. -/
def KeepsTrack (net : Network (Chain τ) π) (programs : Programs τ π) (kit : Kit π) (payer : Address)
    (view : σ → World (Chain τ) π) (leftOpen : α → List Address) (m : Effect σ Thrown α) : Prop :=
  ∀ s, m.wp (fun r s' => ∃ landed, AttemptTracks net programs kit payer (view s) landed
    (reportedOpen leftOpen r) (view s')) s

/-- Reading before the attempt. -/
theorem KeepsTrack.bind {net : Network (Chain τ) π} {programs : Programs τ π} {kit : Kit π}
    {payer : Address} {view : σ → World (Chain τ) π} {leftOpen : α → List Address}
    {m : Effect σ Thrown β} {f : β → Effect σ Thrown α} {codes : List ErrorCode}
    (hread : m.Within (Order.Preimage view World.ReadOnly)) (hraises : m.Raises (Thrown.Coded codes))
    (hf : ∀ b, KeepsTrack net programs kit payer view leftOpen (f b)) :
    KeepsTrack net programs kit payer view leftOpen (m >>= f) := by
  intro s
  refine Effect.wp.bind ((hread s).and (hraises s)) (fun b s₁ h => ?_) (fun e s₁ h => ?_)
  · refine (hf b s₁).mono fun r s' htracks => ?_
    obtain ⟨landed, htracks⟩ := htracks
    exact ⟨landed, htracks.after_reads h.1⟩
  · have hnone : reportedOpen leftOpen (.error e) = [] := (h.2 e rfl).reportsNone
    refine ⟨[], ?_⟩
    rw [hnone]
    exact .generated h.1.landed h.1.chain h.1.keyPairs.ge

/-! ## The attempts of a call -/

/-- Every proof account that the transactions of the log created and that is still on the chain is
    among `reported`. -/
def NothingUnreported (reported : List Address) (w : World (Chain τ) π) : Prop :=
  ∀ a ∈ createdAccounts (landedTransactions w.events), w.chain.proofAccount a ≠ none → a ∈ reported

/-- No proof account that the transactions of the log created is on the chain. -/
def NothingOpen (w : World (Chain τ) π) : Prop :=
  ∀ a ∈ createdAccounts (landedTransactions w.events), w.chain.proofAccount a = none

/-- Accounts have been created for key pairs generated before. -/
def CreatedBefore (kit : Kit π) (w : World (Chain τ) π) : Prop :=
  ∀ a ∈ createdAccounts (landedTransactions w.events), ∃ n < w.keyPairs, kit.generateKeyPair n = a

section Attempts

variable {net : Network (Chain τ) π} {programs : Programs τ π} {kit : Kit π} {payer : Address}

/-- A key pair generated before is not a new one. -/
theorem not_newKey {χ : Type} {w w' : World χ π} {a : Address}
    (h : ∃ n < w.keyPairs, kit.generateKeyPair n = a) : ¬ NewKey kit w w' a := by
  rintro ⟨m, hle, -, hm⟩
  obtain ⟨n, hlt, hn⟩ := h
  obtain rfl := kit.generateKeyPair_injective (hm.trans hn.symm)
  omega

/-- An attempt leaves the accounts of other key pairs as they are. -/
theorem AttemptTracks.unchanged {w w' : World (Chain τ) π} {landed : List (List (Instruction π))}
    {reported : List Address} (h : AttemptTracks net programs kit payer w landed reported w')
    {a : Address} (ha : ¬ NewKey kit w w' a) :
    w'.chain.proofAccount a = w.chain.proofAccount a := by
  have hlife := life_of_executed h.executed a
  rw [h.others a ha] at hlife
  exact (Option.some.inj hlife).symm

theorem AttemptTracks.createdBefore {w w' : World (Chain τ) π} {landed : List (List (Instruction π))}
    {reported : List Address} (h : AttemptTracks net programs kit payer w landed reported w')
    (hw : CreatedBefore kit w) : CreatedBefore kit w' := by
  intro a ha
  rw [h.logged, createdAccounts_append, List.mem_append] at ha
  rcases ha with hold | hnew
  · obtain ⟨n, hlt, hn⟩ := hw a hold
    exact ⟨n, lt_of_lt_of_le hlt h.keyPairs, hn⟩
  · have hkey : NewKey kit w w' a := by
      by_contra hnot
      obtain ⟨lamports, hmem⟩ := mem_createdAccounts.mp hnew
      simp [h.others a hnot] at hmem
    obtain ⟨n, -, hlt, hn⟩ := hkey
    exact ⟨n, hlt, hn⟩

/-- An attempt reports what is open exactly if nothing was open before it. -/
theorem AttemptTracks.nothingUnreported_iff {w w' : World (Chain τ) π}
    {landed : List (List (Instruction π))} {reported : List Address}
    (h : AttemptTracks net programs kit payer w landed reported w') (hw : CreatedBefore kit w) :
    NothingUnreported reported w' ↔ NothingOpen w := by
  have hcreated : ∀ a, a ∈ createdAccounts (landedTransactions w'.events) ↔
      a ∈ createdAccounts (landedTransactions w.events) ∨ a ∈ createdAccounts landed := by
    intro a
    rw [h.logged, createdAccounts_append, List.mem_append]
  constructor
  · intro hall a ha
    by_contra hopen
    have hnot : ¬ NewKey kit w w' a := not_newKey (hw a ha)
    have hmem := hall a ((hcreated a).mpr (.inl ha)) (h.unchanged hnot ▸ hopen)
    exact hnot (h.subset a hmem)
  · intro hnone a ha hopen
    rcases (hcreated a).mp ha with hold | hnew
    · have hnot : ¬ NewKey kit w w' a := not_newKey (hw a hold)
      exact absurd ((h.unchanged hnot).trans (hnone a hold)) hopen
    · exact h.listed a hnew hopen

/-- If nothing is open after an attempt, nothing was open before it. -/
theorem AttemptTracks.nothingOpen {w w' : World (Chain τ) π} {landed : List (List (Instruction π))}
    {reported : List Address} (h : AttemptTracks net programs kit payer w landed reported w')
    (hw : CreatedBefore kit w) (hnone : NothingOpen w') : NothingOpen w := by
  intro a ha
  rw [← h.unchanged (not_newKey (hw a ha))]
  refine hnone a ?_
  rw [h.logged, createdAccounts_append]
  exact List.mem_append_left _ ha

/-- A call that has settled reports what it left open exactly if every failure it retried left nothing
    open. -/
structure ReportsIffRetriesClose (view : σ → World (Chain τ) π) (leftOpen : α → List Address)
    (run : Retry.Run σ Thrown α) : Prop where
  settled : ∀ outcome, run.outcome = some outcome →
    (NothingUnreported (reportedOpen leftOpen outcome) (view run.state) ↔
      ∀ failure ∈ run.retried, NothingOpen (view failure.2))

theorem ReportsIffRetriesClose.map {view : σ → World (Chain τ) π} {leftOpen : α → List Address}
    {leftOpen' : β → List Address} {run : Retry.Run σ Thrown α}
    (h : ReportsIffRetriesClose view leftOpen run) (f : α → β)
    (hf : ∀ a, leftOpen' (f a) = leftOpen a) :
    ReportsIffRetriesClose view leftOpen' (run.map f) where
  settled outcome' houtcome' := by
    obtain ⟨outcome, houtcome, rfl⟩ := Option.map_eq_some_iff.mp houtcome'
    rw [reportedOpen_map f hf]
    exact h.settled outcome houtcome

theorem withRetries_reports {view : σ → World (Chain τ) π} {leftOpen : α → List Address}
    {attempt : Effect σ Thrown α}
    (hattempt : KeepsTrack net programs kit payer view leftOpen attempt)
    (retries : Option JsNumber) (fuel : Nat) (s : σ) (hs : (view s).events = []) :
    ReportsIffRetriesClose view leftOpen (withRetries retries attempt fuel s) where
  settled outcome houtcome := by
    have hnone : createdAccounts (landedTransactions (view s).events) = [] := by
      rw [hs]
      rfl
    have hstep : ∀ s, CreatedBefore kit (view s) → attempt.wp (fun r s' =>
        CreatedBefore kit (view s') ∧ (NothingOpen (view s') → NothingOpen (view s)) ∧
          (NothingUnreported (reportedOpen leftOpen r) (view s') ↔ NothingOpen (view s))) s := by
      intro s hs
      refine (hattempt s).mono fun r s' h => ?_
      obtain ⟨landed, h⟩ := h
      exact ⟨h.createdBefore hs, h.nothingOpen hs, h.nothingUnreported_iff hs⟩
    have hbefore : CreatedBefore kit (view s) := by simp [CreatedBefore, hnone]
    have hopen : NothingOpen (view s) := by simp [NothingOpen, hnone]
    have hiff := Retry.run_good_iff hstep fuel 0 hbefore houtcome
    exact hiff.trans (and_iff_right hopen)

end Attempts

/-! ## The operations -/

section Operations

variable {F G : Type} [CommRing F] [AddCommGroup G] [Module F G] (c : Client (Chain τ) F G)
  (programs : Programs τ (ProofData F G))

/-- The same client, of a chain with these programs. -/
def Client.withPrograms : Client (Chain τ) F G := { c with net := c.net.withPrograms programs }

/-- The flow of an attempt, over key pairs generated for it. -/
theorem keepsTrack_flow {payer : Address}
    {flowOf : Effect (World (Chain τ) (ProofData F G)) Thrown (ProofFlow (ProofData F G))}
    {ctx : SendContext} (hpayer : ctx.payer = payer) (actionStep : String)
    (hflow : ∀ w, flowOf.wp (fun r w₁ => (∃ n, Generated n w w₁) ∧
      match r with
      | .error e => e.ReportsNone
      | .ok flow => FlowLives payer flow ∧ ∀ a ∈ flow.proofAccounts, NewKey c.kit w w₁ a) w) :
    KeepsTrack c.net programs c.kit payer id ProofFlowResult.proofAccountsLeftOpen
      (flowOf >>= fun flow =>
        executeProofFlow (c.net.withPrograms programs) c.kit ctx flow actionStep) := by
  subst hpayer
  intro w
  refine Effect.wp.bind (hflow w) (fun flow w₁ h => ?_) (fun e w₁ h => ?_)
  · obtain ⟨⟨n, hgen⟩, hlives, hnew⟩ := h
    refine (executeProofFlow_tracks c.net programs c.kit ctx hlives actionStep w₁).mono
      fun r w' h => ?_
    obtain ⟨landed, htracks⟩ := h
    exact ⟨landed, .of_flow hgen.events hgen.chain hnew hgen.keyPairs_le htracks⟩
  · obtain ⟨⟨n, hgen⟩, hnone⟩ := h
    have hreported : reportedOpen ProofFlowResult.proofAccountsLeftOpen (.error e) = [] := hnone
    refine ⟨[], ?_⟩
    rw [hreported]
    exact .generated (congrArg landedTransactions hgen.events) hgen.chain hgen.keyPairs_le

theorem flowOf_transfer (input : TransferFlowInput F) (w : World (Chain τ) (ProofData F G)) :
    (getConfidentialTransferProofFlow (c.net.withPrograms programs) c.kit c.zk c.transferRandomness
      input).wp (fun r w₁ => (∃ n, Generated n w w₁) ∧
      match r with
      | .error e => e.ReportsNone
      | .ok flow => FlowLives input.payer flow ∧ ∀ a ∈ flow.proofAccounts, NewKey c.kit w w₁ a) w := by
  refine (getConfidentialTransferProofFlow_wp _ c.kit c.zk _ input w).mono fun r w₁ h => ?_
  cases r with
  | error e =>
    obtain ⟨hgen, hproofs | ⟨n, message, -, rfl⟩⟩ := h
    · exact ⟨hgen, (coded_transferProofs c.zk _ _ e hproofs).reportsNone⟩
    · exact ⟨hgen, rfl⟩
  | ok flow =>
    obtain ⟨hgen, proofs, -, rfl⟩ := h
    refine ⟨⟨3, hgen⟩, flowLives_transferFlow _ _ _ _ _, fun a ha => ?_⟩
    have hkeys := hgen.keyPairs
    obtain rfl | rfl | rfl : a = c.kit.generateKeyPair w.keyPairs ∨
        a = c.kit.generateKeyPair (w.keyPairs + 1) ∨ a = c.kit.generateKeyPair (w.keyPairs + 2) := by
      simpa [transferFlow, proofFlowOf, contextStateProofPlan] using ha
    · exact ⟨_, Nat.le_refl _, by omega, rfl⟩
    · exact ⟨_, by omega, by omega, rfl⟩
    · exact ⟨_, by omega, by omega, rfl⟩

theorem flowOf_withdraw (input : WithdrawFlowInput F) (w : World (Chain τ) (ProofData F G)) :
    (getConfidentialWithdrawProofFlow (c.net.withPrograms programs) c.kit c.zk c.withdrawRandomness
      input).wp (fun r w₁ => (∃ n, Generated n w w₁) ∧
      match r with
      | .error e => e.ReportsNone
      | .ok flow => FlowLives input.payer flow ∧ ∀ a ∈ flow.proofAccounts, NewKey c.kit w w₁ a) w := by
  refine (getConfidentialWithdrawProofFlow_wp _ c.kit c.zk _ input w).mono fun r w₁ h => ?_
  cases r with
  | error e =>
    obtain ⟨hgen, hproofs | ⟨n, message, -, rfl⟩⟩ := h
    · exact ⟨hgen, (coded_withdrawProofs c.zk _ _ e hproofs).reportsNone⟩
    · exact ⟨hgen, rfl⟩
  | ok flow =>
    obtain ⟨hgen, proofs, -, rfl⟩ := h
    refine ⟨⟨2, hgen⟩, flowLives_withdrawFlow _ _ _ _ _, fun a ha => ?_⟩
    have hkeys := hgen.keyPairs
    obtain rfl | rfl : a = c.kit.generateKeyPair w.keyPairs ∨
        a = c.kit.generateKeyPair (w.keyPairs + 1) := by
      simpa [withdrawFlow, proofFlowOf, contextStateProofPlan] using ha
    · exact ⟨_, Nat.le_refl _, by omega, rfl⟩
    · exact ⟨_, by omega, by omega, rfl⟩

/-- A flow run in a session. -/
theorem KeepsTrack.onFst {net : Network (Chain τ) π} {kit : Kit π} {programs : Programs τ π}
    {payer : Address} {leftOpen : α → List Address} {m : Effect (World (Chain τ) π) Thrown α}
    (h : KeepsTrack net programs kit payer id leftOpen m) :
    KeepsTrack net programs kit payer Prod.fst leftOpen
      (Effect.onFst m : Effect (World (Chain τ) π × β) Thrown α) :=
  fun s => h s.1

theorem keepsTrack_transferAttempt (input : TransferInput F)
    (programAddress sourceToken destination : Address) :
    KeepsTrack c.net programs c.kit input.payer Prod.fst ProofFlowResult.proofAccountsLeftOpen
      (transferAttempt (c.withPrograms programs) input programAddress sourceToken destination) := by
  refine .bind (within_both _ (readOnly_readConfiguredAccount _ _ _ _)
    (readOnly_readConfiguredAccount _ _ _ _)).onFst
    (raises_both _ (raises_readConfiguredAccount _ _ _ _)
      (raises_readConfiguredAccount _ _ _ _)).onFst fun accounts => ?_
  refine .bind (.ofExcept _) (.ofExcept (raises_assertCanReceive _ _ _ _)) fun _ => ?_
  refine .bind (c.resolve_readOnly _ _ _ _ _).onFst
    ((c.resolve_plain _ _ _ _ _).mono fun _ h => h.coded []).onFst fun hookAccounts => ?_
  refine .bind (readOnly_sessionKeys input.owner _) (raises_sessionKeys input.owner _) fun keys => ?_
  refine .bind (.ofExcept _) (.ofExcept (raises_assertKeysMatchAccount _ _ _ _ _)) fun _ => ?_
  refine .bind (readOnly_givenOrMintAuditorKey _ _ _).onFst
    ((raises_givenOrMintAuditorKey _ _ _).mono fun _ h => h.coded []).onFst fun auditor => ?_
  rw [← Effect.onFst_bind]
  refine .onFst (keepsTrack_flow c programs ?_ "transfer" ?_)
  · rfl
  · exact flowOf_transfer c programs _

theorem keepsTrack_withdrawAttempt (input : WithdrawInput F) (programAddress token : Address) :
    KeepsTrack c.net programs c.kit input.payer Prod.fst ProofFlowResult.proofAccountsLeftOpen
      (withdrawAttempt (c.withPrograms programs) input programAddress token) := by
  refine .bind (readOnly_readConfiguredAccount _ _ _ _).onFst
    (raises_readConfiguredAccount _ _ _ _).onFst fun account => ?_
  refine .bind (readOnly_sessionKeys input.owner _) (raises_sessionKeys input.owner _) fun keys => ?_
  refine .bind (.ofExcept _) (.ofExcept (raises_assertKeysMatchAccount _ _ _ _ _)) fun _ => ?_
  rw [← Effect.onFst_bind]
  refine .onFst (keepsTrack_flow c programs ?_ "withdraw" ?_)
  · rfl
  · exact flowOf_withdraw c programs _

/-- A transfer or withdraw that has settled reports every proof account it created and left on the
    chain exactly if every failure it retried had left none. -/
theorem reports_open_accounts_iff (fuel : Nat) (chain : Chain τ) (clock keyPairs : Nat) :
    (∀ input : TransferInput F, Attempts
      (ReportsIffRetriesClose Prod.fst TransferResult.proofAccountsLeftOpen)
      (transfer (c.withPrograms programs) input fuel { chain, clock, keyPairs })) ∧
    (∀ input : WithdrawInput F, Attempts
      (ReportsIffRetriesClose Prod.fst WithdrawResult.proofAccountsLeftOpen)
      (withdraw (c.withPrograms programs) input fuel { chain, clock, keyPairs })) := by
  refine ⟨fun input => ?_, fun input => ?_⟩
  · exact attempts_of_bind fun tokens =>
      (withRetries_reports (keepsTrack_transferAttempt c programs input _ _ _) _ fuel _ rfl).map _
        fun _ => rfl
  · exact attempts_of_bind fun _ =>
      (withRetries_reports (keepsTrack_withdrawAttempt c programs input _ _) _ fuel _ rfl).map _
        fun _ => rfl

end Operations

/-! ## A retry that forgets an account -/

namespace ForgottenAccount

/-- The transaction of the range proof expires, and after the cleanup the service is gone. -/
def net : Network (Chain Unit) (ProofData (ZMod (2 ^ 128)) (ZMod (2 ^ 128))) where
  execute _ _ _ := none
  token _ _ _ := .ok (some TenTokens.account)
  delivered n _ := n != 9
  refused n _ := if 15 ≤ n then some "service unavailable" else none

def programs : Programs Unit (ProofData (ZMod (2 ^ 128)) (ZMod (2 ^ 128))) where
  operation _ _ _ := some ()

/-- A withdraw that may be retried once. -/
def input : WithdrawInput (ZMod (2 ^ 128)) where
  payer := "payer"
  owner := { address := "alice", deriveConfidentialKeys := fun _ => .ok TenTokens.keys }
  mint := "mint"
  amount := 3
  decimals := 0
  keys := some TenTokens.keys
  retries := some (.ofNat 1)

end ForgottenAccount

/-- The first attempt creates the account of the range proof, expires before it is verified and cannot
    close it. The second attempt fails on its first request, and its error lists nothing. -/
theorem retry_forgets_account : ∃ run,
    withdraw ((Client.packing ForgottenAccount.net).withPrograms ForgottenAccount.programs)
      ForgottenAccount.input 2 { chain := ⟨∅, ()⟩ } = .ok run ∧
    run.outcome = some (.error (.other "service unavailable")) ∧
    ¬ NothingUnreported (reportedOpen WithdrawResult.proofAccountsLeftOpen
      (.error (.other "service unavailable"))) run.state.1 := by
  refine ⟨_, rfl, rfl, fun hall => ?_⟩
  have hmem : "k" ∈ reportedOpen WithdrawResult.proofAccountsLeftOpen
      (.error (.other "service unavailable")) := by
    refine hall "k" ?_ ?_
    · exact List.mem_of_getElem? (i := 1) rfl
    · exact Option.isSome_iff_ne_none.mp rfl
  simp [reportedOpen, Thrown.leftOpen] at hmem

end Sdk
