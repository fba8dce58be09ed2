-- SUMMARY: What deposit, transfer and withdraw check before they send anything.
import ConfidentialTransfers.Sdk.Amounts
import ConfidentialTransfers.Sdk.Operations

/-!
# The checks before sending

Every operation checks its amount, and every attempt then checks the accounts it
has read. Each operation here is cut where its checks end; what follows builds,
signs and sends.
-/

open Solana TwistedElGamal

namespace Sdk

variable {χ F G : Type} [CommRing F] [AddCommGroup G] [Module F G] (c : Client χ F G)

/-! ## deposit -/

/-- The checks of an attempt. -/
def depositAttemptChecks (input : DepositInput F) (token : Address) :
    Effect (World χ (ProofData F G)) Thrown Unit := do
  let operation := "deposit"
  let (data, ct) ← readConfiguredAccount c.net token operation "your"
  if data.amount < input.amount then
    Effect.throw (.sdk (.new .insufficientFunds
      (operation ++ ": the public balance of " ++ token ++ " is " ++ toString data.amount ++
        ", less than " ++ toString input.amount ++ ".")
      { operation := some operation }))
  else
    Effect.ofExcept (assertCanReceive ct token operation "your")

/-- All checks of a deposit. -/
def depositChecks (input : DepositInput F) : Effect (World χ (ProofData F G)) Thrown Unit := do
  let programAddress := input.programAddress.getD token2022ProgramAddress
  Effect.ofExcept (checkDepositAmount input.amount)
  let token := input.token.getD (c.findAssociatedTokenPda input.owner.address programAddress input.mint)
  depositAttemptChecks c input token

/-- An attempt checks and then sends. -/
theorem depositAttempt_eq (input : DepositInput F) (programAddress token : Address) :
    depositAttempt c input programAddress token = depositAttemptChecks c input token >>= fun _ =>
      sendInstructions c.net c.kit
        { payer := input.payer, operation := "deposit", computeUnitPrice := input.computeUnitPrice }
        [.operation
          { ref := 0
            programAddress
            call := .deposit token input.mint input.owner.address input.amount.toNat input.decimals }] := by
  unfold depositAttempt depositAttemptChecks
  simp only [bind_assoc]
  congr 1
  funext account
  split
  · rfl
  · rfl

/-! ## transfer -/

/-- The checks among the computations of a transfer's proofs. -/
def transferProofChecks (zk : ZkSdk F G) (input : TransferProofInput F) : Except Thrown Unit := do
  let sourceAccount ← getRequiredConfidentialTransferAccountExtension input.sourceTokenAccount
  assertNonNegativeAmount input.amount
  assertTransferableAmount input.amount
  let _ ← getDestinationElGamalPubkey zk input
  let _ ← auditorPubkeyOf zk input.auditorElgamalPubkey
  let currentBalance ← decryptAvailableBalance zk sourceAccount input.keys.aesKey
  let _ ← computeNewAvailableBalance currentBalance input.amount

/-- Computing the proofs checks first. -/
theorem transferProofs_checked (zk : ZkSdk F G) (random : TransferRandomness F)
    (input : TransferProofInput F) :
    transferProofs zk random input =
      transferProofChecks zk input >>= fun _ => transferProofs zk random input := by
  unfold transferProofs transferProofChecks
  cases getRequiredConfidentialTransferAccountExtension input.sourceTokenAccount with
  | error e => rfl
  | ok sourceAccount =>
    cases assertNonNegativeAmount input.amount with
    | error e => rfl
    | ok _ =>
      cases assertTransferableAmount input.amount with
      | error e => rfl
      | ok _ =>
        cases getDestinationElGamalPubkey zk input with
        | error e => rfl
        | ok destination =>
          cases auditorPubkeyOf zk input.auditorElgamalPubkey with
          | error e => rfl
          | ok auditor =>
            simp only [(extractCiphertext_grouped zk _ _ _ _ _).1,
              (extractCiphertext_grouped zk _ _ _ _ _).2, Except.mapError, bind, Except.bind]
            cases decryptAvailableBalance zk sourceAccount input.keys.aesKey with
            | error e => rfl
            | ok balance =>
              simp only
              cases computeNewAvailableBalance balance input.amount with
              | error e => rfl
              | ok newBalance => rfl

/-- The checks of an attempt, and what the proof flow is then built from. -/
def transferAttemptChecks (input : TransferInput F) (programAddress sourceToken destination : Address) :
    Effect (Session χ F G) Thrown (TransferFlowInput F) := do
  let operation := "transfer"
  let (source, dest) ← Effect.onFst (both c
    (readConfiguredAccount c.net sourceToken operation "your")
    (readConfiguredAccount c.net destination operation "the recipient's"))
  Effect.ofExcept (assertCanReceive dest.2 destination operation "the recipient's")
  let transferHookAccounts ← Effect.onFst (c.resolveTransferHookAccounts input.mint sourceToken
    destination input.owner.address programAddress)
  let keys ← sessionKeys input.owner operation
  Effect.ofExcept (assertKeysMatchAccount c.zk keys source.1 sourceToken operation)
  let auditorElgamalPubkey ← Effect.onFst (givenOrMintAuditorKey c input.auditorElgamalPubkey input.mint)
  let flowInput : TransferFlowInput F :=
    { payer := input.payer
      sourceToken
      mint := input.mint
      destinationToken := destination
      sourceTokenAccount := source.1
      destinationTokenAccount := some dest.1
      authority := input.owner.address
      amount := input.amount
      keys
      auditorElgamalPubkey
      transferHookAccounts
      programAddress := some programAddress }
  Effect.ofExcept (transferProofChecks c.zk flowInput.toTransferProofInput)
  pure flowInput

/-- All checks of a transfer. -/
def transferChecks (input : TransferInput F) : Effect (Session χ F G) Thrown (TransferFlowInput F) := do
  let programAddress := input.programAddress.getD token2022ProgramAddress
  let (sourceToken, destination) ← Effect.ofExcept (transferTokens c input programAddress)
  transferAttemptChecks c input programAddress sourceToken destination

theorem getConfidentialTransferProofFlow_checked (input : TransferFlowInput F) :
    (Effect.onFst (getConfidentialTransferProofFlow c.net c.kit c.zk c.transferRandomness input) :
        Effect (Session χ F G) Thrown _) =
      Effect.ofExcept (transferProofChecks c.zk input.toTransferProofInput) >>= fun _ =>
        Effect.onFst (getConfidentialTransferProofFlow c.net c.kit c.zk c.transferRandomness input) := by
  funext ⟨w, keys⟩
  have hchecked := transferProofs_checked c.zk (c.transferRandomness w.clock) input.toTransferProofInput
  cases hchecks : transferProofChecks c.zk input.toTransferProofInput with
  | ok _ => rfl
  | error e =>
    rw [hchecks] at hchecked
    have hfailed : transferProofs c.zk (c.transferRandomness w.clock) input.toTransferProofInput =
      .error e := hchecked
    simp [getConfidentialTransferProofFlow, bind, Effect.get, Effect.ofExcept, Effect.onFst, hfailed]

/-- An attempt checks, and then builds its flow and runs it. -/
theorem transferAttempt_eq (input : TransferInput F)
    (programAddress sourceToken destination : Address) :
    transferAttempt c input programAddress sourceToken destination =
      transferAttemptChecks c input programAddress sourceToken destination >>= fun flowInput =>
        Effect.onFst (getConfidentialTransferProofFlow c.net c.kit c.zk c.transferRandomness flowInput) >>=
          fun flow => Effect.onFst (executeProofFlow c.net c.kit
            { payer := input.payer, operation := "transfer", computeUnitPrice := input.computeUnitPrice }
            flow "transfer") := by
  unfold transferAttempt transferAttemptChecks
  simp only [bind_assoc, pure_bind]
  congr 1
  funext accounts
  congr 1
  funext _
  congr 1
  funext hookAccounts
  congr 1
  funext keys
  congr 1
  funext _
  congr 1
  funext auditor
  conv_lhs => rw [getConfidentialTransferProofFlow_checked, bind_assoc]

/-! ## withdraw -/

/-- The checks among the computations of a withdraw's proofs. -/
def withdrawProofChecks (zk : ZkSdk F G) (input : WithdrawProofInput F) : Except Thrown Unit := do
  let account ← getRequiredConfidentialTransferAccountExtension input.tokenAccount
  assertPositiveWithdraw input.amount
  let currentBalance ← decryptAvailableBalance zk account input.keys.aesKey
  let _ ← computeNewAvailableBalance currentBalance input.amount

theorem withdrawProofs_checked (zk : ZkSdk F G) (random : WithdrawRandomness F)
    (input : WithdrawProofInput F) :
    withdrawProofs zk random input =
      withdrawProofChecks zk input >>= fun _ => withdrawProofs zk random input := by
  unfold withdrawProofs withdrawProofChecks
  cases getRequiredConfidentialTransferAccountExtension input.tokenAccount with
  | error e => rfl
  | ok account =>
    cases assertPositiveWithdraw input.amount with
    | error e => rfl
    | ok _ =>
      simp only [bind, Except.bind]
      cases decryptAvailableBalance zk account input.keys.aesKey with
      | error e => rfl
      | ok balance =>
        simp only
        cases computeNewAvailableBalance balance input.amount with
        | error e => rfl
        | ok newBalance => rfl

/-- The checks of an attempt, and what the proof flow is then built from. -/
def withdrawAttemptChecks (input : WithdrawInput F) (programAddress token : Address) :
    Effect (Session χ F G) Thrown (WithdrawFlowInput F) := do
  let operation := "withdraw"
  let (data, _) ← Effect.onFst (readConfiguredAccount c.net token operation "your")
  let keys ← sessionKeys input.owner operation
  Effect.ofExcept (assertKeysMatchAccount c.zk keys data token operation)
  let flowInput : WithdrawFlowInput F :=
    { payer := input.payer
      token
      mint := input.mint
      tokenAccount := data
      authority := input.owner.address
      amount := input.amount
      decimals := input.decimals
      keys
      programAddress := some programAddress }
  Effect.ofExcept (withdrawProofChecks c.zk flowInput.toWithdrawProofInput)
  pure flowInput

/-- All checks of a withdraw. -/
def withdrawChecks (input : WithdrawInput F) : Effect (Session χ F G) Thrown (WithdrawFlowInput F) := do
  let programAddress := input.programAddress.getD token2022ProgramAddress
  Effect.ofExcept (checkWithdrawAmount input.amount)
  let token := input.token.getD (c.findAssociatedTokenPda input.owner.address programAddress input.mint)
  withdrawAttemptChecks c input programAddress token

theorem getConfidentialWithdrawProofFlow_checked (input : WithdrawFlowInput F) :
    (Effect.onFst (getConfidentialWithdrawProofFlow c.net c.kit c.zk c.withdrawRandomness input) :
        Effect (Session χ F G) Thrown _) =
      Effect.ofExcept (withdrawProofChecks c.zk input.toWithdrawProofInput) >>= fun _ =>
        Effect.onFst (getConfidentialWithdrawProofFlow c.net c.kit c.zk c.withdrawRandomness input) := by
  funext ⟨w, keys⟩
  have hchecked := withdrawProofs_checked c.zk (c.withdrawRandomness w.clock) input.toWithdrawProofInput
  cases hchecks : withdrawProofChecks c.zk input.toWithdrawProofInput with
  | ok _ => rfl
  | error e =>
    rw [hchecks] at hchecked
    have hfailed : withdrawProofs c.zk (c.withdrawRandomness w.clock) input.toWithdrawProofInput =
      .error e := hchecked
    simp [getConfidentialWithdrawProofFlow, bind, Effect.get, Effect.ofExcept, Effect.onFst, hfailed]

/-- An attempt checks, and then builds its flow and runs it. -/
theorem withdrawAttempt_eq (input : WithdrawInput F) (programAddress token : Address) :
    withdrawAttempt c input programAddress token =
      withdrawAttemptChecks c input programAddress token >>= fun flowInput =>
        Effect.onFst (getConfidentialWithdrawProofFlow c.net c.kit c.zk c.withdrawRandomness flowInput) >>=
          fun flow => Effect.onFst (executeProofFlow c.net c.kit
            { payer := input.payer, operation := "withdraw", computeUnitPrice := input.computeUnitPrice }
            flow "withdraw") := by
  unfold withdrawAttempt withdrawAttemptChecks
  simp only [bind_assoc, pure_bind]
  congr 1
  funext account
  congr 1
  funext keys
  congr 1
  funext _
  conv_lhs => rw [getConfidentialWithdrawProofFlow_checked, bind_assoc]

/-! ## What a caller sees -/

/-- A call that ends with `e`, in its first attempt or before it. -/
def RejectsWith {σ α : Type} (outcome : Except Thrown (Retry.Run σ Thrown α)) (e : Thrown) : Prop :=
  outcome = .error e ∨ ∃ run, outcome = .ok run ∧ run.retried = [] ∧ run.outcome = some (.error e)

/-- An attempt that starts with failing checks ends the loop. -/
theorem rejectsWith_of_checks {σ α β γ : Type} {checks : Effect σ Thrown α}
    {rest : α → Effect σ Thrown β} {f : β → γ} {retries : Option JsNumber} {fuel : Nat} {s : σ} {e : Thrown}
    (h : (checks s).1 = .error e) (hretryable : e.retryable = false) :
    RejectsWith (.ok ((withRetries retries (checks >>= rest) (fuel + 1) s).map f)) e := by
  rcases hrun : checks s with ⟨r, s'⟩
  obtain rfl : r = .error e := by simpa [hrun] using h
  have hagain : retryAgain retries 0 e = false := by simp [retryAgain, hretryable]
  have hattempt : (checks >>= rest) s = (.error e, s') := by simp [bind, hrun]
  refine .inr ⟨_, rfl, ?_⟩
  simp [withRetries, Retry.run, Retry.Run.map, hattempt, hagain, Except.map]

/-- A deposit rejects with the error of its first failing check. -/
theorem deposit_rejects {input : DepositInput F} {fuel : Nat} {w : World χ (ProofData F G)} {e : Thrown}
    (h : (depositChecks c input w).1 = .error e) (hretryable : e.retryable = false) :
    RejectsWith (deposit c input (fuel + 1) w) e := by
  unfold depositChecks at h
  unfold deposit
  simp only [depositAttempt_eq]
  cases hamount : checkDepositAmount input.amount with
  | error e' =>
    rw [hamount] at h
    obtain rfl := Except.error.inj h
    exact .inl rfl
  | ok _ =>
    rw [hamount] at h
    refine rejectsWith_of_checks ?_ hretryable
    exact h

/-- A transfer rejects with the error of its first failing check. -/
theorem transfer_rejects {input : TransferInput F} {fuel : Nat} {w : World χ (ProofData F G)} {e : Thrown}
    (h : (transferChecks c input (w, input.keys)).1 = .error e) (hretryable : e.retryable = false) :
    RejectsWith (transfer c input (fuel + 1) w) e := by
  unfold transferChecks at h
  unfold transfer
  simp only [transferAttempt_eq]
  cases htokens : transferTokens c input (input.programAddress.getD token2022ProgramAddress) with
  | error e' =>
    rw [htokens] at h
    obtain rfl := Except.error.inj h
    exact .inl (rfl)
  | ok tokens =>
    simp only [htokens] at h ⊢
    refine rejectsWith_of_checks ?_ hretryable
    exact h

/-- A withdraw rejects with the error of its first failing check. -/
theorem withdraw_rejects {input : WithdrawInput F} {fuel : Nat} {w : World χ (ProofData F G)} {e : Thrown}
    (h : (withdrawChecks c input (w, input.keys)).1 = .error e) (hretryable : e.retryable = false) :
    RejectsWith (withdraw c input (fuel + 1) w) e := by
  unfold withdrawChecks at h
  unfold withdraw
  simp only [withdrawAttempt_eq]
  cases hamount : checkWithdrawAmount input.amount with
  | error e' =>
    rw [hamount] at h
    obtain rfl := Except.error.inj h
    exact .inl rfl
  | ok _ =>
    rw [hamount] at h
    refine rejectsWith_of_checks ?_ hretryable
    exact h

end Sdk
