-- SUMMARY: The TypeScript SDK's configureAccount.
import ConfidentialTransfers.Sdk.AccountSetup
import ConfidentialTransfers.Sdk.PendingBalance

/-!
# configureAccount

`configureAccount.ts`. The account is read and the keys are found once; every
attempt then builds the transaction anew, with a new proof and a new encryption
of zero. How a transaction of these instructions is sent is a parameter.
-/

open Solana

namespace Sdk

variable {χ π F G : Type} [CommRing F] [AddCommGroup G] [Module F G]

structure ConfigureAccountInput (F : Type) [CommRing F] extends SendOptions where
  payer : Address
  owner : Owner F
  mint : Address
  keys : Option (ConfidentialKeypairs F) := none
  maximumPendingBalanceCreditCounter : Option Int := none
  programAddress : Option Address := none

structure ConfigureAccountResult (F : Type) [CommRing F] where
  keys : ConfidentialKeypairs F
  token : Address
  signature : Signature

/-- What configuring takes from the zk-sdk and from the sending layer. -/
structure ConfigureSurroundings (χ π F G : Type) [CommRing F] where
  /-- `new PubkeyValidityProofData(elgamalKeypair)`, at the given request count. -/
  pubkeyValidityProofData : Nat → ConfidentialKeypairs F → Except String π
  /-- The encoder of the counter. -/
  u64 : U64Encoder
  /-- `sendInstructions`. -/
  send : SendContext → List (SetupInstruction π) → Effect (World χ (ProofData F G)) Thrown Signature

variable (c : Client χ F G) (surroundings : ConfigureSurroundings χ π F G)

/-- What comes before the attempts: the account must not be configured yet, and the keys are found. -/
def configureKeys (input : ConfigureAccountInput F) (token : Address) :
    Effect (World χ (ProofData F G)) Thrown (ConfidentialKeypairs F) := do
  let operation := "configureAccount"
  let existing ← fetchMaybeToken c.net token
  if (existing.bind confidentialState).isSome then
    Effect.throw (.sdk (.new .accountAlreadyConfigured
      (operation ++ ": token account " ++ token ++ " is already configured for confidential transfers.")
      { operation := some operation }))
  else ownerKeys input.owner input.keys operation

/-- The instructions of an attempt, with the randomness of the given request count. -/
def configureInstructions (input : ConfigureAccountInput F) (programAddress token : Address)
    (keys : ConfidentialKeypairs F) (n : Nat) : Except Thrown (List (SetupInstruction π)) := do
  -- configure's proofInstructionOffset = 1 points to the verify instruction that follows it
  let proofData ← (surroundings.pubkeyValidityProofData n keys).mapError .other
  let maximum ← configuredMaximum surroundings.u64 input.maximumPendingBalanceCreditCounter
  pure
    [.createAssociatedTokenIdempotent input.payer token input.owner.address input.mint programAddress,
      .reallocate programAddress token input.payer input.owner.address [.confidentialTransferAccount],
      .configureConfidentialTransferAccount
        { programAddress
          token
          mint := input.mint
          authority := input.owner.address
          decryptableZeroBalance := c.zk.aeEncrypt keys.aesKey (c.nonce n) 0
          maximumPendingBalanceCreditCounter := maximum
          proofInstructionOffset := 1 },
      .verifyPubkeyValidity proofData]

def configureAttempt (input : ConfigureAccountInput F) (programAddress token : Address)
    (keys : ConfidentialKeypairs F) : Effect (World χ (ProofData F G)) Thrown Signature := do
  let w ← Effect.get
  let instructions ← Effect.ofExcept
    (configureInstructions c surroundings input programAddress token keys w.clock)
  surroundings.send
    { payer := input.payer, operation := "configureAccount", computeUnitPrice := input.computeUnitPrice }
    instructions

def configureAccount (input : ConfigureAccountInput F) (fuel : Nat) (w : World χ (ProofData F G)) :
    Retry.Run (World χ (ProofData F G)) Thrown (ConfigureAccountResult F) :=
  let programAddress := input.programAddress.getD token2022ProgramAddress
  let token := c.findAssociatedTokenPda input.owner.address programAddress input.mint
  match configureKeys c input token w with
  | (.error e, w') => { retried := [], outcome := some (.error e), state := w' }
  | (.ok keys, w') =>
    (withRetries input.retries (configureAttempt c surroundings input programAddress token keys) fuel w').map
      fun signature => { keys, token, signature }

/-! ## What an attempt sends -/

/-- The account that an attempt sets up. -/
def configureTarget (input : ConfigureAccountInput F) (programAddress token : Address)
    (keys : ConfidentialKeypairs F) (n maximum : Nat) : SetupTarget where
  payer := input.payer
  owner := input.owner.address
  program := programAddress
  mint := input.mint
  token := token
  decryptableZeroBalance := c.zk.aeEncrypt keys.aesKey (c.nonce n) 0
  maximumPendingBalanceCreditCounter := maximum

variable {c surroundings} {input : ConfigureAccountInput F} {programAddress token : Address}
  {keys : ConfidentialKeypairs F} {n : Nat} {is : List (SetupInstruction π)}

/-- An attempt creates the account in any case. -/
theorem configureInstructions_eq_ok
    (h : configureInstructions c surroundings input programAddress token keys n = .ok is) :
    ∃ proof maximum, surroundings.pubkeyValidityProofData n keys = .ok proof ∧
      configuredMaximum surroundings.u64 input.maximumPendingBalanceCreditCounter = .ok maximum ∧
      is = (configureTarget c input programAddress token keys n maximum).instructions true proof := by
  obtain ⟨proof, hproof, h⟩ := Except.bind_eq_ok_iff.mp h
  obtain ⟨maximum, hmaximum, h⟩ := Except.bind_eq_ok_iff.mp h
  refine ⟨proof, maximum, Except.mapError_eq_ok_iff.mp hproof, hmaximum, ?_⟩
  exact (Except.ok.inj h).symm

/-- A call that is rejected by its first checks makes no attempt. -/
theorem configureAccount_of_error {fuel : Nat} {w w' : World χ (ProofData F G)} {e : Thrown}
    (hprogram : programAddress = input.programAddress.getD token2022ProgramAddress)
    (htoken : token = c.findAssociatedTokenPda input.owner.address programAddress input.mint)
    (h : configureKeys c input token w = (.error e, w')) :
    configureAccount c surroundings input fuel w =
      { retried := [], outcome := some (.error e), state := w' } := by
  subst hprogram htoken
  simp only [configureAccount, h]

/-! ## What a call does to the chain -/

theorem readOnly_configureKeys (input : ConfigureAccountInput F) (token : Address) :
    (configureKeys c input token).Within World.ReadOnly := by
  have hfetch : (fetchMaybeToken c.net token).Within World.ReadOnly :=
    (silent_fetchMaybeToken c.net token).mono fun _ _ h => h.readOnly
  refine hfetch.bind fun existing => ?_
  split
  · exact .throw _
  · exact readOnly_ownerKeys _ _ _

/-- What the sending layer does with the instructions of a call's attempts is all that the call does. -/
theorem configureAccount_within {R : World χ (ProofData F G) → World χ (ProofData F G) → Prop}
    [IsPreorder _ R] (hread : ∀ w w', World.ReadOnly w w' → R w w')
    (hprogram : programAddress = input.programAddress.getD token2022ProgramAddress)
    (htoken : token = c.findAssociatedTokenPda input.owner.address programAddress input.mint)
    (w : World χ (ProofData F G))
    (hsend : ∀ keys n is ctx, (configureKeys c input token w).1 = .ok keys →
      configureInstructions c surroundings input programAddress token keys n = .ok is →
      (surroundings.send ctx is).Within R)
    (fuel : Nat) : R w (configureAccount c surroundings input fuel w).state := by
  subst hprogram htoken
  unfold configureAccount
  have hkeys := readOnly_configureKeys (c := c) input (c.findAssociatedTokenPda input.owner.address
    (input.programAddress.getD token2022ProgramAddress) input.mint) w
  rcases h : configureKeys c input (c.findAssociatedTokenPda input.owner.address
    (input.programAddress.getD token2022ProgramAddress) input.mint) w with ⟨r, w'⟩
  have hw' : R w w' := hread w w' (hkeys.run h)
  cases r with
  | error e => simpa only [h] using hw'
  | ok keys =>
    have hattempt : (configureAttempt c surroundings input
        (input.programAddress.getD token2022ProgramAddress) (c.findAssociatedTokenPda input.owner.address
          (input.programAddress.getD token2022ProgramAddress) input.mint) keys).Within R := by
      refine .bind .get fun w₁ => ?_
      cases his : configureInstructions c surroundings input
          (input.programAddress.getD token2022ProgramAddress) (c.findAssociatedTokenPda
            input.owner.address (input.programAddress.getD token2022ProgramAddress) input.mint) keys
          w₁.clock with
      | error e => exact .throw e
      | ok is => exact hsend keys w₁.clock is _ (congrArg Prod.fst h) his
    have hrun : R w' (Retry.run (retryAgain input.retries) _ fuel 0 w').state :=
      Retry.run_within hattempt fuel 0 w'
    simp only [h]
    exact IsTrans.trans w w' _ hw' hrun

end Sdk
