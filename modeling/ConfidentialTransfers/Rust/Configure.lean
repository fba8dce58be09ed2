-- SUMMARY: The Rust crate's configure_account.
import ConfidentialTransfers.Rust.Client
import ConfidentialTransfers.Sdk.AccountSetup

/-!
# configure_account

`client.rs`. Unlike the TypeScript SDK the crate reads the mint first, and
creates the account only if it did not find it. How a transaction of these
instructions is sent is a parameter; every retry sends the same ones.
-/

open Solana

namespace Rust

variable {χ π F G : Type} [CommRing F] [AddCommGroup G] [Module F G]

structure ConfigureAccountResult where
  tokenAccount : Address
  signature : Signature
deriving DecidableEq, Repr

/-- `DEFAULT_MAXIMUM_PENDING_BALANCE_CREDIT_COUNTER`, of `spl_token_2022_interface`. -/
def defaultMaximumPendingBalanceCreditCounter : Nat := 65536

namespace Client

variable (c : Client χ π F G)

/-- The instructions, for an account that was found or not. -/
def configureInstructions (owner mint token : Address) (existing : Option Token)
    (keys : ConfidentialKeypairs F) (n : Nat) : Except Error (List (Sdk.SetupInstruction π)) := do
  let operation := "configure_account"
  let create : List (Sdk.SetupInstruction π) :=
    if existing.isNone then
      [.createAssociatedTokenIdempotent c.payer token owner mint token2022ProgramAddress]
    else []
  -- `reallocate` and `configure_account` fail like the other builders
  let _ ← c.tokenInstruction.mapError (buildError operation)
  let proof ← (c.pubkeyValidityProofData n keys).mapError fun e =>
    .new .invalidInput operation ("cannot prove the ElGamal key: " ++ e)
  pure (create ++
    [.reallocate token2022ProgramAddress token c.payer owner [.confidentialTransferAccount],
      .configureConfidentialTransferAccount
        { programAddress := token2022ProgramAddress
          token
          mint
          authority := owner
          decryptableZeroBalance := c.zk.aeEncrypt keys.aesKey n 0
          maximumPendingBalanceCreditCounter := defaultMaximumPendingBalanceCreditCounter
          proofInstructionOffset := 1 },
      .verifyPubkeyValidity proof])

/-- What `configure_account` does before it sends. -/
def buildConfigure (owner : Signer F) (mint : Address) :
    Effect (World χ π) Error (List (Sdk.SetupInstruction π)) := do
  let operation := "configure_account"
  let _ ← readMint c.net c.accounts c.zk token2022ProgramAddress mint operation
  let token := c.tokenAccount owner.pubkey mint
  let existing ← readTokenAccount c.net c.accounts token mint operation
  if (existing.bind Sdk.confidentialState).isSome then
    Effect.throw (.new .accountAlreadyConfigured operation
      ("token account " ++ token ++ " is already configured for confidential transfers"))
  else do
    let keys ← deriveKeys owner operation
    let w ← Effect.get
    Effect.ofExcept (c.configureInstructions owner.pubkey mint token existing keys w.clock)

/-- Create the owner's token account if needed and configure it. `send` is `Sender::send`. -/
def configureAccount (send : List (Sdk.SetupInstruction π) → Effect (World χ π) Error Signature)
    (owner : Signer F) (mint : Address) : Effect (World χ π) Error ConfigureAccountResult := do
  let instructions ← c.buildConfigure owner mint
  let signature ← send instructions
  pure { tokenAccount := c.tokenAccount owner.pubkey mint, signature }

/-- The account that the instructions set up. -/
def configureTarget (owner mint token : Address) (keys : ConfidentialKeypairs F) (n : Nat) :
    Sdk.SetupTarget where
  payer := c.payer
  owner := owner
  program := token2022ProgramAddress
  mint := mint
  token := token
  decryptableZeroBalance := c.zk.aeEncrypt keys.aesKey n 0
  maximumPendingBalanceCreditCounter := defaultMaximumPendingBalanceCreditCounter

variable {c} {owner mint token : Address} {existing : Option Token} {keys : ConfidentialKeypairs F} {n : Nat}
  {is : List (Sdk.SetupInstruction π)}

/-- The account is created if it was not found. -/
theorem configureInstructions_eq_ok (h : c.configureInstructions owner mint token existing keys n = .ok is) :
    ∃ proof, c.pubkeyValidityProofData n keys = .ok proof ∧
      is = (c.configureTarget owner mint token keys n).instructions existing.isNone proof := by
  obtain ⟨_, -, h⟩ := Except.bind_eq_ok_iff.mp h
  obtain ⟨proof, hproof, h⟩ := Except.bind_eq_ok_iff.mp h
  exact ⟨proof, Except.mapError_eq_ok_iff.mp hproof, (Except.ok.inj h).symm⟩

end Client

end Rust
