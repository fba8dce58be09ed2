-- SUMMARY: The Rust crate's remaining calls: applying and reading a balance, and recovering proof accounts.
import ConfidentialTransfers.Rust.Client

/-!
# Balances and recovery

The calls of `client.rs` that need no proofs. What decrypts a pending balance is
in the Solana crates.
-/

open Solana

namespace Rust

variable {χ π F G : Type} [CommRing F] [AddCommGroup G] [Module F G]

/-- `ApplyPendingBalanceAccountInfo::new_decryptable_available_balance`, drawing its randomness at the given
    request count. -/
abbrev AppliedBalance (F : Type) [CommRing F] :=
  Nat → ConfidentialTransferAccountState → ConfidentialKeypairs F → Except String Bytes

structure PendingBalanceUpdate where
  expectedPendingBalanceCreditCounter : Nat
  newDecryptableAvailableBalance : Bytes
deriving DecidableEq, Repr

/-- `pending_update`, at the given request count. -/
def pendingUpdate (applied : AppliedBalance F) (n : Nat) (ct : ConfidentialTransferAccountState)
    (keys : ConfidentialKeypairs F) (token : Address) (operation : String) :
    Except Error PendingBalanceUpdate := do
  let newBalance ← (applied n ct keys).mapError fun e => .new .decryptionFailed operation
    ("could not decrypt the pending balance of " ++ token ++ " (" ++ e ++ "). Incoming amounts may add up to " ++
      "more than can be decrypted at once (about 2^48 base units).")
  pure
    { expectedPendingBalanceCreditCounter := ct.pendingBalanceCreditCounter
      newDecryptableAvailableBalance := newBalance }

structure RecoverProofAccountsResult where
  closed : List Address
  leftOpen : List Address
  lamports : Nat
deriving DecidableEq, Repr

namespace Client

variable (c : Client χ π F G)

def pendingBalanceUpdateInner (applied : AppliedBalance F) (operation : String) (mint token : Address)
    (keys : ConfidentialKeypairs F) : Effect (World χ π) Error PendingBalanceUpdate := do
  let (_, ct) ← readConfiguredAccount c.net c.accounts token mint operation "your"
  Effect.ofExcept (assertKeysMatch c.zk keys ct token operation)
  let w ← Effect.get
  Effect.ofExcept (pendingUpdate applied w.clock ct keys token operation)

/-- What `ApplyPendingBalance` needs for `token_account`, computed with its keys. -/
def pendingBalanceUpdate (applied : AppliedBalance F) (mint token : Address)
    (keys : ConfidentialKeypairs F) : Effect (World χ π) Error PendingBalanceUpdate :=
  c.pendingBalanceUpdateInner applied "pending_balance_update" mint token keys

/-- Move the owner's pending balance into the available balance. -/
def applyPendingBalance (applied : AppliedBalance F) (owner : Signer F) (mint : Address) :
    Effect (World χ π) Error Signature := do
  let operation := "apply_pending_balance"
  let token := c.tokenAccount owner.pubkey mint
  let keys ← deriveKeys owner operation
  let update ← c.pendingBalanceUpdateInner applied operation mint token keys
  let build ← Effect.ofExcept (c.tokenInstruction.mapError (buildError operation))
  let instruction := build (.applyPendingBalance token owner.pubkey
    update.expectedPendingBalanceCreditCounter update.newDecryptableAvailableBalance)
  (c.sender operation).send c.net c.kit [.operation instruction] [owner.pubkey] operation

/-- The available confidential balance of any token account, with its keys. -/
def decryptBalanceOf (mint token : Address) (keys : ConfidentialKeypairs F) :
    Effect (World χ π) Error Nat := do
  let operation := "decrypt_balance"
  let (_, ct) ← readConfiguredAccount c.net c.accounts token mint operation "the"
  Effect.ofExcept (assertKeysMatch c.zk keys ct token operation)
  Effect.ofExcept (availableBalance c.zk ct keys.aesKey token operation)

/-- The owner's available confidential balance. -/
def decryptBalance (owner : Signer F) (mint : Address) : Effect (World χ π) Error Nat := do
  let keys ← deriveKeys owner "decrypt_balance"
  c.decryptBalanceOf mint (c.tokenAccount owner.pubkey mint) keys

/-- Find the proof accounts whose authority is the payer and close them, returning their rent. -/
def recoverProofAccounts : Effect (World χ π) Error RecoverProofAccountsResult := do
  let sender := c.sender "recover_proof_accounts"
  let found ← Effect.mapError sender.rpcError
    (c.net.request (.getProgramAccounts c.payer) fun n chain => c.net.programAccounts n chain c.payer)
  let (outcome, _) ← closeProofAccounts sender c.net c.kit (found.map Prod.fst)
  pure
    { closed := outcome.closed
      leftOpen := outcome.leftOpen
      lamports := ((found.filter fun x => outcome.closed.contains x.1).map Prod.snd).sum }

end Client

end Rust
