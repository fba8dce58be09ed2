-- SUMMARY: What the Rust crate's transfer and withdraw check before they create proof accounts.
import ConfidentialTransfers.Rust.Client

/-!
# The crate's checks before sending

`depositChecks` is part of `deposit` already; here `transfer` and `withdraw` are cut
where their checks end.
-/

open Solana

namespace Rust

namespace Client

variable {χ π F G : Type} [CommRing F] [AddCommGroup G] [Module F G] (c : Client χ π F G)

/-- All checks of a transfer, and what its proofs are then generated from. -/
def transferOperationChecks (owner : Signer F) (mint destinationOwner : Address) (amount : Nat) :
    Effect (World χ π) Error
      (MintInfo G × ConfidentialKeypairs F × ConfidentialTransferAccountState × G) := do
  let operation := "transfer"
  Effect.ofExcept (checkAmount amount operation true)
  let mintInfo ← readMint c.net c.accounts c.zk token2022ProgramAddress mint operation
  let source := c.tokenAccount owner.pubkey mint
  let destination := c.tokenAccount destinationOwner mint
  let keys ← deriveKeys owner operation
  let (sourceCt, destinationPubkey) ←
    c.transferChecks operation mint source keys destination amount
  pure (mintInfo, keys, sourceCt, destinationPubkey)

/-- All checks of a withdraw, and what its proofs are then generated from. -/
def withdrawOperationChecks (owner : Signer F) (mint : Address) (amount : Nat) :
    Effect (World χ π) Error
      (MintInfo G × ConfidentialKeypairs F × ConfidentialTransferAccountState) := do
  let operation := "withdraw"
  Effect.ofExcept (checkAmount amount operation false)
  let mintInfo ← readMint c.net c.accounts c.zk token2022ProgramAddress mint operation
  let token := c.tokenAccount owner.pubkey mint
  let keys ← deriveKeys owner operation
  let ct ← c.withdrawChecks operation mint token keys amount
  pure (mintInfo, keys, ct)

/-- A transfer checks first. -/
theorem transfer_guarded (owner : Signer F) (mint destinationOwner : Address) (amount : Nat) :
    (c.transferOperationChecks owner mint destinationOwner amount).Guards
      (c.transfer owner mint destinationOwner amount) := by
  refine .bind fun _ => .bind fun mintInfo => .bind fun keys => ?_
  simp only [prepareTransferInner, bind_assoc]
  exact .bind fun _ => .pure

/-- A withdraw checks first. -/
theorem withdraw_guarded (owner : Signer F) (mint : Address) (amount : Nat) :
    (c.withdrawOperationChecks owner mint amount).Guards (c.withdraw owner mint amount) := by
  refine .bind fun _ => .bind fun mintInfo => .bind fun keys => ?_
  simp only [prepareWithdrawInner, bind_assoc]
  exact .bind fun _ => .pure

/-- A deposit checks first. -/
theorem deposit_guarded (owner : Signer F) (mint : Address) (amount : Nat) :
    (c.depositChecks owner mint amount).Guards (c.deposit owner mint amount) := by
  have hchecks : c.depositChecks owner mint amount =
      c.depositChecks owner mint amount >>= fun mintInfo => pure mintInfo := (bind_pure _).symm
  rw [hchecks]
  exact .bind fun _ => .pure

end Client

end Rust
