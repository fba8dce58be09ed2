-- SUMMARY: Token accounts and mints as kit decodes them.
import ConfidentialTransfers.Solana.Instruction

/-!
# Decoded accounts

What `fetchMaybeToken` and `fetchMint` return, as far as the SDK reads it.
-/

namespace Solana

/-- The decoded `ConfidentialTransferAccount` extension. -/
structure ConfidentialTransferAccountState where
  approved : Bool
  elgamalPubkey : Address
  pendingBalanceLow : Bytes
  pendingBalanceHigh : Bytes
  availableBalance : Bytes
  decryptableAvailableBalance : Bytes
  allowConfidentialCredits : Bool
  pendingBalanceCreditCounter : Nat
  maximumPendingBalanceCreditCounter : Nat
  expectedPendingBalanceCreditCounter : Nat := 0
  actualPendingBalanceCreditCounter : Nat := 0
deriving DecidableEq, Repr

/-- An extension of a token account. -/
inductive Extension
  | confidentialTransferAccount (state : ConfidentialTransferAccountState)
  | other (kind : String)
deriving DecidableEq, Repr

/-- A decoded token account; `extensions` is kit's `Option`. -/
structure Token where
  amount : Nat
  extensions : Option (List Extension)
deriving DecidableEq, Repr

/-- An extension of a mint. -/
inductive MintExtension
  | confidentialTransferMint (auditorElgamalPubkey : Option Address)
  | transferHook (programId : Option Address)
  | other (kind : String)
deriving DecidableEq, Repr

/-- A decoded mint. -/
structure Mint where
  extensions : Option (List MintExtension)
  decimals : Nat := 0
deriving DecidableEq, Repr

end Solana
