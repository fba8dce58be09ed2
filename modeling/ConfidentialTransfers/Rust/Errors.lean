-- SUMMARY: The Rust crate's error.
import ConfidentialTransfers.Solana.Instruction

/-!
# The crate's errors

`error.rs`. The `source` of an error is left out: nothing reads it.
-/

open Solana

namespace Rust

inductive ErrorCode
  | invalidInput
  | accountNotFound
  | accountNotConfigured
  | accountAlreadyConfigured
  | accountNotApproved
  | recipientRejectsConfidential
  | pendingBalanceLimit
  | insufficientFunds
  | amountTooLarge
  | keysMismatch
  | decryptionFailed
  | cannotSignMessages
  | badMessageSignature
  | transactionFailed
  | transactionExpired
  | rpc
deriving DecidableEq, Repr

/-- Proof accounts of a call that failed partway: closed again, or left open. -/
structure ProofAccounts where
  closed : List Address := []
  leftOpen : List Address := []
deriving DecidableEq, Repr

structure Error where
  code : ErrorCode
  message : String
  operation : String
  step : Option String := none
  logs : List String := []
  signatures : List Signature := []
  proofAccounts : Option ProofAccounts := none
  retryable : Bool
deriving DecidableEq, Repr

namespace Error

/-- `Error::new`. -/
def new (code : ErrorCode) (operation message : String) : Error where
  code := code
  message := operation ++ ": " ++ message
  operation := operation
  retryable := code == .transactionExpired

def withStep (e : Error) (step : String) : Error := { e with step := some step }

def withLogs (e : Error) (logs : List String) : Error := { e with logs := logs }

def withSignatures (e : Error) (signatures : List Signature) : Error :=
  { e with signatures := signatures }

def withProofAccounts (e : Error) (proofAccounts : ProofAccounts) : Error :=
  { e with proofAccounts := some proofAccounts }

/-- `error.within(operation)`: the same error, reported as part of another operation. -/
def within (e : Error) (operation : String) : Error :=
  let detail :=
    match e.message.splitOn ": " with
    | _ :: rest => if rest.isEmpty then e.message else ": ".intercalate rest
    | [] => e.message
  { e with message := operation ++ ": " ++ detail, operation := operation }

end Error

end Rust
