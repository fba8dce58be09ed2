-- SUMMARY: The SDK's typed errors.
import ConfidentialTransfers.Solana.Instruction

/-!
# Errors

`errors.ts`: every error the SDK throws on purpose is a
`ConfidentialTransfersError` with a code. Anything else a call rejects with (a
failed RPC request, a wallet that refuses) is a plain JavaScript error. The
`cause` of an error is left out: nothing reads it.
-/

open Solana

namespace Sdk

inductive ErrorCode
  | invalidInput
  | accountNotFound
  | accountNotConfigured
  | accountAlreadyConfigured
  | accountNotApproved
  | recipientRejectsConfidential
  | pendingBalanceLimit
  | insufficientFunds
  | amountTooLarge
  | keysMismatch
  | decryptionFailed
  | cannotSignMessages
  | badMessageSignature
  | cryptoUnavailable
  | transactionFailed
  | transactionExpired
deriving DecidableEq, Repr

/-- Proof accounts of a failed operation: closed again, or left open. -/
structure ProofAccounts where
  closed : List Address
  leftOpen : List Address
deriving DecidableEq, Repr

structure ConfidentialTransfersErrorDetails where
  operation : Option String := none
  step : Option String := none
  logs : Option (List String) := none
  signatures : Option (List Signature) := none
  proofAccounts : Option ProofAccounts := none
  retryable : Option Bool := none

structure ConfidentialTransfersError where
  code : ErrorCode
  message : String
  operation : Option String
  step : Option String
  logs : Option (List String)
  signatures : Option (List Signature)
  proofAccounts : Option ProofAccounts
  retryable : Bool
deriving DecidableEq, Repr

/-- The class's constructor: only an expired transaction is retryable unless the details say so. -/
def ConfidentialTransfersError.new (code : ErrorCode) (message : String)
    (details : ConfidentialTransfersErrorDetails := {}) : ConfidentialTransfersError where
  code := code
  message := message
  operation := details.operation
  step := details.step
  logs := details.logs
  signatures := details.signatures
  proofAccounts := details.proofAccounts
  retryable := details.retryable.getD (code == .transactionExpired)

/-- What a call can reject with. -/
inductive Thrown
  | sdk (error : ConfidentialTransfersError)
  | other (message : String)
deriving DecidableEq, Repr

/-- `e.message`. -/
def Thrown.message : Thrown → String
  | .sdk e => e.message
  | .other message => message

/-- `String(e)`: the error's name and its message. -/
def Thrown.toText : Thrown → String
  | .sdk e => "ConfidentialTransfersError: " ++ e.message
  | .other message => "Error: " ++ message

/-- A plain JavaScript error. -/
def Thrown.Plain : Thrown → Prop
  | .sdk _ => False
  | .other _ => True

/-- `isConfidentialTransfersError(e) && e.retryable`. -/
def Thrown.retryable : Thrown → Bool
  | .sdk e => e.retryable
  | .other _ => false

/-- The proof accounts an error reports as left open. -/
def Thrown.leftOpen : Thrown → List Address
  | .sdk e => (e.proofAccounts.map (·.leftOpen)).getD []
  | .other _ => []

end Sdk
