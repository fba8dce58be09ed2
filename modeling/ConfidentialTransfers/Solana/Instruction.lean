-- SUMMARY: The instructions, messages and transactions the SDK builds.
import ConfidentialTransfers.Lib.Plan

/-!
# Instructions and transactions

Addresses and signatures are base58 strings, as in the source. An instruction
either works on a proof account, sets the priority fee, or is an operation's own
instruction (`Action`), the one that moves tokens. Instructions of the last kind
carry the identity of the JavaScript object they are, since `executeProofFlow`
looks for one by `includes`.
-/

namespace Solana

abbrev Address := String
abbrev Signature := String
abbrev Bytes := List UInt8

/-- `TOKEN_2022_PROGRAM_ADDRESS`. -/
def token2022ProgramAddress : Address := "TokenzQdBNbLqP5VEhdkAS6EPFLC1PHnBqCXEpPxuEb"

/-- `ZK_ELGAMAL_PROOF_PROGRAM_ADDRESS`. -/
def zkElgamalProofProgramAddress : Address := "ZkE1Gama1Proof11111111111111111111111111111"

/-- kit's `AccountRole`, as far as hook accounts use it. -/
inductive AccountRole
  | readonly
  | writable
deriving DecidableEq, Repr

/-- An account appended to a transfer for the mint's transfer hook. -/
structure ResolvedAccount where
  address : Address
  role : AccountRole
deriving DecidableEq, Repr

/-- The arguments of `getConfidentialTransferInstruction`. -/
structure ConfidentialTransferArgs where
  sourceToken : Address
  mint : Address
  destinationToken : Address
  equalityRecord : Address
  ciphertextValidityRecord : Address
  rangeRecord : Address
  authority : Address
  newSourceDecryptableAvailableBalance : Bytes
  transferAmountAuditorCiphertextLo : Bytes
  transferAmountAuditorCiphertextHi : Bytes
  equalityProofInstructionOffset : Int := 0
  ciphertextValidityProofInstructionOffset : Int := 0
  rangeProofInstructionOffset : Int := 0
  transferHookAccounts : List ResolvedAccount := []
deriving DecidableEq, Repr

/-- The arguments of `getConfidentialWithdrawInstruction`. -/
structure ConfidentialWithdrawArgs where
  token : Address
  mint : Address
  equalityRecord : Address
  rangeRecord : Address
  authority : Address
  amount : Nat
  decimals : Nat
  newDecryptableAvailableBalance : Bytes
  equalityProofInstructionOffset : Int := 0
  rangeProofInstructionOffset : Int := 0
deriving DecidableEq, Repr

/-- What an operation's own instruction asks the token program to do. -/
inductive TokenCall
  | deposit (token mint authority : Address) (amount decimals : Nat)
  | applyPendingBalance (token authority : Address) (expectedPendingBalanceCreditCounter : Nat)
      (newDecryptableAvailableBalance : Bytes)
  | transfer (args : ConfidentialTransferArgs)
  | withdraw (args : ConfidentialWithdrawArgs)
deriving DecidableEq, Repr

/-- An operation's own instruction. `ref` is the identity of the JavaScript object. -/
structure Action where
  ref : Nat
  programAddress : Address
  call : TokenCall
deriving DecidableEq, Repr

/-- The instructions that create, fill and close a proof account. -/
inductive ProofInstruction (π : Type) where
  | createAccount (address : Address) (lamports : Nat)
  | verifyProof (proof : π) (contextAccount authority : Address)
  | closeContextState (contextState authority destination : Address)

inductive Instruction (π : Type) where
  | proof (instruction : ProofInstruction π)
  | setComputeUnitPrice (microLamports : Nat)
  | operation (action : Action)

variable {π : Type}

/-- An operation's own instruction, one that moves tokens. -/
def Instruction.isOperation : Instruction π → Bool
  | .operation _ => true
  | _ => false

/-- The same JavaScript object as `action`. -/
def Instruction.isObject (action : Action) : Instruction π → Bool
  | .operation a => a.ref == action.ref
  | _ => false

/-- kit's blockhash lifetime. -/
structure Lifetime where
  blockhash : String
  lastValidBlockHeight : Nat
deriving DecidableEq, Repr

/-- A transaction message; the planner's messages have no lifetime yet. -/
structure Message (π : Type) where
  instructions : List (Instruction π)
  lifetime : Option Lifetime := none

/-- A fully signed transaction. -/
structure Transaction (π : Type) where
  message : Message π
  signature : Signature

/-- `message.instructions.includes(action)`. -/
def Message.includes (m : Message π) (action : Action) : Bool :=
  m.instructions.any (·.isObject action)

/-- The transaction holds an operation's own instruction. -/
def Transaction.isOperation (tx : Transaction π) : Bool :=
  tx.message.instructions.any (·.isOperation)

@[simp] theorem Instruction.isOperation_proof (i : ProofInstruction π) :
    (Instruction.proof i).isOperation = false := rfl

@[simp] theorem Instruction.isOperation_operation (a : Action) :
    (Instruction.operation a : Instruction π).isOperation = true := rfl

@[simp] theorem Instruction.isOperation_setComputeUnitPrice (n : Nat) :
    (Instruction.setComputeUnitPrice n : Instruction π).isOperation = false := rfl

end Solana
