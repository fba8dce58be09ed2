-- SUMMARY: Executed transactions as trees of instructions, and the movements among them.
import ConfidentialTransfers.Solana.Instruction

/-!
# Histories

What happened on chain, whichever way an RPC describes it: transactions in the
order they were executed, each with its top-level instructions and everything
those invoked.
-/

namespace Solana

/-- A token account and its owner at some time. -/
structure TokenAccount where
  address : Address
  owner : Address
deriving DecidableEq, Repr

/-- A movement in or out of a confidential balance, as the token program executes it; its token
    accounts have the owners they have then. -/
inductive TokenMovement
  | deposit (token : TokenAccount) (amount : Nat)
  | withdraw (token : TokenAccount) (amount : Nat)
  | transfer (source destination : TokenAccount) (auditorLo auditorHi : Bytes)
  | transferWithFee (source destination : TokenAccount)
deriving DecidableEq, Repr

/-- The token account a movement takes from. -/
def TokenMovement.source : TokenMovement → TokenAccount
  | .deposit token _ => token
  | .withdraw token _ => token
  | .transfer source _ _ _ => source
  | .transferWithFee source _ => source

/-- The token account a movement adds to. -/
def TokenMovement.destination : TokenMovement → TokenAccount
  | .deposit token _ => token
  | .withdraw token _ => token
  | .transfer _ destination _ _ => destination
  | .transferWithFee _ destination => destination

/-- The accounts a movement starts with. -/
def TokenMovement.accounts (mint : Address) : TokenMovement → List Address
  | .deposit token _ => [token.address, mint]
  | .withdraw token _ => [token.address, mint]
  | .transfer source destination _ _ => [source.address, mint, destination.address]
  | .transferWithFee source destination => [source.address, mint, destination.address]

/-- An executed instruction. -/
inductive ChainInstruction
  /-- A movement of a mint, with the accounts that follow. -/
  | movement (m : TokenMovement) (mint : Address) (others : List Address)
  | applyPendingBalance (token : Address) (others : List Address)
  /-- Any other instruction of any program. -/
  | other (program : Address) (accounts : List Address) (data : Bytes)
deriving DecidableEq, Repr

/-- The accounts an instruction names. -/
def ChainInstruction.accounts : ChainInstruction → List Address
  | .movement m mint others => m.accounts mint ++ others
  | .applyPendingBalance token others => token :: others
  | .other _ accounts _ => accounts

/-- An instruction with the instructions it invoked. -/
inductive Invocation
  | call (ix : ChainInstruction) (invoked : List Invocation)

namespace Invocation

def root : Invocation → ChainInstruction
  | .call ix _ => ix

mutual
/-- An instruction followed by everything it invoked, in the order of invocation. -/
def flatten : Invocation → List ChainInstruction
  | .call ix invoked => ix :: flattenAll invoked

def flattenAll : List Invocation → List ChainInstruction
  | [] => []
  | i :: is => flatten i ++ flattenAll is
end

/-- Everything an instruction invoked. -/
def descendants : Invocation → List ChainInstruction
  | .call _ invoked => flattenAll invoked

theorem flatten_eq (i : Invocation) : i.flatten = i.root :: i.descendants := by
  cases i
  rfl

end Invocation

/-- A transaction that was executed, with success or not. -/
structure ExecutedTransaction where
  signature : Signature
  slot : Nat
  blockTime : Option Int
  err : Option String
  /-- Every account the transaction mentions. -/
  keys : List Address
  /-- The owners of the token accounts that existed before the transaction. -/
  ownersBefore : Address → Option Address
  invocations : List Invocation
  accounts_subset : ∀ ix ∈ invocations.flatMap Invocation.flatten, ix.accounts ⊆ keys

/-- All instructions of a transaction, each followed by those it invoked. -/
def ExecutedTransaction.instructions (tx : ExecutedTransaction) : List ChainInstruction :=
  tx.invocations.flatMap Invocation.flatten

/-- The transaction succeeded. -/
def ExecutedTransaction.succeeded (tx : ExecutedTransaction) : Bool := tx.err.isNone

/-- The transaction mentions the account. -/
def ExecutedTransaction.mentions (tx : ExecutedTransaction) (account : Address) : Bool :=
  tx.keys.contains account

end Solana
