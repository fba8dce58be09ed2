-- SUMMARY: Signing several transactions together: whom it asks, with what, and what comes out.
import Mathlib.Data.Finmap
import Mathlib.Data.List.Nodup
import ConfidentialTransfers.Lib.Effect
import ConfidentialTransfers.Solana.Instruction

/-!
# Signing together

`signTransactionMessagesTogether` of `internal/send.ts`. The state of the
effects here is the list of calls the signers received. Partial signers are all
called before any of them answers; the order in which they answer is a
`SettlingOrder`. kit's `assertIsFullySignedTransaction` is a parameter.
-/

open Solana

namespace Sdk

/-! ## Signers -/

/-- An object keyed by address; a signature that is `null` is `none`. -/
abbrev SignaturesMap : Type := Finmap fun _ : Address => Option Signature

/-- kit's `Transaction`. -/
structure CompiledTransaction where
  messageBytes : Bytes
  signatures : SignaturesMap
  lifetimeConstraint : Option Lifetime := none

/-- kit's `TransactionSigner`, with the interfaces it has. -/
structure TransactionSigner where
  address : Address
  modifyAndSignTransactions :
    Option (List CompiledTransaction → Except String (List CompiledTransaction)) := none
  signTransactions : Option (List CompiledTransaction → Except String (List SignaturesMap)) := none
  /-- A modifying signer answers with as many transactions as it was asked for. -/
  length_modified : ∀ modify, modifyAndSignTransactions = some modify →
    ∀ {txs signed}, modify txs = .ok signed → signed.length = txs.length := by simp

def isTransactionModifyingSigner (s : TransactionSigner) : Bool := s.modifyAndSignTransactions.isSome

def isTransactionPartialSigner (s : TransactionSigner) : Bool := s.signTransactions.isSome

/-- A call a signer received. -/
inductive SignerCall
  | modifyAndSignTransactions (signer : Address) (txs : List CompiledTransaction)
  | signTransactions (signer : Address) (txs : List CompiledTransaction)

def SignerCall.signer : SignerCall → Address
  | .modifyAndSignTransactions signer _ => signer
  | .signTransactions signer _ => signer

/-- A partial signer's answer to come: the transactions it is for, and what it will be. -/
structure PendingSignatures where
  indexes : List Nat
  answer : Except String (List SignaturesMap)

/-- An order in which promises settle. -/
structure SettlingOrder where
  settle : List PendingSignatures → List PendingSignatures
  perm : ∀ ps, (settle ps).Perm ps

/-! ## Choosing the signers -/

/-- The first signer of each address. -/
def uniqueSigners (signersByTx : List (List TransactionSigner)) : List TransactionSigner :=
  signersByTx.flatten.foldl (fun unique s =>
    if unique.any (·.address == s.address) then unique else unique ++ [s]) []

variable (signersByTx : List (List TransactionSigner))

def candidates : List TransactionSigner :=
  (uniqueSigners signersByTx).filter fun s => isTransactionModifyingSigner s || isTransactionPartialSigner s

/-- Wallets that can only modify; if there are none, the first signer that can. -/
def modifyingSigners : List TransactionSigner :=
  let modifying := (candidates signersByTx).filter isTransactionModifyingSigner
  let modifyingOnly := modifying.filter fun s => !isTransactionPartialSigner s
  if modifyingOnly.length > 0 then modifyingOnly else modifying.take 1

def partialSigners : List TransactionSigner :=
  (candidates signersByTx).filter fun s =>
    isTransactionPartialSigner s && !(modifyingSigners signersByTx).any (·.address == s.address)

/-- The transactions a signer has to sign. -/
def needs (signer : TransactionSigner) : List Nat :=
  (List.range signersByTx.length).filter fun i =>
    ((signersByTx[i]?).getD []).any (·.address == signer.address)

/-! ## Asking them -/

/-- `indexes.map((i) => transactions[i])`. -/
def pick (indexes : List Nat) (txs : List CompiledTransaction) : List CompiledTransaction :=
  indexes.filterMap (txs[·]?)

/-- `indexes.forEach((txIndex, k) => (transactions[txIndex] = signed[k]))`. -/
def writeBack (indexes : List Nat) (signed txs : List CompiledTransaction) : List CompiledTransaction :=
  (indexes.zip signed).foldl (fun txs x => txs.set x.1 x.2) txs

/-- Spread a dictionary of signatures over a transaction's. -/
def CompiledTransaction.withSignatures (tx : CompiledTransaction) (dictionary : SignaturesMap) :
    CompiledTransaction :=
  { tx with signatures := dictionary ∪ tx.signatures }

/-- Spread each dictionary over its transaction as it is now. -/
def mergeSignatures (indexes : List Nat) (dictionaries : List SignaturesMap)
    (txs : List CompiledTransaction) : List CompiledTransaction :=
  (indexes.zip dictionaries).foldl (fun txs x => txs.modify x.1 (·.withSignatures x.2)) txs

/-- The modifying signers, one after the other. -/
def modifyInTurn : List TransactionSigner → List CompiledTransaction →
    Effect (List SignerCall) String (List CompiledTransaction)
  | [], txs => pure txs
  | signer :: signers, txs =>
    match signer.modifyAndSignTransactions with
    | none => modifyInTurn signers txs
    | some modify =>
      let indexes := needs signersByTx signer
      if indexes.length = 0 then modifyInTurn signers txs
      else do
        Effect.modify (· ++ [.modifyAndSignTransactions signer.address (pick indexes txs)])
        let signed ← Effect.ofExcept (modify (pick indexes txs))
        modifyInTurn signers (writeBack indexes signed txs)

/-- Call every partial signer. -/
def askPartialSigners (txs : List CompiledTransaction) :
    List TransactionSigner → Effect (List SignerCall) String (List PendingSignatures)
  | [] => pure []
  | signer :: signers =>
    match signer.signTransactions with
    | none => askPartialSigners txs signers
    | some sign =>
      let indexes := needs signersByTx signer
      if indexes.length = 0 then askPartialSigners txs signers
      else do
        Effect.modify (· ++ [.signTransactions signer.address (pick indexes txs)])
        let pending ← askPartialSigners txs signers
        pure ({ indexes, answer := sign (pick indexes txs) } :: pending)

/-- The answers arrive, in this order. -/
def settleAll (txs : List CompiledTransaction) :
    List PendingSignatures → Except String (List CompiledTransaction)
  | [] => .ok txs
  | p :: ps => do
    let dictionaries ← p.answer
    settleAll (mergeSignatures p.indexes dictionaries txs) ps

/-- A wallet that modifies a transaction may drop its lifetime. -/
def withLifetime (lifetime : Lifetime) (tx : CompiledTransaction) : CompiledTransaction :=
  { tx with lifetimeConstraint := some (tx.lifetimeConstraint.getD lifetime) }

variable (assertIsFullySignedTransaction : CompiledTransaction → Except String Unit)

/-- The last step, for one transaction. -/
def finish (lifetime : Lifetime) (tx : CompiledTransaction) : Except String CompiledTransaction := do
  assertIsFullySignedTransaction tx
  return withLifetime lifetime tx

variable {M : Type} (compileTransaction : M → CompiledTransaction)
  (getSignersFromTransactionMessage : M → List TransactionSigner)

def signTransactionMessagesTogether (settling : SettlingOrder) (messages : List M)
    (lifetime : Lifetime) : Effect (List SignerCall) String (List CompiledTransaction) := do
  let signersByTx := messages.map getSignersFromTransactionMessage
  let transactions ← modifyInTurn signersByTx (modifyingSigners signersByTx)
    (messages.map compileTransaction)
  let pending ← askPartialSigners signersByTx transactions (partialSigners signersByTx)
  let transactions ← Effect.ofExcept (settleAll transactions (settling.settle pending))
  Effect.ofExcept (transactions.mapM (finish assertIsFullySignedTransaction lifetime))

end Sdk
