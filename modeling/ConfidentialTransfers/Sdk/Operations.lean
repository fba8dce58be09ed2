-- SUMMARY: The operations of the SDK: deposit, applyPendingBalance, transfer, withdraw and decryptBalance.
import ConfidentialTransfers.Sdk.ProofFlow

/-!
# Operations

`deposit.ts`, `applyPendingBalance.ts`, `transfer.ts`, `withdraw.ts` and
`decryptBalance.ts`. A call checks its input and then makes attempts; the keys
derived by one attempt are kept for the next, next to the world. The result of a
call is an error when a check rejects it, and else the run of its attempts.
-/

open Solana TwistedElGamal

namespace Sdk

variable {χ : Type}

/-- What the operations need of their surroundings. -/
structure Client (χ F G : Type) [CommRing F] [AddCommGroup G] [Module F G] where
  net : Network χ (ProofData F G)
  kit : Kit (ProofData F G)
  zk : ZkSdk F G
  /-- The associated token account of an owner, a token program and a mint. -/
  findAssociatedTokenPda : (owner tokenProgram mint : Address) → Address
  /-- `resolveTransferHookAccounts` for mint, source, destination, owner and token program. -/
  resolveTransferHookAccounts : (mint sourceToken destinationToken owner programAddress : Address) →
    Effect (World χ (ProofData F G)) Thrown (List ResolvedAccount)
  /-- Resolving the hook's accounts only reads. -/
  resolve_silent : ∀ mint source destination owner program,
    (resolveTransferHookAccounts mint source destination owner program).Within World.Silent
  /-- It throws plain errors. -/
  resolve_plain : ∀ mint source destination owner program,
    (resolveTransferHookAccounts mint source destination owner program).Raises Thrown.Plain
  transferRandomness : Nat → TransferRandomness F
  withdrawRandomness : Nat → WithdrawRandomness F
  nonce : Nat → Nat
  /-- Of two concurrent requests that both fail, the first one's error wins. -/
  firstRejects : Nat → Bool

/-- A client of this network with the plainest surroundings; a mint's hook needs no accounts. -/
def Client.plain (net : Network χ (ProofData (ZMod (2 ^ 128)) (ZMod (2 ^ 128)))) :
    Client χ (ZMod (2 ^ 128)) (ZMod (2 ^ 128)) where
  net := net
  kit := .oneEach
  zk := .modular
  findAssociatedTokenPda owner _ mint := owner ++ "/" ++ mint
  resolveTransferHookAccounts _ _ _ _ _ := pure []
  resolve_silent _ _ _ _ _ := .pure []
  resolve_plain _ _ _ _ _ := .pure []
  transferRandomness _ := ⟨0, 0, 0, 0, 0⟩
  withdrawRandomness _ := ⟨0, 0⟩
  nonce _ := 0
  firstRejects _ := true

/-- An instruction that creates a proof account. -/
def createsAccount {π : Type} : Instruction π → Bool
  | .proof (.createAccount ..) => true
  | _ => false

/-- An instruction that verifies a range proof. -/
def verifiesRange {F G : Type} [CommRing F] : Instruction (ProofData F G) → Bool
  | .proof (.verifyProof (.batchedRangeU64 _) ..) => true
  | .proof (.verifyProof (.batchedRangeU128 _) ..) => true
  | _ => false

/-- A transaction creates one proof account at most, and a range proof fills a transaction. -/
def fitsTransaction {F G : Type} [CommRing F]
    (instructions : List (Instruction (ProofData F G))) : Bool :=
  decide ((instructions.filter createsAccount).length ≤ 1) &&
    (decide (instructions.length ≤ 1) || instructions.all fun i => !verifiesRange i)

/-- The plain client with a planner that packs the proof of an account with its creation, unless it
    is a range proof. -/
def Client.packing (net : Network χ (ProofData (ZMod (2 ^ 128)) (ZMod (2 ^ 128)))) :
    Client χ (ZMod (2 ^ 128)) (ZMod (2 ^ 128)) where
  __ := Client.plain net
  kit := .packing fitsTransaction

structure SendOptions where
  computeUnitPrice : Option Nat := none
  retries : Option JsNumber := none

variable {F G : Type} [CommRing F] [AddCommGroup G] [Module F G] (c : Client χ F G)

/-- The world and the keys derived so far. -/
abbrev Session (χ F G : Type) [CommRing F] := World χ (ProofData F G) × Option (ConfidentialKeypairs F)

/-- `keys ??= await ownerKeys(owner, undefined, operation)`. -/
def sessionKeys (owner : Owner F) (operation : String) :
    Effect (Session χ F G) Thrown (ConfidentialKeypairs F) := do
  let session ← Effect.get
  match session.2 with
  | some keys => pure keys
  | none => do
    let keys ← Effect.onFst (ownerKeys owner none operation)
    Effect.modify fun session => (session.1, some keys)
    pure keys

/-- `Promise.all` of two reads: both are made; if both fail, one error wins. -/
def both {α β : Type} (m : Effect (World χ (ProofData F G)) Thrown α)
    (m' : Effect (World χ (ProofData F G)) Thrown β) :
    Effect (World χ (ProofData F G)) Thrown (α × β) := do
  let first ← Effect.attempt m
  let second ← Effect.attempt m'
  let w ← Effect.get
  match first, second with
  | .ok a, .ok b => pure (a, b)
  | .error e, .ok _ => Effect.throw e
  | .ok _, .error e => Effect.throw e
  | .error e, .error e' => Effect.throw (if c.firstRejects w.clock then e else e')

/-! ## deposit -/

structure DepositInput (F : Type) [CommRing F] extends SendOptions where
  payer : Address
  owner : Owner F
  mint : Address
  amount : Int
  decimals : Nat
  token : Option Address := none
  programAddress : Option Address := none

structure DepositResult where
  token : Address
  signature : Signature
deriving DecidableEq, Repr

def checkDepositAmount (amount : Int) : Except Thrown Unit := do
  let operation := "deposit"
  if amount ≤ 0 then
    throw (.sdk (.new .invalidInput
      (operation ++ ": the amount must be greater than zero, got " ++ toString amount ++ ".")
      { operation := some operation }))
  if amount > maxDepositOrTransferAmount then
    throw (.sdk (.new .amountTooLarge
      (operation ++ ": " ++ toString amount ++ " is more than one deposit can carry (" ++
        toString maxDepositOrTransferAmount ++ ", 2^48 - 1). Split it.")
      { operation := some operation }))

def depositAttempt (input : DepositInput F) (programAddress token : Address) :
    Effect (World χ (ProofData F G)) Thrown Signature := do
  let operation := "deposit"
  let (data, ct) ← readConfiguredAccount c.net token operation "your"
  if data.amount < input.amount then
    Effect.throw (.sdk (.new .insufficientFunds
      (operation ++ ": the public balance of " ++ token ++ " is " ++ toString data.amount ++
        ", less than " ++ toString input.amount ++ ".")
      { operation := some operation }))
  else do
    Effect.ofExcept (assertCanReceive ct token operation "your")
    sendInstructions c.net c.kit
      { payer := input.payer, operation, computeUnitPrice := input.computeUnitPrice }
      [.operation
        { ref := 0
          programAddress
          call := .deposit token input.mint input.owner.address input.amount.toNat input.decimals }]

def deposit (input : DepositInput F) (fuel : Nat) (w : World χ (ProofData F G)) :
    Except Thrown (Retry.Run (World χ (ProofData F G)) Thrown DepositResult) := do
  let programAddress := input.programAddress.getD token2022ProgramAddress
  checkDepositAmount input.amount
  let token := input.token.getD (c.findAssociatedTokenPda input.owner.address programAddress input.mint)
  pure ((withRetries input.retries (depositAttempt c input programAddress token) fuel w).map
    fun signature => { token, signature })

/-! ## applyPendingBalance -/

def pendingBalanceLoBitLength : Nat := 16

structure ApplyPendingBalanceInput (F : Type) [CommRing F] extends SendOptions where
  payer : Address
  owner : Owner F
  mint : Address
  token : Option Address := none
  keys : Option (ConfidentialKeypairs F) := none
  programAddress : Option Address := none

structure ApplyPendingBalanceResult where
  token : Address
  signature : Signature
deriving DecidableEq, Repr

/-- `decrypt(what, run)`: any error of `run` becomes `DECRYPTION_FAILED`. -/
def decryptOf (operation token what : String) (run : Except String Nat) : Except Thrown Nat :=
  run.mapError fun e =>
    .sdk (.new .decryptionFailed
      (operation ++ ": could not decrypt the " ++ what ++ " of " ++ token ++ ". " ++
        (if what = "pending balance (high part)" then
          "Incoming amounts add up to more than can be decrypted at once (about 2^48 base units); " ++
            "the pending balance cannot be applied with this SDK. "
        else "") ++ e)
      { operation := some operation })

/-- Parse an ElGamal ciphertext and decrypt it. -/
def decryptElGamal (zk : ZkSdk F G) (keys : ConfidentialKeypairs F) (operation : String)
    (bytes : Bytes) : Except String Nat :=
  match zk.ciphertextFromBytes bytes with
  | none => .error ("ConfidentialTransfersError: " ++ operation ++ ": failed to parse an ElGamal ciphertext")
  | some ciphertext => zk.decrypt keys.elgamalSecret ciphertext

/-- Parse an AES ciphertext and decrypt it. -/
def decryptAe (zk : ZkSdk F G) (keys : ConfidentialKeypairs F) (operation : String) (bytes : Bytes) :
    Except String Nat :=
  match ZkSdk.aeCiphertextFromBytes bytes with
  | none => .error ("ConfidentialTransfersError: " ++ operation ++ ": failed to parse an AES ciphertext")
  | some ciphertext => zk.aeDecrypt keys.aesKey ciphertext

/-- The available balance once the pending balance read from the account is applied. -/
def newAvailableBalance (zk : ZkSdk F G) (keys : ConfidentialKeypairs F)
    (ct : ConfidentialTransferAccountState) (operation token : String) : Except Thrown Nat := do
  let pendingLo ← decryptOf operation token "pending balance (low part)"
    (decryptElGamal zk keys operation ct.pendingBalanceLow)
  let pendingHi ← decryptOf operation token "pending balance (high part)"
    (decryptElGamal zk keys operation ct.pendingBalanceHigh)
  let currentAvailable ← decryptOf operation token "available balance"
    (decryptAe zk keys operation ct.decryptableAvailableBalance)
  pure (currentAvailable + ((pendingHi <<< pendingBalanceLoBitLength) + pendingLo))

/-- The instruction of an attempt, for the account as it is now: it is read on every attempt, since the
    pending balance changes with each incoming transfer. -/
def applyPendingBalanceAction (input : ApplyPendingBalanceInput F) (programAddress token : Address) :
    Effect (Session χ F G) Thrown Action := do
  let operation := "applyPendingBalance"
  let (data, ct) ← Effect.onFst (readConfiguredAccount c.net token operation "your")
  let keys ← sessionKeys input.owner operation
  Effect.ofExcept (assertKeysMatchAccount c.zk keys data token operation)
  let newAvailable ← Effect.ofExcept (newAvailableBalance c.zk keys ct operation token)
  let session ← Effect.get
  pure
    { ref := 0
      programAddress
      call := .applyPendingBalance token input.owner.address ct.pendingBalanceCreditCounter
        (c.zk.aeEncrypt keys.aesKey (c.nonce session.1.clock) newAvailable) }

def applyPendingBalanceAttempt (input : ApplyPendingBalanceInput F) (programAddress token : Address) :
    Effect (Session χ F G) Thrown Signature := do
  let action ← applyPendingBalanceAction c input programAddress token
  Effect.onFst (sendInstructions c.net c.kit
    { payer := input.payer
      operation := "applyPendingBalance"
      computeUnitPrice := input.computeUnitPrice }
    [.operation action])

def applyPendingBalance (input : ApplyPendingBalanceInput F) (fuel : Nat)
    (w : World χ (ProofData F G)) : Except Thrown (Retry.Run (Session χ F G) Thrown ApplyPendingBalanceResult) := do
  let programAddress := input.programAddress.getD token2022ProgramAddress
  let token := input.token.getD (c.findAssociatedTokenPda input.owner.address programAddress input.mint)
  pure ((withRetries input.retries (applyPendingBalanceAttempt c input programAddress token) fuel
    (w, input.keys)).map fun signature => { token, signature })

/-! ## transfer -/

structure TransferInput (F : Type) [CommRing F] extends SendOptions where
  payer : Address
  owner : Owner F
  mint : Address
  destinationOwner : Option Address := none
  amount : Int
  sourceToken : Option Address := none
  destinationToken : Option Address := none
  auditorElgamalPubkey : Option Address := none
  keys : Option (ConfidentialKeypairs F) := none
  programAddress : Option Address := none

structure TransferResult where
  sourceToken : Address
  destinationToken : Address
  signatures : List Signature
  /-- Proof accounts left open although the transfer went through. -/
  proofAccountsLeftOpen : List Address
deriving DecidableEq, Repr

/-- The mint's auditor key, if it has one. -/
def mintAuditorKey (mint : Address) : Effect (World χ (ProofData F G)) Thrown (Option Address) := do
  match ← Effect.mapError .other
      (c.net.request (.getAccountInfo mint) fun n chain => c.net.mint n chain mint) with
  | .error message => Effect.throw (.other message)
  | .ok data =>
    match data.extensions with
    | none => pure none
    | some extensions => pure ((extensions.findSome? fun
        | .confidentialTransferMint auditor => some auditor
        | _ => none).join)

/-- `input.auditorElgamalPubkey ?? (await mintAuditorKey(rpc, mint))`. -/
def givenOrMintAuditorKey (given : Option Address) (mint : Address) :
    Effect (World χ (ProofData F G)) Thrown (Option Address) :=
  match given with
  | some auditor => pure (some auditor)
  | none => mintAuditorKey c mint

def transferAttempt (input : TransferInput F) (programAddress sourceToken destination : Address) :
    Effect (Session χ F G) Thrown ProofFlowResult := do
  let operation := "transfer"
  let (source, dest) ← Effect.onFst (both c
    (readConfiguredAccount c.net sourceToken operation "your")
    (readConfiguredAccount c.net destination operation "the recipient's"))
  Effect.ofExcept (assertCanReceive dest.2 destination operation "the recipient's")
  let transferHookAccounts ← Effect.onFst (c.resolveTransferHookAccounts input.mint sourceToken
    destination input.owner.address programAddress)
  let keys ← sessionKeys input.owner operation
  Effect.ofExcept (assertKeysMatchAccount c.zk keys source.1 sourceToken operation)
  let auditorElgamalPubkey ← Effect.onFst (givenOrMintAuditorKey c input.auditorElgamalPubkey input.mint)
  let flow ← Effect.onFst (getConfidentialTransferProofFlow c.net c.kit c.zk c.transferRandomness
    { payer := input.payer
      sourceToken
      mint := input.mint
      destinationToken := destination
      sourceTokenAccount := source.1
      destinationTokenAccount := some dest.1
      authority := input.owner.address
      amount := input.amount
      keys
      auditorElgamalPubkey
      transferHookAccounts
      programAddress := some programAddress })
  Effect.onFst (executeProofFlow c.net c.kit
    { payer := input.payer, operation, computeUnitPrice := input.computeUnitPrice } flow operation)

/-- The checks of `transfer` before its attempts, and the two token accounts. -/
def transferTokens (input : TransferInput F) (programAddress : Address) :
    Except Thrown (Address × Address) := do
  let operation := "transfer"
  if input.amount ≤ 0 then
    throw (.sdk (.new .invalidInput
      (operation ++ ": the amount must be greater than zero, got " ++ toString input.amount ++ ".")
      { operation := some operation }))
  let sourceToken := input.sourceToken.getD
    (c.findAssociatedTokenPda input.owner.address programAddress input.mint)
  match input.destinationToken, input.destinationOwner with
  | some destination, _ => pure (sourceToken, destination)
  | none, some destinationOwner =>
    pure (sourceToken, c.findAssociatedTokenPda destinationOwner programAddress input.mint)
  | none, none =>
    throw (.sdk (.new .invalidInput "transfer requires either destinationToken or destinationOwner"
      { operation := some operation }))

def transfer (input : TransferInput F) (fuel : Nat) (w : World χ (ProofData F G)) :
    Except Thrown (Retry.Run (Session χ F G) Thrown TransferResult) := do
  let programAddress := input.programAddress.getD token2022ProgramAddress
  let (sourceToken, destination) ← transferTokens c input programAddress
  pure ((withRetries input.retries (transferAttempt c input programAddress sourceToken destination)
    fuel (w, input.keys)).map fun result =>
      { sourceToken
        destinationToken := destination
        signatures := result.signatures
        proofAccountsLeftOpen := result.proofAccountsLeftOpen })

/-! ## withdraw -/

structure WithdrawInput (F : Type) [CommRing F] extends SendOptions where
  payer : Address
  owner : Owner F
  mint : Address
  amount : Int
  decimals : Nat
  token : Option Address := none
  keys : Option (ConfidentialKeypairs F) := none
  programAddress : Option Address := none

structure WithdrawResult where
  token : Address
  signatures : List Signature
  /-- Proof accounts left open although the withdraw went through. -/
  proofAccountsLeftOpen : List Address
deriving DecidableEq, Repr

def withdrawAttempt (input : WithdrawInput F) (programAddress token : Address) :
    Effect (Session χ F G) Thrown ProofFlowResult := do
  let operation := "withdraw"
  let (data, _) ← Effect.onFst (readConfiguredAccount c.net token operation "your")
  let keys ← sessionKeys input.owner operation
  Effect.ofExcept (assertKeysMatchAccount c.zk keys data token operation)
  let flow ← Effect.onFst (getConfidentialWithdrawProofFlow c.net c.kit c.zk c.withdrawRandomness
    { payer := input.payer
      token
      mint := input.mint
      tokenAccount := data
      authority := input.owner.address
      amount := input.amount
      decimals := input.decimals
      keys
      programAddress := some programAddress })
  Effect.onFst (executeProofFlow c.net c.kit
    { payer := input.payer, operation, computeUnitPrice := input.computeUnitPrice } flow operation)

def checkWithdrawAmount (amount : Int) : Except Thrown Unit := do
  if amount ≤ 0 then
    throw (.sdk (.new .invalidInput
      ("withdraw amount must be greater than zero, got " ++ toString amount)
      { operation := some "withdraw" }))

def withdraw (input : WithdrawInput F) (fuel : Nat) (w : World χ (ProofData F G)) :
    Except Thrown (Retry.Run (Session χ F G) Thrown WithdrawResult) := do
  let programAddress := input.programAddress.getD token2022ProgramAddress
  checkWithdrawAmount input.amount
  let token := input.token.getD (c.findAssociatedTokenPda input.owner.address programAddress input.mint)
  pure ((withRetries input.retries (withdrawAttempt c input programAddress token) fuel
    (w, input.keys)).map fun result =>
      { token
        signatures := result.signatures
        proofAccountsLeftOpen := result.proofAccountsLeftOpen })

/-! ## decryptBalance -/

structure DecryptBalanceInput (F : Type) [CommRing F] where
  owner : Owner F
  mint : Address
  token : Option Address := none
  keys : Option (ConfidentialKeypairs F) := none
  programAddress : Option Address := none

/-- The available balance an account's AES copy stands for. -/
def decryptableBalance (zk : ZkSdk F G) (keys : ConfidentialKeypairs F)
    (ct : ConfidentialTransferAccountState) (operation token : String) : Except Thrown Nat :=
  match ZkSdk.aeCiphertextFromBytes ct.decryptableAvailableBalance with
  | none =>
    .error (.sdk (.new .decryptionFailed
      (operation ++ ": failed to parse the decryptable available balance")
      { operation := some operation }))
  | some ciphertext =>
    (zk.aeDecrypt keys.aesKey ciphertext).mapError fun e =>
      .sdk (.new .decryptionFailed
        (operation ++ ": could not decrypt the available balance of " ++ token ++ ": " ++ e)
        { operation := some operation })

def decryptBalance (input : DecryptBalanceInput F) : Effect (World χ (ProofData F G)) Thrown Nat := do
  let operation := "decryptBalance"
  let programAddress := input.programAddress.getD token2022ProgramAddress
  let token := input.token.getD (c.findAssociatedTokenPda input.owner.address programAddress input.mint)
  let (data, ct) ← readConfiguredAccount c.net token operation
  let keys ← ownerKeys input.owner input.keys operation
  Effect.ofExcept (assertKeysMatchAccount c.zk keys data token operation)
  Effect.ofExcept (decryptableBalance c.zk keys ct operation token)

/-! ## What comes before sending -/

omit [AddCommGroup G] [Module F G] in
theorem readOnly_sessionKeys (owner : Owner F) (operation : String) :
    (sessionKeys owner operation : Effect (Session χ F G) Thrown _).Within
      (Order.Preimage Prod.fst World.ReadOnly) := by
  refine Effect.Within.get.bind fun session => ?_
  cases session.2 with
  | some keys => exact .pure keys
  | none =>
    have hstore : ∀ keys, (Effect.modify (fun session : Session χ F G => (session.1, some keys)) :
        Effect (Session χ F G) Thrown Unit).Within (Order.Preimage Prod.fst World.ReadOnly) :=
      fun keys session => refl session.1
    exact (readOnly_ownerKeys owner none operation).onFst.bind fun keys =>
      (hstore keys).bind fun _ => .pure keys

theorem Client.resolve_readOnly (mint source destination owner program : Address) :
    (c.resolveTransferHookAccounts mint source destination owner program).Within World.ReadOnly :=
  (c.resolve_silent mint source destination owner program).mono fun _ _ h => h.readOnly

theorem within_both {R : World χ (ProofData F G) → World χ (ProofData F G) → Prop} [IsPreorder _ R]
    {α β : Type} {m : Effect (World χ (ProofData F G)) Thrown α}
    {m' : Effect (World χ (ProofData F G)) Thrown β} (hm : m.Within R) (hm' : m'.Within R) :
    (both c m m').Within R := by
  refine hm.attempt.bind fun first => hm'.attempt.bind fun second => Effect.Within.get.bind fun w => ?_
  cases first with
  | ok a =>
    cases second with
    | ok b => exact .pure (a, b)
    | error e => exact .throw e
  | error e =>
    cases second with
    | ok b => exact .throw e
    | error e' => exact .throw _

theorem silent_mintAuditorKey (mint : Address) :
    (mintAuditorKey c mint).Within World.Silent := by
  refine ((within_request c.net World.Silent.tick _ _).mapError _).bind fun reply => ?_
  cases reply with
  | error message => exact .throw _
  | ok data =>
    simp only
    cases data.extensions with
    | none => exact .pure none
    | some extensions => exact .pure _

theorem silent_givenOrMintAuditorKey (given : Option Address) (mint : Address) :
    (givenOrMintAuditorKey c given mint).Within World.Silent := by
  cases given with
  | some auditor => exact .pure _
  | none => exact silent_mintAuditorKey c mint

theorem readOnly_givenOrMintAuditorKey (given : Option Address) (mint : Address) :
    (givenOrMintAuditorKey c given mint).Within World.ReadOnly :=
  (silent_givenOrMintAuditorKey c given mint).mono fun _ _ h => h.readOnly

end Sdk
