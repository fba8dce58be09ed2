-- SUMMARY: The Rust crate's client: deposit, transfer and withdraw, and the same prepared for programs.
import ConfidentialTransfers.Rust.Accounts
import ConfidentialTransfers.Rust.Proofs

/-!
# The crate's client

`client.rs`. Every operation checks, and transfers and withdraws then set up
their proof accounts, run their instruction and close the accounts. The proofs
themselves come from the Solana crates.
-/

open Solana

namespace Rust

/-- What a transfer's proof generation gives. -/
structure TransferProofData (π : Type) where
  equality : π
  ciphertextValidity : π
  range : π
  auditorCiphertextLo : Bytes
  auditorCiphertextHi : Bytes

/-- What a withdraw's proof generation gives. -/
structure WithdrawProofData (π : Type) where
  equality : π
  range : π

/-- What the crate needs of its surroundings, and the client's own settings. -/
structure Client (χ π F G : Type) [CommRing F] [AddCommGroup G] [Module F G] where
  net : Network χ π
  kit : Kit π
  zk : ZkSdk F G
  accounts : Accounts χ
  payer : Address
  computeUnitPrice : Option Nat := none
  maxRetries : Nat := 0
  /-- `get_associated_token_address_with_program_id`. -/
  associatedTokenAddress : (owner mint programId : Address) → Address
  /-- `generate_split_transfer_proof_data`, drawing its randomness at the given request count. -/
  transferProofData : Nat → ConfidentialTransferAccountState → Nat → ConfidentialKeypairs F → G →
    Option G → Except String (TransferProofData π)
  /-- `generate_proof_data` of a withdraw. -/
  withdrawProofData : Nat → ConfidentialTransferAccountState → Nat → ConfidentialKeypairs F →
    Except String (WithdrawProofData π)
  /-- `build_pubkey_validity_proof_data`. -/
  pubkeyValidityProofData : Nat → ConfidentialKeypairs F → Except String π
  /-- `new_decryptable_available_balance`, of a transfer or a withdraw. -/
  newDecryptableAvailableBalance : Nat → ConfidentialTransferAccountState → Nat → Bytes →
    Except String Bytes
  /-- The instruction builders of `spl_token_2022_interface`. Only their token program can make them
      fail, and that is always Token-2022. -/
  tokenInstruction : Except String (TokenCall → Action)
  /-- `add_extra_account_metas`, for mint, source, destination and authority. -/
  extraAccountMetas : Nat → χ → (mint source destination authority : Address) →
    Except String (List ResolvedAccount)

/-- An owner of token accounts, as a signer. -/
structure Signer (F : Type) [CommRing F] where
  pubkey : Address
  /-- `ConfidentialKeys::derive`, at the given request count. -/
  derive : Nat → Except Error (ConfidentialKeypairs F)
  /-- Deriving keys has nothing to do with proof accounts. -/
  derive_proofAccounts : ∀ n, (derive n).Raises (·.proofAccounts = none)

structure PreparedTransfer where
  mint : Address
  sourceTokenAccount : Address
  destinationTokenAccount : Address
  equalityProof : Address
  ciphertextValidityProof : Address
  rangeProof : Address
  newDecryptableAvailableBalance : Bytes
  auditorCiphertextLo : Bytes
  auditorCiphertextHi : Bytes
  signatures : List Signature
deriving DecidableEq, Repr

def PreparedTransfer.proofAccounts (p : PreparedTransfer) : List Address :=
  [p.equalityProof, p.ciphertextValidityProof, p.rangeProof]

structure PreparedWithdraw where
  mint : Address
  tokenAccount : Address
  amount : Nat
  decimals : Nat
  equalityProof : Address
  rangeProof : Address
  newDecryptableAvailableBalance : Bytes
  signatures : List Signature
deriving DecidableEq, Repr

def PreparedWithdraw.proofAccounts (p : PreparedWithdraw) : List Address :=
  [p.equalityProof, p.rangeProof]

structure PreparedConfigure where
  pubkeyValidityProof : Address
  elgamalPubkey : Address
  decryptableZeroBalance : Bytes
  signatures : List Signature
deriving DecidableEq, Repr

structure TransferResult where
  sourceTokenAccount : Address
  destinationTokenAccount : Address
  signatures : List Signature
  transferSignature : Signature
deriving DecidableEq, Repr

structure WithdrawResult where
  tokenAccount : Address
  signatures : List Signature
  withdrawSignature : Signature
deriving DecidableEq, Repr

/-- `instruction.accounts.extend(extra)`. -/
def withExtraAccounts (action : Action) (extra : List ResolvedAccount) : Action :=
  match action.call with
  | .transfer args =>
    { action with
      call := .transfer { args with transferHookAccounts := args.transferHookAccounts ++ extra } }
  | _ => action

/-- `MAXIMUM_DEPOSIT_TRANSFER_AMOUNT`. -/
def maximumDepositTransferAmount : Nat := 2 ^ 48 - 1

def checkAmount (amount : Nat) (operation : String) (capped : Bool) : Except Error Unit :=
  if amount = 0 then
    .error (.new .invalidInput operation "the amount must be more than zero")
  else if capped && decide (amount > maximumDepositTransferAmount) then
    .error (.new .amountTooLarge operation
      (toString amount ++ " is more than one deposit or transfer can carry (" ++
        toString maximumDepositTransferAmount ++ "); split it"))
  else .ok ()

def proofError (operation e : String) : Error :=
  .new .decryptionFailed operation ("cannot generate the proofs from the account's balance: " ++ e)

def buildError (operation e : String) : Error :=
  .new .invalidInput operation ("cannot build the instruction: " ++ e)

def insufficientFunds (operation account : String) (available amount : Nat) : Error :=
  .new .insufficientFunds operation ("the available confidential balance of " ++ account ++ " is " ++
    toString available ++ ", less than " ++ toString amount)

namespace Client

variable {χ π F G : Type} [CommRing F] [AddCommGroup G] [Module F G] (c : Client χ π F G)

def sender (operation : String) : Sender where
  payer := c.payer
  computeUnitPrice := c.computeUnitPrice
  maxRetries := c.maxRetries
  operation := operation

/-- The owner's associated token account for `mint`. -/
def tokenAccount (owner mint : Address) : Address :=
  c.associatedTokenAddress owner mint token2022ProgramAddress

/-- `ConfidentialKeys::derive(owner)`, its error reported as part of the operation. -/
def deriveKeys (owner : Signer F) (operation : String) :
    Effect (World χ π) Error (ConfidentialKeypairs F) := do
  let w ← Effect.get
  Effect.ofExcept ((owner.derive w.clock).mapError (·.within operation))

/-! ## Deposit -/

def depositChecks (owner : Signer F) (mint : Address) (amount : Nat) :
    Effect (World χ π) Error (MintInfo G) := do
  let operation := "deposit"
  Effect.ofExcept (checkAmount amount operation true)
  let mintInfo ← readMint c.net c.accounts c.zk token2022ProgramAddress mint operation
  let token := c.tokenAccount owner.pubkey mint
  let (account, ct) ← readConfiguredAccount c.net c.accounts token mint operation "your"
  Effect.ofExcept (assertCanReceive ct token operation "your")
  if account.amount < amount then
    Effect.throw (.new .insufficientFunds operation ("the public balance of " ++ token ++ " is " ++
      toString account.amount ++ ", less than " ++ toString amount))
  else pure mintInfo

def deposit (owner : Signer F) (mint : Address) (amount : Nat) :
    Effect (World χ π) Error Signature := do
  let operation := "deposit"
  let mintInfo ← c.depositChecks owner mint amount
  let token := c.tokenAccount owner.pubkey mint
  let build ← Effect.ofExcept (c.tokenInstruction.mapError (buildError operation))
  let instruction := build (.deposit token mint owner.pubkey amount mintInfo.decimals)
  (c.sender operation).send c.net c.kit [.operation instruction] [owner.pubkey] operation

/-! ## Preparing -/

/-- The checks of `prepare_transfer_inner`, up to the proofs: the source account and the
    destination's key. -/
def transferChecks (operation : String) (mint source : Address) (keys : ConfidentialKeypairs F)
    (destination : Address) (amount : Nat) :
    Effect (World χ π) Error (ConfidentialTransferAccountState × G) := do
  let (_, sourceCt) ← readConfiguredAccount c.net c.accounts source mint operation "your"
  Effect.ofExcept (assertKeysMatch c.zk keys sourceCt source operation)
  let (_, destinationCt) ←
    readConfiguredAccount c.net c.accounts destination mint operation "the recipient's"
  Effect.ofExcept (assertCanReceive destinationCt destination operation "the recipient's")
  let available ← Effect.ofExcept (availableBalance c.zk sourceCt keys.aesKey source operation)
  if amount > available then
    Effect.throw (insufficientFunds operation source available amount)
  else
    match elGamalPubkey c.zk destinationCt.elgamalPubkey with
    | none => Effect.throw (.new .invalidInput operation (destination ++ " has a malformed ElGamal key"))
    | some destinationPubkey => pure (sourceCt, destinationPubkey)

/-- The proofs of a transfer, and the source's new AES balance. -/
def transferProofs (operation : String) (mintInfo : MintInfo G) (keys : ConfidentialKeypairs F)
    (amount : Nat) (sourceCt : ConfidentialTransferAccountState) (destinationPubkey : G) :
    Effect (World χ π) Error (TransferProofData π × Bytes) := do
  let w ← Effect.get
  let proofs ← Effect.ofExcept ((c.transferProofData w.clock sourceCt amount keys destinationPubkey
    mintInfo.auditor).mapError (proofError operation))
  let newBalance ← Effect.ofExcept ((c.newDecryptableAvailableBalance w.clock sourceCt amount
    keys.aesKey).mapError (proofError operation))
  pure (proofs, newBalance)

def prepareTransferInner (operation : String) (mint : Address) (mintInfo : MintInfo G)
    (source : Address) (keys : ConfidentialKeypairs F) (destination : Address) (amount : Nat) :
    Effect (World χ π) Error PreparedTransfer := do
  let (sourceCt, destinationPubkey) ←
    c.transferChecks operation mint source keys destination amount
  let (proofs, newBalance) ←
    c.transferProofs operation mintInfo keys amount sourceCt destinationPubkey
  let sender := c.sender operation
  let (accounts, signatures) ← ProofSetup.run sender c.net c.kit do
    let equality ← ProofSetup.create sender c.net c.kit proofs.equality false
    let validity ← ProofSetup.create sender c.net c.kit proofs.ciphertextValidity false
    let range ← ProofSetup.create sender c.net c.kit proofs.range true
    pure (equality, validity, range)
  pure
    { mint
      sourceTokenAccount := source
      destinationTokenAccount := destination
      equalityProof := accounts.1
      ciphertextValidityProof := accounts.2.1
      rangeProof := accounts.2.2
      newDecryptableAvailableBalance := newBalance
      auditorCiphertextLo := proofs.auditorCiphertextLo
      auditorCiphertextHi := proofs.auditorCiphertextHi
      signatures }

/-- The checks of `prepare_withdraw_inner`, up to the proofs. -/
def withdrawChecks (operation : String) (mint token : Address) (keys : ConfidentialKeypairs F)
    (amount : Nat) : Effect (World χ π) Error ConfidentialTransferAccountState := do
  let (_, ct) ← readConfiguredAccount c.net c.accounts token mint operation "your"
  Effect.ofExcept (assertKeysMatch c.zk keys ct token operation)
  let available ← Effect.ofExcept (availableBalance c.zk ct keys.aesKey token operation)
  if amount > available then
    Effect.throw (insufficientFunds operation token available amount)
  else pure ct

/-- The proofs of a withdraw, and the account's new AES balance. -/
def withdrawProofs (operation : String) (keys : ConfidentialKeypairs F) (amount : Nat)
    (ct : ConfidentialTransferAccountState) :
    Effect (World χ π) Error (WithdrawProofData π × Bytes) := do
  let w ← Effect.get
  let proofs ← Effect.ofExcept
    ((c.withdrawProofData w.clock ct amount keys).mapError (proofError operation))
  let newBalance ← Effect.ofExcept ((c.newDecryptableAvailableBalance w.clock ct amount
    keys.aesKey).mapError (proofError operation))
  pure (proofs, newBalance)

def prepareWithdrawInner (operation : String) (mint : Address) (decimals : Nat) (token : Address)
    (keys : ConfidentialKeypairs F) (amount : Nat) :
    Effect (World χ π) Error PreparedWithdraw := do
  let ct ← c.withdrawChecks operation mint token keys amount
  let (proofs, newBalance) ← c.withdrawProofs operation keys amount ct
  let sender := c.sender operation
  let (accounts, signatures) ← ProofSetup.run sender c.net c.kit do
    let equality ← ProofSetup.create sender c.net c.kit proofs.equality false
    let range ← ProofSetup.create sender c.net c.kit proofs.range true
    pure (equality, range)
  pure
    { mint
      tokenAccount := token
      amount
      decimals
      equalityProof := accounts.1
      rangeProof := accounts.2
      newDecryptableAvailableBalance := newBalance
      signatures }

def prepareTransfer (mint source : Address) (keys : ConfidentialKeypairs F) (destination : Address)
    (amount : Nat) : Effect (World χ π) Error PreparedTransfer := do
  let operation := "prepare_transfer"
  Effect.ofExcept (checkAmount amount operation true)
  let mintInfo ← readMint c.net c.accounts c.zk token2022ProgramAddress mint operation
  c.prepareTransferInner operation mint mintInfo source keys destination amount

def prepareWithdraw (mint token : Address) (keys : ConfidentialKeypairs F) (amount : Nat) :
    Effect (World χ π) Error PreparedWithdraw := do
  let operation := "prepare_withdraw"
  Effect.ofExcept (checkAmount amount operation false)
  let mintInfo ← readMint c.net c.accounts c.zk token2022ProgramAddress mint operation
  c.prepareWithdrawInner operation mint mintInfo.decimals token keys amount

def prepareConfigure (keys : ConfidentialKeypairs F) :
    Effect (World χ π) Error PreparedConfigure := do
  let operation := "prepare_configure"
  let w ← Effect.get
  let proof ← Effect.ofExcept ((c.pubkeyValidityProofData w.clock keys).mapError fun e =>
    .new .invalidInput operation ("cannot prove the ElGamal key: " ++ e))
  let sender := c.sender operation
  let (account, signatures) ← ProofSetup.run sender c.net c.kit
    (ProofSetup.create sender c.net c.kit proof false)
  let w ← Effect.get
  pure
    { pubkeyValidityProof := account
      elgamalPubkey := c.zk.elGamalPubkeyAddress keys
      decryptableZeroBalance := c.zk.aeEncrypt keys.aesKey w.clock 0
      signatures }

/-! ## Running -/

/-- Close the proof accounts of a transfer or withdraw that will not happen, and attach the outcome to
    `error`. -/
def abandon (operation : String) (proofAccounts : List Address) (signatures : List Signature)
    (error : Error) : Effect (World χ π) Error Error := do
  let (outcome, closing) ← closeProofAccounts (c.sender operation) c.net c.kit proofAccounts
  pure ((error.withProofAccounts outcome).withSignatures (signatures ++ closing))

/-- Send `instruction` together with closing the proof accounts when it fits in one transaction, or
    followed by a separate close. On failure, close them anyway. -/
def runWithProofs (operation : String) (instruction : Action) (owner : Signer F)
    (proofAccounts : List Address) (signatures : List Signature) :
    Effect (World χ π) Error (Signature × List Signature) := do
  let sender := c.sender operation
  let together := .operation instruction :: closeInstructions c.payer proofAccounts
  let closesWithIt := sender.fits c.kit together 0
  let sent ← Effect.attempt (sender.send c.net c.kit
    (if closesWithIt then together else [.operation instruction]) [owner.pubkey] operation)
  match sent with
  | .error e => do
    let e ← c.abandon operation proofAccounts signatures e
    Effect.throw e
  | .ok signature =>
    let signatures := signatures ++ [signature]
    if closesWithIt then pure (signature, signatures)
    else do
      -- Proof accounts left open are only rent; the transfer went through.
      let (_, closing) ← closeProofAccounts sender c.net c.kit proofAccounts
      pure (signature, signatures ++ closing)

/-- The extra accounts a mint's transfer hook needs for a transfer. -/
def transferHookAccounts (mint source destination authority : Address) :
    Effect (World χ π) Error (List ResolvedAccount) := do
  let w ← Effect.get
  Effect.ofExcept ((c.extraAccountMetas w.clock w.chain mint source destination authority).mapError
    fun e => .new .accountNotFound "transfer_hook_accounts"
      ("cannot resolve the accounts of mint " ++ mint ++
        "'s transfer hook (is its extra-account-meta list set up?): " ++ e))

/-- `prepared.instruction(authority)`. -/
def transferInstruction (prepared : PreparedTransfer) (authority : Address) : Except Error Action :=
  match c.tokenInstruction with
  | .error e => .error (.new .invalidInput "transfer" ("cannot build the transfer instruction: " ++ e))
  | .ok build => .ok (build (.transfer
      { sourceToken := prepared.sourceTokenAccount
        mint := prepared.mint
        destinationToken := prepared.destinationTokenAccount
        equalityRecord := prepared.equalityProof
        ciphertextValidityRecord := prepared.ciphertextValidityProof
        rangeRecord := prepared.rangeProof
        authority
        newSourceDecryptableAvailableBalance := prepared.newDecryptableAvailableBalance
        transferAmountAuditorCiphertextLo := prepared.auditorCiphertextLo
        transferAmountAuditorCiphertextHi := prepared.auditorCiphertextHi }))

/-- `prepared.instruction(authority)`. -/
def withdrawInstruction (prepared : PreparedWithdraw) (authority : Address) : Except Error Action :=
  match c.tokenInstruction with
  | .error e => .error (.new .invalidInput "withdraw" ("cannot build the withdraw instruction: " ++ e))
  | .ok build => .ok (build (.withdraw
      { token := prepared.tokenAccount
        mint := prepared.mint
        equalityRecord := prepared.equalityProof
        rangeRecord := prepared.rangeProof
        authority
        amount := prepared.amount
        decimals := prepared.decimals
        newDecryptableAvailableBalance := prepared.newDecryptableAvailableBalance }))

/-- The instruction of a transfer with the accounts of the mint's hook; without them the proof accounts
    are abandoned. -/
def withHookAccounts (operation : String) (mintInfo : MintInfo G) (prepared : PreparedTransfer)
    (authority : Address) (instruction : Action) : Effect (World χ π) Error Action := do
  if mintInfo.transferHookProgram.isSome then
    match ← Effect.attempt (c.transferHookAccounts prepared.mint prepared.sourceTokenAccount
        prepared.destinationTokenAccount authority) with
    | .ok extra => pure (withExtraAccounts instruction extra)
    | .error e => do
      let e ← c.abandon operation prepared.proofAccounts prepared.signatures e
      Effect.throw e
  else pure instruction

def transfer (owner : Signer F) (mint destinationOwner : Address) (amount : Nat) :
    Effect (World χ π) Error TransferResult := do
  let operation := "transfer"
  Effect.ofExcept (checkAmount amount operation true)
  let mintInfo ← readMint c.net c.accounts c.zk token2022ProgramAddress mint operation
  let source := c.tokenAccount owner.pubkey mint
  let destination := c.tokenAccount destinationOwner mint
  let keys ← deriveKeys owner operation
  let prepared ← c.prepareTransferInner operation mint mintInfo source keys destination amount
  let instruction ← Effect.ofExcept
    ((c.transferInstruction prepared owner.pubkey).mapError (·.within operation))
  let instruction ← c.withHookAccounts operation mintInfo prepared owner.pubkey instruction
  let (transferSignature, signatures) ← c.runWithProofs operation instruction owner
    prepared.proofAccounts prepared.signatures
  pure
    { sourceTokenAccount := source
      destinationTokenAccount := destination
      signatures
      transferSignature }

def withdraw (owner : Signer F) (mint : Address) (amount : Nat) :
    Effect (World χ π) Error WithdrawResult := do
  let operation := "withdraw"
  Effect.ofExcept (checkAmount amount operation false)
  let mintInfo ← readMint c.net c.accounts c.zk token2022ProgramAddress mint operation
  let token := c.tokenAccount owner.pubkey mint
  let keys ← deriveKeys owner operation
  let prepared ← c.prepareWithdrawInner operation mint mintInfo.decimals token keys amount
  let instruction ← Effect.ofExcept
    ((c.withdrawInstruction prepared owner.pubkey).mapError (·.within operation))
  let (withdrawSignature, signatures) ← c.runWithProofs operation instruction owner
    prepared.proofAccounts prepared.signatures
  pure { tokenAccount := token, signatures, withdrawSignature }

end Client

end Rust
