-- SUMMARY: The vault program: its accounts, what Anchor checks of them, and its instructions.
import ConfidentialTransfers.Lib.Effect
import ConfidentialTransfers.Lib.Machine
import ConfidentialTransfers.Vault.Token2022

/-!
# The vault program

`anchor-vault/programs/confidential-vault/src/lib.rs`: a program that holds a
confidential balance and pays out of it. An instruction that fails changes
nothing, so a handler gives an error or the state it leaves.
-/

open Solana

namespace ConfidentialVault

/-- `declare_id!`. -/
def ID : Address := "DzaS2RboEYWKC1EvuPPnWpDbjJesPheCw3KV14qVvoPn"

structure Vault where
  operator : Address
  mint : Address
  bump : UInt8
deriving DecidableEq, Repr

/-- `8 + Vault::INIT_SPACE`: the discriminator, two addresses and the bump. -/
def vaultSpace : Nat := 8 + (32 + 32 + 1)

/-- A payout, without its amount (that is encrypted in the transfer). -/
structure Paid where
  vault : Address
  destination : Address
deriving DecidableEq, Repr

/-- A call the program made, and the accounts of the instruction that made it. -/
structure Invoked where
  accounts : List AccountInfo
  instruction : ProgramInstruction
deriving DecidableEq, Repr

structure State (τ : Type) where
  /-- The accounts of the program that hold a `Vault`. Only the program writes to them. -/
  vaults : Address → Option Vault
  /-- Everything else on chain. -/
  rest : τ
  /-- Every call the program made, in order. -/
  invoked : List Invoked := []
  /-- Every event it emitted, in order. -/
  events : List Paid := []

/-- What the program finds around it. -/
structure Surroundings (τ : Type) where
  derivation : Derivation
  /-- The system program's `create_account`, for an account of this size. -/
  createAccount : τ → (payer address : Address) → (space : Nat) → Except String τ
  /-- The runtime's `invoke_signed` by this program: what the program called makes of an instruction,
      if the runtime lets it. It cannot call back into this one. -/
  invokeSigned : (Address → Option Vault) → τ → ProgramInstruction → List AccountInfo →
    List (List Bytes) → Except InvokeError τ

inductive AnchorError
  | accountNotSigner
  | invalidProgramId
  /-- The account holds no `Vault` of this program. -/
  | notAVault
  | constraintMut
  | constraintHasOne
  | constraintOwner
  | constraintSeeds
  | constraintAddress
deriving DecidableEq, Repr

inductive ProgramError
  | anchor (error : AnchorError)
  | createAccount (message : String)
  | invoke (error : InvokeError)
deriving DecidableEq, Repr

/-! ## Accounts -/

structure Initialize where
  operator : AccountInfo
  mint : AccountInfo
  vault : AccountInfo
  systemProgram : AccountInfo
deriving DecidableEq, Repr

structure Configure where
  /-- Pays for the larger token account. -/
  operator : AccountInfo
  vault : AccountInfo
  mint : AccountInfo
  vaultToken : AccountInfo
  pubkeyValidityProof : AccountInfo
  tokenProgram : AccountInfo
  systemProgram : AccountInfo
deriving DecidableEq, Repr

structure ApplyPending where
  operator : AccountInfo
  vault : AccountInfo
  vaultToken : AccountInfo
  tokenProgram : AccountInfo
deriving DecidableEq, Repr

structure Pay where
  operator : AccountInfo
  vault : AccountInfo
  mint : AccountInfo
  vaultToken : AccountInfo
  destinationToken : AccountInfo
  equalityProof : AccountInfo
  ciphertextValidityProof : AccountInfo
  rangeProof : AccountInfo
  tokenProgram : AccountInfo
deriving DecidableEq, Repr

def Initialize.toList (a : Initialize) : List AccountInfo := [a.operator, a.mint, a.vault, a.systemProgram]

def Configure.toList (a : Configure) : List AccountInfo :=
  [a.operator, a.vault, a.mint, a.vaultToken, a.pubkeyValidityProof, a.tokenProgram, a.systemProgram]

def ApplyPending.toList (a : ApplyPending) : List AccountInfo :=
  [a.operator, a.vault, a.vaultToken, a.tokenProgram]

def Pay.toList (a : Pay) : List AccountInfo :=
  [a.operator, a.vault, a.mint, a.vaultToken, a.destinationToken, a.equalityProof,
    a.ciphertextValidityProof, a.rangeProof, a.tokenProgram]

/-! ## What Anchor checks

The accounts are read first, in their order, then the constraints are checked. -/

/-- A check of an account. -/
def require (ok : Bool) (error : AnchorError) : Except ProgramError Unit :=
  if ok then .ok () else .error (.anchor error)

/-- `Signer`. -/
def signer (info : AccountInfo) : Except ProgramError Unit := require info.isSigner .accountNotSigner

/-- `Account<Vault>`. -/
def account (vaults : Address → Option Vault) (info : AccountInfo) : Except ProgramError Vault :=
  match vaults info.key with
  | some vault => .ok vault
  | none => .error (.anchor .notAVault)

/-- `Program<System>`. -/
def system (info : AccountInfo) : Except ProgramError Unit :=
  require (info.key == Token2022.systemProgramId) .invalidProgramId

/-- `#[account(mut)]`. -/
def isMut (info : AccountInfo) : Except ProgramError Unit := require info.isWritable .constraintMut

/-- `has_one`. -/
def hasOne (stored : Address) (info : AccountInfo) : Except ProgramError Unit :=
  require (stored == info.key) .constraintHasOne

/-- `address = TOKEN_2022`. -/
def isToken2022 (info : AccountInfo) : Except ProgramError Unit :=
  require (info.key == token2022ProgramAddress) .constraintAddress

/-- `b"vault"`. -/
def vaultSeed : Bytes := "vault".toList.map Char.toUInt8

variable {τ : Type} (env : Surroundings τ)

/-- `&[b"vault", mint, &[bump]]`. -/
def vaultSeeds (mint : Address) (bump : UInt8) : List Bytes :=
  [vaultSeed, env.derivation.addressBytes mint, [bump]]

def Initialize.tryAccounts (a : Initialize) (s : State τ) : Except ProgramError (UInt8 × State τ) := do
  signer a.operator
  system a.systemProgram
  -- `init`: the account must be the derived one, and its creation fails if it is in use.
  match env.derivation.findProgramAddress [vaultSeed, env.derivation.addressBytes a.mint.key] ID with
  | none => throw (.anchor .constraintSeeds)
  | some (address, bump) =>
    require (a.vault.key == address) .constraintSeeds
    if (s.vaults a.vault.key).isSome then throw (.createAccount "account already in use")
    let rest ← (env.createAccount s.rest a.operator.key a.vault.key vaultSpace).mapError .createAccount
    isMut a.vault
    isMut a.operator
    require (a.mint.owner == token2022ProgramAddress) .constraintOwner
    pure (bump, { s with rest })

def Configure.tryAccounts (a : Configure) (s : State τ) : Except ProgramError Vault := do
  signer a.operator
  let vault ← account s.vaults a.vault
  system a.systemProgram
  isMut a.operator
  require (env.derivation.createProgramAddress (vaultSeeds env a.mint.key vault.bump) ID == some a.vault.key)
    .constraintSeeds
  hasOne vault.operator a.operator
  hasOne vault.mint a.mint
  isMut a.vaultToken
  isToken2022 a.tokenProgram
  pure vault

def ApplyPending.tryAccounts (a : ApplyPending) (s : State τ) : Except ProgramError Vault := do
  signer a.operator
  let vault ← account s.vaults a.vault
  hasOne vault.operator a.operator
  isMut a.vaultToken
  isToken2022 a.tokenProgram
  pure vault

def Pay.tryAccounts (a : Pay) (s : State τ) : Except ProgramError Vault := do
  signer a.operator
  let vault ← account s.vaults a.vault
  hasOne vault.operator a.operator
  hasOne vault.mint a.mint
  isMut a.vaultToken
  isMut a.destinationToken
  isToken2022 a.tokenProgram
  pure vault

/-! ## Instructions -/

/-- `invoke_signed`, in an instruction with these accounts. -/
def invokeSigned (accounts : List AccountInfo) (instruction : ProgramInstruction)
    (infos : List AccountInfo) (signersSeeds : List (List Bytes)) (s : State τ) :
    Except ProgramError (State τ) := do
  let rest ← (env.invokeSigned s.vaults s.rest instruction infos signersSeeds).mapError .invoke
  pure { s with rest, invoked := s.invoked ++ [{ accounts, instruction }] }

/-- `initialize`, a word Lean keeps for itself. -/
def initializeVault (a : Initialize) (s : State τ) : Except ProgramError (State τ) := do
  let (bump, s) ← a.tryAccounts env s
  let vault : Vault := { operator := a.operator.key, mint := a.mint.key, bump }
  pure { s with vaults := Function.update s.vaults a.vault.key (some vault) }

/-- Add the confidential-transfer extension to the vault's token account and configure it with the
    vault's ElGamal key, proved in `pubkeyValidityProof`. -/
def configure (a : Configure) (decryptableZeroBalance : Vector UInt8 36) (s : State τ) :
    Except ProgramError (State τ) := do
  let vault ← a.tryAccounts env s
  let seeds := vaultSeeds env a.mint.key vault.bump
  let s ← invokeSigned env a.toList
    (Token2022.reallocateForConfidentialTransfers a.vaultToken.key a.operator.key a.vault.key)
    [a.vaultToken, a.operator, a.systemProgram, a.vault, a.tokenProgram] [seeds] s
  invokeSigned env a.toList
    (Token2022.configureAccount a.vaultToken.key a.mint.key a.pubkeyValidityProof.key a.vault.key
      decryptableZeroBalance)
    [a.vaultToken, a.mint, a.pubkeyValidityProof, a.vault, a.tokenProgram] [seeds] s

/-- Move the vault's pending balance into its available balance. -/
def applyPending (a : ApplyPending) (expectedPendingBalanceCreditCounter : UInt64)
    (newDecryptableAvailableBalance : Vector UInt8 36) (s : State τ) :
    Except ProgramError (State τ) := do
  let vault ← a.tryAccounts s
  invokeSigned env a.toList
    (Token2022.applyPendingBalance a.vaultToken.key a.vault.key expectedPendingBalanceCreditCounter
      newDecryptableAvailableBalance)
    [a.vaultToken, a.vault, a.tokenProgram] [vaultSeeds env vault.mint vault.bump] s

/-- The transfer of a payout, with the transfer hook's accounts as the client resolved them. -/
def payInstruction (a : Pay) (remainingAccounts : List AccountInfo)
    (newDecryptableAvailableBalance : Vector UInt8 36)
    (auditorCiphertextLo auditorCiphertextHi : Vector UInt8 64) : ProgramInstruction :=
  let instruction := Token2022.transfer a.vaultToken.key a.mint.key a.destinationToken.key
    #v[a.equalityProof.key, a.ciphertextValidityProof.key, a.rangeProof.key] a.vault.key
    newDecryptableAvailableBalance auditorCiphertextLo auditorCiphertextHi
  { instruction with
    accounts := instruction.accounts ++ remainingAccounts.map fun account =>
      { pubkey := account.key, isSigner := false, isWritable := account.isWritable } }

/-- Confidentially transfer from the vault to `destinationToken`. The amount is in the proofs and in the
    new balance. -/
def pay (a : Pay) (remainingAccounts : List AccountInfo)
    (newDecryptableAvailableBalance : Vector UInt8 36)
    (auditorCiphertextLo auditorCiphertextHi : Vector UInt8 64) (s : State τ) :
    Except ProgramError (State τ) := do
  let vault ← a.tryAccounts s
  let s ← invokeSigned env (a.toList ++ remainingAccounts)
    (payInstruction a remainingAccounts newDecryptableAvailableBalance auditorCiphertextLo
      auditorCiphertextHi)
    ([a.vaultToken, a.mint, a.destinationToken, a.equalityProof, a.ciphertextValidityProof, a.rangeProof,
      a.vault, a.tokenProgram] ++ remainingAccounts)
    [vaultSeeds env a.mint.key vault.bump] s
  pure { s with events := s.events ++ [{ vault := a.vault.key, destination := a.destinationToken.key }] }

/-! ## Runs -/

/-- An instruction sent to the program, by whoever signs. -/
inductive Call
  | initializeVault (accounts : Initialize)
  | configure (accounts : Configure) (decryptableZeroBalance : Vector UInt8 36)
  | applyPending (accounts : ApplyPending) (expectedPendingBalanceCreditCounter : UInt64)
      (newDecryptableAvailableBalance : Vector UInt8 36)
  | pay (accounts : Pay) (remainingAccounts : List AccountInfo)
      (newDecryptableAvailableBalance : Vector UInt8 36)
      (auditorCiphertextLo auditorCiphertextHi : Vector UInt8 64)

def handle : Call → State τ → Except ProgramError (State τ)
  | .initializeVault a => initializeVault env a
  | .configure a zeroBalance => configure env a zeroBalance
  | .applyPending a counter newBalance => applyPending env a counter newBalance
  | .pay a remaining newBalance lo hi => pay env a remaining newBalance lo hi

/-- What can happen on chain: a call to the program, or anything else, which leaves its accounts alone. -/
inductive Input (τ : Type)
  | call (c : Call)
  | elsewhere (rest : τ)

/-- The state after an input. -/
def next (s : State τ) : Input τ → State τ
  | .call c =>
    match handle env c s with
    | .ok s' => s'
    | .error _ => s
  | .elsewhere rest => { s with rest }

/-- The program when it is deployed. -/
def deployed (rest : τ) : State τ where
  vaults := fun _ => none
  rest := rest

end ConfidentialVault
