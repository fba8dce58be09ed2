-- SUMMARY: One on-chain state as both clients read it, and the faults their checks find in it.
import ConfidentialTransfers.Rust.Checks
import ConfidentialTransfers.Sdk.Checks
import ConfidentialTransfers.Sdk.HookRefusals

/-!
# Both clients over one chain

An `OnChain` is a mint with confidential transfers and without a hook, and the
associated token accounts of its holders. Each client's checks come down to the
first fault of a list; the two lists hold the same faults in different orders.
-/

open Solana

namespace Compared

variable {χ π F G : Type} [CommRing F] [AddCommGroup G] [Module F G]

/-! ## The state -/

/-- A mint and its holders' accounts. -/
structure OnChain where
  mint : Address
  decimals : Nat
  mintState : Mint
  /-- The auditor's key, if the mint has one. -/
  auditor : Option Address
  confidential : Rust.confidentialTransferMint mintState = some auditor
  noHook : (mintState.extensions.getD []).findSome? Sdk.hookProgramId = none
  /-- The associated token account of an owner. -/
  associatedToken : Address → Address
  associatedToken_ne : ∀ owner, associatedToken owner ≠ mint
  token : Address → Option Token

namespace OnChain

variable (s : OnChain)

/-- The owner's token account, if it exists. -/
def account (owner : Address) : Option Token := s.token (s.associatedToken owner)

/-- The owner's confidential state, if the account is configured. -/
def state (owner : Address) : Option ConfidentialTransferAccountState :=
  (s.account owner).bind Sdk.confidentialState

/-- The TypeScript client, reading this state. -/
def sdk (c : Sdk.Client χ F G) (hk : Sdk.HookSurroundings χ) : Sdk.Client χ F G :=
  Sdk.Client.withHooks
    { c with
      net := { c.net with
        refused := fun _ _ => none
        token := fun _ _ a => .ok (s.token a)
        mint := fun _ _ _ => .ok s.mintState }
      findAssociatedTokenPda := fun owner _ _ => s.associatedToken owner } hk

/-- The accounts as the crate reads them. -/
def accountData (a : Address) : Option Rust.AccountData :=
  if a = s.mint then
    some { owner := token2022ProgramAddress
           unpackMint := some { decimals := s.decimals, state := s.mintState } }
  else (s.token a).map fun t =>
    { owner := token2022ProgramAddress, unpackToken := some { mint := s.mint, state := t } }

/-- The Rust client, reading this state. -/
def rust (r : Rust.Client χ π F G) (zk : ZkSdk F G) : Rust.Client χ π F G :=
  { r with
    net := { r.net with refused := fun _ _ => none }
    zk := zk
    accounts := fun _ _ a => s.accountData a
    associatedTokenAddress := fun owner _ _ => s.associatedToken owner }

end OnChain

/-- A wallet with its confidential keys. -/
structure Wallet (F : Type) [CommRing F] where
  address : Address
  keys : ConfidentialKeypairs F

namespace Wallet

variable (wallet : Wallet F) (s : OnChain)

/-- The wallet as the TypeScript SDK sees it. -/
def owner : Sdk.Owner F where
  address := wallet.address
  deriveConfidentialKeys _ := .ok wallet.keys

/-- The wallet as the crate sees it. -/
def signer : Rust.Signer F where
  pubkey := wallet.address
  derive _ := .ok wallet.keys
  derive_proofAccounts _ := .ok _

def depositInput (payer : Address) (amount : UInt64) : Sdk.DepositInput F where
  payer := payer
  owner := wallet.owner
  mint := s.mint
  amount := amount.toNat
  decimals := s.decimals

/-- The keys are passed to the SDK, or derived by it. -/
def keysInput (passed : Bool) : Option (ConfidentialKeypairs F) :=
  if passed then some wallet.keys else none

def transferInput (payer destinationOwner : Address) (amount : UInt64) (passed : Bool) :
    Sdk.TransferInput F where
  payer := payer
  owner := wallet.owner
  mint := s.mint
  destinationOwner := some destinationOwner
  amount := amount.toNat
  keys := wallet.keysInput passed

def withdrawInput (payer : Address) (amount : UInt64) (passed : Bool) : Sdk.WithdrawInput F where
  payer := payer
  owner := wallet.owner
  mint := s.mint
  amount := amount.toNat
  decimals := s.decimals
  keys := wallet.keysInput passed

end Wallet

/-! ## Faults -/

/-- The TypeScript code of the same name: `ErrorCode::as_str`. -/
def toSdk : Rust.ErrorCode → Option Sdk.ErrorCode
  | .invalidInput => some .invalidInput
  | .accountNotFound => some .accountNotFound
  | .accountNotConfigured => some .accountNotConfigured
  | .accountAlreadyConfigured => some .accountAlreadyConfigured
  | .accountNotApproved => some .accountNotApproved
  | .recipientRejectsConfidential => some .recipientRejectsConfidential
  | .pendingBalanceLimit => some .pendingBalanceLimit
  | .insufficientFunds => some .insufficientFunds
  | .amountTooLarge => some .amountTooLarge
  | .keysMismatch => some .keysMismatch
  | .decryptionFailed => some .decryptionFailed
  | .cannotSignMessages => some .cannotSignMessages
  | .badMessageSignature => some .badMessageSignature
  | .transactionFailed => some .transactionFailed
  | .transactionExpired => some .transactionExpired
  | .rpc => none

/-- What a caller can tell an error by. -/
inductive Fault
  | code (code : Sdk.ErrorCode)
  /-- An error with no code that both languages have. -/
  | other
deriving DecidableEq, Repr

def Fault.ofThrown : Sdk.Thrown → Fault
  | .sdk e => .code e.code
  | .other _ => .other

def Fault.ofError (e : Rust.Error) : Fault :=
  match toSdk e.code with
  | some c => .code c
  | none => .other

/-- The fault an outcome reports, if it is a failure. -/
def faultOf {ε α : Type} (kind : ε → Fault) : Except ε α → Option Fault
  | .ok _ => none
  | .error e => some (kind e)

/-- Both pass, or both fail with the same code. -/
def SameCode (ts rust : Option Fault) : Prop := ts = rust ∧ ts ≠ some .other

/-- The first fault of some checks, made in this order. -/
def firstFault (checks : List (Option Fault)) : Option Fault := checks.findSome? id

@[simp] theorem firstFault_nil : firstFault [] = none := rfl

@[simp] theorem firstFault_none (checks : List (Option Fault)) :
    firstFault (none :: checks) = firstFault checks := rfl

@[simp] theorem firstFault_some (fault : Fault) (checks : List (Option Fault)) :
    firstFault (some fault :: checks) = some fault := rfl

@[simp] theorem firstFault_singleton (fault : Option Fault) : firstFault [fault] = fault := by
  cases fault <;> rfl

section Steps

variable {σ ε α β : Type} {kind : ε → Fault} {fault : Option Fault} {checks : List (Option Fault)}

/-- A step that makes some of the checks, before those that make the others. -/
theorem faultOf_bind_append (done : List (Option Fault)) {m : Effect σ ε α} {f : α → Effect σ ε β} {s : σ}
    (hdone : faultOf kind (m s).1 = firstFault done)
    (hrest : ∀ a s', m s = (.ok a, s') → faultOf kind ((f a) s').1 = firstFault checks) :
    faultOf kind ((m >>= f) s).1 = firstFault (done ++ checks) := by
  have hsplit : firstFault (done ++ checks) = (firstFault done).or (firstFault checks) :=
    List.findSome?_append
  rcases hm : m s with ⟨r, s'⟩
  rw [hm] at hdone
  rw [hsplit, ← hdone]
  cases r with
  | ok a =>
    have h := hrest a s' hm
    simpa [bind, hm, faultOf] using h
  | error e => simp [bind, hm, faultOf]

/-- A step that makes the first of the checks. -/
theorem faultOf_bind {m : Effect σ ε α} {f : α → Effect σ ε β} {s : σ}
    (hfault : faultOf kind (m s).1 = fault)
    (hrest : ∀ a s', m s = (.ok a, s') → faultOf kind ((f a) s').1 = firstFault checks) :
    faultOf kind ((m >>= f) s).1 = firstFault (fault :: checks) :=
  faultOf_bind_append [fault] (hfault.trans (firstFault_singleton fault).symm) hrest

/-- A step that always succeeds makes no check. -/
theorem faultOf_bind_ok {m : Effect σ ε α} {f : α → Effect σ ε β} {s s' : σ} {a : α}
    (hm : m s = (.ok a, s')) (hrest : faultOf kind ((f a) s').1 = fault) :
    faultOf kind ((m >>= f) s).1 = fault := by
  rw [← hrest]
  simp [bind, hm]

/-- The same rule for a computation without a state. -/
theorem faultOf_bind_except {r : Except ε α} {f : α → Except ε β} (hfault : faultOf kind r = fault)
    (hrest : ∀ a, r = .ok a → faultOf kind (f a) = firstFault checks) :
    faultOf kind (r >>= f) = firstFault (fault :: checks) := by
  cases r with
  | ok a =>
    obtain rfl : none = fault := hfault
    exact hrest a rfl
  | error e =>
    obtain rfl : some (kind e) = fault := hfault
    rfl

/-- The last check, whose result is not needed. -/
theorem faultOf_bind_pure {m : Effect σ ε α} {f : α → β} {s : σ}
    (hfault : faultOf kind (m s).1 = fault) :
    faultOf kind ((m >>= fun a => pure (f a)) s).1 = fault := by
  have h : faultOf kind ((m >>= fun a => pure (f a)) s).1 = firstFault [fault] :=
    faultOf_bind hfault fun a s' _ => rfl
  simpa using h

end Steps

variable (zk : ZkSdk F G)

def amountFault (amount : UInt64) : Option Fault :=
  if amount = 0 then some (.code .invalidInput) else none

/-- The most one deposit or transfer can carry. -/
def largestAmount : Nat := 2 ^ 48 - 1

def tooLargeFault (amount : UInt64) : Option Fault :=
  if largestAmount < amount.toNat then some (.code .amountTooLarge) else none

/-- The account is missing, or not configured. -/
def accountFault (account : Option Token) : Option Fault :=
  match account with
  | none => some (.code .accountNotFound)
  | some account =>
    match Sdk.confidentialState account with
    | none => some (.code .accountNotConfigured)
    | some _ => none

/-- The account cannot take one more incoming deposit or transfer. -/
def receiveFault (ct : ConfidentialTransferAccountState) : Option Fault :=
  if !ct.approved then some (.code .accountNotApproved)
  else if !ct.allowConfidentialCredits then some (.code .recipientRejectsConfidential)
  else if ct.pendingBalanceCreditCounter ≥ ct.maximumPendingBalanceCreditCounter then
    some (.code .pendingBalanceLimit)
  else none

/-- The public balance is less than the amount. -/
def publicFault (account : Token) (amount : UInt64) : Option Fault :=
  if account.amount < amount.toNat then some (.code .insufficientFunds) else none

/-- The account is configured with other keys. -/
def keysFault (keys : ConfidentialKeypairs F) (ct : ConfidentialTransferAccountState) : Option Fault :=
  if zk.elGamalPubkeyAddress keys ≠ ct.elgamalPubkey then some (.code .keysMismatch) else none

/-- A malformed ElGamal key; `fault` is how the client reports it. -/
def keyFault (fault : Fault) (key : Address) : Option Fault :=
  if (zk.pubkeyFromBytes (zk.addressToBytes key)).isNone then some fault else none

/-- The AES copy of the balance cannot be read; `fault` is how the client reports one that does not
    decrypt. -/
def aesFault (fault : Fault) (keys : ConfidentialKeypairs F) (ct : ConfidentialTransferAccountState) :
    Option Fault :=
  match ZkSdk.aeCiphertextFromBytes ct.decryptableAvailableBalance with
  | none => some (.code .decryptionFailed)
  | some ciphertext =>
    match zk.aeDecrypt keys.aesKey ciphertext with
    | .error _ => some fault
    | .ok _ => none

/-- The confidential balance is less than the amount. -/
def balanceFault (keys : ConfidentialKeypairs F) (ct : ConfidentialTransferAccountState)
    (amount : UInt64) : Option Fault :=
  match ZkSdk.aeCiphertextFromBytes ct.decryptableAvailableBalance with
  | none => none
  | some ciphertext =>
    match zk.aeDecrypt keys.aesKey ciphertext with
    | .error _ => none
    | .ok balance => if balance < amount.toNat then some (.code .insufficientFunds) else none

end Compared
