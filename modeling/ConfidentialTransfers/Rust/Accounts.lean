-- SUMMARY: How the Rust crate reads mints and token accounts, and what it checks before acting on them.
import ConfidentialTransfers.Rust.Send
import ConfidentialTransfers.Sdk.Accounts

/-!
# The crate's accounts

`accounts.rs`. What `unpack` makes of an account's data is part of the account.
-/

open Solana

namespace Rust

variable {χ π F G : Type} [CommRing F] [AddCommGroup G] [Module F G]

/-- `StateWithExtensionsOwned::<Mint>`. -/
structure UnpackedMint where
  decimals : Nat
  state : Mint
deriving DecidableEq, Repr

/-- `StateWithExtensionsOwned::<Account>`. -/
structure UnpackedToken where
  mint : Address
  state : Token
deriving DecidableEq, Repr

/-- An account, with what `unpack` makes of its data as a mint and as a token account. -/
structure AccountData where
  owner : Address
  unpackMint : Option UnpackedMint := none
  unpackToken : Option UnpackedToken := none
deriving DecidableEq, Repr

/-- What the crate reads accounts through: the account at an address when the given request is made. -/
abbrev Accounts (χ : Type) := Nat → χ → Address → Option AccountData

structure MintInfo (G : Type) where
  decimals : Nat
  auditor : Option G
  transferHookProgram : Option Address

/-- `get_extension::<ConfidentialTransferMint>()`: its auditor key. -/
def confidentialTransferMint (mint : Mint) : Option (Option Address) :=
  (mint.extensions.getD []).findSome? fun
    | .confidentialTransferMint auditor => some auditor
    | _ => none

/-- `transfer_hook::get_program_id`. -/
def transferHookProgramId (mint : Mint) : Option Address :=
  ((mint.extensions.getD []).findSome? fun
    | .transferHook programId => some programId
    | _ => none).join

variable (net : Network χ π) (accounts : Accounts χ) (zk : ZkSdk F G)

def fetch (address : Address) (operation : String) :
    Effect (World χ π) Error (Option AccountData) :=
  Effect.mapError
    (fun e => .new .rpc operation ("could not read account " ++ address ++ ": " ++ e))
    (net.request (.getAccountInfo address) fun n chain => accounts n chain address)

/-- `ElGamalPubkey::try_from`. -/
def elGamalPubkey (key : Address) : Option G := zk.pubkeyFromBytes (zk.addressToBytes key)

/-- What `read_mint` makes of the account at the mint's address. -/
def mintInfoOf (programId mint : Address) (operation : String) (account : Option AccountData) :
    Except Error (MintInfo G) :=
  let notAMint := Error.new .invalidInput operation (mint ++ " is not a Token-2022 mint")
  match account with
  | none => .error (.new .accountNotFound operation ("mint " ++ mint ++ " does not exist"))
  | some account =>
    if account.owner ≠ programId then .error notAMint
    else
      match account.unpackMint with
      | none => .error notAMint
      | some unpacked =>
        match confidentialTransferMint unpacked.state with
        | none => .error (.new .invalidInput operation
            ("mint " ++ mint ++ " does not have confidential transfers enabled (no ConfidentialTransferMint extension)"))
        | some none => .ok
            { decimals := unpacked.decimals, auditor := none,
              transferHookProgram := transferHookProgramId unpacked.state }
        | some (some key) =>
          match elGamalPubkey zk key with
          | none => .error (.new .invalidInput operation ("mint " ++ mint ++ " has a malformed auditor key"))
          | some auditor => .ok
              { decimals := unpacked.decimals, auditor := some auditor,
                transferHookProgram := transferHookProgramId unpacked.state }

def readMint (programId mint : Address) (operation : String) :
    Effect (World χ π) Error (MintInfo G) := do
  let account ← fetch net accounts mint operation
  Effect.ofExcept (mintInfoOf zk programId mint operation account)

/-- What `read_token_account` makes of the account at an address. -/
def tokenAccountOf (address mint : Address) (operation : String) (account : Option AccountData) :
    Except Error (Option Token) :=
  match account with
  | none => .ok none
  | some account =>
    match account.unpackToken with
    | none => .error (.new .invalidInput operation (address ++ " is not a Token-2022 token account"))
    | some unpacked =>
      if unpacked.mint ≠ mint then
        .error (.new .invalidInput operation
          ("token account " ++ address ++ " belongs to mint " ++ unpacked.mint ++ ", not " ++ mint))
      else .ok (some unpacked.state)

/-- A token account, or `none` if it does not exist. -/
def readTokenAccount (address mint : Address) (operation : String) :
    Effect (World χ π) Error (Option Token) := do
  let account ← fetch net accounts address operation
  Effect.ofExcept (tokenAccountOf address mint operation account)

/-- The account has to exist and to be configured. -/
def configured (address : Address) (operation whose : String) (account : Option Token) :
    Except Error (Token × ConfidentialTransferAccountState) :=
  match account with
  | none => .error (.new .accountNotFound operation
      (whose ++ " token account " ++ address ++ " does not exist. It is created by configure_account."))
  | some account =>
    match Sdk.confidentialState account with
    | none => .error (.new .accountNotConfigured operation
        (whose ++ " token account " ++ address ++
          " is missing the ConfidentialTransferAccount extension; " ++
          "it has to be set up with configure_account first."))
    | some ct => .ok (account, ct)

/-- A token account that must exist and be configured for confidential transfers. -/
def readConfiguredAccount (address mint : Address) (operation whose : String) :
    Effect (World χ π) Error (Token × ConfidentialTransferAccountState) := do
  let account ← readTokenAccount net accounts address mint operation
  Effect.ofExcept (configured address operation whose account)

/-- Fails unless the account can take one more incoming deposit or transfer. -/
def assertCanReceive (ct : ConfidentialTransferAccountState) (address : Address)
    (operation whose : String) : Except Error Unit :=
  if !ct.approved then
    .error (.new .accountNotApproved operation
      (whose ++ " token account " ++ address ++ " has not been approved for confidential transfers by the mint's " ++
        "confidential-transfer authority."))
  else if !ct.allowConfidentialCredits then
    .error (.new .recipientRejectsConfidential operation
      (whose ++ " token account " ++ address ++ " does not accept confidential credits."))
  else
    let received := ct.pendingBalanceCreditCounter
    if received ≥ ct.maximumPendingBalanceCreditCounter then
      let next :=
        if whose = "your" then "Run apply_pending_balance first."
        else "The recipient has to run apply_pending_balance first."
      .error (.new .pendingBalanceLimit operation
        (whose ++ " token account " ++ address ++ " has received " ++ toString received ++
          " deposits or transfers since its pending balance was last applied, the most it takes. " ++ next))
    else .ok ()

/-- Fails unless `keys` are the keys `ct` is configured with. -/
def assertKeysMatch (keys : ConfidentialKeypairs F) (ct : ConfidentialTransferAccountState)
    (address : Address) (operation : String) : Except Error Unit :=
  if zk.elGamalPubkeyAddress keys ≠ ct.elgamalPubkey then
    .error (.new .keysMismatch operation
      ("token account " ++ address ++ " is configured with another ElGamal key than the one derived from this " ++
        "signer. It was configured by another wallet, or with keys derived another way."))
  else .ok ()

/-- The available balance, from the owner's AES copy. -/
def availableBalance (ct : ConfidentialTransferAccountState) (ae : Bytes) (address : Address)
    (operation : String) : Except Error Nat :=
  let fail := Error.new .decryptionFailed operation
    ("could not decrypt the available balance of " ++ address)
  match ZkSdk.aeCiphertextFromBytes ct.decryptableAvailableBalance with
  | none => .error fail
  | some ciphertext => (zk.aeDecrypt ae ciphertext).mapError fun _ => fail

end Rust
