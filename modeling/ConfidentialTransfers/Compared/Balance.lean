-- SUMMARY: Both SDKs read the same balance from any account, or fail with the same code.
import ConfidentialTransfers.Compared.SameCodes
import ConfidentialTransfers.Rust.Balance
import ConfidentialTransfers.Sdk.TokenProgram

/-!
# Reading a balance with either SDK

`decryptBalance` and `decrypt_balance` on the same chain, for an account in any
state: `readBalance` is what both make of it.
-/

open Solana

namespace Compared

variable {χ π F G : Type} [CommRing F] [AddCommGroup G] [Module F G]

def Wallet.decryptBalanceInput (wallet : Wallet F) (s : OnChain) (passed : Bool) :
    Sdk.DecryptBalanceInput F where
  owner := wallet.owner
  mint := s.mint
  keys := wallet.keysInput passed

/-- What the confidential state of an account is read as. -/
def readState (zk : ZkSdk F G) (keys : ConfidentialKeypairs F) (ct : ConfidentialTransferAccountState) :
    Except Fault Nat :=
  if zk.elGamalPubkeyAddress keys ≠ ct.elgamalPubkey then .error (.code .keysMismatch)
  else
    match ZkSdk.aeCiphertextFromBytes ct.decryptableAvailableBalance with
    | none => .error (.code .decryptionFailed)
    | some ciphertext => (zk.aeDecrypt keys.aesKey ciphertext).mapError fun _ => .code .decryptionFailed

/-- What the balance of an account is read as. -/
def readBalance (zk : ZkSdk F G) (keys : ConfidentialKeypairs F) (account : Option Token) :
    Except Fault Nat :=
  match account with
  | none => .error (.code .accountNotFound)
  | some account =>
    match Sdk.confidentialState account with
    | none => .error (.code .accountNotConfigured)
    | some ct => readState zk keys ct

section Balance

variable {zk : ZkSdk F G} {keys : ConfidentialKeypairs F} {account : Option Token}

theorem readBalance_of_fault {fault : Fault} (h : accountFault account = some fault) :
    readBalance zk keys account = .error fault := by
  cases account with
  | none => exact congrArg Except.error (Option.some.inj h)
  | some account =>
    simp only [accountFault, readBalance] at h ⊢
    cases hct : Sdk.confidentialState account with
    | none =>
      simp only [hct] at h
      exact congrArg Except.error (Option.some.inj h)
    | some ct => simp [hct] at h

theorem readBalance_of_state {token : Token} {ct : ConfidentialTransferAccountState}
    (hct : Sdk.confidentialState token = some ct) :
    readBalance zk keys (some token) = readState zk keys ct := by
  simp only [readBalance, hct]

/-- The balance of an account with the right keys whose AES copy stands for a number. -/
theorem readState_of_encodes {ct : ConfidentialTransferAccountState} {v : Nat}
    (hkey : ct.elgamalPubkey = zk.elGamalPubkeyAddress keys)
    (haes : Sdk.AesEncodes zk keys ct.decryptableAvailableBalance v) : readState zk keys ct = .ok v := by
  obtain ⟨ciphertext, hparse, hdecrypt⟩ := haes
  simp [readState, hkey, hparse, hdecrypt, Except.mapError]

/-- What reading a balance fails with is one of the SDKs' codes. -/
theorem readBalance_raises (zk : ZkSdk F G) (keys : ConfidentialKeypairs F) (account : Option Token) :
    (readBalance zk keys account).Raises fun fault => ∃ code, fault = .code code := by
  unfold readBalance
  split
  · exact .error ⟨_, rfl⟩
  · split
    · exact .error ⟨_, rfl⟩
    · unfold readState
      split
      · exact .error ⟨_, rfl⟩
      · split
        · exact .error ⟨_, rfl⟩
        · exact .mapError (fun _ => ⟨_, rfl⟩) _

/-! ## The two clients -/

/-- The SDK's checks and its decryption, once the account is there. -/
theorem sdk_readState {token : Token} {ct : ConfidentialTransferAccountState}
    (hct : Sdk.confidentialState token = some ct) (operation address : String) :
    (Sdk.assertKeysMatchAccount zk keys token address operation >>= fun _ =>
      Sdk.decryptableBalance zk keys ct operation address).mapError Fault.ofThrown = readState zk keys ct := by
  simp only [Sdk.assertKeysMatchAccount, hct, readState]
  split
  · rfl
  · simp only [Sdk.decryptableBalance, pure_bind]
    cases ZkSdk.aeCiphertextFromBytes ct.decryptableAvailableBalance with
    | none => rfl
    | some ciphertext =>
      simp only
      cases zk.aeDecrypt keys.aesKey ciphertext <;> rfl

/-- The crate's. -/
theorem rust_readState {ct : ConfidentialTransferAccountState} (operation address : String) :
    (Rust.assertKeysMatch zk keys ct address operation >>= fun _ =>
      Rust.availableBalance zk ct keys.aesKey address operation).mapError Fault.ofError =
        readState zk keys ct := by
  simp only [Rust.assertKeysMatch, readState]
  split
  · rfl
  · simp only [Rust.availableBalance, Except.ok_bind]
    cases ZkSdk.aeCiphertextFromBytes ct.decryptableAvailableBalance with
    | none => rfl
    | some ciphertext =>
      simp only
      cases zk.aeDecrypt keys.aesKey ciphertext <;> rfl

variable (s : OnChain) (wallet : Wallet F)

omit [AddCommGroup G] [Module F G] in
theorem sdk_ownerKeys (operation : String) (passed : Bool) (w : World χ (ProofData F G)) :
    ∃ w', Sdk.ownerKeys wallet.owner (wallet.keysInput passed) operation w = (.ok wallet.keys, w') := by
  cases passed with
  | true => exact ⟨_, rfl⟩
  | false => exact ⟨_, rfl⟩

theorem sdk_decryptBalance (c : Sdk.Client χ F G) (hk : Sdk.HookSurroundings χ) (passed : Bool)
    (w : World χ (ProofData F G)) :
    (Sdk.decryptBalance (s.sdk c hk) (wallet.decryptBalanceInput s passed) w).1.mapError Fault.ofThrown =
      readBalance c.zk wallet.keys (s.account wallet.address) := by
  obtain ⟨r, hread, hr⟩ := sdk_readConfiguredAccount s c hk (s.associatedToken wallet.address)
    "decryptBalance" "the" w
  cases r with
  | error e =>
    have hfault : accountFault (s.account wallet.address) = some (.ofThrown e) := hr.fault.symm
    have hrun : Sdk.decryptBalance (s.sdk c hk) (wallet.decryptBalanceInput s passed) w = (.error e, w.tick) :=
      Effect.run_bind_of_error hread
    rw [readBalance_of_fault hfault, hrun]
    rfl
  | ok x =>
    obtain ⟨haccount, hct⟩ := hr.result x rfl
    have haccount : s.account wallet.address = some x.1 := haccount
    obtain ⟨w', hkeys⟩ := sdk_ownerKeys (G := G) wallet "decryptBalance" passed w.tick
    have hrun : Sdk.decryptBalance (s.sdk c hk) (wallet.decryptBalanceInput s passed) w =
        Effect.ofExcept (Sdk.assertKeysMatchAccount c.zk wallet.keys x.1 (s.associatedToken wallet.address)
          "decryptBalance" >>= fun _ => Sdk.decryptableBalance c.zk wallet.keys x.2 "decryptBalance"
            (s.associatedToken wallet.address)) w' := by
      rw [← Effect.ofExcept_bind]
      exact (Effect.run_bind_of_ok hread).trans (Effect.run_bind_of_ok hkeys)
    rw [haccount, readBalance_of_state hct, hrun]
    exact sdk_readState hct "decryptBalance" (s.associatedToken wallet.address)

theorem rust_decryptBalance (r : Rust.Client χ π F G) (zk : ZkSdk F G) (w : World χ π) :
    ((s.rust r zk).decryptBalance wallet.signer s.mint w).1.mapError Fault.ofError =
      readBalance zk wallet.keys (s.account wallet.address) := by
  obtain ⟨x, hread, hx⟩ := rust_readConfiguredAccount s r zk wallet.address "decrypt_balance" "the" w
  have hkeys : (s.rust r zk).decryptBalance wallet.signer s.mint w =
      (s.rust r zk).decryptBalanceOf s.mint (s.associatedToken wallet.address) wallet.keys w :=
    Effect.run_bind_of_ok (rust_deriveKeys wallet "decrypt_balance" w)
  cases x with
  | error e =>
    have hfault : accountFault (s.account wallet.address) = some (.ofError e) := hx.fault.symm
    have hrun : (s.rust r zk).decryptBalanceOf s.mint (s.associatedToken wallet.address) wallet.keys w =
        (.error e, w.tick) := Effect.run_bind_of_error hread
    rw [readBalance_of_fault hfault, hkeys, hrun]
    rfl
  | ok x =>
    obtain ⟨haccount, hct⟩ := hx.result x rfl
    have hrun : (s.rust r zk).decryptBalanceOf s.mint (s.associatedToken wallet.address) wallet.keys w =
        Effect.ofExcept (Rust.assertKeysMatch zk wallet.keys x.2 (s.associatedToken wallet.address)
          "decrypt_balance" >>= fun _ => Rust.availableBalance zk x.2 wallet.keys.aesKey
            (s.associatedToken wallet.address) "decrypt_balance") w.tick := by
      rw [← Effect.ofExcept_bind]
      exact Effect.run_bind_of_ok hread
    rw [haccount, readBalance_of_state hct, hkeys, hrun]
    exact rust_readState "decrypt_balance" (s.associatedToken wallet.address)

end Balance

end Compared
