-- SUMMARY: One wallet has the same confidential keys in both SDKs, and reads the same balance with them.
import ConfidentialTransfers.Compared.Balance
import ConfidentialTransfers.Rust.Keys
import ConfidentialTransfers.Sdk.Agreement

/-!
# Keys from either SDK

Both SDKs expand a signature over the same message. What they are given from
other packages stands for one derivation; only the check of the signature is
stricter in the crate.
-/

open Solana

namespace Compared

variable {χ π F G : Type} [CommRing F] [AddCommGroup G] [Module F G]

/-- Solana's crates and the packages of the TypeScript SDK do the same. -/
structure SameDerivation (d : Sdk.KeyDerivation F) (r : Rust.KeyDerivation F) : Prop where
  address : ∀ a, d.encodeAddress a = .ok (r.toBytes a)
  /-- Solana verifies strictly, noble as ZIP 215 allows. -/
  verify : ∀ {signature publicKey message}, r.verify signature publicKey message = true →
    d.verify signature message publicKey = .ok true
  fromSignature : ∀ {signature keys}, r.fromSignature signature = .ok keys ↔
    d.fromSignature signature = .ok keys

/-- One wallet, asked by either SDK: it signs a message the same way each time, or does not. -/
structure SameSigner (signer : Sdk.MessageSigner) (signer' : Rust.MessageSigner) : Prop where
  address : signer.address = signer'.pubkey
  answers : ∀ {n n' message signature}, signer.signatureOver n message = some signature ↔
    signer'.trySignMessage n' message = .ok signature

theorem SameSigner.answers_again {signer : Sdk.MessageSigner} {signer' : Rust.MessageSigner}
    (h : SameSigner signer signer') {n n' : Nat} {message signature : Bytes}
    (hsigned : signer'.trySignMessage n message = .ok signature) :
    signer'.trySignMessage n' message = .ok signature := by
  have hsdk : signer.signatureOver 0 message = some signature := h.answers.mpr hsigned
  exact h.answers.mp hsdk

/-- The seed of a derivation; the standard one has none. -/
def seedOf : Sdk.DerivationCall → Bytes
  | .deriveConfidentialKeys => []
  | .deriveConfidentialKeysWithSeed publicSeed => publicSeed

/-- Both SDKs have the wallet sign the same message. -/
theorem message_eq (call : Sdk.DerivationCall) :
    call.message = Rust.confidentialDerivationMessage (seedOf call) := by
  cases call with
  | deriveConfidentialKeys => exact (List.append_nil _).symm
  | deriveConfidentialKeysWithSeed publicSeed => rfl

section Agree

variable {d : Sdk.KeyDerivation F} {r : Rust.KeyDerivation F} {signer : Sdk.MessageSigner}
  {signer' : Rust.MessageSigner} {call : Sdk.DerivationCall} {n n' : Nat} {keys : ConfidentialKeypairs F}

/-! ## The derivations -/

/-- The keys of the crate are the SDK's. -/
theorem sdk_run_of_rust (hsame : SameDerivation d r) (hsigner : SameSigner signer signer')
    (hwasm : d.initWasm n = .ok ())
    (h : Rust.ConfidentialKeys.deriveWithSeed r signer' (seedOf call) n' = .ok keys) :
    call.run d signer n = .ok keys := by
  obtain ⟨signature, hsigned, hverify, hkeys⟩ := Rust.deriveWithSeed_eq_ok_iff.mp h
  rw [← message_eq, ← hsigner.address] at hverify
  rw [← message_eq] at hsigned
  have hanswered : call.Answered d signer n signature :=
    ⟨hsigner.answers.mpr hsigned, _, hsame.address _, hsame.verify hverify⟩
  exact Sdk.DerivationCall.run_eq_ok_iff.mpr ⟨hwasm, signature, hanswered, hsame.fromSignature.mp hkeys⟩

/-- The keys of the SDK are the crate's, unless the crate is stricter about the signature. -/
theorem rust_derive_of_sdk (hsame : SameDerivation d r) (hsigner : SameSigner signer signer')
    (h : call.run d signer n = .ok keys) :
    Rust.ConfidentialKeys.deriveWithSeed r signer' (seedOf call) n' = .ok keys ∨
      ∃ e, Rust.ConfidentialKeys.deriveWithSeed r signer' (seedOf call) n' = .error e ∧
        e.code = .badMessageSignature := by
  obtain ⟨-, signature, ⟨hsignature, publicKey, hkey, -⟩, hkeys⟩ := Sdk.DerivationCall.run_eq_ok_iff.mp h
  have hsigned : signer'.trySignMessage n' (Rust.confidentialDerivationMessage (seedOf call)) =
      .ok signature := by
    rw [← message_eq]
    exact hsigner.answers.mp hsignature
  cases hverify : r.verify signature (r.toBytes signer'.pubkey)
      (Rust.confidentialDerivationMessage (seedOf call)) with
  | true => exact .inl (Rust.deriveWithSeed_eq_ok_iff.mpr
      ⟨signature, hsigned, hverify, hsame.fromSignature.mpr hkeys⟩)
  | false =>
    have hrefused : Rust.ConfidentialKeys.deriveWithSeed r signer' (seedOf call) n' =
        .error (.new .badMessageSignature "derive keys"
          ("signer " ++ signer'.pubkey ++ " returned a signature that does not verify against its address")) := by
      simp only [Rust.ConfidentialKeys.deriveWithSeed, hsigned, Except.mapError, Except.ok_bind, hverify]
      rfl
    exact .inr ⟨_, hrefused, rfl⟩

/-! ## Accounts of programs -/

/-- Both SDKs build the same seed. -/
theorem pdaWalletPublicSeed_eq {join : Bytes → Bytes → Bytes → Bytes → Except String Bytes}
    {zk : Sdk.Zk.Module} (hsame : SameDerivation d r)
    (hjoin : ∀ a b c d, join a b c d = .ok (a ++ b ++ c ++ d)) (hloaded : zk.loaded = true)
    (programId walletPda mint tokenAccount : Address) :
    Sdk.pdaWalletPublicSeed d join zk programId walletPda mint tokenAccount =
      .ok (Rust.pdaWalletPublicSeed r programId walletPda mint tokenAccount) := by
  simp [Sdk.pdaWalletPublicSeed, Sdk.Zk.assertZkReady, hloaded, hsame.address, hjoin, Except.mapError,
    Rust.pdaWalletPublicSeed, bind, Except.bind]

end Agree

/-- Keys for a wallet, or for a program's account with the wallet as its operator. -/
inductive KeyRequest
  | wallet (call : Sdk.DerivationCall)
  | program (programId walletPda mint tokenAccount : Address)

namespace KeyRequest

/-- What the zk-sdk joins addresses with, and whether it is loaded. -/
structure Joining where
  join : (programId walletPda mint tokenAccount : Bytes) → Except String Bytes
  join_eq : ∀ a b c d, join a b c d = .ok (a ++ b ++ c ++ d)
  zk : Sdk.Zk.Module
  loaded : zk.loaded = true

def sdk (d : Sdk.KeyDerivation F) (joining : Joining) (signer : Sdk.MessageSigner) (n : Nat) :
    KeyRequest → Except Sdk.Thrown (ConfidentialKeypairs F)
  | .wallet call => call.run d signer n
  | .program programId walletPda mint tokenAccount => do
    let publicSeed ← Sdk.pdaWalletPublicSeed d joining.join joining.zk programId walletPda mint tokenAccount
    Sdk.deriveConfidentialKeysWithSeed d signer publicSeed n

def rust (r : Rust.KeyDerivation F) (signer : Rust.MessageSigner) (n : Nat) :
    KeyRequest → Except Rust.Error (ConfidentialKeypairs F)
  | .wallet call => Rust.ConfidentialKeys.deriveWithSeed r signer (seedOf call) n
  | .program programId walletPda mint tokenAccount =>
    Rust.ConfidentialKeys.deriveForPdaWallet r signer programId walletPda mint tokenAccount n

end KeyRequest

section Requests

variable {d : Sdk.KeyDerivation F} {r : Rust.KeyDerivation F} {signer : Sdk.MessageSigner}
  {signer' : Rust.MessageSigner}

/-- A wallet's request to both SDKs gives the same keys. Only where the crate refuses the signature can
    the SDK alone have keys. -/
theorem keys_agree (hsame : SameDerivation d r) (hsigner : SameSigner signer signer')
    (joining : KeyRequest.Joining) (request : KeyRequest) {n n' : Nat} (hwasm : d.initWasm n = .ok ())
    (keys : ConfidentialKeypairs F) :
    (request.rust r signer' n' = .ok keys → request.sdk d joining signer n = .ok keys) ∧
      (request.sdk d joining signer n = .ok keys → request.rust r signer' n' = .ok keys ∨
        ∃ e, request.rust r signer' n' = .error e ∧ e.code = .badMessageSignature) := by
  cases request with
  | wallet call => exact ⟨sdk_run_of_rust hsame hsigner hwasm, rust_derive_of_sdk hsame hsigner⟩
  | program programId walletPda mint tokenAccount =>
    have hseed := pdaWalletPublicSeed_eq hsame joining.join_eq joining.loaded programId walletPda mint
      tokenAccount
    let call := Sdk.DerivationCall.deriveConfidentialKeysWithSeed
      (Rust.pdaWalletPublicSeed r programId walletPda mint tokenAccount)
    have hsdk : (KeyRequest.program programId walletPda mint tokenAccount).sdk d joining signer n =
        call.run d signer n := by
      simp only [KeyRequest.sdk]
      rw [hseed]
      rfl
    have hrust : (KeyRequest.program programId walletPda mint tokenAccount).rust r signer' n' =
        Rust.ConfidentialKeys.deriveWithSeed r signer' (seedOf call) n' := rfl
    rw [hsdk, hrust]
    exact ⟨sdk_run_of_rust hsame hsigner hwasm, rust_derive_of_sdk hsame hsigner⟩

/-! ## The wallet -/

/-- If the crate can derive the wallet's keys, both SDKs see one wallet with these keys. -/
theorem owners_eq (hsame : SameDerivation d r) (hsigner : SameSigner signer signer')
    (hwasm : ∀ n, d.initWasm n = .ok ()) {n : Nat} {keys : ConfidentialKeypairs F}
    (h : Rust.ConfidentialKeys.derive r signer' n = .ok keys) :
    signer.owner d = (Wallet.mk signer.address keys).owner ∧
      signer'.owner r = (Wallet.mk signer.address keys).signer := by
  have hrust : ∀ n', Rust.ConfidentialKeys.derive r signer' n' = .ok keys := by
    intro n'
    obtain ⟨signature, hsigned, hverify, hkeys⟩ := Rust.deriveWithSeed_eq_ok_iff.mp h
    exact Rust.deriveWithSeed_eq_ok_iff.mpr
      ⟨signature, hsigner.answers_again hsigned, hverify, hkeys⟩
  have hsdk : ∀ n', Sdk.DerivationCall.deriveConfidentialKeys.run d signer n' = .ok keys := fun n' =>
    sdk_run_of_rust hsame hsigner (hwasm n') h
  have hsigns : Sdk.isMessageSigner signer = true := by
    obtain ⟨-, signature, hanswered, -⟩ := Sdk.DerivationCall.run_eq_ok_iff.mp (hsdk 0)
    have hsigned := hanswered.1
    unfold Sdk.MessageSigner.signatureOver at hsigned
    unfold Sdk.isMessageSigner Sdk.isMessagePartialSigner Sdk.isMessageModifyingSigner
    cases hsignMessages : signer.signMessages with
    | some signMessages => rfl
    | none =>
      cases hmodify : signer.modifyAndSignMessages with
      | some modifyAndSignMessages => rfl
      | none => simp [hsignMessages, hmodify] at hsigned
  constructor
  · simp only [Sdk.MessageSigner.owner, Wallet.owner, hsigns]
    congr
    exact funext hsdk
  · simp only [Rust.MessageSigner.owner, Wallet.signer, hsigner.address]
    congr
    exact funext hrust

/-- Both SDKs, each asked by the wallet itself: the same balance of any account on any chain, or the same
    code. -/
theorem balances_agree (hsame : SameDerivation d r) (hsigner : SameSigner signer signer')
    (hwasm : ∀ n, d.initWasm n = .ok ()) {n : Nat} {keys : ConfidentialKeypairs F}
    (hkeys : Rust.ConfidentialKeys.derive r signer' n = .ok keys) (s : OnChain) (c : Sdk.Client χ F G)
    (hooks : Sdk.HookSurroundings χ) (rust : Rust.Client χ π F G) (w : World χ (ProofData F G))
    (w' : World χ π) :
    let sdkBalance := (Sdk.decryptBalance (s.sdk c hooks)
      { owner := signer.owner d, mint := s.mint, keys := none } w).1.mapError Fault.ofThrown
    sdkBalance =
        ((s.rust rust c.zk).decryptBalance (signer'.owner r) s.mint w').1.mapError Fault.ofError ∧
      sdkBalance.Raises fun fault => ∃ code, fault = .code code := by
  obtain ⟨howner, howner'⟩ := owners_eq hsame hsigner hwasm hkeys
  rw [howner, howner']
  have hsdk := sdk_decryptBalance s (Wallet.mk signer.address keys) c hooks false w
  have hrust := rust_decryptBalance s (Wallet.mk signer.address keys) rust c.zk w'
  refine ⟨hsdk.trans hrust.symm, ?_⟩
  have hraises := readBalance_raises c.zk keys (s.account signer.address)
  rw [← hsdk] at hraises
  exact hraises

end Requests

/-! ## A wallet that signs -/

namespace Signing

def toBytes (a : Address) : Bytes := (a.toList.map Char.toUInt8).takeD 32 0

/-- A signature is the address and the message. -/
def verifies (signature publicKey message : Bytes) : Bool := signature == publicKey ++ message

def fromSignature (signature : Bytes) : Except String (ConfidentialKeypairs F) :=
  .ok { elgamalSecret := 1, aesKey := signature }

theorem fromSignature_injective {signature signature' : Bytes} {keys : ConfidentialKeypairs F}
    (h : fromSignature signature = .ok keys) (h' : fromSignature signature' = .ok keys) :
    signature = signature' := by
  have hkeys := Except.ok.inj (h.trans h'.symm)
  exact congrArg ConfidentialKeypairs.aesKey hkeys

theorem fromSignature_ok (signature : Bytes) :
    ∃ keys : ConfidentialKeypairs F, fromSignature signature = .ok keys := ⟨_, rfl⟩

theorem verifies_made {signature publicKey message : Bytes}
    (h : (Except.ok (verifies signature publicKey message) : Except String Bool) = .ok true) :
    signature = publicKey ++ message := eq_of_beq (Except.ok.inj h)

theorem length_toBytes (a : Address) : (toBytes a).length = 32 := List.takeD_length _ _ _

def sdk : Sdk.KeyDerivation F where
  encodeAddress a := .ok (toBytes a)
  verify signature message publicKey := .ok (verifies signature publicKey message)
  MadeWith signature message publicKey := signature = publicKey ++ message
  verify_made := verifies_made
  fromSignature := fromSignature
  fromSignature_injective := fromSignature_injective
  fromSignature_verified _ := fromSignature_ok _

def rust : Rust.KeyDerivation F where
  toBytes := toBytes
  length_toBytes := length_toBytes
  verify := verifies
  fromSignature := fromSignature

theorem same : SameDerivation (sdk : Sdk.KeyDerivation F) rust :=
  ⟨fun _ => rfl, fun h => congrArg Except.ok h, Iff.rfl⟩

def sdkSigner : Sdk.MessageSigner where
  address := "alice"
  signMessages := some fun _ message => .ok (some fun _ => some (toBytes "alice" ++ message))

def rustSigner : Rust.MessageSigner where
  pubkey := "alice"
  trySignMessage _ message := .ok (toBytes "alice" ++ message)

theorem sameSigner : SameSigner sdkSigner rustSigner :=
  ⟨rfl, by simp [Sdk.MessageSigner.signatureOver, sdkSigner, rustSigner]⟩

def joining : KeyRequest.Joining where
  join a b c d := .ok (a ++ b ++ c ++ d)
  join_eq _ _ _ _ := rfl
  zk := { loaded := true }
  loaded := rfl

/-- The derivation of the crate succeeds. -/
theorem rust_derives (call : Sdk.DerivationCall) (n : Nat) : ∃ keys : ConfidentialKeypairs F,
    Rust.ConfidentialKeys.deriveWithSeed rust rustSigner (seedOf call) n = .ok keys :=
  ⟨_, Rust.deriveWithSeed_eq_ok_iff.mpr ⟨_, rfl, beq_self_eq_true (toBytes "alice" ++ _), rfl⟩⟩

end Signing

open Signing in
/-- The keys of an account of a program, from both SDKs. -/
theorem keys_agree_program : ∃ keys : ConfidentialKeypairs Int,
    (KeyRequest.program "program" "vault" "mint" "token").sdk Signing.sdk joining sdkSigner 0 = .ok keys := by
  obtain ⟨keys, hkeys⟩ := rust_derives (F := Int) (.deriveConfidentialKeysWithSeed
    (Rust.pdaWalletPublicSeed (Signing.rust : Rust.KeyDerivation Int) "program" "vault" "mint" "token")) 0
  exact ⟨keys, (keys_agree same sameSigner joining (.program "program" "vault" "mint" "token") rfl keys).1 hkeys⟩

namespace Signing

/-- The keys that alice's signature expands to. -/
def aliceKeys : ConfidentialKeypairs (ZMod (2 ^ 128)) where
  elgamalSecret := 1
  aesKey := toBytes "alice" ++ Rust.confidentialDerivationMessage []

theorem derives_aliceKeys : Rust.ConfidentialKeys.derive rust rustSigner 0 = .ok aliceKeys :=
  Rust.deriveWithSeed_eq_ok_iff.mpr ⟨_, rfl, beq_self_eq_true (toBytes "alice" ++ _), rfl⟩

/-- Ten tokens under alice's keys. -/
def tenState : ConfidentialTransferAccountState where
  __ := Sdk.TenTokens.state
  elgamalPubkey := ZkSdk.modular.elGamalPubkeyAddress aliceKeys
  decryptableAvailableBalance := ZkSdk.modular.aeEncrypt aliceKeys.aesKey 0 10

def tenTokens : OnChain where
  __ := Unapproved.onChain
  token a :=
    if a = "alice/mint" then
      some { amount := 0, extensions := some [.confidentialTransferAccount tenState] }
    else none

theorem tenTokens_readBalance :
    readBalance ZkSdk.modular aliceKeys (tenTokens.account "alice") = .ok 10 := by
  have hct : Sdk.confidentialState
      { amount := 0, extensions := some [.confidentialTransferAccount tenState] } = some tenState := by
    simp [Sdk.confidentialState]
  have haes : Sdk.AesEncodes ZkSdk.modular aliceKeys tenState.decryptableAvailableBalance 10 :=
    ⟨_, ZkSdk.aeCiphertextFromBytes_encrypt ZkSdk.modular aliceKeys.aesKey 0 10,
      ZkSdk.modular.aeDecrypt_encrypt aliceKeys.aesKey 0 10 (by decide)⟩
  exact (readBalance_of_state hct).trans (readState_of_encodes rfl haes)

/-- What `decryptBalance` makes of alice's account. -/
def sdkBalance (s : OnChain) : Except Fault Nat :=
  (Sdk.decryptBalance (s.sdk Unapproved.sdkClient (Sdk.HookedMint.surroundings []))
    { owner := sdkSigner.owner sdk, mint := s.mint, keys := none } { chain := () }).1.mapError Fault.ofThrown

/-- What `decrypt_balance` makes of it. -/
def rustBalance (s : OnChain) : Except Fault Nat :=
  ((s.rust Unapproved.rustClient Unapproved.sdkClient.zk).decryptBalance (rustSigner.owner rust) s.mint
    { chain := () }).1.mapError Fault.ofError

theorem tenTokens_rustBalance : rustBalance tenTokens = .ok 10 := by
  have howner := (owners_eq (same (F := ZMod (2 ^ 128))) sameSigner (fun _ => rfl) derives_aliceKeys).2
  have hbalance := rust_decryptBalance tenTokens (Wallet.mk sdkSigner.address aliceKeys)
    Unapproved.rustClient ZkSdk.modular { chain := () }
  rw [← howner] at hbalance
  exact hbalance.trans tenTokens_readBalance

end Signing

open Signing in
/-- Alice asks both SDKs, for ten tokens under her keys and for an account with another key. -/
theorem balances_agree_alice :
    sdkBalance tenTokens = .ok 10 ∧ rustBalance tenTokens = .ok 10 ∧
      sdkBalance Unapproved.onChain = rustBalance Unapproved.onChain := by
  have hagree := fun s => (balances_agree (same (F := ZMod (2 ^ 128))) sameSigner (fun _ => rfl)
    derives_aliceKeys s Unapproved.sdkClient (Sdk.HookedMint.surroundings []) Unapproved.rustClient
    { chain := () } { chain := () }).1
  exact ⟨(hagree tenTokens).trans tenTokens_rustBalance, tenTokens_rustBalance, hagree Unapproved.onChain⟩

end Compared
