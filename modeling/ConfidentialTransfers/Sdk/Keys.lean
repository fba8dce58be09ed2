-- SUMMARY: Deriving the confidential keys from a signature over a fixed message, and when they can be derived again.
import ConfidentialTransfers.Lib.Effect
import ConfidentialTransfers.Sdk.Errors
import ConfidentialTransfers.Sdk.Zk
import ConfidentialTransfers.Sdk.ZkLoading

/-!
# Deriving the keys

`keys.ts`. A signer's answer may depend on how often it was asked, so a call is
given its number. The bytes a signer is handed are read-only.
-/

open Solana

namespace Sdk

/-! ## Signers of messages -/

/-- `Record<string, Uint8Array | undefined>`. -/
abbrev SignatureDictionary : Type := Address → Option Bytes

/-- What a modifying signer hands back for a message. -/
structure SignedMessage where
  content : Option Bytes
  signatures : Option SignatureDictionary

/-- kit's `MessageSigner`, with the interfaces it has. Both are asked for a list of one message; the
    answer is the first element of the list they return. -/
structure MessageSigner where
  address : Address
  signMessages : Option (Nat → Bytes → Except String (Option SignatureDictionary)) := none
  modifyAndSignMessages : Option (Nat → Bytes → Except String (Option SignedMessage)) := none

def isMessagePartialSigner (s : MessageSigner) : Bool := s.signMessages.isSome

def isMessageModifyingSigner (s : MessageSigner) : Bool := s.modifyAndSignMessages.isSome

def isMessageSigner (s : MessageSigner) : Bool := isMessagePartialSigner s || isMessageModifyingSigner s

/-- The signature for its own address that a signer gives, over exactly these bytes. -/
def MessageSigner.signatureOver (s : MessageSigner) (n : Nat) (message : Bytes) : Option Bytes :=
  match s.signMessages, s.modifyAndSignMessages with
  | some signMessages, _ =>
    match signMessages n message with
    | .ok (some dictionary) => dictionary s.address
    | _ => none
  | none, some modifyAndSignMessages =>
    match modifyAndSignMessages n message with
    | .ok (some ⟨some content, some signatures⟩) =>
      if content = message then signatures s.address else none
    | _ => none
  | none, none => none

/-! ## The derivation -/

variable {F : Type} [CommRing F]

/-- What the derivation takes from the zk-sdk, from kit's address codec and from ed25519. -/
structure KeyDerivation (F : Type) [CommRing F] where
  /-- Loading the zk-sdk's WebAssembly, at the given call. -/
  initWasm : Nat → Except String Unit := fun _ => .ok ()
  /-- `getAddressEncoder().encode`. -/
  encodeAddress : Address → Except String Bytes
  /-- `ed25519.verify(signature, message, publicKey)`. -/
  verify : (signature message publicKey : Bytes) → Except String Bool
  /-- The signature was made over the message with the private key of the public key. -/
  MadeWith : (signature message publicKey : Bytes) → Prop
  verify_made : ∀ {signature message publicKey},
    verify signature message publicKey = .ok true → MadeWith signature message publicKey
  /-- `ConfidentialKeys.fromSignature`, with `elgamal()` and `ae()` of what it returns. -/
  fromSignature : Bytes → Except String (ConfidentialKeypairs F)
  fromSignature_injective : ∀ {signature signature' keys},
    fromSignature signature = .ok keys → fromSignature signature' = .ok keys → signature = signature'
  /-- It expands every ed25519 signature. -/
  fromSignature_verified : ∀ {signature message publicKey},
    verify signature message publicKey = .ok true → ∃ keys, fromSignature signature = .ok keys

/-- `ConfidentialKeys.signerMessage()`. -/
def signerMessage : Bytes := "solana-conf-bal/v1".toList.map Char.toUInt8

/-- `ConfidentialKeys.signerMessageWithSeed`. -/
def signerMessageWithSeed (publicSeed : Bytes) : Bytes := signerMessage ++ publicSeed

def ensureZk (d : KeyDerivation F) (n : Nat) : Except Thrown Unit :=
  (d.initWasm n).mapError fun cause => .sdk (.new .cryptoUnavailable
    ("@softseco/confidential-transfers could not load the zk-sdk WebAssembly (index_bg.wasm from " ++
      "@solana/zk-sdk/dist/web). With Vite's dev server, add " ++
      "\x60optimizeDeps: \x7b exclude: [\"@solana/zk-sdk\"] \x7d\x60 to vite.config, and if the request for the " ++
      ".wasm file is refused (403), add its node_modules folder to \x60server.fs.allow\x60. Or serve the " ++
      "file yourself and pass its URL: \x60initConfidentialTransfers(\x7b wasmUrl \x7d)\x60. Cause: " ++
      cause))

def sameBytes (a : Option Bytes) (b : Bytes) : Bool :=
  match a with
  | none => false
  | some a => a.length == b.length && (a.zip b).all fun x => x.1 == x.2

/-- Ask the signer, through the interface it has. -/
def askSigner (signer : MessageSigner) (n : Nat) (message : Bytes) :
    Except Thrown (Option SignatureDictionary) :=
  match signer.signMessages, signer.modifyAndSignMessages with
  | some signMessages, _ => (signMessages n message).mapError .other
  | none, some modifyAndSignMessages => do
    let modified ← (modifyAndSignMessages n message).mapError .other
    if !sameBytes (modified.bind (·.content)) message then
      throw (.sdk (.new .badMessageSignature
        ("Wallet " ++ signer.address ++ " changed the message it was asked to sign, so the confidential " ++
          "keys would not match the standard derivation. Use a wallet that signs messages as given.")))
    else pure (modified.bind (·.signatures))
  | none, none =>
    throw (.sdk (.new .cannotSignMessages
      ("Signer " ++ signer.address ++ " cannot sign messages, and the " ++
        "confidential keys come from a message signature. With a browser wallet, use one that " ++
        "supports signMessage (Wallet Standard \x60solana:signMessage\x60).")))

def signDerivationMessage (d : KeyDerivation F) (signer : MessageSigner) (n : Nat) (message : Bytes) :
    Except Thrown Bytes := do
  let signed ← askSigner signer n message
  match signed.bind (· signer.address) with
  | none =>
    throw (.sdk (.new .badMessageSignature ("Signer " ++ signer.address ++ " did not return a signature")))
  | some signature => do
    -- Keys from a signature that does not verify would be keys nobody can derive again.
    let publicKey ← (d.encodeAddress signer.address).mapError .other
    let verified ← (d.verify signature message publicKey).mapError .other
    if !verified then
      throw (.sdk (.new .badMessageSignature
        ("Signer " ++ signer.address ++ " returned a signature that does not verify against its address")))
    else pure signature

def confidentialKeysFrom (d : KeyDerivation F) (signer : MessageSigner) (n : Nat) (message : Bytes) :
    Except Thrown (ConfidentialKeypairs F) := do
  ensureZk d n
  let signature ← signDerivationMessage d signer n message
  (d.fromSignature signature).mapError .other

def deriveConfidentialKeys (d : KeyDerivation F) (signer : MessageSigner) (n : Nat) :
    Except Thrown (ConfidentialKeypairs F) := do
  ensureZk d n
  confidentialKeysFrom d signer n signerMessage

def deriveConfidentialKeysWithSeed (d : KeyDerivation F) (signer : MessageSigner) (publicSeed : Bytes)
    (n : Nat) : Except Thrown (ConfidentialKeypairs F) := do
  ensureZk d n
  confidentialKeysFrom d signer n (signerMessageWithSeed publicSeed)

/-- The seed for the account of a program. The zk-sdk joins the four addresses. -/
def pdaWalletPublicSeed (d : KeyDerivation F)
    (join : (programId walletPda mint tokenAccount : Bytes) → Except String Bytes) (zk : Zk.Module)
    (programId walletPda mint tokenAccount : Address) : Except Thrown Bytes := do
  Zk.assertZkReady "pdaWalletPublicSeed" zk
  let encode := fun address => (d.encodeAddress address).mapError Thrown.other
  let programId ← encode programId
  let walletPda ← encode walletPda
  let mint ← encode mint
  let tokenAccount ← encode tokenAccount
  (join programId walletPda mint tokenAccount).mapError .other

/-! ## What a derivation accepts -/

theorem sameBytes_iff {a : Option Bytes} {b : Bytes} : sameBytes a b = true ↔ a = some b := by
  cases a with
  | none => simp [sameBytes]
  | some a =>
    simp only [sameBytes, Bool.and_eq_true, beq_iff_eq, Option.some.injEq]
    induction a generalizing b with
    | nil => cases b <;> simp
    | cons x a ih =>
      cases b with
      | nil => simp
      | cons y b => simpa [and_left_comm] using fun _ => ih

/-- The signature verifies over the message for this address. -/
def KeyDerivation.Verifies (d : KeyDerivation F) (address : Address) (message signature : Bytes) : Prop :=
  ∃ publicKey, d.encodeAddress address = .ok publicKey ∧ d.verify signature message publicKey = .ok true

/-- Asking a signer gives the signature it makes over exactly the message. -/
theorem askSigner_signature {signer : MessageSigner} {n : Nat} {message signature : Bytes} :
    (∃ signed, askSigner signer n message = .ok signed ∧ signed.bind (· signer.address) = some signature) ↔
      signer.signatureOver n message = some signature := by
  unfold askSigner MessageSigner.signatureOver
  cases signer.signMessages with
  | some signMessages =>
    simp only
    cases signMessages n message with
    | error e => simp [Except.mapError]
    | ok signed => cases signed <;> simp [Except.mapError]
  | none =>
    cases signer.modifyAndSignMessages with
    | none => simp [throw, throwThe, MonadExceptOf.throw]
    | some modifyAndSignMessages =>
      simp only
      cases modifyAndSignMessages n message with
      | error e => simp [Except.mapError, bind, Except.bind]
      | ok modified =>
        rcases hsame : sameBytes (modified.bind (·.content)) message with _ | _
        · have hne : modified.bind (·.content) ≠ some message := by
            simp [← sameBytes_iff, hsame]
          rcases modified with _ | ⟨_ | content, _ | signatures⟩ <;>
            simp_all [Except.mapError, throw, throwThe, MonadExceptOf.throw, bind, Except.bind]
        · obtain ⟨⟨content, signatures⟩, rfl, hcontent⟩ :=
            Option.bind_eq_some_iff.mp (sameBytes_iff.mp hsame)
          obtain rfl : content = some message := hcontent
          have hkept : sameBytes (some message) message = true := hsame
          cases signatures <;> simp [Except.mapError, hkept, pure, Except.pure, bind, Except.bind]

/-- A derivation signs with a signature over exactly the message that verifies for the address. -/
theorem signDerivationMessage_eq_ok_iff {d : KeyDerivation F} {signer : MessageSigner} {n : Nat}
    {message signature : Bytes} :
    signDerivationMessage d signer n message = .ok signature ↔
      signer.signatureOver n message = some signature ∧
        d.Verifies signer.address message signature := by
  rw [← askSigner_signature]
  unfold signDerivationMessage KeyDerivation.Verifies
  constructor
  · intro h
    obtain ⟨signed, hasked, h⟩ := Except.bind_eq_ok_iff.mp h
    cases hsigned : signed.bind (· signer.address) with
    | none => simp [hsigned, throw, throwThe, MonadExceptOf.throw] at h
    | some given =>
      simp only [hsigned] at h
      obtain ⟨publicKey, hkey, h⟩ := Except.bind_eq_ok_iff.mp h
      obtain ⟨verified, hverified, h⟩ := Except.bind_eq_ok_iff.mp h
      cases verified with
      | false => simp [throw, throwThe, MonadExceptOf.throw] at h
      | true =>
        obtain rfl : given = signature := by simpa [pure, Except.pure] using h
        exact ⟨⟨signed, hasked, hsigned⟩, publicKey, Except.mapError_eq_ok_iff.mp hkey,
          Except.mapError_eq_ok_iff.mp hverified⟩
  · rintro ⟨⟨signed, hasked, hsigned⟩, publicKey, hkey, hverified⟩
    simp [hasked, hsigned, hkey, hverified, Except.mapError, bind, Except.bind, pure, Except.pure]

/-- What a derivation rejects with: a plain error, or one about the signature or the cryptography. -/
def AboutKeys : Thrown → Prop
  | .sdk e => ∃ code message, e = .new code message ∧
      code ∈ [ErrorCode.badMessageSignature, .cannotSignMessages, .cryptoUnavailable]
  | .other _ => True

theorem askSigner_raises (signer : MessageSigner) (n : Nat) (message : Bytes) :
    (askSigner signer n message).Raises AboutKeys := by
  unfold askSigner
  split
  · exact .mapError (fun _ => trivial) _
  · refine (Except.Raises.mapError (fun _ => trivial) _).bind fun modified => ?_
    split
    · exact .error ⟨_, _, rfl, by simp⟩
    · exact .ok _
  · exact .error ⟨_, _, rfl, by simp⟩

theorem signDerivationMessage_raises (d : KeyDerivation F) (signer : MessageSigner) (n : Nat)
    (message : Bytes) : (signDerivationMessage d signer n message).Raises AboutKeys := by
  refine (askSigner_raises signer n message).bind fun signed => ?_
  split
  · exact .error ⟨_, _, rfl, by simp⟩
  · refine (Except.Raises.mapError (fun _ => trivial) _).bind fun publicKey => ?_
    refine (Except.Raises.mapError (fun _ => trivial) _).bind fun verified => ?_
    split
    · exact .error ⟨_, _, rfl, by simp⟩
    · exact .ok _

theorem deriveConfidentialKeys_raises (d : KeyDerivation F) (signer : MessageSigner) (n : Nat) :
    (deriveConfidentialKeys d signer n).Raises AboutKeys := by
  have hzk : (ensureZk d n).Raises AboutKeys := .mapError (fun _ => ⟨_, _, rfl, by simp⟩) _
  refine hzk.bind fun _ => hzk.bind fun _ => ?_
  refine (signDerivationMessage_raises d signer n _).bind fun signature => ?_
  exact .mapError (fun _ => trivial) _

/-! ## Deriving twice -/

/-- A call to one of the two derivations. -/
inductive DerivationCall
  | deriveConfidentialKeys
  | deriveConfidentialKeysWithSeed (publicSeed : Bytes)

namespace DerivationCall

/-- The standard message, or the message plus seed. -/
def message : DerivationCall → Bytes
  | .deriveConfidentialKeys => signerMessage
  | .deriveConfidentialKeysWithSeed publicSeed => signerMessage ++ publicSeed

/-- The call, as number `n`, with this signer. -/
def run (d : KeyDerivation F) (call : DerivationCall) (signer : MessageSigner) (n : Nat) :
    Except Thrown (ConfidentialKeypairs F) :=
  match call with
  | .deriveConfidentialKeys => Sdk.deriveConfidentialKeys d signer n
  | .deriveConfidentialKeysWithSeed publicSeed => Sdk.deriveConfidentialKeysWithSeed d signer publicSeed n

/-- The signer answers the call with a signature over exactly the message, and it verifies. -/
def Answered (d : KeyDerivation F) (call : DerivationCall) (signer : MessageSigner) (n : Nat)
    (signature : Bytes) : Prop :=
  signer.signatureOver n call.message = some signature ∧ d.Verifies signer.address call.message signature

variable {d : KeyDerivation F} {call : DerivationCall} {signer : MessageSigner} {n : Nat}
  {keys : ConfidentialKeypairs F}

theorem run_eq_ok_iff :
    call.run d signer n = .ok keys ↔
      d.initWasm n = .ok () ∧ ∃ signature, call.Answered d signer n signature ∧
        d.fromSignature signature = .ok keys := by
  have hfrom : ∀ message, (do ensureZk d n; confidentialKeysFrom d signer n message) = .ok keys ↔
      d.initWasm n = .ok () ∧ ∃ signature, (signer.signatureOver n message = some signature ∧
        d.Verifies signer.address message signature) ∧ d.fromSignature signature = .ok keys := by
    intro message
    unfold confidentialKeysFrom ensureZk
    simp only [Except.bind_eq_ok_iff, Except.mapError_eq_ok_iff, signDerivationMessage_eq_ok_iff]
    constructor
    · rintro ⟨_, hwasm, _, -, hsigned⟩
      exact ⟨hwasm, hsigned⟩
    · rintro ⟨hwasm, hsigned⟩
      exact ⟨(), hwasm, (), hwasm, hsigned⟩
  cases call with
  | deriveConfidentialKeys => exact hfrom signerMessage
  | deriveConfidentialKeysWithSeed publicSeed => exact hfrom (signerMessage ++ publicSeed)

/-- The signature a call used: over exactly the message, verified, made with the address's private key. -/
def UsedSignature (d : KeyDerivation F) (call : DerivationCall) (signer : MessageSigner) (n : Nat)
    (keys : ConfidentialKeypairs F) : Prop :=
  ∃ signature publicKey, signer.signatureOver n call.message = some signature ∧
    d.encodeAddress signer.address = .ok publicKey ∧
    d.verify signature call.message publicKey = .ok true ∧
    d.MadeWith signature call.message publicKey ∧
    d.fromSignature signature = .ok keys

/-- No call succeeds on any other signature. -/
theorem usedSignature_of_run (h : call.run d signer n = .ok keys) : call.UsedSignature d signer n keys := by
  obtain ⟨-, signature, ⟨hsignature, publicKey, hkey, hverify⟩, hkeys⟩ := run_eq_ok_iff.mp h
  exact ⟨signature, publicKey, hsignature, hkey, hverify, d.verify_made hverify, hkeys⟩

/-- The signers' answers to the two calls hold the same signature, where both verify. -/
def SameSignature (d : KeyDerivation F) (call : DerivationCall) (signer signer' : MessageSigner)
    (n n' : Nat) : Prop :=
  d.initWasm n = .ok () → d.initWasm n' = .ok () →
    ∀ signature signature', call.Answered d signer n signature →
      call.Answered d signer' n' signature' → signature = signature'

/-- What the two calls promise: the same keys, and each from a signature as it should be. -/
structure KeysAgain (d : KeyDerivation F) (call : DerivationCall) (signer signer' : MessageSigner)
    (n n' : Nat) : Prop where
  same : ∀ keys keys', call.run d signer n = .ok keys → call.run d signer' n' = .ok keys' → keys = keys'
  used : ∀ keys, call.run d signer n = .ok keys → call.UsedSignature d signer n keys
  used' : ∀ keys, call.run d signer' n' = .ok keys → call.UsedSignature d signer' n' keys

variable {signer' : MessageSigner} {n' : Nat}

theorem sameSignature_of_keysAgain (h : call.KeysAgain d signer signer' n n') :
    call.SameSignature d signer signer' n n' := by
  intro hwasm hwasm' signature signature' hanswer hanswer'
  obtain ⟨publicKey, -, hverify⟩ := hanswer.2
  obtain ⟨publicKey', -, hverify'⟩ := hanswer'.2
  obtain ⟨keys, hkeys⟩ := d.fromSignature_verified hverify
  obtain ⟨keys', hkeys'⟩ := d.fromSignature_verified hverify'
  have hrun : call.run d signer n = .ok keys := run_eq_ok_iff.mpr ⟨hwasm, signature, hanswer, hkeys⟩
  have hrun' : call.run d signer' n' = .ok keys' :=
    run_eq_ok_iff.mpr ⟨hwasm', signature', hanswer', hkeys'⟩
  have hsame : keys = keys' := h.same keys keys' hrun hrun'
  -- The expansion is injective, so equal keys come from one signature.
  exact d.fromSignature_injective hkeys (hsame ▸ hkeys')

theorem keysAgain_of_sameSignature (h : call.SameSignature d signer signer' n n') :
    call.KeysAgain d signer signer' n n' := by
  refine ⟨fun keys keys' hrun hrun' => ?_, fun _ => usedSignature_of_run, fun _ => usedSignature_of_run⟩
  obtain ⟨hwasm, signature, hanswer, hkeys⟩ := run_eq_ok_iff.mp hrun
  obtain ⟨hwasm', signature', hanswer', hkeys'⟩ := run_eq_ok_iff.mp hrun'
  obtain rfl : signature = signature' := h hwasm hwasm' signature signature' hanswer hanswer'
  exact Except.ok.inj (hkeys.symm.trans hkeys')

/-- Signers that sign alike, through whichever interface, give the same keys. -/
theorem keysAgain_of_same_answers
    (h : signer.signatureOver n call.message = signer'.signatureOver n' call.message) :
    call.KeysAgain d signer signer' n n' := by
  apply keysAgain_of_sameSignature
  intro _ _ signature signature' hanswer hanswer'
  have hsame : some signature = some signature' := hanswer.1.symm.trans (h.trans hanswer'.1)
  exact Option.some.inj hsame

/-- Two calls keep their promise exactly when they are answered with one signature. -/
theorem keysAgain_iff (d : KeyDerivation F) (call : DerivationCall) (signer signer' : MessageSigner)
    (n n' : Nat) :
    call.KeysAgain d signer signer' n n' ↔ call.SameSignature d signer signer' n n' :=
  ⟨sameSignature_of_keysAgain, keysAgain_of_sameSignature⟩

end DerivationCall

/-! ## A signer with randomized nonces -/

namespace RandomizedNonces

/-- Signatures that carry their nonce in front; the nonce is the signer's choice. -/
def sign (publicKey message : Bytes) (nonce : UInt8) : Bytes := nonce :: publicKey ++ message

def encodeAddress (address : Address) : Bytes := address.toList.map Char.toUInt8

/-- Such a signature verifies whatever its nonce is. -/
def derivation : KeyDerivation F where
  encodeAddress address := .ok (encodeAddress address)
  verify signature message publicKey := .ok (signature == sign publicKey message (signature.headD 0))
  MadeWith signature message publicKey := ∃ nonce, signature = sign publicKey message nonce
  verify_made h := ⟨_, eq_of_beq (Except.ok.inj h)⟩
  fromSignature signature := .ok { elgamalSecret := 1, aesKey := signature }
  fromSignature_injective := by
    intro signature signature' keys h h'
    rw [← h'] at h
    simpa using h
  fromSignature_verified := fun _ => ⟨_, rfl⟩

/-- A wallet that takes a new nonce for each call, and signs the message as given. -/
def wallet : MessageSigner where
  address := "alice"
  modifyAndSignMessages := some fun n message => .ok (some
    { content := some message
      signatures := some fun _ => some (sign (encodeAddress "alice") message n.toUInt8) })

/-- Both calls succeed, and the keys of the first are not the keys of the second. -/
theorem keys_lost :
    ¬DerivationCall.KeysAgain (derivation : KeyDerivation Int) .deriveConfidentialKeys wallet wallet 0 1 := by
  intro h
  have hsame := h.same
    ⟨1, sign (encodeAddress "alice") signerMessage 0⟩ ⟨1, sign (encodeAddress "alice") signerMessage 1⟩
    (by rfl) (by rfl)
  have hsignature := congrArg ConfidentialKeypairs.aesKey hsame
  exact absurd hsignature (by decide)

end RandomizedNonces

end Sdk
