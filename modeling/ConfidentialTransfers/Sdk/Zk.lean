-- SUMMARY: The zk-sdk and the point arithmetic the SDK uses, over any group, with the proofs kept as their inputs.
import ConfidentialTransfers.Lib.LittleEndian
import ConfidentialTransfers.Lib.TwistedElGamal
import ConfidentialTransfers.Solana.Instruction
import Mathlib.Data.ZMod.Basic

/-!
# The zk-sdk

`internal/zk.ts` re-exports the zk-sdk. A `ZkSdk` is what the SDK takes from it,
from the Ristretto arithmetic and from kit's address codec, with what the code
relies on as fields. A proof is kept as the inputs it was made of (`ProofData`).
-/

open Solana TwistedElGamal

/-- The zk-sdk over scalars `F` and points `G`. -/
structure ZkSdk (F G : Type) [CommRing F] [AddCommGroup G] [Module F G] extends PedersenBasis G where
  pointToBytes : G → Bytes
  pointFromBytes : Bytes → Option G
  length_pointToBytes : ∀ p, (pointToBytes p).length = 32
  pointFromBytes_toBytes : ∀ p, pointFromBytes (pointToBytes p) = some p
  /-- The search for the plaintext behind a point. -/
  discreteLog : G → Option Nat
  /-- The search succeeds exactly for plaintexts below `2 ^ 32`. -/
  discreteLog_eq_some : ∀ p v, discreteLog p = some v ↔ v < 2 ^ 32 ∧ p = v • g
  /-- The group is much larger than any amount. -/
  nsmul_injective : ∀ {m n : Nat}, m < 2 ^ 128 → n < 2 ^ 128 → m • g = n • g → m = n
  /-- Authenticated encryption of a `u64` with a key and a nonce. -/
  aeEncrypt : Bytes → Nat → Nat → Bytes
  aeDecrypt : Bytes → Bytes → Except String Nat
  length_aeEncrypt : ∀ k nonce v, (aeEncrypt k nonce v).length = 36
  aeDecrypt_encrypt : ∀ k nonce v, v < 2 ^ 64 → aeDecrypt k (aeEncrypt k nonce v) = .ok v
  /-- kit's `getAddressEncoder().encode`. -/
  addressToBytes : Address → Bytes
  /-- kit's `getAddressDecoder().decode`. -/
  addressFromBytes : Bytes → Address
  addressToBytes_fromBytes : ∀ bs, bs.length = 32 → addressToBytes (addressFromBytes bs) = bs

/-- The WASM zk-sdk key objects: an ElGamal secret key, with its public key, and an AES key. -/
structure ConfidentialKeypairs (F : Type) [CommRing F] where
  elgamalSecret : Fˣ
  aesKey : Bytes

/-- A commitment with one handle for each of three readers. -/
structure GroupedElGamalCiphertext3Handles (G : Type) where
  commitment : G
  handles : List G
  length_handles : handles.length = 3

/-- The ciphertext of the first reader, the source of a transfer. -/
def GroupedElGamalCiphertext3Handles.source {G : Type} (c : GroupedElGamalCiphertext3Handles G) :
    ElGamalCiphertext G :=
  (c.commitment, c.handles.get ⟨0, by rw [c.length_handles]; decide⟩)

/-- `CiphertextCommitmentEqualityProofData`. -/
structure EqualityProof (F G : Type) [CommRing F] where
  secret : Fˣ
  ciphertext : ElGamalCiphertext G
  commitment : G
  opening : F
  amount : Nat

/-- `BatchedGroupedCiphertext3HandlesValidityProofData`. -/
structure ValidityProof (F G : Type) where
  sourcePubkey : G
  destinationPubkey : G
  auditorPubkey : G
  groupedCiphertextLo : GroupedElGamalCiphertext3Handles G
  groupedCiphertextHi : GroupedElGamalCiphertext3Handles G
  amountLo : Nat
  amountHi : Nat
  openingLo : F
  openingHi : F

/-- `BatchedRangeProofU128Data` and `BatchedRangeProofU64Data`. -/
structure RangeProof (F G : Type) where
  commitments : List G
  amounts : List Nat
  bitLengths : List Nat
  openings : List F

/-- A proof to be verified into a proof account. -/
inductive ProofData (F G : Type) [CommRing F] where
  | ciphertextCommitmentEquality (proof : EqualityProof F G)
  | batchedGroupedCiphertext3HandlesValidity (proof : ValidityProof F G)
  | batchedRangeU128 (proof : RangeProof F G)
  | batchedRangeU64 (proof : RangeProof F G)

namespace ZkSdk

variable {F G : Type} [CommRing F] [AddCommGroup G] [Module F G] (zk : ZkSdk F G)

/-- `ElGamalPubkey.fromBytes`. -/
def pubkeyFromBytes (bytes : Bytes) : Option G :=
  if bytes.length = 32 then zk.pointFromBytes bytes else none

/-- `ElGamalCiphertext.fromBytes`: `undefined` unless the bytes are two points. -/
def ciphertextFromBytes (bytes : Bytes) : Option (ElGamalCiphertext G) :=
  if bytes.length = 64 then do
    let commitment ← zk.pointFromBytes (bytes.take 32)
    let handle ← zk.pointFromBytes (bytes.drop 32)
    some (commitment, handle)
  else none

def ciphertextToBytes (c : ElGamalCiphertext G) : Bytes := zk.pointToBytes c.1 ++ zk.pointToBytes c.2

/-- `AeCiphertext.fromBytes`. -/
def aeCiphertextFromBytes (bytes : Bytes) : Option Bytes :=
  if bytes.length = 36 then some bytes else none

/-- `ElGamalSecretKey.decrypt`: throws when the plaintext is not found. -/
def decrypt (secret : Fˣ) (c : ElGamalCiphertext G) : Except String Nat :=
  match zk.discreteLog (decryptPoint secret c) with
  | some v => .ok v
  | none => .error "decryption failed"

/-- `GroupedElGamalCiphertext3Handles.encryptWith`. -/
def groupedEncryptWith (source destination auditor : G) (amount : Nat) (opening : F) :
    GroupedElGamalCiphertext3Handles G where
  commitment := commit zk.toPedersenBasis amount opening
  handles := [handle source opening, handle destination opening, handle auditor opening]
  length_handles := rfl

/-- The commitment, then the handles. -/
def groupedToBytes (c : GroupedElGamalCiphertext3Handles G) : Bytes :=
  zk.pointToBytes c.commitment ++ (c.handles.map zk.pointToBytes).flatten

/-- The ElGamal public key of a key pair, as an address: `getElGamalPubkeyAddress`. -/
def elGamalPubkeyAddress (keys : ConfidentialKeypairs F) : Address :=
  zk.addressFromBytes (zk.pointToBytes (pubkey zk.toPedersenBasis keys.elgamalSecret))

/-! ## Round trips -/

@[simp] theorem length_ciphertextToBytes (c : ElGamalCiphertext G) :
    (zk.ciphertextToBytes c).length = 64 := by
  simp [ciphertextToBytes, zk.length_pointToBytes]

@[simp] theorem ciphertextFromBytes_toBytes (c : ElGamalCiphertext G) :
    zk.ciphertextFromBytes (zk.ciphertextToBytes c) = some c := by
  have htake : (zk.ciphertextToBytes c).take 32 = zk.pointToBytes c.1 :=
    List.take_left' (zk.length_pointToBytes c.1)
  have hdrop : (zk.ciphertextToBytes c).drop 32 = zk.pointToBytes c.2 :=
    List.drop_left' (zk.length_pointToBytes c.1)
  simp [ciphertextFromBytes, htake, hdrop, zk.pointFromBytes_toBytes]

@[simp] theorem aeCiphertextFromBytes_encrypt (k : Bytes) (nonce v : Nat) :
    aeCiphertextFromBytes (zk.aeEncrypt k nonce v) = some (zk.aeEncrypt k nonce v) := by
  simp [aeCiphertextFromBytes, zk.length_aeEncrypt]

@[simp] theorem pubkeyFromBytes_toBytes (p : G) :
    zk.pubkeyFromBytes (zk.pointToBytes p) = some p := by
  simp [pubkeyFromBytes, zk.length_pointToBytes, zk.pointFromBytes_toBytes]

/-- Decryption finds a plaintext exactly if it is below `2 ^ 32`. -/
theorem decrypt_holds {secret : Fˣ} {c : ElGamalCiphertext G} {v : Nat}
    (h : Holds zk.toPedersenBasis secret c v) (hv : v < 2 ^ 128) :
    (zk.decrypt secret c).toOption = if v < 2 ^ 32 then some v else none := by
  unfold decrypt
  have hpoint : decryptPoint secret c = v • zk.g := h
  split
  · rename_i u hu
    obtain ⟨hlt, heq⟩ := (zk.discreteLog_eq_some _ _).mp hu
    have huv : u = v := zk.nsmul_injective (by omega) hv (by rw [← heq, hpoint])
    subst huv
    rw [if_pos hlt]
    rfl
  · rename_i hnone
    split
    · rename_i hlt
      rw [(zk.discreteLog_eq_some _ v).mpr ⟨hlt, hpoint⟩] at hnone
      cases hnone
    · rfl

theorem decrypt_eq_ok_iff {secret : Fˣ} {c : ElGamalCiphertext G} {v : Nat} :
    zk.decrypt secret c = .ok v ↔ v < 2 ^ 32 ∧ Holds zk.toPedersenBasis secret c v := by
  unfold decrypt Holds
  rw [← zk.discreteLog_eq_some]
  cases zk.discreteLog (decryptPoint secret c) <;> simp

theorem decrypt_of_lt {secret : Fˣ} {c : ElGamalCiphertext G} {v : Nat}
    (h : Holds zk.toPedersenBasis secret c v) (hv : v < 2 ^ 32) : zk.decrypt secret c = .ok v := by
  have hlog := (zk.discreteLog_eq_some (decryptPoint secret c) v).mpr ⟨hv, h⟩
  simp [decrypt, hlog]

end ZkSdk

/-! ## A concrete zk-sdk -/

/-- The additive group of the integers modulo `2 ^ 128`, in the place of Ristretto points. -/
def ZkSdk.modular : ZkSdk (ZMod (2 ^ 128)) (ZMod (2 ^ 128)) where
  g := 1
  h := 1
  pointToBytes p := LittleEndian.encode 32 p.val
  pointFromBytes bs := some (LittleEndian.decode bs : Nat)
  length_pointToBytes p := by simp
  pointFromBytes_toBytes p := by
    have hp : p.val < 256 ^ 32 := lt_of_lt_of_le p.val_lt (by decide)
    rw [LittleEndian.decode_encode hp, ZMod.natCast_zmod_val]
  discreteLog p := if p.val < 2 ^ 32 then some p.val else none
  discreteLog_eq_some p v := by
    constructor
    · intro h
      split at h
      · rename_i hlt
        obtain rfl := Option.some.inj h
        exact ⟨hlt, by simp⟩
      · cases h
    · rintro ⟨hv, rfl⟩
      have hval : (v • (1 : ZMod (2 ^ 128))).val = v := by
        rw [nsmul_one, ZMod.val_natCast_of_lt (by omega)]
      rw [hval, if_pos hv]
  nsmul_injective hm hn h := by
    have hval := congrArg ZMod.val h
    rwa [nsmul_one, nsmul_one, ZMod.val_natCast_of_lt hm, ZMod.val_natCast_of_lt hn] at hval
  aeEncrypt _ _ v := LittleEndian.encode 36 v
  aeDecrypt _ bs := .ok (LittleEndian.decode bs)
  length_aeEncrypt _ _ _ := by simp
  aeDecrypt_encrypt _ _ v hv := by
    rw [LittleEndian.decode_encode (lt_of_lt_of_le hv (by decide))]
  addressToBytes a := a.toList.map Char.toUInt8
  addressFromBytes bs := String.ofList (bs.map Char.ofUInt8)
  addressToBytes_fromBytes bs _ := by
    have hround : ∀ b : UInt8, (Char.ofUInt8 b).toUInt8 = b := fun b => UInt8.toUInt8_toUInt32 b
    simp [Function.comp_def, hround]
