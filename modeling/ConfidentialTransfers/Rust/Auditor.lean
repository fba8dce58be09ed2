-- SUMMARY: How the Rust crate reads an amount with the auditor's key.
import ConfidentialTransfers.Rust.Errors
import ConfidentialTransfers.Sdk.Zk

/-!
# The crate's auditor

`auditor.rs`. Amounts are `u64`, so the sum and the shift wrap around.
-/

open Solana TwistedElGamal

namespace Rust

variable {F G : Type} [CommRing F] [AddCommGroup G] [Module F G] (zk : ZkSdk F G)

def pendingBalanceLoBitLength : UInt64 := 16

/-- `ElGamalSecretKey::decrypt_u32`. -/
def decryptU32 (secret : Fˣ) (ciphertext : ElGamalCiphertext G) : Option UInt64 :=
  (zk.discreteLog (decryptPoint secret ciphertext)).map UInt64.ofNat

def decryptAuditorAmount (secret : Fˣ) (ciphertextLo ciphertextHi : ElGamalCiphertext G) :
    Except Error UInt64 := do
  let operation := "decrypt_auditor_amount"
  let fail := fun half => Error.new .decryptionFailed operation
    ("could not decrypt the " ++ half ++ " ciphertext; it is not encrypted to this auditor key")
  let lo ← (decryptU32 zk secret ciphertextLo).elim (.error (fail "lo")) .ok
  let hi ← (decryptU32 zk secret ciphertextHi).elim (.error (fail "hi")) .ok
  pure (lo + (hi <<< pendingBalanceLoBitLength))

theorem decryptU32_of_lt {secret : Fˣ} {c : ElGamalCiphertext G} {v : Nat}
    (h : Holds zk.toPedersenBasis secret c v) (hv : v < 2 ^ 32) :
    decryptU32 zk secret c = some (UInt64.ofNat v) := by
  have hlog := (zk.discreteLog_eq_some (decryptPoint secret c) v).mpr ⟨hv, h⟩
  simp [decryptU32, hlog]

/-- Neither the shift nor the sum of two decrypted halves wraps around. -/
theorem toNat_combined (lo hi : Nat) (hlo : lo < 2 ^ 32) (hhi : hi < 2 ^ 32) :
    (UInt64.ofNat hi <<< pendingBalanceLoBitLength).toNat = 2 ^ 16 * hi ∧
      (UInt64.ofNat lo + (UInt64.ofNat hi <<< pendingBalanceLoBitLength)).toNat =
        lo + 2 ^ 16 * hi := by
  have hsize : UInt64.size = 2 ^ 64 := rfl
  have hofHi : (UInt64.ofNat hi).toNat = hi := UInt64.toNat_ofNat_of_lt' (by omega)
  have hofLo : (UInt64.ofNat lo).toNat = lo := UInt64.toNat_ofNat_of_lt' (by omega)
  have hbits : pendingBalanceLoBitLength.toNat % 64 = 16 := by decide
  have hshift : (UInt64.ofNat hi <<< pendingBalanceLoBitLength).toNat = 2 ^ 16 * hi := by
    rw [UInt64.toNat_shiftLeft, hofHi, hbits, Nat.shiftLeft_eq, Nat.mul_comm]
    exact Nat.mod_eq_of_lt (by omega)
  refine ⟨hshift, ?_⟩
  rw [UInt64.toNat_add, hofLo, hshift]
  exact Nat.mod_eq_of_lt (by omega)

/-- The halves of an amount below 2^48 decrypt to it. -/
theorem decryptAuditorAmount_of_holds {secret : Fˣ} {lo hi : ElGamalCiphertext G} {amount : Nat}
    (hlo : Holds zk.toPedersenBasis secret lo (amount % 2 ^ 16))
    (hhi : Holds zk.toPedersenBasis secret hi (amount / 2 ^ 16)) (hamount : amount < 2 ^ 48) :
    ∃ n, decryptAuditorAmount zk secret lo hi = .ok n ∧ n.toNat = amount := by
  have hu32Lo := decryptU32_of_lt zk hlo (by omega)
  have hu32Hi := decryptU32_of_lt zk hhi (by omega)
  have hsum := (toNat_combined (amount % 2 ^ 16) (amount / 2 ^ 16) (by omega) (by omega)).2
  refine ⟨_, ?_, hsum.trans (by omega)⟩
  simp only [decryptAuditorAmount, hu32Lo, hu32Hi, Option.elim_some, bind, Except.bind, pure,
    Except.pure]

end Rust
