-- SUMMARY: Twisted ElGamal encryption over any module: what a ciphertext holds and how the operations combine.
import Mathlib.Algebra.Module.Prod
import Mathlib.Tactic.Abel

/-!
# Twisted ElGamal encryption

A ciphertext is a Pedersen commitment to the plaintext and a handle that opens
it under one secret key. `Holds b s c v` says that `c` decrypts to `v` under `s`;
the rules below compute with plaintexts through the operations on ciphertexts.
The scalars are any commutative ring and the points any module over it.
-/

/-- The two generators of Pedersen commitments. -/
structure PedersenBasis (G : Type) where
  g : G
  h : G

/-- A commitment and a decryption handle. -/
abbrev ElGamalCiphertext (G : Type) := G × G

namespace TwistedElGamal

variable {F G : Type} [CommRing F] [AddCommGroup G] [Module F G] (b : PedersenBasis G)

/-- The Pedersen commitment to `v` with opening `r`. -/
def commit (v : Nat) (r : F) : G := v • b.g + r • b.h

/-- The public key of a secret key. -/
def pubkey (s : Fˣ) : G := (s⁻¹ : Fˣ).val • b.h

/-- The handle that opens a commitment with opening `r` for a public key. -/
def handle (pk : G) (r : F) : G := r • pk

/-- Encrypt `v` to a public key with opening `r`. -/
def encryptWith (pk : G) (v : Nat) (r : F) : ElGamalCiphertext G := (commit b v r, handle pk r)

/-- The plaintext of a ciphertext, as a multiple of the first generator. -/
def decryptPoint (s : Fˣ) (c : ElGamalCiphertext G) : G := c.1 - s.val • c.2

/-- Under `s`, the ciphertext `c` holds the plaintext `v`. -/
def Holds (s : Fˣ) (c : ElGamalCiphertext G) (v : Nat) : Prop := decryptPoint s c = v • b.g

variable {b} {s : Fˣ} {c d : ElGamalCiphertext G} {v w : Nat}

@[simp] theorem decryptPoint_add (s : Fˣ) (c d : ElGamalCiphertext G) :
    decryptPoint s (c + d) = decryptPoint s c + decryptPoint s d := by
  simp only [decryptPoint, Prod.fst_add, Prod.snd_add, smul_add]
  abel

@[simp] theorem decryptPoint_sub (s : Fˣ) (c d : ElGamalCiphertext G) :
    decryptPoint s (c - d) = decryptPoint s c - decryptPoint s d := by
  simp only [decryptPoint, Prod.fst_sub, Prod.snd_sub, smul_sub]
  abel

@[simp] theorem decryptPoint_nsmul (s : Fˣ) (n : Nat) (c : ElGamalCiphertext G) :
    decryptPoint s (n • c) = n • decryptPoint s c := by
  simp only [decryptPoint, Prod.smul_fst, Prod.smul_snd, nsmul_sub]
  rw [smul_comm]

/-- A commitment with a handle for the key's own public key. -/
theorem Holds.encrypt (s : Fˣ) (v : Nat) (r : F) : Holds b s (encryptWith b (pubkey b s) v r) v := by
  have hhandle : s.val • r • (s⁻¹ : Fˣ).val • b.h = r • b.h := by
    rw [smul_smul, smul_smul, mul_comm s.val r, mul_assoc, ← Units.val_mul, mul_inv_cancel,
      Units.val_one, mul_one]
  simp only [Holds, decryptPoint, encryptWith, commit, handle, pubkey, hhandle]
  abel

theorem Holds.zero (s : Fˣ) : Holds b s 0 0 := by
  simp [Holds, decryptPoint]

theorem Holds.add (hc : Holds b s c v) (hd : Holds b s d w) : Holds b s (c + d) (v + w) := by
  simp only [Holds, decryptPoint_add] at *
  rw [hc, hd, add_nsmul]

theorem Holds.nsmul (n : Nat) (hc : Holds b s c v) : Holds b s (n • c) (n * v) := by
  simp only [Holds, decryptPoint_nsmul] at *
  rw [hc, mul_nsmul']

theorem Holds.sub (hc : Holds b s c v) (hd : Holds b s d w) (hle : w ≤ v) :
    Holds b s (c - d) (v - w) := by
  have hsplit : v • b.g = (v - w) • b.g + w • b.g := by rw [← add_nsmul, Nat.sub_add_cancel hle]
  simp only [Holds, decryptPoint_sub] at *
  rw [hc, hd, hsplit, add_sub_cancel_right]

/-- What a difference was taken from. -/
theorem Holds.of_sub (h : Holds b s (c - d) v) (hd : Holds b s d w) : Holds b s c (v + w) := by
  simpa using h.add hd

/-- A public amount, as a ciphertext. -/
theorem Holds.amount (s : Fˣ) (w : Nat) : Holds b s ((w • b.g, 0) : ElGamalCiphertext G) w := by
  simp [Holds, decryptPoint]

theorem Holds.of_subAmount (h : Holds b s (c.1 - w • b.g, c.2) v) : Holds b s c (v + w) := by
  refine Holds.of_sub ?_ (Holds.amount s w)
  simpa [Prod.sub_def] using h

/-- Subtracting a public amount moves the commitment only. -/
theorem Holds.subAmount (hc : Holds b s c v) (hle : w ≤ v) :
    Holds b s (c.1 - w • b.g, c.2) (v - w) := by
  simpa [Prod.ext_iff, Prod.sub_def] using hc.sub (Holds.amount s w) hle

/-- Two halves of a plaintext, the high one counting `2 ^ bits` times. -/
theorem Holds.combine (bits : Nat) (hc : Holds b s c v) (hd : Holds b s d w) :
    Holds b s (c + (2 ^ bits) • d) (v + 2 ^ bits * w) :=
  hc.add (hd.nsmul (2 ^ bits))

end TwistedElGamal
