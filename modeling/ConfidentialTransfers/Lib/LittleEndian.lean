-- SUMMARY: Natural numbers as little-endian bytes.
import Mathlib.Algebra.Group.Nat.Defs
import Mathlib.Data.List.Basic

/-!
# Little-endian bytes
-/

namespace LittleEndian

/-- The `k` lowest bytes of `n`, lowest first. -/
def encode : (k n : Nat) → List UInt8
  | 0, _ => []
  | k + 1, n => UInt8.ofNat n :: encode k (n / 256)

/-- The number the bytes stand for. -/
def decode : List UInt8 → Nat
  | [] => 0
  | b :: bs => b.toNat + 256 * decode bs

@[simp] theorem length_encode (k n : Nat) : (encode k n).length = k := by
  induction k generalizing n with
  | zero => rfl
  | succ k ih => simp [encode, ih]

/-- Decoding gives back a number that fits into `k` bytes. -/
theorem decode_encode {k n : Nat} (hn : n < 256 ^ k) : decode (encode k n) = n := by
  induction k generalizing n with
  | zero => simp [encode, decode] at *; omega
  | succ k ih =>
    have hdiv : n / 256 < 256 ^ k := Nat.div_lt_of_lt_mul (by rw [Nat.pow_succ'] at hn; exact hn)
    simp only [encode, decode, UInt8.toNat_ofNat', ih hdiv]
    omega

end LittleEndian
