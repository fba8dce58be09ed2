-- SUMMARY: What Token-2022 does to a confidential account, and what the SDK reads from one.
import ConfidentialTransfers.Sdk.Amounts
import ConfidentialTransfers.Sdk.Operations

/-!
# The token program on a confidential account

The effect of the confidential-transfer instructions on an account's ciphertexts,
and the plaintexts behind them. `Encodes` and `AesEncodes` say what bytes stand
for; `HoldsBalances` says it of the three ElGamal ciphertexts of an account.
-/

open Solana TwistedElGamal

namespace Sdk

variable {F G : Type} [CommRing F] [AddCommGroup G] [Module F G] (zk : ZkSdk F G)

/-! ## What bytes stand for -/

/-- The bytes are a ciphertext that holds `v`. -/
def Encodes (secret : Fˣ) (bytes : Bytes) (v : Nat) : Prop :=
  ∃ c, zk.ciphertextFromBytes bytes = some c ∧ Holds zk.toPedersenBasis secret c v

/-- The bytes are an AES ciphertext of `v`. -/
def AesEncodes (keys : ConfidentialKeypairs F) (bytes : Bytes) (v : Nat) : Prop :=
  ∃ c, ZkSdk.aeCiphertextFromBytes bytes = some c ∧ zk.aeDecrypt keys.aesKey c = .ok v

variable {zk} {secret : Fˣ} {keys : ConfidentialKeypairs F} {bytes : Bytes} {v w : Nat}

theorem Encodes.toBytes {c : ElGamalCiphertext G} (h : Holds zk.toPedersenBasis secret c v) :
    Encodes zk secret (zk.ciphertextToBytes c) v :=
  ⟨c, zk.ciphertextFromBytes_toBytes c, h⟩

/-- A ciphertext holds one amount only. -/
theorem holds_unique {c : ElGamalCiphertext G} (h : Holds zk.toPedersenBasis secret c v)
    (h' : Holds zk.toPedersenBasis secret c w) (hv : v < 2 ^ 128) (hw : w < 2 ^ 128) : v = w :=
  zk.nsmul_injective hv hw (h.symm.trans h')

theorem Encodes.unique (h : Encodes zk secret bytes v) (h' : Encodes zk secret bytes w)
    (hv : v < 2 ^ 128) (hw : w < 2 ^ 128) : v = w := by
  obtain ⟨c, hc, hholds⟩ := h
  obtain ⟨c', hc', hholds'⟩ := h'
  obtain rfl : c = c' := Option.some.inj (hc.symm.trans hc')
  exact holds_unique hholds hholds' hv hw

theorem AesEncodes.encrypt (nonce : Nat) (hv : v < 2 ^ 64) :
    AesEncodes zk keys (zk.aeEncrypt keys.aesKey nonce v) v :=
  ⟨_, zk.aeCiphertextFromBytes_encrypt _ _ _, zk.aeDecrypt_encrypt _ _ _ hv⟩

theorem AesEncodes.unique (h : AesEncodes zk keys bytes v) (h' : AesEncodes zk keys bytes w) :
    v = w := by
  obtain ⟨c, hc, hv⟩ := h
  obtain ⟨c', hc', hw⟩ := h'
  obtain rfl : c = c' := Option.some.inj (hc.symm.trans hc')
  exact Except.ok.inj (hv.symm.trans hw)

/-- Decrypting finds what is held, below `2 ^ 32`. -/
theorem Encodes.decryptElGamal (h : Encodes zk keys.elgamalSecret bytes v) (hv : v < 2 ^ 128)
    (operation : String) : (decryptElGamal zk keys operation bytes).toOption =
      if v < 2 ^ 32 then some v else none := by
  obtain ⟨c, hc, hholds⟩ := h
  simp only [Sdk.decryptElGamal, hc]
  exact zk.decrypt_holds hholds hv

theorem AesEncodes.decryptAe (h : AesEncodes zk keys bytes v) (operation : String) :
    decryptAe zk keys operation bytes = .ok v := by
  obtain ⟨c, hc, hv⟩ := h
  simp only [Sdk.decryptAe, hc, hv]

/-- `decryptBalance` returns what the AES copy stands for. -/
theorem decryptableBalance_eq_ok_iff (ct : ConfidentialTransferAccountState)
    (operation token : String) : decryptableBalance zk keys ct operation token = .ok v ↔
      AesEncodes zk keys ct.decryptableAvailableBalance v := by
  unfold decryptableBalance AesEncodes
  cases hc : ZkSdk.aeCiphertextFromBytes ct.decryptableAvailableBalance with
  | none => simp
  | some c => cases hv : zk.aeDecrypt keys.aesKey c <;> simp [hv, Except.mapError]

theorem decryptAvailableBalance_eq_ok_iff (ct : ConfidentialTransferAccountState) :
    decryptAvailableBalance zk ct keys.aesKey = .ok v ↔
      AesEncodes zk keys ct.decryptableAvailableBalance v := by
  unfold decryptAvailableBalance parseAeCiphertext AesEncodes
  cases hc : ZkSdk.aeCiphertextFromBytes ct.decryptableAvailableBalance with
  | none => simp [bind, Except.bind]
  | some c => cases hv : zk.aeDecrypt keys.aesKey c <;> simp [hv, Except.mapError, bind, Except.bind]

/-! ## Accounts -/

variable (zk) in
/-- The ciphertexts of an account hold these amounts. -/
structure HoldsBalances (secret : Fˣ) (ct : ConfidentialTransferAccountState)
    (available low high : Nat) : Prop where
  available : Encodes zk secret ct.availableBalance available
  low : Encodes zk secret ct.pendingBalanceLow low
  high : Encodes zk secret ct.pendingBalanceHigh high

variable (zk) in
/-- The whole balance, available and pending, as one ciphertext, holds `total`. -/
def HoldsTotal (secret : Fˣ) (ct : ConfidentialTransferAccountState) (total : Nat) : Prop :=
  ∃ available low high, zk.ciphertextFromBytes ct.availableBalance = some available ∧
    zk.ciphertextFromBytes ct.pendingBalanceLow = some low ∧
    zk.ciphertextFromBytes ct.pendingBalanceHigh = some high ∧
    Holds zk.toPedersenBasis secret (available + (low + (2 ^ 16) • high)) total

variable {ct ct' : ConfidentialTransferAccountState} {available low high total amount : Nat}

theorem HoldsBalances.holdsTotal (h : HoldsBalances zk secret ct available low high) :
    HoldsTotal zk secret ct (available + (low + 2 ^ 16 * high)) := by
  obtain ⟨⟨a, ha, hA⟩, ⟨l, hl, hL⟩, ⟨u, hu, hU⟩⟩ := h
  exact ⟨a, l, u, ha, hl, hu, hA.add (hL.combine 16 hU)⟩

theorem HoldsTotal.unique {total' : Nat} (h : HoldsTotal zk secret ct total)
    (h' : HoldsTotal zk secret ct total') (ht : total < 2 ^ 128) (ht' : total' < 2 ^ 128) :
    total = total' := by
  obtain ⟨a, l, u, ha, hl, hu, hholds⟩ := h
  obtain ⟨a', l', u', ha', hl', hu', hholds'⟩ := h'
  obtain rfl : a = a' := Option.some.inj (ha.symm.trans ha')
  obtain rfl : l = l' := Option.some.inj (hl.symm.trans hl')
  obtain rfl : u = u' := Option.some.inj (hu.symm.trans hu')
  exact holds_unique hholds hholds' ht ht'

variable (zk) in
/-- The account is configured and nothing has been credited to it yet. -/
structure FreshlyConfigured (keys : ConfidentialKeypairs F) (ct : ConfidentialTransferAccountState) :
    Prop where
  available : ct.availableBalance = zk.ciphertextToBytes 0
  low : ct.pendingBalanceLow = zk.ciphertextToBytes 0
  high : ct.pendingBalanceHigh = zk.ciphertextToBytes 0
  /-- `aesKey.encrypt(0n)`, as `configureAccount` sends it. -/
  decryptable : ∃ nonce, ct.decryptableAvailableBalance = zk.aeEncrypt keys.aesKey nonce 0

theorem FreshlyConfigured.holds (h : FreshlyConfigured zk keys ct) :
    HoldsBalances zk keys.elgamalSecret ct 0 0 0 where
  available := h.available ▸ .toBytes (Holds.zero _)
  low := h.low ▸ .toBytes (Holds.zero _)
  high := h.high ▸ .toBytes (Holds.zero _)

theorem FreshlyConfigured.aes (h : FreshlyConfigured zk keys ct) :
    AesEncodes zk keys ct.decryptableAvailableBalance 0 := by
  obtain ⟨nonce, hnonce⟩ := h.decryptable
  rw [hnonce]
  exact .encrypt nonce (by decide)

/-! ## Instructions -/

variable (zk) in
/-- A deposit or an incoming transfer: the low 16 bits of the amount are added to the low pending
    ciphertext, the rest to the high one. -/
inductive Credits (secret : Fˣ) (amount : Nat) (ct : ConfidentialTransferAccountState) :
    ConfidentialTransferAccountState → Prop
  | intro {low high lo hi : ElGamalCiphertext G}
    (hroom : ct.pendingBalanceCreditCounter < ct.maximumPendingBalanceCreditCounter)
    (hlow : zk.ciphertextFromBytes ct.pendingBalanceLow = some low)
    (hhigh : zk.ciphertextFromBytes ct.pendingBalanceHigh = some high)
    (hlo : Holds zk.toPedersenBasis secret lo (amount % 2 ^ 16))
    (hhi : Holds zk.toPedersenBasis secret hi (amount / 2 ^ 16)) :
    Credits secret amount ct
      { ct with
        pendingBalanceLow := zk.ciphertextToBytes (low + lo)
        pendingBalanceHigh := zk.ciphertextToBytes (high + hi)
        pendingBalanceCreditCounter := ct.pendingBalanceCreditCounter + 1 }

variable (zk) in
/-- `ApplyPendingBalance`: whatever is pending becomes available, and the AES copy is what the client
    says. The two counters are stored, not compared. -/
inductive AppliesPending (expectedPendingBalanceCreditCounter : Nat)
    (newDecryptableAvailableBalance : Bytes) (ct : ConfidentialTransferAccountState) :
    ConfidentialTransferAccountState → Prop
  | intro {available low high : ElGamalCiphertext G}
    (havailable : zk.ciphertextFromBytes ct.availableBalance = some available)
    (hlow : zk.ciphertextFromBytes ct.pendingBalanceLow = some low)
    (hhigh : zk.ciphertextFromBytes ct.pendingBalanceHigh = some high) :
    AppliesPending expectedPendingBalanceCreditCounter newDecryptableAvailableBalance ct
      { ct with
        availableBalance := zk.ciphertextToBytes (available + (low + (2 ^ 16) • high))
        pendingBalanceLow := zk.ciphertextToBytes 0
        pendingBalanceHigh := zk.ciphertextToBytes 0
        pendingBalanceCreditCounter := 0
        decryptableAvailableBalance := newDecryptableAvailableBalance
        expectedPendingBalanceCreditCounter
        actualPendingBalanceCreditCounter := ct.pendingBalanceCreditCounter }

variable (zk) in
/-- The statement of an equality proof is true. -/
def EqualityHolds (proof : EqualityProof F G) : Prop :=
  Holds zk.toPedersenBasis proof.secret proof.ciphertext proof.amount ∧
    proof.commitment = commit zk.toPedersenBasis proof.amount proof.opening

variable (zk) in
/-- A transfer or withdraw, on the account it takes from: it succeeds only if the equality proof is
    about what remains of the current available balance, and true. -/
inductive Spends (remaining : ElGamalCiphertext G → ElGamalCiphertext G) (proof : EqualityProof F G)
    (newDecryptableAvailableBalance : Bytes) (ct : ConfidentialTransferAccountState) :
    ConfidentialTransferAccountState → Prop
  | intro {available : ElGamalCiphertext G}
    (havailable : zk.ciphertextFromBytes ct.availableBalance = some available)
    (habout : proof.ciphertext = remaining available) (htrue : EqualityHolds zk proof) :
    Spends remaining proof newDecryptableAvailableBalance ct
      { ct with
        availableBalance := zk.ciphertextToBytes (remaining available)
        decryptableAvailableBalance := newDecryptableAvailableBalance }

/-- A credit adds the two halves of its amount. -/
theorem Credits.holds (h : Credits zk secret amount ct ct')
    (hct : HoldsBalances zk secret ct available low high) :
    HoldsBalances zk secret ct' available (low + amount % 2 ^ 16) (high + amount / 2 ^ 16) := by
  obtain ⟨havailable, ⟨l, hl, hL⟩, ⟨u, hu, hU⟩⟩ := hct
  cases h with
  | intro hroom hlow hhigh hlo hhi =>
    obtain rfl := Option.some.inj (hlow.symm.trans hl)
    obtain rfl := Option.some.inj (hhigh.symm.trans hu)
    exact ⟨havailable, .toBytes (hL.add hlo), .toBytes (hU.add hhi)⟩

/-- Applying makes the total available and leaves nothing pending. -/
theorem AppliesPending.holds {expected : Nat} {newDecryptable : Bytes}
    (h : AppliesPending zk expected newDecryptable ct ct') (hct : HoldsTotal zk secret ct total) :
    HoldsBalances zk secret ct' total 0 0 := by
  obtain ⟨a, l, u, ha, hl, hu, hholds⟩ := hct
  cases h with
  | intro havailable hlow hhigh =>
    obtain rfl := Option.some.inj (havailable.symm.trans ha)
    obtain rfl := Option.some.inj (hlow.symm.trans hl)
    obtain rfl := Option.some.inj (hhigh.symm.trans hu)
    exact ⟨.toBytes hholds, .toBytes (Holds.zero _), .toBytes (Holds.zero _)⟩

end Sdk
