-- SUMMARY: The amounts in a flow's proofs: the halves, the remaining balance, and what the ciphertexts hold.
import ConfidentialTransfers.Sdk.ProofFlow

/-!
# Amounts in proofs

What `transferProofs` and `withdrawProofs` compute for an account whose balance
is known: every ciphertext, commitment and AES copy stands for the amount it
should.
-/

open Solana TwistedElGamal

namespace Sdk

variable {F G : Type} [CommRing F] [AddCommGroup G] [Module F G] (zk : ZkSdk F G)

/-! ## Bytes and points -/

@[simp] theorem pointFromBytes_toBytes (p : G) : pointFromBytes zk (zk.pointToBytes p) = .ok p := by
  simp [pointFromBytes, zk.pointFromBytes_toBytes]

/-- The arithmetic reads a ciphertext as the zk-sdk does. -/
theorem ciphertextToPoints_of_fromBytes {bytes : Bytes} {c : ElGamalCiphertext G}
    (h : zk.ciphertextFromBytes bytes = some c) : ciphertextToPoints zk bytes = .ok c := by
  unfold ZkSdk.ciphertextFromBytes at h
  split at h
  · rename_i hlen
    have hdrop : (bytes.drop 32).take 32 = bytes.drop 32 :=
      List.take_of_length_le (by simp [hlen])
    cases hc : zk.pointFromBytes (bytes.take 32) with
    | none => simp [hc] at h
    | some commitment =>
      cases hd : zk.pointFromBytes (bytes.drop 32) with
      | none => simp [hc, hd] at h
      | some handle =>
        obtain rfl : (commitment, handle) = c := by simpa [hc, hd] using h
        simp [ciphertextToPoints, hlen, slice, pointFromBytes, hc, hd, hdrop]
        rfl
  · cases h

@[simp] theorem ciphertextToPoints_toBytes (c : ElGamalCiphertext G) :
    ciphertextToPoints zk (zk.ciphertextToBytes c) = .ok c :=
  ciphertextToPoints_of_fromBytes zk (zk.ciphertextFromBytes_toBytes c)

/-- The ciphertext of one reader of a grouped ciphertext. -/
theorem extractCiphertext_grouped (source destination auditor : G) (v : Nat) (r : F) :
    extractCiphertextFromGroupedBytes
        (zk.groupedToBytes (zk.groupedEncryptWith source destination auditor v r)) 0 =
      .ok (zk.ciphertextToBytes (encryptWith zk.toPedersenBasis source v r)) ∧
    extractCiphertextFromGroupedBytes
        (zk.groupedToBytes (zk.groupedEncryptWith source destination auditor v r)) 2 =
      .ok (zk.ciphertextToBytes (encryptWith zk.toPedersenBasis auditor v r)) := by
  have hlen := zk.length_pointToBytes
  have hpast : ∀ (p : G) (n : Nat), 32 ≤ n → (zk.pointToBytes p).drop n = [] :=
    fun p n hn => List.drop_eq_nil_of_le (by rw [hlen p]; exact hn)
  constructor <;>
    simp [extractCiphertextFromGroupedBytes, ZkSdk.groupedToBytes, ZkSdk.groupedEncryptWith, slice,
      hlen, hpast, List.drop_append, ZkSdk.ciphertextToBytes, encryptWith]

/-- The commitment of a grouped ciphertext. -/
theorem pointFromBytes_grouped (source destination auditor : G) (v : Nat) (r : F) :
    pointFromBytes zk (slice (zk.groupedToBytes
        (zk.groupedEncryptWith source destination auditor v r)) 0 32) =
      .ok (commit zk.toPedersenBasis v r) := by
  have htake : slice (zk.groupedToBytes (zk.groupedEncryptWith source destination auditor v r)) 0 32 =
      zk.pointToBytes (commit zk.toPedersenBasis v r) := by
    simp [slice, ZkSdk.groupedToBytes, ZkSdk.groupedEncryptWith, zk.length_pointToBytes]
  rw [htake, pointFromBytes_toBytes]

/-- Subtracting the two halves of an amount. -/
theorem subtractWithLoHiCiphertexts_spec {left : Bytes} {c lo hi : ElGamalCiphertext G}
    (hleft : zk.ciphertextFromBytes left = some c) (bits : Nat) :
    subtractWithLoHiCiphertexts zk left (zk.ciphertextToBytes lo) (zk.ciphertextToBytes hi) bits =
      .ok (zk.ciphertextToBytes (c - (lo + (2 ^ bits) • hi))) := by
  simp only [subtractWithLoHiCiphertexts, combineLoHiCiphertexts, subtractCiphertexts,
    ciphertextToPoints_toBytes, ciphertextToPoints_of_fromBytes zk hleft, Nat.one_shiftLeft, bind,
    Except.bind, pure, Except.pure]
  rfl

theorem subtractAmountFromCiphertext_spec {ciphertext : Bytes} {c : ElGamalCiphertext G}
    (hc : zk.ciphertextFromBytes ciphertext = some c) {amount : Int} (hamount : 0 < amount) :
    subtractAmountFromCiphertext zk ciphertext amount =
      .ok (zk.ciphertextToBytes (c.1 - amount.toNat • zk.g, c.2)) := by
  have hpos : ¬ amount ≤ 0 := by omega
  simp [subtractAmountFromCiphertext, hpos, ciphertextToPoints_of_fromBytes zk hc, bind, Except.bind,
    pure, Except.pure]

/-! ## Splitting -/

/-- The halves of an amount add up to it; the low one has 16 bits. -/
theorem splitAmount_spec (amount : Nat) :
    (splitAmount amount transferAmountLoBitLength).1 < 2 ^ 16 ∧
      (splitAmount amount transferAmountLoBitLength).1 +
        2 ^ 16 * (splitAmount amount transferAmountLoBitLength).2 = amount := by
  have hmask : (1 <<< 16) - 1 = 2 ^ 16 - 1 := by decide
  have hlo : (splitAmount amount transferAmountLoBitLength).1 = amount % 2 ^ 16 := by
    simp only [splitAmount, transferAmountLoBitLength, hmask, Nat.and_two_pow_sub_one_eq_mod]
  have hhi : (splitAmount amount transferAmountLoBitLength).2 = amount / 2 ^ 16 := by
    simp only [splitAmount, transferAmountLoBitLength, Nat.shiftRight_eq_div_pow]
  rw [hlo, hhi]
  omega

/-- The high half of an amount below 2^48 has 32 bits. -/
theorem splitAmount_hi_lt {amount : Nat} (h : amount < 2 ^ 48) :
    (splitAmount amount transferAmountLoBitLength).2 < 2 ^ 32 := by
  have hspec := splitAmount_spec amount
  omega

/-! ## Accounts with a known balance -/

/-- The account's available balance is `b`: its ciphertext holds `b` under the owner's key, and the AES
    copy decrypts to `b`. -/
structure HoldsAvailable (keys : ConfidentialKeypairs F) (ct : ConfidentialTransferAccountState)
    (b : Nat) : Prop where
  ciphertext : ∃ c, zk.ciphertextFromBytes ct.availableBalance = some c ∧
    Holds zk.toPedersenBasis keys.elgamalSecret c b
  aes : decryptAvailableBalance zk ct keys.aesKey = .ok b

theorem computeNewAvailableBalance_of_le {b : Nat} {amount : Int} (hpos : 0 ≤ amount)
    (hle : amount ≤ b) : computeNewAvailableBalance b amount = .ok (b - amount.toNat) := by
  have hneg : ¬ amount < 0 := by omega
  have hnew : ¬ (b : Int) < amount := by omega
  have hnat : ((b : Int) - amount).toNat = b - amount.toNat := by omega
  simp [computeNewAvailableBalance, assertNonNegativeAmount, hneg, hnew, hnat, bind, Except.bind, pure,
    Except.pure]

theorem computeNewAvailableBalance_inversion {b n : Nat} {amount : Int}
    (h : computeNewAvailableBalance b amount = .ok n) :
    0 ≤ amount ∧ amount ≤ b ∧ n = b - amount.toNat := by
  unfold computeNewAvailableBalance assertNonNegativeAmount at h
  split at h
  · cases h
  · simp only [bind, Except.bind, pure, Except.pure] at h
    split at h
    · cases h
    · have hn := Except.ok.inj h
      omega

theorem getRequired_eq {account : Token} {ct : ConfidentialTransferAccountState}
    (h : confidentialState account = some ct) :
    getRequiredConfidentialTransferAccountExtension account = .ok ct := by
  unfold getRequiredConfidentialTransferAccountExtension
  cases hext : account.extensions with
  | none => simp [confidentialState, hext] at h
  | some extensions => simp [h]

theorem getRequired_inversion {account : Token} {ct : ConfidentialTransferAccountState}
    (h : getRequiredConfidentialTransferAccountExtension account = .ok ct) :
    confidentialState account = some ct := by
  unfold getRequiredConfidentialTransferAccountExtension at h
  split at h
  · cases h
  · split at h
    · cases h
    · rename_i hct
      rw [hct, Except.ok.inj h]

/-! ## Transfers -/

/-- A transfer's proofs and instruction data agree on the amount `a` and on the remaining balance
    `b - a`. -/
structure TransferAgrees (keys : ConfidentialKeypairs F) (random : TransferRandomness F)
    (auditorPubkey : G) (a b : Nat) (proofs : TransferProofs F G) : Prop where
  lo_lt : proofs.ciphertextValidity.amountLo < 2 ^ 16
  hi_lt : proofs.ciphertextValidity.amountHi < 2 ^ 32
  halves : proofs.ciphertextValidity.amountLo + 2 ^ 16 * proofs.ciphertextValidity.amountHi = a
  /-- The equality proof is about a ciphertext of the remaining balance and a commitment to it. -/
  equality : proofs.equality.secret = keys.elgamalSecret ∧ proofs.equality.amount = b - a ∧
    Holds zk.toPedersenBasis keys.elgamalSecret proofs.equality.ciphertext (b - a) ∧
    proofs.equality.commitment = commit zk.toPedersenBasis (b - a) proofs.equality.opening
  /-- The range proof is about the same commitment and the commitments to the halves. -/
  range : proofs.range =
    { commitments := [proofs.equality.commitment,
        commit zk.toPedersenBasis proofs.ciphertextValidity.amountLo random.openingLo,
        commit zk.toPedersenBasis proofs.ciphertextValidity.amountHi random.openingHi,
        commit zk.toPedersenBasis 0 random.paddingOpening]
      amounts := [b - a, proofs.ciphertextValidity.amountLo, proofs.ciphertextValidity.amountHi, 0]
      bitLengths := [64, 16, 32, 16]
      openings := [proofs.equality.opening, random.openingLo, random.openingHi,
        random.paddingOpening] }
  aes : proofs.newSourceDecryptableAvailableBalance = zk.aeEncrypt keys.aesKey random.nonce (b - a)
  auditorLo : proofs.transferAmountAuditorCiphertextLo = zk.ciphertextToBytes
    (encryptWith zk.toPedersenBasis auditorPubkey proofs.ciphertextValidity.amountLo random.openingLo)
  auditorHi : proofs.transferAmountAuditorCiphertextHi = zk.ciphertextToBytes
    (encryptWith zk.toPedersenBasis auditorPubkey proofs.ciphertextValidity.amountHi random.openingHi)

/-- The two halves of an amount, encrypted to a key, hold the amount together. -/
theorem holds_taken {secret : Fˣ} {a lo hi : Nat} {rLo rHi : F} (hsplit : lo + 2 ^ 16 * hi = a) :
    Holds zk.toPedersenBasis secret
      (encryptWith zk.toPedersenBasis (pubkey zk.toPedersenBasis secret) lo rLo +
        (2 ^ 16) • encryptWith zk.toPedersenBasis (pubkey zk.toPedersenBasis secret) hi rHi) a := by
  have hcombined := (Holds.encrypt (b := zk.toPedersenBasis) secret lo rLo).combine 16
    (Holds.encrypt (b := zk.toPedersenBasis) secret hi rHi)
  rwa [hsplit] at hcombined

/-- The remaining balance, as a ciphertext under the owner's key. -/
theorem holds_remaining {secret : Fˣ} {c : ElGamalCiphertext G} {a b lo hi : Nat} {rLo rHi : F}
    (hc : Holds zk.toPedersenBasis secret c b) (hsplit : lo + 2 ^ 16 * hi = a) (hle : a ≤ b) :
    Holds zk.toPedersenBasis secret
      (c - (encryptWith zk.toPedersenBasis (pubkey zk.toPedersenBasis secret) lo rLo +
        (2 ^ 16) • encryptWith zk.toPedersenBasis (pubkey zk.toPedersenBasis secret) hi rHi))
      (b - a) :=
  hc.sub (holds_taken zk hsplit) hle

/-- A transfer of at most the balance: its proofs agree on the amount. -/
theorem transferProofs_agree (random : TransferRandomness F) {input : TransferProofInput F}
    {ct : ConfidentialTransferAccountState} {a b : Nat} {destination auditor : G}
    (hct : confidentialState input.sourceTokenAccount = some ct)
    (hb : HoldsAvailable zk input.keys ct b)
    (hdestination : getDestinationElGamalPubkey zk input = .ok destination)
    (hauditor : auditorPubkeyOf zk input.auditorElgamalPubkey = .ok auditor)
    (hamount : input.amount = a) (hpos : 0 < a) (hmax : a < 2 ^ 48) (hle : a ≤ b) :
    ∃ proofs, transferProofs zk random input = .ok proofs ∧
      TransferAgrees zk input.keys random auditor a b proofs := by
  obtain ⟨c, hc, hholds⟩ := hb.ciphertext
  have hlimit : assertTransferableAmount (a : Int) = .ok () := by
    have h : maxTransferAmount = 2 ^ 48 - 1 := by decide
    exact if_neg (by omega)
  have hnonneg : assertNonNegativeAmount (a : Int) = .ok () := by
    simp [assertNonNegativeAmount]
  have hnew : computeNewAvailableBalance b (a : Int) = .ok (b - a) := by
    have h := computeNewAvailableBalance_of_le (b := b) (Int.natCast_nonneg a) (by omega)
    simpa using h
  obtain ⟨hlo, hsplit⟩ := splitAmount_spec a
  have hhi := splitAmount_hi_lt hmax
  unfold transferProofs
  simp only [getRequired_eq hct, hamount, hnonneg, hlimit, Int.toNat_natCast,
    hdestination, hauditor, (extractCiphertext_grouped zk _ _ _ _ _).1,
    (extractCiphertext_grouped zk _ _ _ _ _).2, Except.mapError, hb.aes, hnew,
    transferAmountLoBitLength, subtractWithLoHiCiphertexts_spec zk hc, parseElGamalCiphertext,
    ZkSdk.ciphertextFromBytes_toBytes, pointFromBytes_grouped, bind, Except.bind, pure, Except.pure]
  refine ⟨_, rfl, ?_⟩
  exact
    { lo_lt := hlo
      hi_lt := hhi
      halves := hsplit
      equality := ⟨rfl, rfl, holds_remaining zk hholds hsplit hle, rfl⟩
      range := rfl
      aes := rfl
      auditorLo := rfl
      auditorHi := rfl }

/-! ## Withdraws -/

/-- A withdraw's proofs and instruction data agree on the remaining balance `b - a`. -/
structure WithdrawAgrees (keys : ConfidentialKeypairs F) (random : WithdrawRandomness F) (a b : Nat)
    (proofs : WithdrawProofs F G) : Prop where
  equality : proofs.equality.secret = keys.elgamalSecret ∧ proofs.equality.amount = b - a ∧
    Holds zk.toPedersenBasis keys.elgamalSecret proofs.equality.ciphertext (b - a) ∧
    proofs.equality.commitment = commit zk.toPedersenBasis (b - a) proofs.equality.opening
  range : proofs.range =
    { commitments := [proofs.equality.commitment]
      amounts := [b - a]
      bitLengths := [64]
      openings := [proofs.equality.opening] }
  aes : proofs.newDecryptableAvailableBalance = zk.aeEncrypt keys.aesKey random.nonce (b - a)

/-- A withdraw of at most the balance: its proofs agree on the remaining balance. -/
theorem withdrawProofs_agree (random : WithdrawRandomness F) {input : WithdrawProofInput F}
    {ct : ConfidentialTransferAccountState} {a b : Nat}
    (hct : confidentialState input.tokenAccount = some ct) (hb : HoldsAvailable zk input.keys ct b)
    (hamount : input.amount = a) (hpos : 0 < a) (hle : a ≤ b) :
    ∃ proofs, withdrawProofs zk random input = .ok proofs ∧
      WithdrawAgrees zk input.keys random a b proofs := by
  obtain ⟨c, hc, hholds⟩ := hb.ciphertext
  have hpos' : assertPositiveWithdraw (a : Int) = .ok () := if_neg (by omega)
  have hnew : computeNewAvailableBalance b (a : Int) = .ok (b - a) := by
    have h := computeNewAvailableBalance_of_le (b := b) (Int.natCast_nonneg a) (by omega)
    simpa using h
  have hsub : subtractAmountFromCiphertext zk ct.availableBalance (a : Int) =
      .ok (zk.ciphertextToBytes (c.1 - a • zk.g, c.2)) :=
    subtractAmountFromCiphertext_spec zk hc (by omega)
  unfold withdrawProofs
  simp only [getRequired_eq hct, hamount, hpos', Except.mapError, hb.aes, hnew, hsub,
    parseElGamalCiphertext, ZkSdk.ciphertextFromBytes_toBytes, bind, Except.bind, pure, Except.pure]
  refine ⟨_, rfl, ?_⟩
  exact
    { equality := ⟨rfl, rfl, hholds.subAmount hle, rfl⟩
      range := rfl
      aes := rfl }

/-! ## What proofs say about the account -/

/-- The ciphertext a transfer takes from its source's available balance. -/
def takenBy (proof : ValidityProof F G) : ElGamalCiphertext G :=
  proof.groupedCiphertextLo.source +
    (2 ^ transferAmountLoBitLength) • proof.groupedCiphertextHi.source

/-- Whenever a transfer's proofs can be built, the AES copy of the balance covers the amount, the
    amount is what is taken, and the new AES copy is of the amount the equality proof is about. -/
theorem transferProofs_inversion {random : TransferRandomness F} {input : TransferProofInput F}
    {proofs : TransferProofs F G} (h : transferProofs zk random input = .ok proofs) :
    ∃ ct b, confidentialState input.sourceTokenAccount = some ct ∧
      decryptAvailableBalance zk ct input.keys.aesKey = .ok b ∧ 0 ≤ input.amount ∧
      input.amount ≤ b ∧ proofs.equality.secret = input.keys.elgamalSecret ∧
      proofs.equality.amount = b - input.amount.toNat ∧
      Holds zk.toPedersenBasis input.keys.elgamalSecret (takenBy proofs.ciphertextValidity)
        input.amount.toNat ∧
      proofs.newSourceDecryptableAvailableBalance =
        zk.aeEncrypt input.keys.aesKey random.nonce proofs.equality.amount := by
  unfold transferProofs at h
  obtain ⟨ct, hct, h⟩ := Except.bind_eq_ok_iff.mp h
  obtain ⟨_, hnonneg, h⟩ := Except.bind_eq_ok_iff.mp h
  obtain ⟨_, -, h⟩ := Except.bind_eq_ok_iff.mp h
  obtain ⟨destination, -, h⟩ := Except.bind_eq_ok_iff.mp h
  obtain ⟨auditor, -, h⟩ := Except.bind_eq_ok_iff.mp h
  obtain ⟨sourceLo, -, h⟩ := Except.bind_eq_ok_iff.mp h
  obtain ⟨sourceHi, -, h⟩ := Except.bind_eq_ok_iff.mp h
  obtain ⟨auditorLo, -, h⟩ := Except.bind_eq_ok_iff.mp h
  obtain ⟨auditorHi, -, h⟩ := Except.bind_eq_ok_iff.mp h
  obtain ⟨b, hb, h⟩ := Except.bind_eq_ok_iff.mp h
  obtain ⟨newBalance, hnew, h⟩ := Except.bind_eq_ok_iff.mp h
  obtain ⟨bytes, -, h⟩ := Except.bind_eq_ok_iff.mp h
  obtain ⟨ciphertext, -, h⟩ := Except.bind_eq_ok_iff.mp h
  obtain ⟨commitmentLo, -, h⟩ := Except.bind_eq_ok_iff.mp h
  obtain ⟨commitmentHi, -, h⟩ := Except.bind_eq_ok_iff.mp h
  obtain rfl := Except.ok.inj h
  obtain ⟨hpos, hle, hnat⟩ := computeNewAvailableBalance_inversion hnew
  exact ⟨ct, b, getRequired_inversion hct, hb, hpos, hle, rfl, hnat,
    holds_taken zk (splitAmount_spec input.amount.toNat).2, rfl⟩

/-- Whenever a withdraw's proofs can be built, the AES copy of the balance covers the amount, and the
    new AES copy is of the amount the equality proof is about. -/
theorem withdrawProofs_inversion {random : WithdrawRandomness F} {input : WithdrawProofInput F}
    {proofs : WithdrawProofs F G} (h : withdrawProofs zk random input = .ok proofs) :
    ∃ ct b, confidentialState input.tokenAccount = some ct ∧
      decryptAvailableBalance zk ct input.keys.aesKey = .ok b ∧ 0 ≤ input.amount ∧
      input.amount ≤ b ∧ proofs.equality.secret = input.keys.elgamalSecret ∧
      proofs.equality.amount = b - input.amount.toNat ∧
      proofs.newDecryptableAvailableBalance =
        zk.aeEncrypt input.keys.aesKey random.nonce proofs.equality.amount := by
  unfold withdrawProofs at h
  obtain ⟨ct, hct, h⟩ := Except.bind_eq_ok_iff.mp h
  obtain ⟨_, -, h⟩ := Except.bind_eq_ok_iff.mp h
  obtain ⟨b, hb, h⟩ := Except.bind_eq_ok_iff.mp h
  obtain ⟨newBalance, hnew, h⟩ := Except.bind_eq_ok_iff.mp h
  obtain ⟨bytes, -, h⟩ := Except.bind_eq_ok_iff.mp h
  obtain ⟨ciphertext, -, h⟩ := Except.bind_eq_ok_iff.mp h
  obtain rfl := Except.ok.inj h
  obtain ⟨hpos, hle, hnat⟩ := computeNewAvailableBalance_inversion hnew
  exact ⟨ct, b, getRequired_inversion hct, hb, hpos, hle, rfl, hnat, rfl⟩

end Sdk
