-- SUMMARY: The AES copy of the balance when reads, landings and incoming credits interleave.
import ConfidentialTransfers.Sdk.PendingBalance

/-!
# Interleaved calls

The owner's calls on one account, each split into its read of the account and
the landing of its instruction, with incoming credits at any time. The AES copy
of the available balance stays right exactly as long as every
`applyPendingBalance` lands on the total balance it has read.
-/

open Solana TwistedElGamal

namespace Sdk

variable {F G : Type} [CommRing F] [AddCommGroup G] [Module F G]

/-! ## The system -/

/-- A call between its read and its landing: the instruction it has built. `readFrom` is the account an
    `applyPendingBalance` has read; the chain does not see it. -/
inductive InFlight (F G : Type) [CommRing F]
  | applyPendingBalance (readFrom : ConfidentialTransferAccountState)
    (expectedPendingBalanceCreditCounter : Nat) (newDecryptableAvailableBalance : Bytes)
  | transfer (proofs : TransferProofs F G)
  | withdraw (amount : Nat) (proofs : WithdrawProofs F G)

/-- The account on chain and the calls in flight. -/
structure Interleaved (F G : Type) [CommRing F] where
  account : ConfidentialTransferAccountState
  inFlight : List (InFlight F G) := []

inductive Occurrence (F G : Type) [CommRing F]
  | credit (amount : Nat)
  | read (call : InFlight F G)
  | land (call : InFlight F G)

/-- What the owner's call builds from the account it reads. -/
inductive Builds (zk : ZkSdk F G) (keys : ConfidentialKeypairs F)
    (ct : ConfidentialTransferAccountState) : InFlight F G → Prop
  | applyPendingBalance {operation token : String} {newAvailable : Nat} (nonce : Nat)
    (h : newAvailableBalance zk keys ct operation token = .ok newAvailable) :
    Builds zk keys ct (.applyPendingBalance ct ct.pendingBalanceCreditCounter
      (zk.aeEncrypt keys.aesKey nonce newAvailable))
  | transfer {random : TransferRandomness F} {input : TransferProofInput F}
    {proofs : TransferProofs F G} (hct : confidentialState input.sourceTokenAccount = some ct)
    (hkeys : input.keys = keys) (h : transferProofs zk random input = .ok proofs) :
    Builds zk keys ct (.transfer proofs)
  | withdraw {random : WithdrawRandomness F} {input : WithdrawProofInput F}
    {proofs : WithdrawProofs F G} (hct : confidentialState input.tokenAccount = some ct)
    (hkeys : input.keys = keys) (h : withdrawProofs zk random input = .ok proofs) :
    Builds zk keys ct (.withdraw input.amount.toNat proofs)

/-- The token program executes a call's instruction. -/
inductive Lands (zk : ZkSdk F G) (ct ct' : ConfidentialTransferAccountState) : InFlight F G → Prop
  | applyPendingBalance {readFrom : ConfidentialTransferAccountState} {expected : Nat}
    {newDecryptable : Bytes} (h : AppliesPending zk expected newDecryptable ct ct') :
    Lands zk ct ct' (.applyPendingBalance readFrom expected newDecryptable)
  | transfer {proofs : TransferProofs F G}
    (h : Spends zk (fun c => c - takenBy proofs.ciphertextValidity) proofs.equality
      proofs.newSourceDecryptableAvailableBalance ct ct') :
    Lands zk ct ct' (.transfer proofs)
  | withdraw {amount : Nat} {proofs : WithdrawProofs F G}
    (h : Spends zk (fun c => (c.1 - amount • zk.g, c.2)) proofs.equality
      proofs.newDecryptableAvailableBalance ct ct') :
    Lands zk ct ct' (.withdraw amount proofs)

/-- One step. A call in flight may land at any later time, or never. The mint's supply is a `u64`, so
    no credit takes a balance past it. -/
inductive InterleavingStep (zk : ZkSdk F G) (keys : ConfidentialKeypairs F) :
    Interleaved F G → Occurrence F G → Interleaved F G → Prop
  | credit {s : Interleaved F G} {amount : Nat} {ct' : ConfidentialTransferAccountState}
    (h : Credits zk keys.elgamalSecret amount s.account ct')
    (hsupply : ∃ total, HoldsTotal zk keys.elgamalSecret s.account total ∧ total + amount < 2 ^ 64) :
    InterleavingStep zk keys s (.credit amount) { s with account := ct' }
  | read {s : Interleaved F G} {call : InFlight F G} (h : Builds zk keys s.account call) :
    InterleavingStep zk keys s (.read call) { s with inFlight := call :: s.inFlight }
  | land {s : Interleaved F G} {call : InFlight F G} {before after : List (InFlight F G)}
    {ct' : ConfidentialTransferAccountState} (hcall : s.inFlight = before ++ call :: after)
    (h : Lands zk s.account ct' call) :
    InterleavingStep zk keys s (.land call) { account := ct', inFlight := before ++ after }

/-! ## Accuracy -/

/-- `decryptBalance` returns the plaintext of the available balance. -/
def Accurate (zk : ZkSdk F G) (keys : ConfidentialKeypairs F) (token : Address)
    (s : Interleaved F G) : Prop :=
  ∃ v, decryptableBalance zk keys s.account "decryptBalance" token = .ok v ∧
    Encodes zk keys.elgamalSecret s.account.availableBalance v

/-- If the step is the landing of an `applyPendingBalance`, the account's total balance, available and
    pending, is the one the call has read. -/
def LandsOnTotalRead (zk : ZkSdk F G) (keys : ConfidentialKeypairs F) (s : Interleaved F G)
    (occurrence : Occurrence F G) (_ : Interleaved F G) : Prop :=
  match occurrence with
  | .land (.applyPendingBalance readFrom _ _) =>
    ∃ total < 2 ^ 64, HoldsTotal zk keys.elgamalSecret readFrom total ∧
      HoldsTotal zk keys.elgamalSecret s.account total
  | _ => True

/-- What a call in flight was built from. -/
def Prepared (zk : ZkSdk F G) (keys : ConfidentialKeypairs F) : InFlight F G → Prop
  | .applyPendingBalance readFrom _ newDecryptable =>
    ∃ total < 2 ^ 64, HoldsTotal zk keys.elgamalSecret readFrom total ∧
      AesEncodes zk keys newDecryptable total
  | .transfer proofs =>
    proofs.equality.secret = keys.elgamalSecret ∧ proofs.equality.amount < 2 ^ 64 ∧
      AesEncodes zk keys proofs.newSourceDecryptableAvailableBalance proofs.equality.amount ∧
      ∃ amount < 2 ^ 64, Holds zk.toPedersenBasis keys.elgamalSecret
        (takenBy proofs.ciphertextValidity) amount
  | .withdraw amount proofs =>
    proofs.equality.secret = keys.elgamalSecret ∧ proofs.equality.amount < 2 ^ 64 ∧
      AesEncodes zk keys proofs.newDecryptableAvailableBalance proofs.equality.amount ∧
      amount < 2 ^ 64

/-- The account and every call in flight are as they should be. -/
structure Sound (zk : ZkSdk F G) (keys : ConfidentialKeypairs F) (s : Interleaved F G) : Prop where
  account : ∃ available low high,
    HoldsBalances zk keys.elgamalSecret s.account available low high ∧
      AesEncodes zk keys s.account.decryptableAvailableBalance available ∧
      available + (low + 2 ^ 16 * high) < 2 ^ 64
  inFlight : ∀ call ∈ s.inFlight, Prepared zk keys call

section Interleaving

variable {zk : ZkSdk F G} {keys : ConfidentialKeypairs F} {token : Address} {s s' : Interleaved F G}
  {ct ct' : ConfidentialTransferAccountState} {call : InFlight F G}

theorem accurate_iff : Accurate zk keys token s ↔
    ∃ v, AesEncodes zk keys s.account.decryptableAvailableBalance v ∧
      Encodes zk keys.elgamalSecret s.account.availableBalance v := by
  simp only [Accurate, decryptableBalance_eq_ok_iff]

theorem Sound.accurate (h : Sound zk keys s) : Accurate zk keys token s := by
  obtain ⟨available, low, high, hholds, haes, -⟩ := h.account
  exact accurate_iff.mpr ⟨available, haes, hholds.available⟩

/-! ## Reading -/

/-- What is built from a sound account is prepared. -/
theorem Builds.prepared {available low high : Nat} (h : Builds zk keys ct call)
    (hholds : HoldsBalances zk keys.elgamalSecret ct available low high)
    (haes : AesEncodes zk keys ct.decryptableAvailableBalance available)
    (hbound : available + (low + 2 ^ 16 * high) < 2 ^ 64) : Prepared zk keys call := by
  cases h with
  | applyPendingBalance nonce h =>
    obtain ⟨hlow, hhigh⟩ :=
      newAvailableBalance_inversion h hholds.low hholds.high (by omega) (by omega)
    rw [newAvailableBalance_of_lt hholds.low hholds.high haes hlow hhigh] at h
    obtain rfl := Except.ok.inj h
    exact ⟨_, hbound, hholds.holdsTotal, .encrypt nonce hbound⟩
  | transfer hct hkeys h =>
    obtain ⟨ct', b, hct', hb, hpos, hle, hsecret, hamount, htaken, hnew⟩ :=
      transferProofs_inversion zk h
    subst hkeys
    obtain rfl : ct = ct' := Option.some.inj (hct.symm.trans hct')
    obtain rfl := AesEncodes.unique ((decryptAvailableBalance_eq_ok_iff ct).mp hb) haes
    refine ⟨hsecret, by omega, ?_, _, by omega, htaken⟩
    rw [hnew]
    exact .encrypt _ (by omega)
  | withdraw hct hkeys h =>
    obtain ⟨ct', b, hct', hb, hpos, hle, hsecret, hamount, hnew⟩ := withdrawProofs_inversion zk h
    subst hkeys
    obtain rfl : ct = ct' := Option.some.inj (hct.symm.trans hct')
    obtain rfl := AesEncodes.unique ((decryptAvailableBalance_eq_ok_iff ct).mp hb) haes
    refine ⟨hsecret, by omega, ?_, by omega⟩
    rw [hnew]
    exact .encrypt _ (by omega)

/-! ## Landing -/

/-- A transfer or withdraw that lands leaves what its equality proof is about, and that is no more than
    there was. -/
theorem Spends.holds {remaining : ElGamalCiphertext G → ElGamalCiphertext G}
    {proof : EqualityProof F G} {newDecryptable : Bytes} {available low high amount : Nat}
    (h : Spends zk remaining proof newDecryptable ct ct')
    (hholds : HoldsBalances zk keys.elgamalSecret ct available low high)
    (hsecret : proof.secret = keys.elgamalSecret)
    (hremaining : ∀ c v, Holds zk.toPedersenBasis keys.elgamalSecret (remaining c) v →
      Holds zk.toPedersenBasis keys.elgamalSecret c (v + amount))
    (hproof : proof.amount < 2 ^ 64) (hamount : amount < 2 ^ 64) (havailable : available < 2 ^ 64) :
    HoldsBalances zk keys.elgamalSecret ct' proof.amount low high ∧ proof.amount ≤ available ∧
      ct'.decryptableAvailableBalance = newDecryptable := by
  obtain ⟨⟨c, hc, hC⟩, hlow, hhigh⟩ := hholds
  cases h with
  | intro hparse habout htrue =>
    obtain rfl := Option.some.inj (hparse.symm.trans hc)
    have hrest := htrue.1
    rw [habout, hsecret] at hrest
    have hsplit : available = proof.amount + amount :=
      holds_unique hC (hremaining _ _ hrest) (by omega) (by omega)
    exact ⟨⟨.toBytes hrest, hlow, hhigh⟩, by omega, rfl⟩

/-- Landing a transfer or withdraw keeps the account sound. -/
theorem sound_of_spends {remaining : ElGamalCiphertext G → ElGamalCiphertext G}
    {proof : EqualityProof F G} {newDecryptable : Bytes} {amount : Nat}
    {inFlight : List (InFlight F G)} (h : Spends zk remaining proof newDecryptable s.account ct')
    (hs : Sound zk keys s) (hsecret : proof.secret = keys.elgamalSecret)
    (hremaining : ∀ c v, Holds zk.toPedersenBasis keys.elgamalSecret (remaining c) v →
      Holds zk.toPedersenBasis keys.elgamalSecret c (v + amount))
    (hproof : proof.amount < 2 ^ 64) (hamount : amount < 2 ^ 64)
    (hnew : AesEncodes zk keys newDecryptable proof.amount) (hsub : inFlight ⊆ s.inFlight) :
    Sound zk keys { account := ct', inFlight } := by
  obtain ⟨available, low, high, hholds, -, hbound⟩ := hs.account
  obtain ⟨hholds', hle, haes⟩ := h.holds hholds hsecret hremaining hproof hamount (by omega)
  exact ⟨⟨proof.amount, low, high, hholds', haes ▸ hnew, by omega⟩,
    fun call hcall => hs.inFlight call (hsub hcall)⟩

/-- After an `applyPendingBalance` lands, the AES copy is right exactly if the total it has read is the
    total it finds, and then the account is sound. -/
theorem accurate_of_appliesPending {readFrom : ConfidentialTransferAccountState} {expected : Nat}
    {newDecryptable : Bytes} {inFlight : List (InFlight F G)}
    (h : AppliesPending zk expected newDecryptable s.account ct') (hs : Sound zk keys s)
    (hprepared : Prepared zk keys (.applyPendingBalance readFrom expected newDecryptable))
    (hsub : inFlight ⊆ s.inFlight) :
    (Accurate zk keys token { account := ct', inFlight } ↔
      ∃ total < 2 ^ 64, HoldsTotal zk keys.elgamalSecret readFrom total ∧
        HoldsTotal zk keys.elgamalSecret s.account total) ∧
    (Accurate zk keys token { account := ct', inFlight } →
      Sound zk keys { account := ct', inFlight }) := by
  obtain ⟨available, low, high, hholds, haes, hbound⟩ := hs.account
  obtain ⟨read, hread, hreadFrom, hnew⟩ := hprepared
  have hholds' := h.holds hholds.holdsTotal
  have hdecryptable : ct'.decryptableAvailableBalance = newDecryptable := by
    cases h
    rfl
  have hiff : Accurate zk keys token { account := ct', inFlight } ↔
      read = available + (low + 2 ^ 16 * high) := by
    rw [accurate_iff]
    constructor
    · rintro ⟨v, haes', hencodes⟩
      rw [hdecryptable] at haes'
      obtain rfl := hnew.unique haes'
      exact hencodes.unique hholds'.available (by omega) (by omega)
    · rintro rfl
      exact ⟨_, hdecryptable ▸ hnew, hholds'.available⟩
  refine ⟨hiff.trans ⟨?_, ?_⟩, fun haccurate => ?_⟩
  · rintro rfl
    exact ⟨_, hread, hreadFrom, hholds.holdsTotal⟩
  · rintro ⟨total, htotal, hthen, hnow⟩
    rw [hreadFrom.unique hthen (by omega) (by omega)]
    exact hnow.unique hholds.holdsTotal (by omega) (by omega)
  · have heq := hiff.mp haccurate
    exact ⟨⟨_, 0, 0, hholds', by rw [hdecryptable, ← heq]; exact hnew, by omega⟩,
      fun call hcall => hs.inFlight call (hsub hcall)⟩

/-! ## Steps and runs -/

/-- From a sound state, the next one is accurate exactly if an `applyPendingBalance` does not land on
    another total than it has read; and then it is sound. -/
theorem interleavingStep_accurate {occurrence : Occurrence F G} (hs : Sound zk keys s)
    (h : InterleavingStep zk keys s occurrence s') :
    (Accurate zk keys token s' ↔ LandsOnTotalRead zk keys s occurrence s') ∧
      (Accurate zk keys token s' → Sound zk keys s') := by
  -- all steps but the landing of an `applyPendingBalance` lead to a sound state
  have hsound : Sound zk keys s' → LandsOnTotalRead zk keys s occurrence s' →
      (Accurate zk keys token s' ↔ LandsOnTotalRead zk keys s occurrence s') ∧
        (Accurate zk keys token s' → Sound zk keys s') :=
    fun hs' hlands => ⟨⟨fun _ => hlands, fun _ => hs'.accurate⟩, fun _ => hs'⟩
  cases h with
  | @credit amount ct' h hsupply =>
    obtain ⟨available, low, high, hholds, haes, hbound⟩ := hs.account
    obtain ⟨total, htotal, hlt⟩ := hsupply
    have heq := htotal.unique hholds.holdsTotal (by omega) (by omega)
    have hdecryptable : ct'.decryptableAvailableBalance = s.account.decryptableAvailableBalance := by
      cases h
      rfl
    exact hsound ⟨⟨_, _, _, h.holds hholds, hdecryptable ▸ haes, by omega⟩, hs.inFlight⟩ trivial
  | @read call h =>
    obtain ⟨available, low, high, hholds, haes, hbound⟩ := hs.account
    refine hsound ⟨⟨_, _, _, hholds, haes, hbound⟩, ?_⟩ trivial
    exact List.forall_mem_cons.mpr ⟨h.prepared hholds haes hbound, hs.inFlight⟩
  | @land call before after ct' hcall h =>
    have hprepared : Prepared zk keys call := hs.inFlight call (by simp [hcall])
    have hsub : before ++ after ⊆ s.inFlight := by
      intro c hc
      rw [hcall]
      simp only [List.mem_append, List.mem_cons] at hc ⊢
      tauto
    cases h with
    | applyPendingBalance h => exact accurate_of_appliesPending h hs hprepared hsub
    | transfer h =>
      obtain ⟨hsecret, hproof, hnew, amount, hamount, htaken⟩ := hprepared
      exact hsound (sound_of_spends h hs hsecret (fun c v hv => hv.of_sub htaken) hproof hamount hnew
        hsub) trivial
    | withdraw h =>
      obtain ⟨hsecret, hproof, hnew, hamount⟩ := hprepared
      exact hsound (sound_of_spends h hs hsecret (fun c v hv => hv.of_subAmount) hproof hamount hnew
        hsub) trivial

theorem FreshlyConfigured.sound (h : FreshlyConfigured zk keys ct) :
    Sound zk keys ({ account := ct } : Interleaved F G) where
  account := ⟨0, 0, 0, h.holds, h.aes, by decide⟩
  inFlight := by simp

/-- In every run from a freshly configured account, with any interleaving of credits, reads and
    landings, `decryptBalance` returns the real available balance in every state if and only if every
    `applyPendingBalance` that lands finds the total balance it has read. -/
theorem accurate_iff_applies_land_on_total_read {trace : List (Occurrence F G × Interleaved F G)}
    (hfresh : FreshlyConfigured zk keys ct)
    (hrun : Along (InterleavingStep zk keys) { account := ct } trace) :
    (∀ state ∈ { account := ct } :: trace.map Prod.snd, Accurate zk keys token state) ↔
      Along (LandsOnTotalRead zk keys) { account := ct } trace := by
  have hstart : Accurate zk keys token { account := ct } := hfresh.sound.accurate
  have hiff := Along.forall_good_iff (Accurate zk keys token)
    (fun s a s' hs h => interleavingStep_accurate hs h) hfresh.sound hrun
  rw [List.forall_mem_cons, ← hiff]
  exact ⟨fun h => h.2, fun h => ⟨hstart, h⟩⟩

end Interleaving

/-! ## A credit before and after the read -/

/-- A credit to an account with room for it. -/
theorem exists_credit {zk : ZkSdk F G} {keys : ConfidentialKeypairs F}
    {ct : ConfidentialTransferAccountState} {available low high : Nat} (amount : Nat)
    (hroom : ct.pendingBalanceCreditCounter < ct.maximumPendingBalanceCreditCounter)
    (hholds : HoldsBalances zk keys.elgamalSecret ct available low high)
    (hsupply : available + (low + 2 ^ 16 * high) + amount < 2 ^ 64) (inFlight : List (InFlight F G)) :
    ∃ ct', InterleavingStep zk keys { account := ct, inFlight } (.credit amount)
        { account := ct', inFlight } ∧
      HoldsBalances zk keys.elgamalSecret ct' available (low + amount % 2 ^ 16)
        (high + amount / 2 ^ 16) ∧
      ct'.decryptableAvailableBalance = ct.decryptableAvailableBalance ∧
      ct'.pendingBalanceCreditCounter = ct.pendingBalanceCreditCounter + 1 ∧
      ct'.maximumPendingBalanceCreditCounter = ct.maximumPendingBalanceCreditCounter := by
  obtain ⟨l, hl, hL⟩ := hholds.low
  obtain ⟨u, hu, hU⟩ := hholds.high
  have hcredits : Credits zk keys.elgamalSecret amount ct _ :=
    .intro hroom hl hu (Holds.encrypt _ _ 0) (Holds.encrypt _ _ 0)
  exact ⟨_, .credit hcredits ⟨_, hholds.holdsTotal, hsupply⟩, hcredits.holds hholds, rfl, rfl, rfl⟩

/-- An application of the pending balance in flight can land on any account. -/
theorem exists_landing {zk : ZkSdk F G} {keys : ConfidentialKeypairs F}
    {ct : ConfidentialTransferAccountState} {total : Nat}
    (readFrom : ConfidentialTransferAccountState) (expected : Nat) (newDecryptable : Bytes)
    (htotal : HoldsTotal zk keys.elgamalSecret ct total) :
    ∃ ct', InterleavingStep zk keys
        { account := ct, inFlight := [.applyPendingBalance readFrom expected newDecryptable] }
        (.land (.applyPendingBalance readFrom expected newDecryptable)) { account := ct' } ∧
      HoldsBalances zk keys.elgamalSecret ct' total 0 0 ∧
      ct'.decryptableAvailableBalance = newDecryptable := by
  obtain ⟨a, l, u, ha, hl, hu, -⟩ := id htotal
  have happlies : AppliesPending zk expected newDecryptable ct _ := .intro ha hl hu
  have hland : InterleavingStep zk keys
      { account := ct, inFlight := [.applyPendingBalance readFrom expected newDecryptable] }
      (.land (.applyPendingBalance readFrom expected newDecryptable))
      { account := _, inFlight := [] ++ [] } := .land rfl (.applyPendingBalance happlies)
  exact ⟨_, hland, happlies.holds htotal, rfl⟩

namespace FullCounter

/-- The instruction of an `applyPendingBalance` that has read five pending tokens. -/
def applyFive (ct : ConfidentialTransferAccountState) : InFlight (ZMod (2 ^ 128)) (ZMod (2 ^ 128)) :=
  .applyPendingBalance ct ct.pendingBalanceCreditCounter
    (ZkSdk.modular.aeEncrypt keys.aesKey 0 5)

/-- Five tokens come in and the owner reads them. -/
theorem exists_reading_five : ∃ ct,
    Along (InterleavingStep ZkSdk.modular keys) { account := account }
      [(.credit 5, { account := ct }), (.read (applyFive ct), { account := ct, inFlight := [applyFive ct] })] ∧
    HoldsBalances ZkSdk.modular keys.elgamalSecret ct 0 5 0 ∧
    ct.pendingBalanceCreditCounter < ct.maximumPendingBalanceCreditCounter := by
  obtain ⟨ct, hcredit, hholds, haes, hcounter, hmaximum⟩ :=
    exists_credit 5 (by decide) freshlyConfigured.holds (by decide) []
  have hnew : newAvailableBalance ZkSdk.modular keys ct "applyPendingBalance" "token" = .ok 5 :=
    newAvailableBalance_of_lt hholds.low hholds.high (haes ▸ freshlyConfigured.aes) (by decide)
      (by decide)
  refine ⟨ct, ⟨hcredit, .read (.applyPendingBalance 0 hnew), trivial⟩, hholds, ?_⟩
  rw [hcounter, hmaximum]
  decide

end FullCounter

/-- Nothing comes in between the read and the landing: the copy is right throughout. -/
theorem quietApply_accurate : ∃ ct ct',
    Along (InterleavingStep ZkSdk.modular FullCounter.keys) { account := FullCounter.account }
      [(.credit 5, { account := ct }),
        (.read (FullCounter.applyFive ct), { account := ct, inFlight := [FullCounter.applyFive ct] }),
        (.land (FullCounter.applyFive ct), { account := ct' })] ∧
    ∀ state ∈ [{ account := FullCounter.account }, { account := ct },
        { account := ct, inFlight := [FullCounter.applyFive ct] }, { account := ct' }],
      Accurate ZkSdk.modular FullCounter.keys "token" state := by
  obtain ⟨ct, ⟨hcredit, hread, -⟩, hholds, -⟩ := FullCounter.exists_reading_five
  obtain ⟨ct', hland, -⟩ := exists_landing ct ct.pendingBalanceCreditCounter
    (ZkSdk.modular.aeEncrypt FullCounter.keys.aesKey 0 5) hholds.holdsTotal
  have hrun : Along (InterleavingStep ZkSdk.modular FullCounter.keys)
      { account := FullCounter.account } [(.credit 5, { account := ct }),
        (.read (FullCounter.applyFive ct), { account := ct, inFlight := [FullCounter.applyFive ct] }),
        (.land (FullCounter.applyFive ct), { account := ct' })] := ⟨hcredit, hread, hland, trivial⟩
  refine ⟨ct, ct', hrun, ?_⟩
  exact (accurate_iff_applies_land_on_total_read FullCounter.freshlyConfigured hrun).mpr
    ⟨trivial, trivial, ⟨_, by decide, hholds.holdsTotal, hholds.holdsTotal⟩, trivial⟩

/-- Seven tokens come in between the read and the landing: afterwards twelve are available, and the
    copy says five. -/
theorem creditBeforeLanding_drifts : ∃ ct ct' ct'',
    Along (InterleavingStep ZkSdk.modular FullCounter.keys) { account := FullCounter.account }
      [(.credit 5, { account := ct }),
        (.read (FullCounter.applyFive ct), { account := ct, inFlight := [FullCounter.applyFive ct] }),
        (.credit 7, { account := ct', inFlight := [FullCounter.applyFive ct] }),
        (.land (FullCounter.applyFive ct), { account := ct'' })] ∧
    decryptableBalance ZkSdk.modular FullCounter.keys ct'' "decryptBalance" "token" = .ok 5 ∧
    Encodes ZkSdk.modular FullCounter.keys.elgamalSecret ct''.availableBalance 12 ∧
    ¬ Accurate ZkSdk.modular FullCounter.keys "token"
      ({ account := ct'' } : Interleaved (ZMod (2 ^ 128)) (ZMod (2 ^ 128))) := by
  obtain ⟨ct, ⟨hcredit, hread, -⟩, hholds, hroom⟩ := FullCounter.exists_reading_five
  obtain ⟨ct', hcredit', hholds', -⟩ :=
    exists_credit 7 hroom hholds (by decide) [FullCounter.applyFive ct]
  obtain ⟨ct'', hland, hholds'', hnew⟩ := exists_landing ct ct.pendingBalanceCreditCounter
    (ZkSdk.modular.aeEncrypt FullCounter.keys.aesKey 0 5) hholds'.holdsTotal
  have haes : AesEncodes ZkSdk.modular FullCounter.keys ct''.decryptableAvailableBalance 5 := by
    rw [hnew]
    exact .encrypt 0 (by decide)
  refine ⟨ct, ct', ct'', ⟨hcredit, hread, hcredit', hland, trivial⟩,
    (decryptableBalance_eq_ok_iff ct'' _ _).mpr haes, hholds''.available, fun haccurate => ?_⟩
  obtain ⟨v, hv, hencodes⟩ := accurate_iff.mp haccurate
  obtain rfl := haes.unique hv
  exact absurd (hencodes.unique hholds''.available (by decide) (by decide)) (by decide)

end Sdk
