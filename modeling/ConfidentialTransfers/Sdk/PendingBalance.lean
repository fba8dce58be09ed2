-- SUMMARY: Which pending balances applyPendingBalance can apply.
import ConfidentialTransfers.Lib.Steps
import ConfidentialTransfers.Sdk.TokenProgram

/-!
# Applying a pending balance

The credits the SDK lets in between two applications of the pending balance, and
when `applyPendingBalance` can decrypt what they add up to. Each half has to stay
below `2 ^ 32`; the number of credits, and so the low half, is bounded by the
counter given to `configureAccount` only.
-/

open Solana TwistedElGamal

namespace Sdk

variable {χ F G : Type} [CommRing F] [AddCommGroup G] [Module F G]

/-! ## configureAccount -/

def defaultMaximumPendingBalanceCreditCounter : Nat := 1 <<< 16

/-- kit's `getU64Encoder`, by the number that it writes: a number out of range makes it throw. -/
structure U64Encoder where
  encode : Int → Except String Nat
  encode_natCast : ∀ value : Nat, value < 2 ^ 64 → encode value = .ok value
  encode_outOfRange : ∀ value : Int, value < 0 ∨ 2 ^ 64 ≤ value → ∃ message, encode value = .error message

/-- An encoder that names the number it throws for. -/
def U64Encoder.plain : U64Encoder where
  encode value :=
    if 0 ≤ value ∧ value < 2 ^ 64 then .ok value.toNat
    else .error ("not a u64: " ++ toString value)
  encode_natCast value hvalue := by
    have hrange : (0 : Int) ≤ value ∧ (value : Int) < 2 ^ 64 := by omega
    rw [if_pos hrange, Int.toNat_natCast]
  encode_outOfRange value hvalue := by
    have hrange : ¬(0 ≤ value ∧ value < 2 ^ 64) := by omega
    exact ⟨_, if_neg hrange⟩

/-- The counter in `configureAccount`'s instruction. -/
def configuredMaximum (u64 : U64Encoder) (maximumPendingBalanceCreditCounter : Option Int) :
    Except Thrown Nat :=
  (u64.encode (maximumPendingBalanceCreditCounter.getD defaultMaximumPendingBalanceCreditCounter)).mapError
    .other

/-- The number is configured as it was given. -/
theorem configuredMaximum_eq_ok {u64 : U64Encoder} {given : Option Int} {maximum : Nat}
    (h : configuredMaximum u64 given = .ok maximum) :
    given.getD defaultMaximumPendingBalanceCreditCounter = maximum := by
  have hencode := Except.mapError_eq_ok_iff.mp h
  generalize given.getD defaultMaximumPendingBalanceCreditCounter = value at hencode
  by_cases hrange : value < 0 ∨ 2 ^ 64 ≤ value
  · obtain ⟨message, herror⟩ := u64.encode_outOfRange value hrange
    rw [herror] at hencode
    cases hencode
  · obtain ⟨n, rfl⟩ : ∃ n : Nat, value = n := ⟨value.toNat, by omega⟩
    rw [u64.encode_natCast n (by omega)] at hencode
    rw [Except.ok.inj hencode]

/-! ## Reading the balances -/

section Read

variable {zk : ZkSdk F G} {keys : ConfidentialKeypairs F} {ct : ConfidentialTransferAccountState}
  {available low high old : Nat} {operation token : String}

theorem ok_of_toOption {ε α : Type} {x : Except ε α} {a : α} (h : x.toOption = some a) : x = .ok a := by
  cases x with
  | error e => cases h
  | ok b => rw [Option.some.inj h]

/-- With both halves below `2 ^ 32` the new available balance is the sum. -/
theorem newAvailableBalance_of_lt (hlow : Encodes zk keys.elgamalSecret ct.pendingBalanceLow low)
    (hhigh : Encodes zk keys.elgamalSecret ct.pendingBalanceHigh high)
    (hold : AesEncodes zk keys ct.decryptableAvailableBalance old) (hlow32 : low < 2 ^ 32)
    (hhigh32 : high < 2 ^ 32) :
    newAvailableBalance zk keys ct operation token = .ok (old + (low + 2 ^ 16 * high)) := by
  have hdecryptLow := hlow.decryptElGamal (by omega) operation
  have hdecryptHigh := hhigh.decryptElGamal (by omega) operation
  rw [if_pos hlow32] at hdecryptLow
  rw [if_pos hhigh32] at hdecryptHigh
  have hsum : old + ((high <<< pendingBalanceLoBitLength) + low) = old + (low + 2 ^ 16 * high) := by
    rw [pendingBalanceLoBitLength, Nat.shiftLeft_eq]
    omega
  simp only [newAvailableBalance, decryptOf, ok_of_toOption hdecryptLow, ok_of_toOption hdecryptHigh,
    hold.decryptAe, Except.mapError, bind, Except.bind, pure, Except.pure, hsum]

/-- A new available balance is found only from halves below `2 ^ 32`. -/
theorem newAvailableBalance_inversion {n : Nat}
    (h : newAvailableBalance zk keys ct operation token = .ok n)
    (hlow : Encodes zk keys.elgamalSecret ct.pendingBalanceLow low)
    (hhigh : Encodes zk keys.elgamalSecret ct.pendingBalanceHigh high)
    (hlow128 : low < 2 ^ 128) (hhigh128 : high < 2 ^ 128) : low < 2 ^ 32 ∧ high < 2 ^ 32 := by
  have hdecryptLow := hlow.decryptElGamal hlow128 operation
  have hdecryptHigh := hhigh.decryptElGamal hhigh128 operation
  by_cases hlow32 : low < 2 ^ 32
  · refine ⟨hlow32, ?_⟩
    rw [if_pos hlow32] at hdecryptLow
    by_contra hhigh32
    rw [if_neg hhigh32] at hdecryptHigh
    cases hd : decryptElGamal zk keys operation ct.pendingBalanceHigh with
    | ok v => simp [hd, Except.toOption] at hdecryptHigh
    | error e =>
      simp [newAvailableBalance, decryptOf, ok_of_toOption hdecryptLow, hd, Except.mapError, bind,
        Except.bind] at h
  · rw [if_neg hlow32] at hdecryptLow
    cases hd : decryptElGamal zk keys operation ct.pendingBalanceLow with
    | ok v => simp [hd, Except.toOption] at hdecryptLow
    | error e => simp [newAvailableBalance, decryptOf, hd, Except.mapError, bind, Except.bind] at h

end Read

/-- In this session the owner's keys are known, and the account is served as it is. -/
structure ServesAccount (c : Client χ F G) (s : Session χ F G) (token : Address)
    (keys : ConfidentialKeypairs F) (ct : ConfidentialTransferAccountState) : Prop where
  keysKnown : s.2 = some keys
  answered : c.net.refused s.1.clock (.getAccountInfo token) = none
  account : ∃ data, c.net.token s.1.clock s.1.chain token = .ok (some data) ∧
    confidentialState data = some ct
  matching : ct.elgamalPubkey = c.zk.elGamalPubkeyAddress keys

/-- The instruction of an attempt, from the account it reads. -/
theorem applyPendingBalanceAction_eq {c : Client χ F G} {s : Session χ F G} {token : Address}
    {keys : ConfidentialKeypairs F} {ct : ConfidentialTransferAccountState}
    (h : ServesAccount c s token keys ct) (input : ApplyPendingBalanceInput F)
    (programAddress : Address) :
    (applyPendingBalanceAction c input programAddress token s).1 =
      (newAvailableBalance c.zk keys ct "applyPendingBalance" token).map fun n =>
        { ref := 0
          programAddress
          call := .applyPendingBalance token input.owner.address ct.pendingBalanceCreditCounter
            (c.zk.aeEncrypt keys.aesKey (c.nonce (s.1.clock + 1)) n) } := by
  obtain ⟨data, hdata, hct⟩ := h.account
  have hread : readConfiguredAccount c.net token "applyPendingBalance" "your" s.1 =
      (.ok (data, ct), s.1.tick) := by
    simp [readConfiguredAccount, fetchMaybeToken, Effect.mapError, Network.request, h.answered, hdata,
      hct, bind, Except.mapError, pure]
  have hmatch : assertKeysMatchAccount c.zk keys data token "applyPendingBalance" = .ok () := by
    simp [assertKeysMatchAccount, hct, h.matching, pure, Except.pure]
  have hsession : sessionKeys input.owner "applyPendingBalance" (s.1.tick, s.2) =
      (.ok keys, (s.1.tick, s.2)) := by
    simp [sessionKeys, Effect.get, h.keysKnown, bind, pure]
  simp only [applyPendingBalanceAction, bind, Effect.onFst, hread, hsession, Effect.ofExcept, hmatch,
    Effect.get, pure]
  cases newAvailableBalance c.zk keys ct "applyPendingBalance" token <;> rfl

/-! ## Credits -/

/-- A credit the SDK lets in: `assertCanReceive` passes. -/
def AdmittedCredit (zk : ZkSdk F G) (secret : Fˣ) (ct : ConfidentialTransferAccountState)
    (amount : Nat) (ct' : ConfidentialTransferAccountState) : Prop :=
  1 ≤ amount ∧ amount < 2 ^ 48 ∧
    (∃ token operation whose, assertCanReceive ct token operation whose = .ok ()) ∧
    Credits zk secret amount ct ct'

/-- The low 16 bits of the credits, added up. -/
def lowHalves (credits : List Nat) : Nat := (credits.map (· % 2 ^ 16)).sum

def highHalves (credits : List Nat) : Nat := (credits.map (· / 2 ^ 16)).sum

theorem halves_sum (credits : List Nat) :
    lowHalves credits + 2 ^ 16 * highHalves credits = credits.sum := by
  induction credits with
  | nil => rfl
  | cons amount credits ih =>
    simp only [lowHalves, highHalves, List.map_cons, List.sum_cons] at ih ⊢
    omega

theorem lowHalves_replicate (n amount : Nat) :
    lowHalves (List.replicate n amount) = n * (amount % 2 ^ 16) := by
  simp [lowHalves, List.map_replicate, List.sum_replicate]

theorem lowHalves_le (credits : List Nat) : lowHalves credits ≤ 65535 * credits.length := by
  induction credits with
  | nil => exact Nat.le_refl 0
  | cons amount credits ih =>
    simp only [lowHalves, List.map_cons, List.sum_cons, List.length_cons] at ih ⊢
    omega

section Credited

variable {zk : ZkSdk F G} {secret : Fˣ} {keys : ConfidentialKeypairs F}
  {ct ct' : ConfidentialTransferAccountState} {u64 : U64Encoder} {given : Option Int} {old : Nat}
  {credits : List Nat}

/-- What the credits of a run leave on the account. -/
structure Credited (zk : ZkSdk F G) (secret : Fˣ) (credits : List Nat)
    (ct ct' : ConfidentialTransferAccountState) : Prop where
  holds : ∀ {available low high}, HoldsBalances zk secret ct available low high →
    HoldsBalances zk secret ct' available (low + lowHalves credits) (high + highHalves credits)
  decryptable : ct'.decryptableAvailableBalance = ct.decryptableAvailableBalance
  maximum : ct'.maximumPendingBalanceCreditCounter = ct.maximumPendingBalanceCreditCounter
  counter : ct'.pendingBalanceCreditCounter = ct.pendingBalanceCreditCounter + credits.length
  room : ct.pendingBalanceCreditCounter ≤ ct.maximumPendingBalanceCreditCounter →
    ct'.pendingBalanceCreditCounter ≤ ct'.maximumPendingBalanceCreditCounter

theorem credited_of_run (h : Steps (AdmittedCredit zk secret) ct credits ct') :
    Credited zk secret credits ct ct' := by
  induction h with
  | nil ct =>
    exact
      { holds := fun h => by simpa [lowHalves, highHalves] using h
        decryptable := rfl
        maximum := rfl
        counter := rfl
        room := id }
  | @cons ct₀ ct₁ ct₂ amount credits head _ ih =>
    obtain ⟨-, -, -, hcredits⟩ := head
    have hholds : ∀ {available low high}, HoldsBalances zk secret ct₀ available low high →
        HoldsBalances zk secret ct₁ available (low + amount % 2 ^ 16) (high + amount / 2 ^ 16) :=
      fun h => hcredits.holds h
    cases hcredits with
    | intro hroom _ _ _ _ =>
      exact
        { holds := fun h => by
            simpa [lowHalves, highHalves, Nat.add_assoc] using ih.holds (hholds h)
          decryptable := ih.decryptable
          maximum := ih.maximum
          counter := by
            rw [ih.counter, List.length_cons]
            simp only
            omega
          room := fun _ => ih.room hroom }

/-- An account configured with this counter, whose pending balance was just applied: it has `old`
    available and accepts credits. -/
structure ReadyToReceive (u64 : U64Encoder) (zk : ZkSdk F G) (keys : ConfidentialKeypairs F)
    (given : Option Int) (old : Nat) (ct : ConfidentialTransferAccountState) : Prop where
  maximum : configuredMaximum u64 given = .ok ct.maximumPendingBalanceCreditCounter
  counter : ct.pendingBalanceCreditCounter = 0
  holds : HoldsBalances zk keys.elgamalSecret ct old 0 0
  decryptable : AesEncodes zk keys ct.decryptableAvailableBalance old
  approved : ct.approved = true
  allowConfidentialCredits : ct.allowConfidentialCredits = true

theorem assertCanReceive_eq_ok (happroved : ct.approved = true)
    (hallow : ct.allowConfidentialCredits = true)
    (hroom : ct.pendingBalanceCreditCounter < ct.maximumPendingBalanceCreditCounter)
    (token operation whose : String) : assertCanReceive ct token operation whose = .ok () := by
  simp [assertCanReceive, happroved, hallow, Nat.not_le.mpr hroom, pure, Except.pure]

/-- An account that accepts credits takes any amounts, as many as its counter allows. -/
theorem exists_credits (amounts : List Nat) (hamounts : ∀ amount ∈ amounts, 1 ≤ amount ∧ amount < 2 ^ 48)
    (happroved : ct.approved = true) (hallow : ct.allowConfidentialCredits = true)
    {available low high : Nat} (hholds : HoldsBalances zk secret ct available low high)
    (hroom : ct.pendingBalanceCreditCounter + amounts.length ≤ ct.maximumPendingBalanceCreditCounter) :
    ∃ ct', Steps (AdmittedCredit zk secret) ct amounts ct' ∧ ct'.elgamalPubkey = ct.elgamalPubkey := by
  induction amounts generalizing ct low high with
  | nil => exact ⟨ct, .nil ct, rfl⟩
  | cons amount amounts ih =>
    obtain ⟨⟨hpos, hmax⟩, hrest⟩ := List.forall_mem_cons.mp hamounts
    rw [List.length_cons] at hroom
    obtain ⟨l, hl, hL⟩ := hholds.low
    obtain ⟨u, hu, hU⟩ := hholds.high
    obtain ⟨ct₁, hcredit, happroved₁, hallow₁, hpubkey₁, hcounter₁, hmaximum₁⟩ :
        ∃ ct₁, Credits zk secret amount ct ct₁ ∧ ct₁.approved = ct.approved ∧
          ct₁.allowConfidentialCredits = ct.allowConfidentialCredits ∧
          ct₁.elgamalPubkey = ct.elgamalPubkey ∧
          ct₁.pendingBalanceCreditCounter = ct.pendingBalanceCreditCounter + 1 ∧
          ct₁.maximumPendingBalanceCreditCounter = ct.maximumPendingBalanceCreditCounter :=
      ⟨_, .intro (by omega) hl hu (Holds.encrypt secret _ 0) (Holds.encrypt secret _ 0), rfl, rfl, rfl,
        rfl, rfl⟩
    obtain ⟨ct', hrun, hpubkey⟩ := ih hrest (happroved₁.trans happroved) (hallow₁.trans hallow)
      (hcredit.holds hholds) (by omega)
    refine ⟨ct', .cons ⟨hpos, hmax, ⟨"", "", "", ?_⟩, hcredit⟩ hrun, hpubkey.trans hpubkey₁⟩
    exact assertCanReceive_eq_ok happroved hallow (by omega) _ _ _

/-- One amount again and again. -/
theorem exists_repeated_credits (amount n : Nat) (hpos : 1 ≤ amount) (hmax : amount < 2 ^ 48)
    (happroved : ct.approved = true) (hallow : ct.allowConfidentialCredits = true)
    {available low high : Nat} (hholds : HoldsBalances zk secret ct available low high)
    (hroom : ct.pendingBalanceCreditCounter + n ≤ ct.maximumPendingBalanceCreditCounter) :
    ∃ ct', Steps (AdmittedCredit zk secret) ct (List.replicate n amount) ct' ∧
      ct'.elgamalPubkey = ct.elgamalPubkey := by
  refine exists_credits _ ?_ happroved hallow hholds (by rwa [List.length_replicate])
  intro a ha
  rw [List.eq_of_mem_replicate ha]
  exact ⟨hpos, hmax⟩

/-! ## Applying -/

/-- The attempt's instruction writes the old balance plus everything credited. -/
def AppliesExactly (c : Client χ F G) (input : ApplyPendingBalanceInput F)
    (programAddress token : Address) (s : Session χ F G) (keys : ConfidentialKeypairs F)
    (ct : ConfidentialTransferAccountState) (old : Nat) (credits : List Nat) : Prop :=
  ∃ newDecryptable, (applyPendingBalanceAction c input programAddress token s).1 =
      .ok
        { ref := 0
          programAddress
          call := .applyPendingBalance token input.owner.address ct.pendingBalanceCreditCounter
            newDecryptable } ∧
    AesEncodes c.zk keys newDecryptable (old + credits.sum)

theorem appliesExactly_iff {c : Client χ F G} {s : Session χ F G} {token : Address}
    (hready : ReadyToReceive u64 c.zk keys given old ct)
    (hrun : Steps (AdmittedCredit c.zk keys.elgamalSecret) ct credits ct')
    (htotal : credits.sum < 2 ^ 48) (hsupply : old + credits.sum < 2 ^ 64)
    (hserves : ServesAccount c s token keys ct') (input : ApplyPendingBalanceInput F)
    (programAddress : Address) :
    AppliesExactly c input programAddress token s keys ct' old credits ↔
      lowHalves credits < 2 ^ 32 := by
  have hcredited := credited_of_run hrun
  have hholds := hcredited.holds hready.holds
  have hlow : Encodes c.zk keys.elgamalSecret ct'.pendingBalanceLow (lowHalves credits) := by
    simpa using hholds.low
  have hhigh : Encodes c.zk keys.elgamalSecret ct'.pendingBalanceHigh (highHalves credits) := by
    simpa using hholds.high
  have hsum := halves_sum credits
  have haction := applyPendingBalanceAction_eq hserves input programAddress
  constructor
  · rintro ⟨newDecryptable, heq, -⟩
    cases hnew : newAvailableBalance c.zk keys ct' "applyPendingBalance" token with
    | ok n => exact (newAvailableBalance_inversion hnew hlow hhigh (by omega) (by omega)).1
    | error e =>
      rw [haction, hnew] at heq
      cases heq
  · intro hfits
    have hold : AesEncodes c.zk keys ct'.decryptableAvailableBalance old := by
      rw [hcredited.decryptable]
      exact hready.decryptable
    rw [newAvailableBalance_of_lt hlow hhigh hold hfits (by omega), hsum] at haction
    exact ⟨_, haction, .encrypt _ hsupply⟩

/-- The low halves of all admitted credits fit exactly if the counter is at most 65537. -/
theorem lowHalves_fit_iff (hready : ReadyToReceive u64 zk keys given old ct) :
    (∀ credits ct', Steps (AdmittedCredit zk keys.elgamalSecret) ct credits ct' →
        credits.sum < 2 ^ 48 → lowHalves credits < 2 ^ 32) ↔
      given.getD defaultMaximumPendingBalanceCreditCounter ≤ 65537 := by
  rw [configuredMaximum_eq_ok hready.maximum]
  constructor
  · intro hfit
    by_contra hmax
    have hroom : ct.pendingBalanceCreditCounter + 65538 ≤ ct.maximumPendingBalanceCreditCounter := by
      have hcounter := hready.counter
      omega
    obtain ⟨ct', hrun, -⟩ := exists_repeated_credits 65535 65538 (by decide) (by decide)
      hready.approved hready.allowConfidentialCredits hready.holds hroom
    have hlt := hfit _ ct' hrun (by rw [List.sum_replicate]; decide)
    rw [lowHalves_replicate] at hlt
    omega
  · intro hmax credits ct' hrun _
    have hcredited := credited_of_run hrun
    have hroom := hcredited.room (by rw [hready.counter]; exact Nat.zero_le _)
    have hcounter := hcredited.counter
    have hle := lowHalves_le credits
    have hmaximum := hcredited.maximum
    have hzero := hready.counter
    omega

/-- After any admitted credits, `applyPendingBalance` writes exactly what was credited if and only if
    the low 16 bits of the credits add up to less than `2 ^ 32`. This is so for all admitted credits if
    and only if the account was configured with a counter of at most 65537. -/
theorem pending_applies_iff_lowHalves_fit {c : Client χ F G} {s : Session χ F G} {token : Address}
    (hready : ReadyToReceive u64 c.zk keys given old ct)
    (hrun : Steps (AdmittedCredit c.zk keys.elgamalSecret) ct credits ct')
    (htotal : credits.sum < 2 ^ 48) (hsupply : old + credits.sum < 2 ^ 64)
    (hserves : ServesAccount c s token keys ct') (input : ApplyPendingBalanceInput F)
    (programAddress : Address) :
    (AppliesExactly c input programAddress token s keys ct' old credits ↔
      lowHalves credits < 2 ^ 32) ∧
    ((∀ credits ct', Steps (AdmittedCredit c.zk keys.elgamalSecret) ct credits ct' →
        credits.sum < 2 ^ 48 → lowHalves credits < 2 ^ 32) ↔
      given.getD defaultMaximumPendingBalanceCreditCounter ≤ 65537) :=
  ⟨appliesExactly_iff hready hrun htotal hsupply hserves input programAddress,
    lowHalves_fit_iff hready⟩

end Credited

/-! ## An account that takes one credit too many -/

namespace FullCounter

def keys : ConfidentialKeypairs (ZMod (2 ^ 128)) := { elgamalSecret := 1, aesKey := [] }

/-- A freshly configured account that takes 65538 credits. -/
def account : ConfidentialTransferAccountState where
  approved := true
  elgamalPubkey := ZkSdk.modular.elGamalPubkeyAddress keys
  pendingBalanceLow := ZkSdk.modular.ciphertextToBytes 0
  pendingBalanceHigh := ZkSdk.modular.ciphertextToBytes 0
  availableBalance := ZkSdk.modular.ciphertextToBytes 0
  decryptableAvailableBalance := ZkSdk.modular.aeEncrypt keys.aesKey 0 0
  allowConfidentialCredits := true
  pendingBalanceCreditCounter := 0
  maximumPendingBalanceCreditCounter := 65538

theorem freshlyConfigured : FreshlyConfigured ZkSdk.modular keys account :=
  ⟨rfl, rfl, rfl, 0, rfl⟩

theorem readyToReceive : ReadyToReceive .plain ZkSdk.modular keys (some 65538) 0 account where
  maximum := rfl
  counter := rfl
  holds := freshlyConfigured.holds
  decryptable := freshlyConfigured.aes
  approved := rfl
  allowConfidentialCredits := rfl

/-- A client of a chain that is one account. -/
def client : Client ConfidentialTransferAccountState (ZMod (2 ^ 128)) (ZMod (2 ^ 128)) :=
  .plain
    { execute := fun _ _ _ => none
      token := fun _ ct _ =>
        .ok (some { amount := 0, extensions := some [.confidentialTransferAccount ct] }) }

def session (ct : ConfidentialTransferAccountState) :
    Session ConfidentialTransferAccountState (ZMod (2 ^ 128)) (ZMod (2 ^ 128)) :=
  ({ chain := ct }, some keys)

theorem servesAccount {ct : ConfidentialTransferAccountState}
    (hpubkey : ct.elgamalPubkey = account.elgamalPubkey) :
    ServesAccount client (session ct) "token" keys ct where
  keysKnown := rfl
  answered := rfl
  account := ⟨_, rfl, rfl⟩
  matching := hpubkey

def input : ApplyPendingBalanceInput (ZMod (2 ^ 128)) where
  payer := "payer"
  owner := { address := "alice", deriveConfidentialKeys := fun _ => .ok keys }
  mint := "mint"

end FullCounter

/-- Three credits, a small one, one with both halves and one of more than `2 ^ 32`, are applied. -/
theorem pending_three_apply : ∃ ct',
    Steps (AdmittedCredit ZkSdk.modular 1) FullCounter.account [5, 70000, 5000000007] ct' ∧
    AppliesExactly FullCounter.client FullCounter.input token2022ProgramAddress "token"
      (FullCounter.session ct') FullCounter.keys ct' 0 [5, 70000, 5000000007] := by
  obtain ⟨ct', hrun, hpubkey⟩ := exists_credits [5, 70000, 5000000007]
    (by decide) rfl rfl FullCounter.readyToReceive.holds (by decide)
  exact ⟨ct', hrun, (pending_applies_iff_lowHalves_fit (c := FullCounter.client)
    FullCounter.readyToReceive hrun (by decide) (by decide) (FullCounter.servesAccount hpubkey)
    FullCounter.input _).1.mpr (by decide)⟩

/-- After 65538 credits of 65535 tokens each, about `2 ^ 32` in all, nothing can be applied. -/
theorem fullCounter_cannot_be_applied :
    ∃ ct', Steps (AdmittedCredit ZkSdk.modular 1) FullCounter.account
        (List.replicate 65538 65535) ct' ∧
      (List.replicate 65538 65535).sum < 2 ^ 48 ∧
      ¬ AppliesExactly FullCounter.client FullCounter.input token2022ProgramAddress "token"
        (FullCounter.session ct') FullCounter.keys ct' 0 (List.replicate 65538 65535) := by
  obtain ⟨ct', hrun, hpubkey⟩ := exists_repeated_credits 65535
    65538 (by decide) (by decide) rfl rfl FullCounter.readyToReceive.holds (by decide)
  have htotal : (List.replicate 65538 65535).sum < 2 ^ 48 := by
    rw [List.sum_replicate]
    decide
  refine ⟨ct', hrun, htotal, fun happlies => ?_⟩
  have hfits := (appliesExactly_iff FullCounter.readyToReceive hrun htotal
    (by rw [List.sum_replicate]; decide) (FullCounter.servesAccount hpubkey) FullCounter.input _).mp
    happlies
  rw [lowHalves_replicate] at hfits
  omega

end Sdk
