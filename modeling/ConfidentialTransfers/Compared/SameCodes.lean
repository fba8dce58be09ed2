-- SUMMARY: When the checks of the TypeScript SDK and of the Rust crate pass alike or fail with the same code.
import ConfidentialTransfers.Compared.Runs

/-!
# The same checks, the same codes

Both clients make the same checks but in another order, and the crate reads the
mint where the SDK does not. They agree when the faults whose order differs do not
hold together.
-/

open Solana

namespace Compared

variable {χ π F G : Type} [CommRing F] [AddCommGroup G] [Module F G]

/-! ## What the conditions are about -/

/-- The account can take one more incoming deposit or transfer. -/
def CanReceive (ct : ConfidentialTransferAccountState) : Prop :=
  ct.approved = true ∧ ct.allowConfidentialCredits = true ∧
    ct.pendingBalanceCreditCounter < ct.maximumPendingBalanceCreditCounter

section Zk

variable (zk : ZkSdk F G)

def WellFormedKey (key : Address) : Prop := (zk.pubkeyFromBytes (zk.addressToBytes key)).isSome

/-- The account is configured with these keys. -/
def KeysMatch (keys : ConfidentialKeypairs F) (ct : ConfidentialTransferAccountState) : Prop :=
  zk.elGamalPubkeyAddress keys = ct.elgamalPubkey

/-- The AES copy of the balance decrypts, if it is an AES ciphertext at all. -/
def Decrypts (keys : ConfidentialKeypairs F) (ct : ConfidentialTransferAccountState) : Prop :=
  ∀ ciphertext, ZkSdk.aeCiphertextFromBytes ct.decryptableAvailableBalance = some ciphertext →
    ∃ balance, zk.aeDecrypt keys.aesKey ciphertext = .ok balance

end Zk

namespace OnChain

variable (s : OnChain) (zk : ZkSdk F G)

/-- The mint has no auditor, or one with a well-formed key. -/
def AuditorWellFormed : Prop := ∀ key, s.auditor = some key → WellFormedKey zk key

/-- A deposit's checks agree: it is refused for its amount, or the auditor's key is well-formed and the
    account does not lack public balance and room for a credit at once. -/
def DepositAgrees (wallet : Wallet F) (amount : UInt64) : Prop :=
  amount = 0 ∨ largestAmount < amount.toNat ∨
    (s.AuditorWellFormed zk ∧ ∀ account ct, s.account wallet.address = some account →
      Sdk.confidentialState account = some ct → account.amount < amount.toNat → CanReceive ct)

/-- A withdraw's checks agree: it is of nothing, or the auditor's key is well-formed and the balance of
    an account with matching keys decrypts if it parses. -/
def WithdrawAgrees (wallet : Wallet F) (amount : UInt64) : Prop :=
  amount = 0 ∨ (s.AuditorWellFormed zk ∧ ∀ ct, s.state wallet.address = some ct →
    KeysMatch zk wallet.keys ct → Decrypts zk wallet.keys ct)

/-- A transfer of an amount that can be transferred, to a mint whose auditor's key is well-formed: its
    checks agree. -/
def AccountsAgree (wallet : Wallet F) (destinationOwner : Address) (firstRejects : Bool) : Prop :=
  match s.state wallet.address, s.state destinationOwner with
  | none, some _ => True
  | none, none => firstRejects = true ∨
      ((s.account wallet.address).isNone ↔ (s.account destinationOwner).isNone)
  | some source, none => KeysMatch zk wallet.keys source
  | some source, some destination =>
    (¬ KeysMatch zk wallet.keys source ∧ CanReceive destination) ∨
      (KeysMatch zk wallet.keys source ∧ (CanReceive destination →
        WellFormedKey zk destination.elgamalPubkey ∧ Decrypts zk wallet.keys source))

/-- A transfer's checks agree: it is of nothing, or its amount is too large and that is all there is
    before the SDK looks at the amount, or it is neither and the accounts agree. -/
def TransferAgrees (wallet : Wallet F) (destinationOwner : Address) (amount : UInt64)
    (firstRejects : Bool) : Prop :=
  amount = 0 ∨
    (largestAmount < amount.toNat ∧ ∃ source destination, s.state wallet.address = some source ∧
      s.state destinationOwner = some destination ∧ KeysMatch zk wallet.keys source ∧
      CanReceive destination) ∨
    (amount.toNat ≤ largestAmount ∧ s.AuditorWellFormed zk ∧
      s.AccountsAgree zk wallet destinationOwner firstRejects)

end OnChain

/-! ## Single faults -/

theorem amountFault_of_ne {amount : UInt64} (h : amount ≠ 0) : amountFault amount = none := if_neg h

theorem tooLargeFault_of_le {amount : UInt64} (h : amount.toNat ≤ largestAmount) :
    tooLargeFault amount = none :=
  if_neg (by omega)

theorem receiveFault_of_canReceive {ct : ConfidentialTransferAccountState} (h : CanReceive ct) :
    receiveFault ct = none := by
  obtain ⟨happroved, hallow, hcounter⟩ := h
  simp [receiveFault, happroved, hallow, hcounter]

/-- An account that cannot receive is refused with a code of its own. -/
theorem receiveFault_of_not {ct : ConfidentialTransferAccountState} (h : ¬ CanReceive ct) :
    ∃ code, receiveFault ct = some (.code code) ∧ code ∉ [Sdk.ErrorCode.invalidInput,
      .accountNotFound, .accountNotConfigured, .insufficientFunds, .amountTooLarge, .keysMismatch] := by
  unfold receiveFault
  by_cases happroved : ct.approved = true
  · by_cases hallow : ct.allowConfidentialCredits = true
    · have hcounter : ct.pendingBalanceCreditCounter ≥ ct.maximumPendingBalanceCreditCounter := by
        by_contra hlt
        exact h ⟨happroved, hallow, by omega⟩
      exact ⟨.pendingBalanceLimit, by simp [happroved, hallow, hcounter], by decide⟩
    · exact ⟨.recipientRejectsConfidential, by simp [happroved, hallow], by decide⟩
  · exact ⟨.accountNotApproved, by simp [happroved], by decide⟩

section Zk

variable {zk : ZkSdk F G} {keys : ConfidentialKeypairs F} {ct : ConfidentialTransferAccountState}

theorem keysFault_of_match (h : KeysMatch zk keys ct) : keysFault zk keys ct = none :=
  if_neg fun hne => hne h

theorem keysFault_of_not (h : ¬ KeysMatch zk keys ct) :
    keysFault zk keys ct = some (.code .keysMismatch) :=
  if_pos h

theorem keyFault_of_wellFormed {key : Address} (h : WellFormedKey zk key) (fault : Fault) :
    keyFault zk fault key = none := by
  have h : (zk.pubkeyFromBytes (zk.addressToBytes key)).isSome := h
  simp [keyFault, Option.isSome_iff_ne_none.mp h]

theorem keyFault_of_not {key : Address} (h : ¬ WellFormedKey zk key) (fault : Fault) :
    keyFault zk fault key = some fault := by
  have h : zk.pubkeyFromBytes (zk.addressToBytes key) = none := by simpa [WellFormedKey] using h
  simp [keyFault, h]

/-- An AES copy that decrypts, or does not parse, gives the clients the same fault. -/
theorem aesFault_of_decrypts (h : Decrypts zk keys ct) (fault fault' : Fault) :
    aesFault zk fault keys ct = aesFault zk fault' keys ct ∧ aesFault zk fault keys ct ≠ some .other := by
  unfold aesFault
  cases hparse : ZkSdk.aeCiphertextFromBytes ct.decryptableAvailableBalance with
  | none => exact ⟨rfl, by simp⟩
  | some ciphertext =>
    obtain ⟨balance, hbalance⟩ := h ciphertext hparse
    simp [hbalance]

theorem aesFault_of_not (h : ¬ Decrypts zk keys ct) (fault : Fault) :
    aesFault zk fault keys ct = some fault := by
  unfold Decrypts at h
  push Not at h
  obtain ⟨ciphertext, hparse, hfails⟩ := h
  unfold aesFault
  rw [hparse]
  cases hdecrypt : zk.aeDecrypt keys.aesKey ciphertext with
  | ok balance => exact absurd hdecrypt (hfails balance)
  | error e => simp [hdecrypt]

end Zk

theorem auditorFault_of_wellFormed {s : OnChain} {zk : ZkSdk F G} (h : s.AuditorWellFormed zk)
    (fault : Fault) : s.auditor.bind (keyFault zk fault) = none := by
  cases hauditor : s.auditor with
  | none => rfl
  | some key => exact keyFault_of_wellFormed (h key hauditor) fault

theorem auditorFault_of_not {s : OnChain} {zk : ZkSdk F G} (h : ¬ s.AuditorWellFormed zk)
    (fault : Fault) : s.auditor.bind (keyFault zk fault) = some fault := by
  unfold OnChain.AuditorWellFormed at h
  push Not at h
  obtain ⟨key, hauditor, hkey⟩ := h
  rw [hauditor]
  exact keyFault_of_not hkey fault

/-- A configured account is there. -/
theorem accountFault_of_state {s : OnChain} {owner : Address} {ct : ConfidentialTransferAccountState}
    (h : s.state owner = some ct) : accountFault (s.account owner) = none := by
  unfold OnChain.state at h
  cases haccount : s.account owner with
  | none => simp [haccount] at h
  | some account =>
    rw [haccount, Option.bind_some] at h
    simp [accountFault, h]

theorem accountFault_of_none {s : OnChain} {owner : Address} (h : s.state owner = none) :
    accountFault (s.account owner) = some (.code
      (if (s.account owner).isNone then .accountNotFound else .accountNotConfigured)) := by
  unfold OnChain.state at h
  cases haccount : s.account owner with
  | none => rfl
  | some account =>
    rw [haccount, Option.bind_some] at h
    simp [accountFault, h]

theorem account_of_state {s : OnChain} {owner : Address} {ct : ConfidentialTransferAccountState}
    (h : s.state owner = some ct) :
    ∃ account, s.account owner = some account ∧ Sdk.confidentialState account = some ct :=
  Option.bind_eq_some_iff.mp h

theorem sameCode_code (code code' : Sdk.ErrorCode) :
    SameCode (some (.code code)) (some (.code code')) ↔ code = code' := by
  simp [SameCode]

theorem sameCode_self {fault : Option Fault} (h : fault ≠ some .other) : SameCode fault fault :=
  ⟨rfl, h⟩

theorem not_sameCode_other (rust : Option Fault) : ¬ SameCode (some .other) rust := fun h => h.2 rfl

/-! ### No check of the SDK after the first reports an invalid input -/

theorem firstFault_ne {checks : List (Option Fault)} {fault : Fault}
    (h : ∀ x ∈ checks, x ≠ some fault) : firstFault checks ≠ some fault := by
  intro heq
  obtain ⟨x, hx, hfault⟩ := List.exists_of_findSome?_eq_some heq
  exact h x hx hfault

theorem bind_ne {α : Type} {o : Option α} {f : α → Option Fault} {fault : Fault}
    (h : ∀ a, f a ≠ some fault) : o.bind f ≠ some fault := by
  cases o with
  | none => simp
  | some a => exact h a

theorem tooLargeFault_ne (amount : UInt64) : tooLargeFault amount ≠ some (.code .invalidInput) := by
  unfold tooLargeFault
  split <;> simp

theorem accountFault_ne (account : Option Token) : accountFault account ≠ some (.code .invalidInput) := by
  unfold accountFault
  split
  · simp
  · split <;> simp

theorem raceFault_ne (firstRejects : Bool) {source destination : Option Fault} {fault : Fault}
    (hsource : source ≠ some fault) (hdestination : destination ≠ some fault) :
    raceFault firstRejects source destination ≠ some fault := by
  unfold raceFault
  split
  · cases firstRejects
    · exact hdestination
    · exact hsource
  · exact hsource
  · exact hdestination

theorem receiveFault_ne (ct : ConfidentialTransferAccountState) :
    receiveFault ct ≠ some (.code .invalidInput) := by
  by_cases hcan : CanReceive ct
  · simp [receiveFault_of_canReceive hcan]
  · obtain ⟨code, hcode, hnot⟩ := receiveFault_of_not hcan
    simp only [List.mem_cons, not_or] at hnot
    simp [hcode, hnot.1]

theorem publicFault_ne (account : Token) (amount : UInt64) :
    publicFault account amount ≠ some (.code .invalidInput) := by
  unfold publicFault
  split <;> simp

section Zk

variable (zk : ZkSdk F G) (keys : ConfidentialKeypairs F)

theorem keysFault_ne (ct : ConfidentialTransferAccountState) :
    keysFault zk keys ct ≠ some (.code .invalidInput) := by
  unfold keysFault
  split <;> simp

theorem keyFault_ne (key : Address) : keyFault zk .other key ≠ some (.code .invalidInput) := by
  unfold keyFault
  split <;> simp

theorem aesFault_ne (ct : ConfidentialTransferAccountState) :
    aesFault zk .other keys ct ≠ some (.code .invalidInput) := by
  unfold aesFault
  split
  · simp
  · split <;> simp

theorem balanceFault_ne (ct : ConfidentialTransferAccountState) (amount : UInt64) {fault : Fault}
    (h : fault ≠ .code .insufficientFunds) : balanceFault zk keys ct amount ≠ some fault := by
  unfold balanceFault
  split
  · simp
  · split
    · simp
    · split
      · simpa using h.symm
      · simp

end Zk

/-! ### The balance -/

/-- With a balance that decrypts, the last checks find the same fault. -/
theorem sameCode_balance {zk : ZkSdk F G} {keys : ConfidentialKeypairs F}
    {ct : ConfidentialTransferAccountState} {amount : UInt64} (h : Decrypts zk keys ct)
    {checks : List (Option Fault)} (hchecks : firstFault checks = none) :
    SameCode (firstFault [aesFault zk .other keys ct, balanceFault zk keys ct amount])
      (firstFault (aesFault zk (.code .decryptionFailed) keys ct ::
        balanceFault zk keys ct amount :: checks)) := by
  obtain ⟨hsame, hother⟩ := aesFault_of_decrypts h .other (.code .decryptionFailed)
  rw [← hsame]
  cases haes : aesFault zk .other keys ct with
  | some fault =>
    rw [haes] at hother
    exact sameCode_self hother
  | none =>
    have hbalance : balanceFault zk keys ct amount ≠ some .other :=
      balanceFault_ne zk keys ct amount (by decide)
    simp only [firstFault_none]
    cases hfault : balanceFault zk keys ct amount with
    | some fault =>
      rw [hfault] at hbalance
      exact sameCode_self hbalance
    | none =>
      rw [firstFault_none, firstFault_none, hchecks]
      exact sameCode_self (by simp)

/-! ## deposit -/

section Deposit

variable {s : OnChain} {zk : ZkSdk F G} {wallet : Wallet F} {amount : UInt64}

omit [AddCommGroup G] [Module F G] in
theorem depositFaultsSdk_ne (hzero : amount ≠ 0) :
    firstFault (depositFaultsSdk s wallet amount) ≠ some (.code .invalidInput) := by
  rw [depositFaultsSdk, amountFault_of_ne hzero]
  refine firstFault_ne fun x hx => ?_
  simp only [List.mem_cons, List.not_mem_nil, or_false] at hx
  rcases hx with rfl | rfl | rfl | rfl | rfl
  · exact (Option.some_ne_none _).symm
  · exact tooLargeFault_ne amount
  · exact accountFault_ne _
  · exact bind_ne fun account => publicFault_ne account amount
  · exact bind_ne receiveFault_ne

theorem depositFaults_sameCode_iff :
    SameCode (firstFault (depositFaultsSdk s wallet amount))
        (firstFault (depositFaultsRust s zk wallet amount)) ↔ s.DepositAgrees zk wallet amount := by
  by_cases hzero : amount = 0
  · simp [depositFaultsSdk, depositFaultsRust, amountFault, hzero, SameCode, OnChain.DepositAgrees]
  by_cases hlarge : largestAmount < amount.toNat
  · have hfault : tooLargeFault amount = some (.code .amountTooLarge) := if_pos hlarge
    refine iff_of_true ?_ (.inr (.inl hlarge))
    simp [depositFaultsSdk, depositFaultsRust, amountFault_of_ne hzero, hfault, SameCode]
  have hle : amount.toNat ≤ largestAmount := by omega
  have hagrees : s.DepositAgrees zk wallet amount ↔ (s.AuditorWellFormed zk ∧
      ∀ account ct, s.account wallet.address = some account →
        Sdk.confidentialState account = some ct → account.amount < amount.toNat → CanReceive ct) := by
    simp [OnChain.DepositAgrees, hzero, hle]
  rw [hagrees]
  by_cases hauditor : s.AuditorWellFormed zk
  · rw [depositFaultsSdk, depositFaultsRust, amountFault_of_ne hzero, tooLargeFault_of_le hle,
      auditorFault_of_wellFormed hauditor]
    simp only [firstFault_none, hauditor, true_and]
    cases hstate : s.state wallet.address with
    | none =>
      rw [accountFault_of_none hstate]
      refine iff_of_true (sameCode_self (by simp)) fun account ct haccount hct => ?_
      rw [state_of_account haccount hct] at hstate
      cases hstate
    | some ct =>
      obtain ⟨account, haccount, hct⟩ := account_of_state hstate
      have hthis : (∀ account' ct', s.account wallet.address = some account' →
          Sdk.confidentialState account' = some ct' → account'.amount < amount.toNat → CanReceive ct') ↔
          (account.amount < amount.toNat → CanReceive ct) := by
        refine ⟨fun h => h account ct haccount hct, fun h account' ct' haccount' hct' => ?_⟩
        obtain rfl := Option.some.inj (haccount.symm.trans haccount')
        obtain rfl := Option.some.inj (hct.symm.trans hct')
        exact h
      rw [hthis, accountFault_of_state hstate, haccount]
      simp only [firstFault_none, Option.bind_some]
      by_cases hshort : account.amount < amount.toNat
      · have hpublic : publicFault account amount = some (.code .insufficientFunds) := if_pos hshort
        by_cases hcan : CanReceive ct
        · simp [hpublic, receiveFault_of_canReceive hcan, hcan, SameCode]
        · obtain ⟨code, hcode, hnot⟩ := receiveFault_of_not hcan
          have hne : Sdk.ErrorCode.insufficientFunds ≠ code := by
            rintro rfl
            exact hnot (by decide)
          simp [hpublic, hcode, hcan, hshort, sameCode_code, hne]
      · have hpublic : publicFault account amount = none := if_neg hshort
        by_cases hcan : CanReceive ct
        · simp [hpublic, receiveFault_of_canReceive hcan, hshort, SameCode]
        · obtain ⟨code, hcode, -⟩ := receiveFault_of_not hcan
          simp [hpublic, hcode, hshort, sameCode_code]
  · refine iff_of_false (fun hsame => depositFaultsSdk_ne hzero (hsame.1.trans ?_)) fun h => hauditor h.1
    rw [depositFaultsRust, amountFault_of_ne hzero, tooLargeFault_of_le hle,
      auditorFault_of_not hauditor]
    rfl

end Deposit

/-! ## withdraw -/

section Withdraw

variable {s : OnChain} {zk : ZkSdk F G} {wallet : Wallet F} {amount : UInt64}

theorem withdrawFaultsSdk_ne (hzero : amount ≠ 0) :
    firstFault (withdrawFaultsSdk s zk wallet amount) ≠ some (.code .invalidInput) := by
  rw [withdrawFaultsSdk, amountFault_of_ne hzero]
  refine firstFault_ne fun x hx => ?_
  simp only [List.mem_cons, List.not_mem_nil, or_false] at hx
  rcases hx with rfl | rfl | rfl | rfl | rfl | rfl
  · exact (Option.some_ne_none _).symm
  · exact accountFault_ne _
  · exact bind_ne (keysFault_ne zk wallet.keys)
  · exact (Option.some_ne_none _).symm
  · exact bind_ne (aesFault_ne zk wallet.keys)
  · exact bind_ne fun ct => balanceFault_ne zk wallet.keys ct amount (by decide)

theorem withdrawFaults_sameCode_iff :
    SameCode (firstFault (withdrawFaultsSdk s zk wallet amount))
        (firstFault (withdrawFaultsRust s zk wallet amount)) ↔ s.WithdrawAgrees zk wallet amount := by
  by_cases hzero : amount = 0
  · simp [withdrawFaultsSdk, withdrawFaultsRust, amountFault, hzero, SameCode, OnChain.WithdrawAgrees]
  have hagrees : s.WithdrawAgrees zk wallet amount ↔ (s.AuditorWellFormed zk ∧
      ∀ ct, s.state wallet.address = some ct → KeysMatch zk wallet.keys ct →
        Decrypts zk wallet.keys ct) := by
    simp [OnChain.WithdrawAgrees, hzero]
  rw [hagrees]
  by_cases hauditor : s.AuditorWellFormed zk
  · rw [withdrawFaultsSdk, withdrawFaultsRust, amountFault_of_ne hzero,
      auditorFault_of_wellFormed hauditor]
    simp only [firstFault_none, hauditor, true_and]
    cases hstate : s.state wallet.address with
    | none =>
      rw [accountFault_of_none hstate]
      exact iff_of_true (sameCode_self (by simp)) fun ct hct => by cases hct
    | some ct =>
      rw [accountFault_of_state hstate]
      simp only [firstFault_none, Option.bind_some, Option.some.injEq, forall_eq']
      by_cases hkeys : KeysMatch zk wallet.keys ct
      · rw [keysFault_of_match hkeys]
        simp only [firstFault_none, hkeys, true_imp_iff]
        by_cases hdecrypts : Decrypts zk wallet.keys ct
        · exact iff_of_true (sameCode_balance hdecrypts rfl) hdecrypts
        · refine iff_of_false ?_ hdecrypts
          rw [aesFault_of_not hdecrypts]
          exact not_sameCode_other _
      · simp [keysFault_of_not hkeys, hkeys, sameCode_code]
  · refine iff_of_false (fun hsame => withdrawFaultsSdk_ne hzero (hsame.1.trans ?_)) fun h => hauditor h.1
    rw [withdrawFaultsRust, amountFault_of_ne hzero, auditorFault_of_not hauditor]
    rfl

end Withdraw

/-! ## transfer -/

section Transfer

variable {s : OnChain} {zk : ZkSdk F G} {wallet : Wallet F} {destinationOwner : Address}
  {amount : UInt64} {firstRejects : Bool}

/-- With a well-formed auditor's key, and an amount that can be transferred. -/
theorem transferFaults_sameCode_iff_accounts (hzero : amount ≠ 0) (hle : amount.toNat ≤ largestAmount)
    (hauditor : s.AuditorWellFormed zk) :
    SameCode (firstFault (transferFaultsSdk s zk wallet destinationOwner amount firstRejects))
        (firstFault (transferFaultsRust s zk wallet destinationOwner amount)) ↔
      s.AccountsAgree zk wallet destinationOwner firstRejects := by
  rw [transferFaultsSdk, transferFaultsRust, amountFault_of_ne hzero, tooLargeFault_of_le hle,
    auditorFault_of_wellFormed hauditor, auditorFault_of_wellFormed hauditor]
  simp only [firstFault_none]
  unfold OnChain.AccountsAgree
  cases hsource : s.state wallet.address with
  | none =>
    cases hdestination : s.state destinationOwner with
    | none =>
      rw [accountFault_of_none hsource, accountFault_of_none hdestination]
      simp only [raceFault, firstFault_some]
      cases firstRejects <;> cases (s.account wallet.address).isNone <;>
        cases (s.account destinationOwner).isNone <;> simp [sameCode_code]
    | some destination =>
      rw [accountFault_of_none hsource, accountFault_of_state hdestination]
      exact iff_of_true (sameCode_self (by simp [raceFault])) trivial
  | some source =>
    cases hdestination : s.state destinationOwner with
    | none =>
      rw [accountFault_of_state hsource, accountFault_of_none hdestination]
      simp only [raceFault, firstFault_none, firstFault_some, Option.bind_some]
      by_cases hkeys : KeysMatch zk wallet.keys source
      · rw [keysFault_of_match hkeys, firstFault_none, firstFault_some]
        exact iff_of_true (sameCode_self (by simp)) hkeys
      · rw [keysFault_of_not hkeys, firstFault_some, sameCode_code]
        refine iff_of_false ?_ hkeys
        split <;> decide
    | some destination =>
      rw [accountFault_of_state hsource, accountFault_of_state hdestination]
      simp only [raceFault, firstFault_none, Option.bind_some]
      by_cases hcan : CanReceive destination
      · by_cases hkeys : KeysMatch zk wallet.keys source
        · simp only [receiveFault_of_canReceive hcan, keysFault_of_match hkeys, firstFault_none, hcan, hkeys,
            not_true_eq_false, false_and, true_imp_iff, true_and, false_or]
          by_cases hkey : WellFormedKey zk destination.elgamalPubkey
          · simp only [keyFault_of_wellFormed hkey, firstFault_none, hkey, true_and]
            by_cases hdecrypts : Decrypts zk wallet.keys source
            · exact iff_of_true (sameCode_balance hdecrypts rfl) hdecrypts
            · refine iff_of_false ?_ hdecrypts
              rw [aesFault_of_not hdecrypts]
              exact not_sameCode_other _
          · refine iff_of_false ?_ fun h => hkey h.1
            rw [keyFault_of_not hkey]
            exact not_sameCode_other _
        · simp [receiveFault_of_canReceive hcan, keysFault_of_not hkeys, hcan, hkeys, sameCode_code]
      · obtain ⟨code, hcode, hnot⟩ := receiveFault_of_not hcan
        by_cases hkeys : KeysMatch zk wallet.keys source
        · simp [hcode, keysFault_of_match hkeys, hcan, hkeys, sameCode_code]
        · have hne : code ≠ .keysMismatch := by
            rintro rfl
            exact hnot (by decide)
          simp [hcode, keysFault_of_not hkeys, hcan, hkeys, sameCode_code, hne]

/-- Without a fault in the accounts before them, the SDK's checks never report the amount. -/
theorem transferFaults_sameCode_iff_large (hzero : amount ≠ 0) (hlarge : largestAmount < amount.toNat) :
    SameCode (firstFault (transferFaultsSdk s zk wallet destinationOwner amount firstRejects))
        (firstFault (transferFaultsRust s zk wallet destinationOwner amount)) ↔
      ∃ source destination, s.state wallet.address = some source ∧
        s.state destinationOwner = some destination ∧ KeysMatch zk wallet.keys source ∧
        CanReceive destination := by
  have hfault : tooLargeFault amount = some (.code .amountTooLarge) := if_pos hlarge
  rw [transferFaultsSdk, transferFaultsRust, amountFault_of_ne hzero, hfault]
  simp only [firstFault_none, firstFault_some]
  have hrefused : ∀ code : Sdk.ErrorCode, code ≠ .amountTooLarge →
      ¬ SameCode (some (.code code)) (some (.code .amountTooLarge)) :=
    fun code hne h => hne ((sameCode_code code _).mp h)
  cases hsource : s.state wallet.address with
  | none =>
    refine iff_of_false ?_ (by simp)
    rw [accountFault_of_none hsource]
    cases hdestination : s.state destinationOwner with
    | none =>
      rw [accountFault_of_none hdestination]
      simp only [raceFault, firstFault_some]
      cases firstRejects <;> exact hrefused _ (by split <;> decide)
    | some destination =>
      rw [accountFault_of_state hdestination]
      exact hrefused _ (by split <;> decide)
  | some source =>
    rw [accountFault_of_state hsource]
    cases hdestination : s.state destinationOwner with
    | none =>
      refine iff_of_false ?_ (by simp)
      rw [accountFault_of_none hdestination]
      exact hrefused _ (by split <;> decide)
    | some destination =>
      rw [accountFault_of_state hdestination]
      simp only [raceFault, firstFault_none, Option.bind_some, Option.some.injEq, exists_and_left,
        exists_eq_left']
      by_cases hcan : CanReceive destination
      · by_cases hkeys : KeysMatch zk wallet.keys source
        · simp [receiveFault_of_canReceive hcan, keysFault_of_match hkeys, hcan, hkeys, sameCode_code]
        · simp [receiveFault_of_canReceive hcan, keysFault_of_not hkeys, hcan, hkeys, sameCode_code]
      · obtain ⟨code, hcode, hnot⟩ := receiveFault_of_not hcan
        have hne : code ≠ .amountTooLarge := by
          rintro rfl
          exact hnot (by decide)
        simp [hcode, hcan, sameCode_code, hne]

theorem transferFaultsSdk_ne (hzero : amount ≠ 0) :
    firstFault (transferFaultsSdk s zk wallet destinationOwner amount firstRejects) ≠
      some (.code .invalidInput) := by
  rw [transferFaultsSdk, amountFault_of_ne hzero]
  refine firstFault_ne fun x hx => ?_
  simp only [List.mem_cons, List.not_mem_nil, or_false] at hx
  rcases hx with rfl | rfl | rfl | rfl | rfl | rfl | rfl | rfl | rfl
  · exact (Option.some_ne_none _).symm
  · exact raceFault_ne firstRejects (accountFault_ne _) (accountFault_ne _)
  · exact bind_ne receiveFault_ne
  · exact bind_ne (keysFault_ne zk wallet.keys)
  · exact tooLargeFault_ne amount
  · exact bind_ne fun ct => keyFault_ne zk ct.elgamalPubkey
  · exact bind_ne (keyFault_ne zk)
  · exact bind_ne (aesFault_ne zk wallet.keys)
  · exact bind_ne fun ct => balanceFault_ne zk wallet.keys ct amount (by decide)

theorem transferFaults_sameCode_iff :
    SameCode (firstFault (transferFaultsSdk s zk wallet destinationOwner amount firstRejects))
        (firstFault (transferFaultsRust s zk wallet destinationOwner amount)) ↔
      s.TransferAgrees zk wallet destinationOwner amount firstRejects := by
  by_cases hzero : amount = 0
  · simp [transferFaultsSdk, transferFaultsRust, amountFault, hzero, SameCode, OnChain.TransferAgrees]
  by_cases hlarge : largestAmount < amount.toNat
  · have hnot : ¬ amount.toNat ≤ largestAmount := by omega
    rw [transferFaults_sameCode_iff_large hzero hlarge]
    simp [OnChain.TransferAgrees, hzero, hlarge, hnot]
  have hle : amount.toNat ≤ largestAmount := by omega
  by_cases hauditor : s.AuditorWellFormed zk
  · rw [transferFaults_sameCode_iff_accounts hzero hle hauditor]
    simp [OnChain.TransferAgrees, hzero, hlarge, hle, hauditor]
  · have hnot : ¬ s.TransferAgrees zk wallet destinationOwner amount firstRejects := by
      simp [OnChain.TransferAgrees, hzero, hlarge, hauditor]
    refine iff_of_false (fun hsame => transferFaultsSdk_ne hzero (hsame.1.trans ?_)) hnot
    rw [transferFaultsRust, amountFault_of_ne hzero, tooLargeFault_of_le hle,
      auditorFault_of_not hauditor]
    rfl

end Transfer

/-! ## Both clients -/

variable {χ' : Type}

/-- On every state of the chain, the checks of `deposit`, `withdraw` and `transfer` pass alike in both
    languages, or fail with the same code, exactly when the conditions hold. -/
theorem sameCodes_iff (s : OnChain) (c : Sdk.Client χ F G) (hk : Sdk.HookSurroundings χ)
    (r : Rust.Client χ' π F G) (wallet : Wallet F) (payer destinationOwner : Address) (amount : UInt64)
    (passed : Bool) (w : World χ (ProofData F G)) (w' : World χ' π)
    (hdefault : (c.zk.pubkeyFromBytes (List.replicate 32 0)).isSome) :
    (SameCode
        (faultOf .ofThrown (Sdk.depositChecks (s.sdk c hk) (wallet.depositInput s payer amount) w).1)
        (faultOf .ofError ((s.rust r c.zk).depositChecks wallet.signer s.mint amount.toNat w').1) ↔
      s.DepositAgrees c.zk wallet amount) ∧
    (SameCode
        (faultOf .ofThrown (Sdk.withdrawChecks (s.sdk c hk)
          (wallet.withdrawInput s payer amount passed) (w, wallet.keysInput passed)).1)
        (faultOf .ofError
          ((s.rust r c.zk).withdrawOperationChecks wallet.signer s.mint amount.toNat w').1) ↔
      s.WithdrawAgrees c.zk wallet amount) ∧
    (SameCode
        (faultOf .ofThrown (Sdk.transferChecks (s.sdk c hk)
          (wallet.transferInput s payer destinationOwner amount passed) (w, wallet.keysInput passed)).1)
        (faultOf .ofError ((s.rust r c.zk).transferOperationChecks wallet.signer s.mint destinationOwner
          amount.toNat w').1) ↔
      s.TransferAgrees c.zk wallet destinationOwner amount (c.firstRejects (w.clock + 2))) := by
  rw [sdk_depositChecks, sdk_withdrawChecks, sdk_transferChecks s c hk hdefault, rust_depositChecks,
    rust_withdrawChecks, rust_transferChecks]
  exact ⟨depositFaults_sameCode_iff, withdrawFaults_sameCode_iff, transferFaults_sameCode_iff⟩

/-! ### An account with two faults -/

namespace Unapproved

def zero : Bytes := List.replicate 64 0

/-- The wallet's account is not approved yet; its owner has 5 tokens in public. -/
def onChain : OnChain where
  mint := "mint"
  decimals := 0
  mintState := { extensions := some [.confidentialTransferMint none] }
  auditor := none
  confidential := rfl
  noHook := rfl
  associatedToken owner := owner ++ "/mint"
  associatedToken_ne owner h := by
    have hlength := congrArg String.length h
    have hmint : "mint".length = 4 := by decide
    have hsuffix : "/mint".length = 5 := by decide
    rw [String.length_append, hmint, hsuffix] at hlength
    omega
  token a :=
    if a = "alice/mint" then
      some
        { amount := 5
          extensions := some [.confidentialTransferAccount
            { approved := false
              elgamalPubkey := "key"
              pendingBalanceLow := zero
              pendingBalanceHigh := zero
              availableBalance := zero
              decryptableAvailableBalance := []
              allowConfidentialCredits := true
              pendingBalanceCreditCounter := 0
              maximumPendingBalanceCreditCounter := 65536 }] }
    else none

def sdkClient : Sdk.Client Unit (ZMod (2 ^ 128)) (ZMod (2 ^ 128)) :=
  .plain { execute := fun _ chain _ => some chain }

def rustClient : Rust.Client Unit Unit (ZMod (2 ^ 128)) (ZMod (2 ^ 128)) where
  net := { execute := fun _ chain _ => some chain }
  kit := .plain
  zk := .modular
  accounts _ _ _ := none
  payer := "payer"
  associatedTokenAddress owner mint _ := owner ++ "/" ++ mint
  transferProofData _ _ _ _ _ _ := .error "not needed"
  withdrawProofData _ _ _ _ := .error "not needed"
  pubkeyValidityProofData _ _ := .ok ()
  newDecryptableAvailableBalance _ _ _ _ := .error "not needed"
  tokenInstruction := .ok fun call => { ref := 0, programAddress := token2022ProgramAddress, call }
  extraAccountMetas _ _ _ _ _ _ := .ok []

def alice : Wallet (ZMod (2 ^ 128)) where
  address := "alice"
  keys := { elgamalSecret := 1, aesKey := [] }

end Unapproved

open Unapproved in
theorem unapproved_withdraw_agrees :
    ¬ SameCode
        (faultOf .ofThrown (Sdk.depositChecks (onChain.sdk sdkClient (Sdk.HookedMint.surroundings []))
          (alice.depositInput onChain "payer" 10) { chain := () }).1)
        (faultOf .ofError ((onChain.rust rustClient sdkClient.zk).depositChecks alice.signer onChain.mint
          (10 : UInt64).toNat { chain := () }).1) ∧
      SameCode
        (faultOf .ofThrown (Sdk.withdrawChecks (onChain.sdk sdkClient (Sdk.HookedMint.surroundings []))
          (alice.withdrawInput onChain "payer" 10 true) ({ chain := () }, alice.keysInput true)).1)
        (faultOf .ofError ((onChain.rust rustClient sdkClient.zk).withdrawOperationChecks alice.signer
          onChain.mint (10 : UInt64).toNat { chain := () }).1) := by
  have hiff := sameCodes_iff onChain sdkClient (Sdk.HookedMint.surroundings []) rustClient alice "payer"
    "bob" 10 true { chain := () } { chain := () } rfl
  refine ⟨fun hsame => ?_, hiff.2.1.mpr (.inr ⟨fun key hkey => (by cases hkey), fun ct hct _ => ?_⟩)⟩
  · rcases hiff.1.mp hsame with hzero | hlarge | ⟨-, hreceive⟩
    · exact absurd hzero (by decide)
    · exact absurd hlarge (by decide)
    · have hcan := hreceive _ _ rfl rfl (by decide)
      exact absurd hcan.1 (by decide)
  · obtain rfl := Option.some.inj hct
    intro ciphertext hparse
    cases hparse

open Unapproved in
/-- Ten tokens are more than alice has and her account is not approved: the SDK says the first, the crate
    the second. -/
theorem unapproved_deposit_differs :
    faultOf .ofThrown (Sdk.depositChecks (onChain.sdk sdkClient (Sdk.HookedMint.surroundings []))
        (alice.depositInput onChain "payer" 10) { chain := () }).1 = some (.code .insufficientFunds) ∧
      faultOf .ofError ((onChain.rust rustClient .modular).depositChecks alice.signer "mint" 10
        { chain := () }).1 = some (.code .accountNotApproved) ∧
      ¬ SameCode (some (.code .insufficientFunds)) (some (.code .accountNotApproved)) := by
  have hsdk := sdk_depositChecks onChain sdkClient (Sdk.HookedMint.surroundings []) alice "payer" 10
    { chain := () }
  have hrust := rust_depositChecks onChain rustClient .modular alice 10 { chain := () }
  refine ⟨hsdk.trans (by decide +kernel), hrust.trans (by decide +kernel), ?_⟩
  rw [sameCode_code]
  decide

end Compared
