-- SUMMARY: Which fault each client's checks report.
import ConfidentialTransfers.Compared.OnChain

/-!
# The checks of both clients

For each operation, the checks of the TypeScript SDK and those of the Rust crate
report the first fault of a list. `faultOf_bind` takes one check after the other.
-/

open Solana

namespace Compared

variable {χ π F G : Type} [CommRing F] [AddCommGroup G] [Module F G]

/-! ## Accounts -/

theorem state_of_account {s : OnChain} {owner : Address} {account : Token}
    {ct : ConfidentialTransferAccountState} (haccount : s.account owner = some account)
    (hct : Sdk.confidentialState account = some ct) : s.state owner = some ct := by
  rw [OnChain.state, haccount]
  exact hct

/-- What reading a configured account gives. -/
structure ReadAccount {ε : Type} (kind : ε → Fault) (account : Option Token)
    (r : Except ε (Token × ConfidentialTransferAccountState)) : Prop where
  fault : faultOf kind r = accountFault account
  result : ∀ x, r = .ok x → account = some x.1 ∧ Sdk.confidentialState x.1 = some x.2

section Sdk

variable (s : OnChain) (c : Sdk.Client χ F G) (hk : Sdk.HookSurroundings χ)

theorem sdk_readConfiguredAccount (a : Address) (operation whose : String)
    (w : World χ (ProofData F G)) :
    ∃ r, Sdk.readConfiguredAccount (s.sdk c hk).net a operation whose w = (r, w.tick) ∧
      ReadAccount .ofThrown (s.token a) r := by
  have hfetch : Sdk.fetchMaybeToken (s.sdk c hk).net a w = (.ok (s.token a), w.tick) := rfl
  cases haccount : s.token a with
  | none =>
    refine ⟨_, by simp only [Sdk.readConfiguredAccount, bind, hfetch, haccount]; rfl, rfl, ?_⟩
    intro x hx
    cases hx
  | some account =>
    cases hct : Sdk.confidentialState account with
    | none =>
      refine ⟨_, by simp only [Sdk.readConfiguredAccount, bind, hfetch, haccount, hct]; rfl, ?_, ?_⟩
      · simp [faultOf, accountFault, hct, Fault.ofThrown, Sdk.ConfidentialTransfersError.new]
      · intro x hx
        cases hx
    | some ct =>
      refine ⟨.ok (account, ct), by
        simp only [Sdk.readConfiguredAccount, bind, hfetch, haccount, hct]; rfl, ?_, ?_⟩
      · simp [faultOf, accountFault, hct]
      · rintro x hx
        obtain rfl := Except.ok.inj hx
        exact ⟨rfl, hct⟩

theorem sdk_assertCanReceive (ct : ConfidentialTransferAccountState) (token : Address)
    (operation whose : String) :
    faultOf .ofThrown (Sdk.assertCanReceive ct token operation whose) = receiveFault ct := by
  unfold Sdk.assertCanReceive receiveFault
  cases ct.approved with
  | false => rfl
  | true =>
    cases ct.allowConfidentialCredits with
    | false => rfl
    | true =>
      simp only [Bool.not_true, Bool.false_eq_true, if_false, ge_iff_le]
      split <;> rfl

theorem sdk_assertKeysMatchAccount (zk : ZkSdk F G) (keys : ConfidentialKeypairs F) {account : Token}
    {ct : ConfidentialTransferAccountState} (hct : Sdk.confidentialState account = some ct)
    (token : Address) (operation : String) :
    faultOf .ofThrown (Sdk.assertKeysMatchAccount zk keys account token operation) =
      keysFault zk keys ct := by
  unfold Sdk.assertKeysMatchAccount keysFault
  simp only [hct]
  split <;> rfl

omit [AddCommGroup G] [Module F G] in
/-- Keys are there, or the wallet derives them. -/
theorem sdk_sessionKeys (wallet : Wallet F) (operation : String) (passed : Bool)
    (w : World χ (ProofData F G)) :
    ∃ session', Sdk.sessionKeys wallet.owner operation (w, wallet.keysInput passed) =
      (.ok wallet.keys, session') := by
  cases passed with
  | true => exact ⟨_, rfl⟩
  | false => exact ⟨_, rfl⟩

/-- A mint without a hook has no accounts to add. -/
theorem sdk_resolveTransferHookAccounts (source destination owner program : Address)
    (w : World χ (ProofData F G)) :
    (s.sdk c hk).resolveTransferHookAccounts s.mint source destination owner program w =
      (.ok [], w.tick) := by
  have hprogram : Sdk.getTransferHookProgram (s.sdk c hk).net s.mint w = (.ok none, w.tick) := by
    have hread : Effect.mapError Sdk.Thrown.other ((s.sdk c hk).net.request (.getAccountInfo s.mint)
        fun n chain => (s.sdk c hk).net.mint n chain s.mint) w = (.ok (.ok s.mintState), w.tick) := rfl
    simp only [Sdk.getTransferHookProgram, bind, hread, s.noHook]
    rfl
  show Sdk.resolveTransferHookAccounts (s.sdk c hk).net hk _ w = _
  simp only [Sdk.resolveTransferHookAccounts, bind, hprogram]
  rfl

theorem sdk_mintAuditorKey (w : World χ (ProofData F G)) :
    Sdk.givenOrMintAuditorKey (s.sdk c hk) none s.mint w = (.ok s.auditor, w.tick) := by
  have hread : Effect.mapError Sdk.Thrown.other ((s.sdk c hk).net.request (.getAccountInfo s.mint)
      fun n chain => (s.sdk c hk).net.mint n chain s.mint) w = (.ok (.ok s.mintState), w.tick) := rfl
  have hauditor := s.confidential
  simp only [Sdk.givenOrMintAuditorKey, Sdk.mintAuditorKey, bind, hread]
  cases hextensions : s.mintState.extensions with
  | none => simp [Rust.confidentialTransferMint, hextensions] at hauditor
  | some extensions =>
    simp only [Rust.confidentialTransferMint, hextensions, Option.getD_some] at hauditor
    simp only [pure, Prod.mk.injEq, Except.ok.injEq, and_true]
    exact (congrArg Option.join hauditor).trans rfl

/-! ## The TypeScript checks -/

theorem toNat_le_zero_iff (amount : UInt64) : (amount.toNat : Int) ≤ 0 ↔ amount = 0 := by
  rw [← UInt64.toNat_inj, UInt64.toNat_zero]
  omega

theorem sdk_checkDepositAmount (amount : UInt64) :
    faultOf .ofThrown (Sdk.checkDepositAmount amount.toNat) =
      firstFault [amountFault amount, tooLargeFault amount] := by
  have hlarger : (amount.toNat : Int) > Sdk.maxDepositOrTransferAmount ↔ largestAmount < amount.toNat :=
    Int.ofNat_lt
  unfold Sdk.checkDepositAmount amountFault tooLargeFault
  simp only [toNat_le_zero_iff, hlarger]
  by_cases h : amount = 0
  · simp only [if_pos h, firstFault_some]
    rfl
  · by_cases hlarge : largestAmount < amount.toNat
    · simp only [if_neg h, if_pos hlarge, firstFault_none, firstFault_some]
      rfl
    · simp only [if_neg h, if_neg hlarge, firstFault_none]
      rfl

/-- What the TypeScript `deposit` checks, in order. -/
def depositFaultsSdk (wallet : Wallet F) (amount : UInt64) : List (Option Fault) :=
  [amountFault amount, tooLargeFault amount, accountFault (s.account wallet.address),
    (s.account wallet.address).bind (publicFault · amount),
    (s.state wallet.address).bind receiveFault]

theorem sdk_depositAttemptChecks (wallet : Wallet F) (amount : UInt64) {input : Sdk.DepositInput F}
    (hamount : input.amount = amount.toNat) (w : World χ (ProofData F G)) :
    faultOf .ofThrown
        (Sdk.depositAttemptChecks (s.sdk c hk) input (s.associatedToken wallet.address) w).1 =
      firstFault [accountFault (s.account wallet.address),
        (s.account wallet.address).bind (publicFault · amount),
        (s.state wallet.address).bind receiveFault] := by
  obtain ⟨r, hread, hr⟩ := sdk_readConfiguredAccount s c hk (s.associatedToken wallet.address)
    "deposit" "your" w
  refine faultOf_bind ((congrArg (faultOf _ ·.1) hread).trans hr.fault) fun x w' hx => ?_
  obtain rfl : r = .ok x := congrArg Prod.fst (hread.symm.trans hx)
  obtain ⟨data, ct⟩ := x
  obtain ⟨haccount, hct⟩ := hr.result _ rfl
  have haccount : s.account wallet.address = some data := haccount
  have hnat : (data.amount : Int) < input.amount ↔ data.amount < amount.toNat := by
    rw [hamount]
    exact Int.ofNat_lt
  rw [haccount, state_of_account haccount hct]
  simp only [Option.bind_some, publicFault, hnat]
  split
  · rfl
  · rw [firstFault_none, firstFault_singleton]
    exact sdk_assertCanReceive ct _ _ _

theorem sdk_depositChecks (wallet : Wallet F) (payer : Address) (amount : UInt64)
    (w : World χ (ProofData F G)) :
    faultOf .ofThrown (Sdk.depositChecks (s.sdk c hk) (wallet.depositInput s payer amount) w).1 =
      firstFault (depositFaultsSdk s wallet amount) :=
  faultOf_bind_append [amountFault amount, tooLargeFault amount] (sdk_checkDepositAmount amount)
    fun _ w' _ => sdk_depositAttemptChecks s c hk wallet amount rfl w'

/-! ### transfer and withdraw -/

theorem sdk_elGamalPubkey (zk : ZkSdk F G) (key : Address) :
    faultOf .ofThrown (Sdk.getElGamalPubkeyFromAddress zk key) = keyFault zk .other key := by
  unfold Sdk.getElGamalPubkeyFromAddress Sdk.elGamalPubkeyFromBytes keyFault
  cases zk.pubkeyFromBytes (zk.addressToBytes key) <;> rfl

/-- The mint's auditor key, or the key that stands for none. -/
theorem sdk_auditorPubkey {zk : ZkSdk F G}
    (hdefault : (zk.pubkeyFromBytes (List.replicate 32 0)).isSome) (auditor : Option Address) :
    faultOf .ofThrown (Sdk.auditorPubkeyOf zk auditor) = auditor.bind (keyFault zk .other) := by
  cases auditor with
  | some key => exact sdk_elGamalPubkey zk key
  | none =>
    obtain ⟨p, hp⟩ := Option.isSome_iff_exists.mp hdefault
    simp only [Sdk.auditorPubkeyOf, Sdk.getDefaultAuditorElGamalPubkey, Sdk.elGamalPubkeyFromBytes, hp]
    rfl

/-- The balance is decrypted, and then compared with the amount. -/
theorem sdk_balance {zk : ZkSdk F G} {keys : ConfidentialKeypairs F}
    {ct : ConfidentialTransferAccountState} {amount : UInt64} :
    faultOf .ofThrown (Sdk.decryptAvailableBalance zk ct keys.aesKey >>= fun balance =>
        Sdk.computeNewAvailableBalance balance amount.toNat >>= fun _ => pure ()) =
      firstFault [aesFault zk .other keys ct, balanceFault zk keys ct amount] := by
  unfold Sdk.decryptAvailableBalance Sdk.parseAeCiphertext aesFault balanceFault
  cases ZkSdk.aeCiphertextFromBytes ct.decryptableAvailableBalance with
  | none => rfl
  | some ciphertext =>
    simp only [bind, Except.bind]
    cases zk.aeDecrypt keys.aesKey ciphertext with
    | error e => rfl
    | ok balance =>
      have hneg : ¬ (amount.toNat : Int) < 0 := by omega
      have hshort : (balance : Int) - (amount.toNat : Int) < 0 ↔ balance < amount.toNat := by omega
      simp only [Except.mapError, Sdk.computeNewAvailableBalance, Sdk.assertNonNegativeAmount, if_neg hneg,
        hshort, bind, Except.bind]
      by_cases hlt : balance < amount.toNat
      · simp only [if_pos hlt]
        rfl
      · simp only [if_neg hlt]
        rfl

theorem sdk_transferProofChecks {zk : ZkSdk F G}
    (hdefault : (zk.pubkeyFromBytes (List.replicate 32 0)).isSome) {input : Sdk.TransferProofInput F}
    {amount : UInt64} (hamount : input.amount = amount.toNat) {sourceCt destCt : ConfidentialTransferAccountState}
    {dest : Token} (hsource : Sdk.confidentialState input.sourceTokenAccount = some sourceCt)
    (hkey : input.destinationElgamalPubkey = none) (hdest : input.destinationTokenAccount = some dest)
    (hdestCt : Sdk.confidentialState dest = some destCt) :
    faultOf .ofThrown (Sdk.transferProofChecks zk input) =
      firstFault [tooLargeFault amount, keyFault zk .other destCt.elgamalPubkey,
        input.auditorElgamalPubkey.bind (keyFault zk .other), aesFault zk .other input.keys sourceCt,
        balanceFault zk input.keys sourceCt amount] := by
  have hneg : ¬ (amount.toNat : Int) < 0 := by omega
  have hlarge : faultOf .ofThrown (Sdk.assertTransferableAmount amount.toNat) = tooLargeFault amount := by
    have hmax : Sdk.maxTransferAmount = largestAmount := by decide
    have hlarge : (amount.toNat : Int) > Sdk.maxTransferAmount ↔ largestAmount < amount.toNat := by
      rw [hmax]
      omega
    unfold Sdk.assertTransferableAmount tooLargeFault
    simp only [hlarge]
    split <;> rfl
  have hdestination : faultOf .ofThrown (Sdk.getDestinationElGamalPubkey zk input) =
      keyFault zk .other destCt.elgamalPubkey := by
    rw [Sdk.getDestinationElGamalPubkey, hkey, hdest]
    simp only [Sdk.getRequired_eq hdestCt, bind, Except.bind]
    exact sdk_elGamalPubkey zk _
  unfold Sdk.transferProofChecks
  simp only [Sdk.getRequired_eq hsource, hamount, Sdk.assertNonNegativeAmount, if_neg hneg, Except.ok_bind]
  refine faultOf_bind_except hlarge fun _ _ => faultOf_bind_except hdestination fun _ _ =>
    faultOf_bind_except (sdk_auditorPubkey hdefault _) fun _ _ => sdk_balance

/-- Of two concurrent reads the first one's fault counts, or the second one's. -/
def raceFault (firstRejects : Bool) (source destination : Option Fault) : Option Fault :=
  match source, destination with
  | some fault, some fault' => some (if firstRejects then fault else fault')
  | some fault, none => some fault
  | none, destination => destination

theorem sdk_bothAccounts (a a' : Address) (operation whose whose' : String) (w : World χ (ProofData F G)) :
    ∃ r w', Sdk.both (s.sdk c hk) (Sdk.readConfiguredAccount (s.sdk c hk).net a operation whose)
        (Sdk.readConfiguredAccount (s.sdk c hk).net a' operation whose') w = (r, w') ∧
      faultOf .ofThrown r = raceFault (c.firstRejects (w.clock + 2)) (accountFault (s.token a))
        (accountFault (s.token a')) ∧
      ∀ x, r = .ok x →
        (s.token a = some x.1.1 ∧ Sdk.confidentialState x.1.1 = some x.1.2) ∧
        (s.token a' = some x.2.1 ∧ Sdk.confidentialState x.2.1 = some x.2.2) := by
  obtain ⟨r, hread, hr⟩ := sdk_readConfiguredAccount s c hk a operation whose w
  obtain ⟨r', hread', hr'⟩ := sdk_readConfiguredAccount s c hk a' operation whose' w.tick
  rw [← hr.fault, ← hr'.fault]
  simp only [Sdk.both, bind, Effect.attempt, Effect.get, hread, hread']
  cases r with
  | ok x =>
    cases r' with
    | ok x' =>
      refine ⟨_, _, rfl, rfl, ?_⟩
      rintro y hy
      obtain rfl := Except.ok.inj hy
      exact ⟨hr.result x rfl, hr'.result x' rfl⟩
    | error e' => exact ⟨_, _, rfl, rfl, fun y hy => by cases hy⟩
  | error e =>
    cases r' with
    | ok x' => exact ⟨_, _, rfl, rfl, fun y hy => by cases hy⟩
    | error e' =>
      refine ⟨_, _, rfl, ?_, fun y hy => by cases hy⟩
      have hclient : (s.sdk c hk).firstRejects (w.tick.tick).clock = c.firstRejects (w.clock + 2) := rfl
      rw [hclient]
      cases c.firstRejects (w.clock + 2) <;> rfl

/-- What the TypeScript `transfer` checks, in order. -/
def transferFaultsSdk (zk : ZkSdk F G) (wallet : Wallet F) (destinationOwner : Address)
    (amount : UInt64) (firstRejects : Bool) : List (Option Fault) :=
  [amountFault amount,
    raceFault firstRejects (accountFault (s.account wallet.address))
      (accountFault (s.account destinationOwner)),
    (s.state destinationOwner).bind receiveFault,
    (s.state wallet.address).bind (keysFault zk wallet.keys),
    tooLargeFault amount,
    (s.state destinationOwner).bind (keyFault zk .other ·.elgamalPubkey),
    s.auditor.bind (keyFault zk .other),
    (s.state wallet.address).bind (aesFault zk .other wallet.keys),
    (s.state wallet.address).bind (balanceFault zk wallet.keys · amount)]

theorem sdk_transferAttemptChecks (hdefault : (c.zk.pubkeyFromBytes (List.replicate 32 0)).isSome)
    (wallet : Wallet F) (payer destinationOwner program : Address) (amount : UInt64) (passed : Bool)
    (w : World χ (ProofData F G)) :
    faultOf .ofThrown (Sdk.transferAttemptChecks (s.sdk c hk)
        (wallet.transferInput s payer destinationOwner amount passed) program
        (s.associatedToken wallet.address) (s.associatedToken destinationOwner)
        (w, wallet.keysInput passed)).1 =
      firstFault (transferFaultsSdk s c.zk wallet destinationOwner amount
        (c.firstRejects (w.clock + 2))).tail := by
  obtain ⟨r, w₁, hread, hfault, hresult⟩ := sdk_bothAccounts s c hk (s.associatedToken wallet.address)
    (s.associatedToken destinationOwner) "transfer" "your" "the recipient's" w
  have hboth : Effect.onFst (Sdk.both (s.sdk c hk)
      (Sdk.readConfiguredAccount (s.sdk c hk).net (s.associatedToken wallet.address) "transfer" "your")
      (Sdk.readConfiguredAccount (s.sdk c hk).net (s.associatedToken destinationOwner) "transfer"
        "the recipient's")) (w, wallet.keysInput passed) = (r, (w₁, wallet.keysInput passed)) := by
    simp only [Effect.onFst, hread]
  refine faultOf_bind ((congrArg (faultOf _ ·.1) hboth).trans hfault) fun x session hx => ?_
  obtain ⟨rfl, rfl⟩ := Prod.mk.inj (hboth.symm.trans hx)
  obtain ⟨⟨haccount, hct⟩, haccount', hct'⟩ := hresult x rfl
  have hsource : s.state wallet.address = some x.1.2 := state_of_account haccount hct
  have hdestination : s.state destinationOwner = some x.2.2 := state_of_account haccount' hct'
  rw [hsource, hdestination]
  refine faultOf_bind (sdk_assertCanReceive x.2.2 _ _ _) fun _ session hreceive => ?_
  obtain rfl : (w₁, wallet.keysInput passed) = session := congrArg Prod.snd hreceive
  have hhook : Effect.onFst ((s.sdk c hk).resolveTransferHookAccounts s.mint
      (s.associatedToken wallet.address) (s.associatedToken destinationOwner) wallet.address program)
      (w₁, wallet.keysInput passed) = (.ok [], (w₁.tick, wallet.keysInput passed)) := by
    simp only [Effect.onFst, sdk_resolveTransferHookAccounts]
  refine faultOf_bind_ok hhook ?_
  obtain ⟨session, hkeys⟩ := @sdk_sessionKeys χ F G _ wallet "transfer" passed w₁.tick
  refine faultOf_bind_ok hkeys ?_
  refine faultOf_bind (sdk_assertKeysMatchAccount c.zk wallet.keys hct _ _) fun _ session' hmatch => ?_
  obtain rfl : session = session' := congrArg Prod.snd hmatch
  have hauditor : Effect.onFst (Sdk.givenOrMintAuditorKey (s.sdk c hk) none s.mint) session =
      (.ok s.auditor, (session.1.tick, session.2)) := by
    simp only [Effect.onFst, sdk_mintAuditorKey]
  refine faultOf_bind_ok hauditor ?_
  refine faultOf_bind_pure ?_
  exact sdk_transferProofChecks hdefault rfl hct rfl rfl hct'

theorem sdk_transferTokens (wallet : Wallet F) (payer destinationOwner : Address) (amount : UInt64)
    (passed : Bool) :
    faultOf .ofThrown (Sdk.transferTokens (s.sdk c hk)
        (wallet.transferInput s payer destinationOwner amount passed) token2022ProgramAddress) =
      amountFault amount ∧
    ∀ x, Sdk.transferTokens (s.sdk c hk)
        (wallet.transferInput s payer destinationOwner amount passed) token2022ProgramAddress = .ok x →
      x = (s.associatedToken wallet.address, s.associatedToken destinationOwner) := by
  unfold Sdk.transferTokens amountFault
  simp only [Wallet.transferInput, toNat_le_zero_iff]
  by_cases h : amount = 0
  · simp only [if_pos h]
    exact ⟨rfl, fun x hx => by cases hx⟩
  · simp only [if_neg h]
    exact ⟨rfl, fun x hx => (Except.ok.inj hx).symm⟩

theorem sdk_transferChecks (hdefault : (c.zk.pubkeyFromBytes (List.replicate 32 0)).isSome)
    (wallet : Wallet F) (payer destinationOwner : Address) (amount : UInt64) (passed : Bool)
    (w : World χ (ProofData F G)) :
    faultOf .ofThrown (Sdk.transferChecks (s.sdk c hk)
        (wallet.transferInput s payer destinationOwner amount passed) (w, wallet.keysInput passed)).1 =
      firstFault (transferFaultsSdk s c.zk wallet destinationOwner amount
        (c.firstRejects (w.clock + 2))) := by
  obtain ⟨hamount, htokens⟩ := sdk_transferTokens s c hk wallet payer destinationOwner amount passed
  refine faultOf_bind hamount fun x session hx => ?_
  obtain ⟨hok, rfl⟩ := Prod.mk.inj hx
  obtain rfl := htokens x hok
  exact sdk_transferAttemptChecks s c hk hdefault wallet payer destinationOwner _ amount passed w

/-- What the TypeScript `withdraw` checks, in order; the amount is checked twice. -/
def withdrawFaultsSdk (zk : ZkSdk F G) (wallet : Wallet F) (amount : UInt64) : List (Option Fault) :=
  [amountFault amount, accountFault (s.account wallet.address),
    (s.state wallet.address).bind (keysFault zk wallet.keys), amountFault amount,
    (s.state wallet.address).bind (aesFault zk .other wallet.keys),
    (s.state wallet.address).bind (balanceFault zk wallet.keys · amount)]

theorem sdk_withdrawProofChecks {zk : ZkSdk F G} {input : Sdk.WithdrawProofInput F} {amount : UInt64}
    (hamount : input.amount = amount.toNat) {ct : ConfidentialTransferAccountState}
    (hct : Sdk.confidentialState input.tokenAccount = some ct) :
    faultOf .ofThrown (Sdk.withdrawProofChecks zk input) =
      firstFault [amountFault amount, aesFault zk .other input.keys ct,
        balanceFault zk input.keys ct amount] := by
  have hpositive : faultOf .ofThrown (Sdk.assertPositiveWithdraw amount.toNat) = amountFault amount := by
    unfold Sdk.assertPositiveWithdraw amountFault
    simp only [toNat_le_zero_iff]
    split <;> rfl
  unfold Sdk.withdrawProofChecks
  simp only [Sdk.getRequired_eq hct, hamount, Except.ok_bind]
  exact faultOf_bind_except hpositive fun _ _ => sdk_balance

theorem sdk_withdrawAttemptChecks (wallet : Wallet F) (payer program : Address) (amount : UInt64)
    (passed : Bool) (w : World χ (ProofData F G)) :
    faultOf .ofThrown (Sdk.withdrawAttemptChecks (s.sdk c hk)
        (wallet.withdrawInput s payer amount passed) program (s.associatedToken wallet.address)
        (w, wallet.keysInput passed)).1 =
      firstFault (withdrawFaultsSdk s c.zk wallet amount).tail := by
  obtain ⟨r, hread, hr⟩ := sdk_readConfiguredAccount s c hk (s.associatedToken wallet.address)
    "withdraw" "your" w
  have hfst : Effect.onFst (Sdk.readConfiguredAccount (s.sdk c hk).net (s.associatedToken wallet.address)
      "withdraw" "your") (w, wallet.keysInput passed) = (r, (w.tick, wallet.keysInput passed)) := by
    simp only [Effect.onFst, hread]
  refine faultOf_bind ((congrArg (faultOf _ ·.1) hfst).trans hr.fault) fun x session hx => ?_
  obtain ⟨rfl, rfl⟩ := Prod.mk.inj (hfst.symm.trans hx)
  obtain ⟨haccount, hct⟩ := hr.result x rfl
  have hstate : s.state wallet.address = some x.2 := state_of_account haccount hct
  rw [hstate]
  obtain ⟨session, hkeys⟩ := @sdk_sessionKeys χ F G _ wallet "withdraw" passed w.tick
  refine faultOf_bind_ok hkeys ?_
  refine faultOf_bind (sdk_assertKeysMatchAccount c.zk wallet.keys hct _ _) fun _ session' hmatch => ?_
  refine faultOf_bind_pure ?_
  exact sdk_withdrawProofChecks rfl hct

theorem sdk_withdrawChecks (wallet : Wallet F) (payer : Address) (amount : UInt64) (passed : Bool)
    (w : World χ (ProofData F G)) :
    faultOf .ofThrown (Sdk.withdrawChecks (s.sdk c hk) (wallet.withdrawInput s payer amount passed)
        (w, wallet.keysInput passed)).1 =
      firstFault (withdrawFaultsSdk s c.zk wallet amount) := by
  have hamount : faultOf .ofThrown (Sdk.checkWithdrawAmount amount.toNat) = amountFault amount := by
    unfold Sdk.checkWithdrawAmount amountFault
    simp only [toNat_le_zero_iff]
    split <;> rfl
  refine faultOf_bind hamount fun _ session hsession => ?_
  obtain rfl : (w, wallet.keysInput passed) = session := congrArg Prod.snd hsession
  exact sdk_withdrawAttemptChecks s c hk wallet payer _ amount passed w

end Sdk

/-! ## The Rust checks -/

section Rust

variable (s : OnChain) (r : Rust.Client χ π F G) (zk : ZkSdk F G)

theorem rust_checkAmount (amount : UInt64) (operation : String) (capped : Bool) :
    faultOf .ofError (Rust.checkAmount amount.toNat operation capped) =
      firstFault [amountFault amount, if capped then tooLargeFault amount else none] := by
  have hzero : amount.toNat = 0 ↔ amount = 0 := by rw [← UInt64.toNat_inj, UInt64.toNat_zero]
  have hmax : Rust.maximumDepositTransferAmount = largestAmount := rfl
  unfold Rust.checkAmount amountFault tooLargeFault
  simp only [hzero, hmax]
  by_cases h : amount = 0
  · simp only [if_pos h]
    rfl
  · cases capped with
    | false =>
      simp only [if_neg h]
      rfl
    | true =>
      by_cases hlarge : largestAmount < amount.toNat
      · simp only [if_neg h, if_pos hlarge, Bool.true_and, gt_iff_lt, decide_eq_true_eq]
        rfl
      · simp only [if_neg h, if_neg hlarge, Bool.true_and, gt_iff_lt, decide_eq_true_eq]
        rfl

/-- The mint is there; its auditor's key has to be well-formed. -/
theorem rust_readMint (operation : String) (w : World χ π) :
    ∃ info, Rust.readMint (s.rust r zk).net (s.rust r zk).accounts zk token2022ProgramAddress s.mint
        operation w = (info, w.tick) ∧
      faultOf .ofError info = s.auditor.bind (keyFault zk (.code .invalidInput)) := by
  have hdata : s.accountData s.mint = some
      { owner := token2022ProgramAddress
        unpackMint := some { decimals := s.decimals, state := s.mintState } } := if_pos rfl
  have hfetch : Rust.fetch (s.rust r zk).net (s.rust r zk).accounts s.mint operation w =
      (.ok (s.accountData s.mint), w.tick) := rfl
  refine ⟨_, by simp only [Rust.readMint, bind, hfetch]; rfl, ?_⟩
  simp only [hdata, Rust.mintInfoOf, ne_eq, not_true_eq_false, if_false, s.confidential]
  cases s.auditor with
  | none => rfl
  | some key =>
    simp only [Rust.elGamalPubkey, Option.bind_some, keyFault]
    cases zk.pubkeyFromBytes (zk.addressToBytes key) <;> rfl

theorem rust_readConfiguredAccount (owner : Address) (operation whose : String) (w : World χ π) :
    ∃ x, Rust.readConfiguredAccount (s.rust r zk).net (s.rust r zk).accounts (s.associatedToken owner)
        s.mint operation whose w = (x, w.tick) ∧
      ReadAccount .ofError (s.account owner) x := by
  have hfetch : Rust.fetch (s.rust r zk).net (s.rust r zk).accounts (s.associatedToken owner) operation w =
      (.ok (s.accountData (s.associatedToken owner)), w.tick) := rfl
  have hdata : s.accountData (s.associatedToken owner) = (s.account owner).map fun t =>
      { owner := token2022ProgramAddress, unpackToken := some { mint := s.mint, state := t } } :=
    if_neg (s.associatedToken_ne owner)
  have htoken : Rust.tokenAccountOf (s.associatedToken owner) s.mint operation
      (s.accountData (s.associatedToken owner)) = .ok (s.account owner) := by
    rw [hdata]
    cases s.account owner with
    | none => rfl
    | some account => simp [Rust.tokenAccountOf]
  refine ⟨Rust.configured (s.associatedToken owner) operation whose (s.account owner), ?_, ?_, ?_⟩
  · simp only [Rust.readConfiguredAccount, Rust.readTokenAccount, bind, hfetch, Effect.ofExcept, htoken]
  · cases s.account owner with
    | none => rfl
    | some account =>
      simp only [Rust.configured, accountFault]
      cases Sdk.confidentialState account <;> rfl
  · intro x hx
    cases haccount : s.account owner with
    | none =>
      rw [haccount] at hx
      cases hx
    | some account =>
      cases hct : Sdk.confidentialState account with
      | none =>
        simp only [haccount, Rust.configured, hct] at hx
        cases hx
      | some ct =>
        simp only [haccount, Rust.configured, hct] at hx
        obtain rfl := Except.ok.inj hx
        exact ⟨rfl, hct⟩

theorem rust_assertCanReceive (ct : ConfidentialTransferAccountState) (address : Address)
    (operation whose : String) :
    faultOf .ofError (Rust.assertCanReceive ct address operation whose) = receiveFault ct := by
  unfold Rust.assertCanReceive receiveFault
  cases ct.approved with
  | false => rfl
  | true =>
    cases ct.allowConfidentialCredits with
    | false => rfl
    | true =>
      simp only [Bool.not_true, Bool.false_eq_true, if_false, ge_iff_le]
      split <;> rfl

theorem rust_assertKeysMatch (keys : ConfidentialKeypairs F) (ct : ConfidentialTransferAccountState)
    (address : Address) (operation : String) :
    faultOf .ofError (Rust.assertKeysMatch zk keys ct address operation) = keysFault zk keys ct := by
  unfold Rust.assertKeysMatch keysFault
  split <;> rfl

theorem rust_deriveKeys (wallet : Wallet F) (operation : String) (w : World χ π) :
    Rust.Client.deriveKeys wallet.signer operation w = (.ok wallet.keys, w) := rfl

/-- The balance is decrypted, and then compared with the amount. -/
theorem rust_balance {α : Type} (keys : ConfidentialKeypairs F) (ct : ConfidentialTransferAccountState)
    (amount : UInt64) (account operation : String) {rest : Effect (World χ π) Rust.Error α}
    {checks : List (Option Fault)} {w : World χ π} (hrest : faultOf .ofError (rest w).1 = firstFault checks) :
    faultOf .ofError ((Effect.ofExcept (Rust.availableBalance zk ct keys.aesKey account operation) >>=
        fun available => if amount.toNat > available then
          Effect.throw (Rust.insufficientFunds operation account available amount.toNat) else rest) w).1 =
      firstFault (aesFault zk (.code .decryptionFailed) keys ct :: balanceFault zk keys ct amount ::
        checks) := by
  unfold Rust.availableBalance aesFault balanceFault
  cases ZkSdk.aeCiphertextFromBytes ct.decryptableAvailableBalance with
  | none => rfl
  | some ciphertext =>
    simp only [bind, Effect.ofExcept]
    cases zk.aeDecrypt keys.aesKey ciphertext with
    | error e => rfl
    | ok balance =>
      simp only [Except.mapError, gt_iff_lt, firstFault_none]
      by_cases hlt : balance < amount.toNat
      · simp only [if_pos hlt]
        rfl
      · simp only [if_neg hlt, firstFault_none]
        exact hrest

/-! ## The Rust operations -/

/-- What the crate's `deposit` checks, in order. -/
def depositFaultsRust (wallet : Wallet F) (amount : UInt64) : List (Option Fault) :=
  [amountFault amount, tooLargeFault amount, s.auditor.bind (keyFault zk (.code .invalidInput)),
    accountFault (s.account wallet.address), (s.state wallet.address).bind receiveFault,
    (s.account wallet.address).bind (publicFault · amount)]

theorem rust_depositChecks (wallet : Wallet F) (amount : UInt64) (w : World χ π) :
    faultOf .ofError ((s.rust r zk).depositChecks wallet.signer s.mint amount.toNat w).1 =
      firstFault (depositFaultsRust s zk wallet amount) := by
  refine faultOf_bind_append [amountFault amount, tooLargeFault amount]
    (rust_checkAmount amount "deposit" true) fun _ w₁ _ => ?_
  obtain ⟨info, hmint, hinfo⟩ := rust_readMint s r zk "deposit" w₁
  refine faultOf_bind ((congrArg (faultOf _ ·.1) hmint).trans hinfo) fun mintInfo w₂ _ => ?_
  obtain ⟨x, hread, hx⟩ := rust_readConfiguredAccount s r zk wallet.address "deposit" "your" w₂
  refine faultOf_bind ((congrArg (faultOf _ ·.1) hread).trans hx.fault) fun y w₃ hy => ?_
  obtain rfl : x = .ok y := congrArg Prod.fst (hread.symm.trans hy)
  obtain ⟨haccount, hct⟩ := hx.result y rfl
  rw [haccount, state_of_account haccount hct]
  refine faultOf_bind (rust_assertCanReceive y.2 _ _ _) fun _ w₄ _ => ?_
  simp only [Option.bind_some, publicFault, firstFault_singleton]
  split <;> rfl

/-- What the crate's `transfer` checks, in order. -/
def transferFaultsRust (wallet : Wallet F) (destinationOwner : Address) (amount : UInt64) :
    List (Option Fault) :=
  [amountFault amount, tooLargeFault amount, s.auditor.bind (keyFault zk (.code .invalidInput)),
    accountFault (s.account wallet.address), (s.state wallet.address).bind (keysFault zk wallet.keys),
    accountFault (s.account destinationOwner), (s.state destinationOwner).bind receiveFault,
    (s.state wallet.address).bind (aesFault zk (.code .decryptionFailed) wallet.keys),
    (s.state wallet.address).bind (balanceFault zk wallet.keys · amount),
    (s.state destinationOwner).bind (keyFault zk (.code .invalidInput) ·.elgamalPubkey)]

theorem rust_transferChecks (wallet : Wallet F) (destinationOwner : Address) (amount : UInt64)
    (w : World χ π) :
    faultOf .ofError ((s.rust r zk).transferOperationChecks wallet.signer s.mint destinationOwner
        amount.toNat w).1 =
      firstFault (transferFaultsRust s zk wallet destinationOwner amount) := by
  refine faultOf_bind_append [amountFault amount, tooLargeFault amount]
    (rust_checkAmount amount "transfer" true) fun _ w₁ _ => ?_
  obtain ⟨info, hmint, hinfo⟩ := rust_readMint s r zk "transfer" w₁
  refine faultOf_bind ((congrArg (faultOf _ ·.1) hmint).trans hinfo) fun mintInfo w₂ _ => ?_
  refine faultOf_bind_ok (rust_deriveKeys wallet "transfer" w₂) ?_
  refine faultOf_bind_pure ?_
  obtain ⟨x, hread, hx⟩ := rust_readConfiguredAccount s r zk wallet.address "transfer" "your" w₂
  refine faultOf_bind ((congrArg (faultOf _ ·.1) hread).trans hx.fault) fun y w₃ hy => ?_
  obtain rfl : x = .ok y := congrArg Prod.fst (hread.symm.trans hy)
  obtain ⟨haccount, hct⟩ := hx.result y rfl
  rw [state_of_account haccount hct]
  refine faultOf_bind (rust_assertKeysMatch zk wallet.keys y.2 _ _) fun _ w₄ _ => ?_
  obtain ⟨x', hread', hx'⟩ :=
    rust_readConfiguredAccount s r zk destinationOwner "transfer" "the recipient's" w₄
  refine faultOf_bind ((congrArg (faultOf _ ·.1) hread').trans hx'.fault) fun y' w₅ hy' => ?_
  obtain rfl : x' = .ok y' := congrArg Prod.fst (hread'.symm.trans hy')
  obtain ⟨haccount', hct'⟩ := hx'.result y' rfl
  rw [state_of_account haccount' hct']
  refine faultOf_bind (rust_assertCanReceive y'.2 _ _ _) fun _ w₆ _ => ?_
  refine rust_balance zk wallet.keys y.2 amount _ _ ?_
  have hkey : Rust.elGamalPubkey (s.rust r zk).zk y'.2.elgamalPubkey =
      zk.pubkeyFromBytes (zk.addressToBytes y'.2.elgamalPubkey) := rfl
  simp only [Option.bind_some, keyFault, firstFault_singleton, hkey]
  cases zk.pubkeyFromBytes (zk.addressToBytes y'.2.elgamalPubkey) <;> rfl

/-- What the crate's `withdraw` checks, in order. -/
def withdrawFaultsRust (wallet : Wallet F) (amount : UInt64) : List (Option Fault) :=
  [amountFault amount, s.auditor.bind (keyFault zk (.code .invalidInput)),
    accountFault (s.account wallet.address), (s.state wallet.address).bind (keysFault zk wallet.keys),
    (s.state wallet.address).bind (aesFault zk (.code .decryptionFailed) wallet.keys),
    (s.state wallet.address).bind (balanceFault zk wallet.keys · amount)]

theorem rust_withdrawChecks (wallet : Wallet F) (amount : UInt64) (w : World χ π) :
    faultOf .ofError
        ((s.rust r zk).withdrawOperationChecks wallet.signer s.mint amount.toNat w).1 =
      firstFault (withdrawFaultsRust s zk wallet amount) := by
  have hamount : faultOf .ofError (Rust.checkAmount amount.toNat "withdraw" false) = amountFault amount := by
    rw [rust_checkAmount]
    cases amountFault amount <;> rfl
  refine faultOf_bind hamount fun _ w₁ _ => ?_
  obtain ⟨info, hmint, hinfo⟩ := rust_readMint s r zk "withdraw" w₁
  refine faultOf_bind ((congrArg (faultOf _ ·.1) hmint).trans hinfo) fun mintInfo w₂ _ => ?_
  refine faultOf_bind_ok (rust_deriveKeys wallet "withdraw" w₂) ?_
  refine faultOf_bind_pure ?_
  obtain ⟨x, hread, hx⟩ := rust_readConfiguredAccount s r zk wallet.address "withdraw" "your" w₂
  refine faultOf_bind ((congrArg (faultOf _ ·.1) hread).trans hx.fault) fun y w₃ hy => ?_
  obtain rfl : x = .ok y := congrArg Prod.fst (hread.symm.trans hy)
  obtain ⟨haccount, hct⟩ := hx.result y rfl
  rw [state_of_account haccount hct]
  refine faultOf_bind (rust_assertKeysMatch zk wallet.keys y.2 _ _) fun _ w₄ _ => ?_
  exact rust_balance zk wallet.keys y.2 amount _ _ rfl

end Rust

end Compared
