-- SUMMARY: An account is configured once, whichever SDKs try, and can then be used with both.
import ConfidentialTransfers.Compared.Configure
import ConfidentialTransfers.Lib.Steps

/-!
# Configured once

Of all the transactions that calls of both SDKs have arrive, at most one takes
effect. Whatever call is in flight, its transactions set the wallet's account up
with the wallet's key; once the account has a key they are refused.
-/

open Solana

namespace Compared

variable {χ π F G : Type} [CommRing F] [AddCommGroup G] [Module F G]

section Once

variable (s : OnChain) (k : Clients χ π F G) (others : Sdk.TokenLedger → Sdk.TokenLedger → Prop)
  (wallet : Wallet F)

/-! ## What the calls send -/

/-- A transaction that sets the wallet's account up with the wallet's key and a balance of zero. -/
structure SetsUp (is : List (Sdk.SetupInstruction π)) (target : Sdk.SetupTarget) (missing : Bool) (proof : π)
    (before after : List (Sdk.SetupInstruction π)) : Prop where
  instructions : is = before ++ (target.instructions missing proof ++ after)
  token : target.token = s.associatedToken wallet.address
  proved : k.programs.verify proof = some (k.sdk.zk.elGamalPubkeyAddress wallet.keys)
  zero : ∃ nonce, target.decryptableZeroBalance = k.sdk.zk.aeEncrypt wallet.keys.aesKey nonce 0

/-- Every call in flight has read the account, at some time. -/
def AllRead (state : Race π F) : Prop :=
  ∀ call ∈ state.inFlight, ∃ ledger, Reads s k wallet ledger call

variable {s k others wallet} {ledger ledger' : Sdk.TokenLedger} {is : List (Sdk.SetupInstruction π)}
  {call : ConfiguringCall π F} {state state' : Race π F} {event : RaceEvent π F}

/-- What a call sends, once it has read the account. -/
theorem setsUp_of_reads (hreads : Reads s k wallet ledger call) (hsends : Sends s k wallet call is) :
    ∃ target missing proof before after, SetsUp s k wallet is target missing proof before after := by
  cases hreads with
  | sdk h =>
    cases hsends with
    | @sdk input n is prices his hprices =>
      obtain ⟨proof, maximum, hproof, -, rfl⟩ := Sdk.configureInstructions_eq_ok his
      exact ⟨_, true, proof, [], prices, ⟨rfl, rfl, k.verify_sdk hproof, _, rfl⟩⟩
  | rust h =>
    cases hsends with
    | @rust is prices hprices =>
      obtain ⟨n, his⟩ := rust_buildConfigure_eq_ok s k wallet ledger h
      obtain ⟨proof, hproof, rfl⟩ := Rust.Client.configureInstructions_eq_ok his
      refine ⟨((s.holding ledger).rust k.rust k.sdk.zk).configureTarget wallet.address s.mint
        (s.associatedToken wallet.address) wallet.keys n, (ledger (s.associatedToken wallet.address)).isNone, proof,
        prices, [], ?_, ?_, k.verify_rust hproof, n, ?_⟩
      · rw [List.append_nil]
      · rfl
      · rfl

/-! ## One arrival -/

/-- The account is configured with the wallet's key, and the wallet's AES key decrypts its balance to
    zero. -/
structure NewlyConfigured (zk : ZkSdk F G) (keys : ConfidentialKeypairs F)
    (ct : ConfidentialTransferAccountState) : Prop where
  elgamalPubkey : ct.elgamalPubkey = zk.elGamalPubkeyAddress keys
  decryptable : Sdk.AesEncodes zk keys ct.decryptableAvailableBalance 0

/-- A transaction that takes effect finds an account that is not configured, and configures it with the
    wallet's keys. -/
theorem SetsUp.execute {target : Sdk.SetupTarget} {missing : Bool} {proof : π}
    {before after : List (Sdk.SetupInstruction π)}
    (h : SetsUp s k wallet is target missing proof before after) (hprograms : k.programs.Documented)
    (hexecute : k.programs.execute is ledger = some ledger') :
    Sdk.keyOf (ledger (s.associatedToken wallet.address)) = none ∧
      ∃ token ct, ledger' (s.associatedToken wallet.address) = some token ∧
        Sdk.confidentialState token = some ct ∧ NewlyConfigured k.sdk.zk wallet.keys ct := by
  obtain ⟨rfl, htoken, hproved, nonce, hzero⟩ := h
  obtain ⟨hnew, hverified, hkey, hdecryptable⟩ := Sdk.SetupTarget.configured_of_execute hprograms hexecute
  rw [htoken] at hnew hkey hdecryptable
  rw [hproved] at hkey
  refine ⟨hnew, ?_⟩
  obtain ⟨ct, hct, helgamal⟩ := Option.map_eq_some_iff.mp hkey
  obtain ⟨token, htoken', hstate⟩ := Option.bind_eq_some_iff.mp hct
  refine ⟨token, ct, htoken', hstate, helgamal, ?_⟩
  rw [hdecryptable ct hct, hzero]
  exact .encrypt nonce (by decide)

/-! ## Steps -/

/-- The key the wallet's account is configured with. -/
def keyIn (s : OnChain) (wallet : Wallet F) (state : Race π F) : Option Address :=
  Sdk.keyOf (state.ledger (s.associatedToken wallet.address))

/-- What a step does to the account's key. -/
def KeyStep (s : OnChain) (k : Clients χ π F G) (wallet : Wallet F) (state : Race π F)
    (event : RaceEvent π F) (state' : Race π F) : Prop :=
  match event with
  | .arrive _ true => keyIn s wallet state = none ∧
      keyIn s wallet state' = some (k.sdk.zk.elGamalPubkeyAddress wallet.keys)
  | .arrive _ false => keyIn s wallet state' = keyIn s wallet state
  | .read _ => keyIn s wallet state' = keyIn s wallet state
  | .other => ∀ key, keyIn s wallet state = some key → keyIn s wallet state' = some key

/-- An arrival takes effect on an account without a key only, and gives it the wallet's. -/
theorem AllRead.arrive (hs : AllRead s k wallet state) (hprograms : k.programs.Documented)
    (hcall : call ∈ state.inFlight) (hsends : Sends s k wallet call is) :
    KeyStep s k wallet state (.arrive call (k.programs.execute is state.ledger).isSome)
      { state with ledger := (k.programs.execute is state.ledger).getD state.ledger } := by
  obtain ⟨ledger, hreads⟩ := hs call hcall
  obtain ⟨target, missing, proof, before, after, hsetsUp⟩ := setsUp_of_reads hreads hsends
  cases hexecute : k.programs.execute is state.ledger with
  | none => rfl
  | some ledger' =>
    obtain ⟨hnew, token, ct, htoken, hct, hnewly⟩ := hsetsUp.execute hprograms hexecute
    refine ⟨hnew, ?_⟩
    simp [keyIn, Sdk.keyOf, htoken, hct, hnewly.elgamalPubkey]

/-- A step keeps the invariant, and only an arrival that takes effect gives the account the wallet's key. -/
theorem raceStep_key (hs : AllRead s k wallet state) (hprograms : k.programs.Documented)
    (hothers : LeaveKey s others wallet) (h : RaceStep s k others wallet state event state') :
    AllRead s k wallet state' ∧ KeyStep s k wallet state event state' := by
  cases h with
  | read hreads => exact ⟨List.forall_mem_cons.mpr ⟨⟨_, hreads⟩, hs⟩, rfl⟩
  | arrive hcall hsends => exact ⟨hs, hs.arrive hprograms hcall hsends⟩
  | other h => exact ⟨hs, fun key hkey => hothers _ _ key h hkey⟩

/-! ## Runs -/

variable {events : List (RaceEvent π F)}

theorem allRead_of_run (hs : AllRead s k wallet state)
    (hrun : Steps (RaceStep s k others wallet) state events state') : AllRead s k wallet state' := by
  induction hrun with
  | nil => exact hs
  | cons head _ ih =>
    apply ih
    cases head with
    | read hreads => exact List.forall_mem_cons.mpr ⟨⟨_, hreads⟩, hs⟩
    | arrive hcall hsends => exact hs
    | other h => exact hs

/-- Once the account is configured every transaction fails, and the key stays. -/
theorem arrivals_configured {key : Address} (hs : AllRead s k wallet state) (hprograms : k.programs.Documented)
    (hothers : LeaveKey s others wallet) (hkey : keyIn s wallet state = some key)
    (hrun : Steps (RaceStep s k others wallet) state events state') :
    (∃ n, arrivals events = List.replicate n false) ∧ keyIn s wallet state' = some key := by
  induction hrun with
  | nil => exact ⟨⟨0, rfl⟩, hkey⟩
  | @cons state₀ state₁ state₂ event events head tail ih =>
    obtain ⟨hs₁, hstep⟩ := raceStep_key hs hprograms hothers head
    cases event with
    | read call => exact ih hs₁ (hstep.trans hkey)
    | other => exact ih hs₁ (hstep key hkey)
    | arrive call succeeded =>
      cases succeeded with
      | true =>
        obtain ⟨hnone, -⟩ := hstep
        rw [hkey] at hnone
        cases hnone
      | false =>
        obtain ⟨⟨n, hn⟩, hkey₂⟩ := ih hs₁ (hstep.trans hkey)
        have hall : arrivals (.arrive call false :: events) = false :: arrivals events := rfl
        exact ⟨⟨n + 1, by rw [hall, hn]; rfl⟩, hkey₂⟩

/-- At most one transaction takes effect; it gives the account the wallet's key, which stays. -/
theorem arrivals_at_most_one (hs : AllRead s k wallet state) (hprograms : k.programs.Documented)
    (hothers : LeaveKey s others wallet) (hrun : Steps (RaceStep s k others wallet) state events state') :
    (∃ n, arrivals events = List.replicate n false) ∨
      ((∃ m n, arrivals events = List.replicate m false ++ true :: List.replicate n false) ∧
        keyIn s wallet state' = some (k.sdk.zk.elGamalPubkeyAddress wallet.keys)) := by
  induction hrun with
  | nil => exact .inl ⟨0, rfl⟩
  | @cons state₀ state₁ state₂ event events head tail ih =>
    obtain ⟨hs₁, hstep⟩ := raceStep_key hs hprograms hothers head
    cases event with
    | read call => exact ih hs₁
    | other => exact ih hs₁
    | arrive call succeeded =>
      cases succeeded with
      | true =>
        obtain ⟨⟨n, hn⟩, hkey⟩ := arrivals_configured hs₁ hprograms hothers hstep.2 tail
        have hall : arrivals (.arrive call true :: events) = true :: arrivals events := rfl
        exact .inr ⟨⟨0, n, by rw [hall, hn]; rfl⟩, hkey⟩
      | false =>
        have hall : arrivals (.arrive call false :: events) = false :: arrivals events := rfl
        rcases ih hs₁ with ⟨n, hn⟩ | ⟨⟨m, n, hmn⟩, hkey⟩
        · exact .inl ⟨n + 1, by rw [hall, hn]; rfl⟩
        · exact .inr ⟨⟨m + 1, n, by rw [hall, hmn]; rfl⟩, hkey⟩

/-! ## Whole calls -/

/-- What happens to the token accounts from `w` to `w'` is a race with this call in flight. -/
def Races {ρ : Type} (s : OnChain) (k : Clients χ π F G)
    (others : Sdk.TokenLedger → Sdk.TokenLedger → Prop) (wallet : Wallet F) (view : χ → Sdk.TokenLedger)
    (call : ConfiguringCall π F) (w w' : World χ ρ) : Prop :=
  ∃ events, Steps (RaceStep s k others wallet) { ledger := view w.chain, inFlight := [call] } events
    { ledger := view w'.chain, inFlight := [call] }

instance {ρ : Type} (view : χ → Sdk.TokenLedger) (call : ConfiguringCall π F) :
    IsPreorder (World χ ρ) (Races s k others wallet view call) where
  refl _ := ⟨[], .nil _⟩
  trans _ _ _ h h' := by
    obtain ⟨events, hrun⟩ := h
    obtain ⟨events', hrun'⟩ := h'
    exact ⟨events ++ events', hrun.append hrun'⟩

theorem races_of_chain_eq {ρ : Type} {view : χ → Sdk.TokenLedger} {w w' : World χ ρ}
    (h : w'.chain = w.chain) : Races s k others wallet view call w w' :=
  ⟨[], by rw [h]; exact .nil _⟩

/-- A call of the SDK, with all its retries, is a race of its transactions, if sending them is. -/
theorem configureAccount_races (view : χ → Sdk.TokenLedger) {options : Sdk.SendOptions} {payer : Address}
    {maximum : Option Int} {passed : Bool}
    (hsend : ∀ ctx is, Sends s k wallet (.sdk (wallet.configureInput s options payer maximum passed)) is →
      (k.surroundings.send ctx is).Within (Races s k others wallet view
        (.sdk (wallet.configureInput s options payer maximum passed))))
    (fuel : Nat) (w : World χ (ProofData F G)) :
    ∃ events inFlight, Steps (RaceStep s k others wallet) { ledger := view w.chain } events
      { ledger := view (Sdk.configureAccount ((s.holding (view w.chain)).sdk k.sdk k.hooks) k.surroundings
          (wallet.configureInput s options payer maximum passed) fuel w).state.chain
        inFlight } := by
  have hsilent := Sdk.readOnly_configureKeys (c := (s.holding (view w.chain)).sdk k.sdk k.hooks)
    (wallet.configureInput s options payer maximum passed) (s.associatedToken wallet.address) w
  rcases hkeys : Sdk.configureKeys ((s.holding (view w.chain)).sdk k.sdk k.hooks)
    (wallet.configureInput s options payer maximum passed) (s.associatedToken wallet.address) w with ⟨r, w'⟩
  cases r with
  | error e =>
    refine ⟨[], [], ?_⟩
    rw [Sdk.configureAccount_of_error rfl rfl hkeys, (hsilent.run hkeys).chain]
    exact .nil _
  | ok keys =>
    obtain rfl := sdk_configureKeys_eq_ok s k wallet (view w.chain) hkeys
    have hraces : Races s k others wallet view (.sdk (wallet.configureInput s options payer maximum passed)) w
        (Sdk.configureAccount ((s.holding (view w.chain)).sdk k.sdk k.hooks) k.surroundings
          (wallet.configureInput s options payer maximum passed) fuel w).state := by
      refine Sdk.configureAccount_within (fun w₁ w₂ hread => races_of_chain_eq hread.chain) rfl rfl w
        (fun keys n is ctx hkeys' his => ?_) fuel
      have hkeys'' := congrArg Prod.fst hkeys
      obtain rfl : wallet.keys = keys := Except.ok.inj (hkeys''.symm.trans hkeys')
      have hsends : Sends s k wallet _ (is ++ []) := .sdk his (by simp)
      rw [List.append_nil] at hsends
      exact hsend ctx is hsends
    obtain ⟨events, hrun⟩ := hraces
    exact ⟨_, _, .cons (.read (.sdk ⟨_, congrArg Prod.fst hkeys⟩)) hrun⟩

/-! ## Using the account -/

/-- Neither SDK configures the account again. -/
structure Refused (s : OnChain) (k : Clients χ π F G) (wallet : Wallet F) (ledger : Sdk.TokenLedger) :
    Prop where
  sdk : ∀ options payer maximum passed fuel w, ∃ e,
    (Sdk.configureAccount ((s.holding ledger).sdk k.sdk k.hooks) k.surroundings
      (wallet.configureInput s options payer maximum passed) fuel w).outcome = some (.error e) ∧
      Fault.ofThrown e = .code .accountAlreadyConfigured
  /-- The crate reads the mint first. -/
  rust : ∀ send w, faultOf .ofError (((s.holding ledger).rust k.rust k.sdk.zk).configureAccount send
      wallet.signer s.mint w).1 =
    firstFault [s.auditor.bind (keyFault k.sdk.zk (.code .invalidInput)),
      some (.code .accountAlreadyConfigured)]

theorem refused_of_key {key : Address} (hkey : Sdk.keyOf (ledger (s.associatedToken wallet.address)) = some key) :
    Refused s k wallet ledger where
  sdk options payer maximum passed fuel w := by
    have hfault := sdk_configureKeys s k wallet ledger options payer maximum passed w
    have hconfigured : configuredFault (ledger (s.associatedToken wallet.address)) =
        some (.code .accountAlreadyConfigured) := by simp [configuredFault, hkey]
    rw [hconfigured] at hfault
    rcases hrun : Sdk.configureKeys ((s.holding ledger).sdk k.sdk k.hooks)
      (wallet.configureInput s options payer maximum passed) (s.associatedToken wallet.address) w with ⟨r, w'⟩
    rw [hrun] at hfault
    cases r with
    | ok keys => cases hfault
    | error e =>
      refine ⟨e, ?_, Option.some.inj hfault⟩
      exact congrArg Retry.Run.outcome (Sdk.configureAccount_of_error rfl rfl hrun)
  rust send w := by
    have hfault := rust_buildConfigure_configured s k wallet ledger w (by simp [hkey])
    rcases hrun : ((s.holding ledger).rust k.rust k.sdk.zk).buildConfigure wallet.signer s.mint w with ⟨r, w'⟩
    rw [hrun] at hfault
    cases r with
    | ok is =>
      cases hauditor : s.auditor.bind (keyFault k.sdk.zk (.code .invalidInput)) <;>
        simp [hauditor, faultOf] at hfault
    | error e =>
      have hcall : ((s.holding ledger).rust k.rust k.sdk.zk).configureAccount send wallet.signer s.mint w =
        (.error e, w') := Effect.run_bind_of_error hrun
      rw [hcall]
      exact hfault

/-- However calls of both SDKs, their retries and the activity of others interleave: of all the
    transactions that arrive at most one takes effect. It configures the account with the wallet's keys,
    and these stay. From an account that is configured, by whomever, both SDKs refuse. -/
theorem configured_once (hprograms : k.programs.Documented) (hothers : LeaveKey s others wallet)
    (hrun : Steps (RaceStep s k others wallet) { ledger } events state) :
    ((∃ n, arrivals events = List.replicate n false) ∨
      ((∃ m n, arrivals events = List.replicate m false ++ true :: List.replicate n false) ∧
        keyIn s wallet state = some (k.sdk.zk.elGamalPubkeyAddress wallet.keys))) ∧
    ((keyIn s wallet state).isSome → Refused s k wallet state.ledger) := by
  have hs : AllRead s k wallet ({ ledger } : Race π F) := by simp [AllRead]
  refine ⟨arrivals_at_most_one hs hprograms hothers hrun, fun hkey => ?_⟩
  obtain ⟨key, hkey⟩ := Option.isSome_iff_exists.mp hkey
  exact refused_of_key hkey

/-- The account has been configured, and both SDKs work with it. -/
structure Usable (s : OnChain) (k : Clients χ π F G) (wallet : Wallet F) (ledger : Sdk.TokenLedger) :
    Prop where
  state : ∃ ct, (s.holding ledger).state wallet.address = some ct ∧ NewlyConfigured k.sdk.zk wallet.keys ct
  sdk : ∀ passed w, (Sdk.decryptBalance ((s.holding ledger).sdk k.sdk k.hooks)
    (wallet.decryptBalanceInput s passed) w).1 = .ok 0
  rust : ∀ w, (((s.holding ledger).rust k.rust k.sdk.zk).decryptBalance wallet.signer s.mint w).1 = .ok 0
  refused : Refused s k wallet ledger

theorem usable_of_newlyConfigured {token : Token} {ct : ConfidentialTransferAccountState}
    (htoken : ledger (s.associatedToken wallet.address) = some token)
    (hct : Sdk.confidentialState token = some ct)
    (hnewly : NewlyConfigured k.sdk.zk wallet.keys ct) : Usable s k wallet ledger := by
  have haccount : (s.holding ledger).account wallet.address = some token := htoken
  have hbalance : readBalance k.sdk.zk wallet.keys ((s.holding ledger).account wallet.address) = .ok 0 := by
    rw [haccount, readBalance_of_state hct]
    exact readState_of_encodes hnewly.elgamalPubkey hnewly.decryptable
  have hkey : Sdk.keyOf (ledger (s.associatedToken wallet.address)) =
      some (k.sdk.zk.elGamalPubkeyAddress wallet.keys) := by
    simp [Sdk.keyOf, htoken, hct, hnewly.elgamalPubkey]
  exact
    { state := ⟨ct, state_of_account haccount hct, hnewly⟩
      sdk := fun passed w => Except.mapError_eq_ok_iff.mp
        ((sdk_decryptBalance (s.holding ledger) wallet k.sdk k.hooks passed w).trans hbalance)
      rust := fun w => Except.mapError_eq_ok_iff.mp
        ((rust_decryptBalance (s.holding ledger) wallet k.rust k.sdk.zk w).trans hbalance)
      refused := refused_of_key hkey }

/-- When a transaction of either SDK has taken effect, the account is configured as both expect it: both
    read a balance of zero. -/
theorem configured_usable (hprograms : k.programs.Documented)
    (hrun : Steps (RaceStep s k others wallet) { ledger } events state)
    (hstep : RaceStep s k others wallet state (.arrive call true) state') :
    Usable s k wallet state'.ledger := by
  have hstart : AllRead s k wallet ({ ledger } : Race π F) := by simp [AllRead]
  have hs : AllRead s k wallet state := allRead_of_run hstart hrun
  generalize hevent : RaceEvent.arrive call true = event at hstep
  cases hstep with
  | read => cases hevent
  | other => cases hevent
  | @arrive call' is hcall hsends =>
    obtain ⟨ledger₀, hreads⟩ := hs call' hcall
    obtain ⟨target, missing, proof, before, after, hsetsUp⟩ := setsUp_of_reads hreads hsends
    have hsucceeded := (RaceEvent.arrive.inj hevent).2
    obtain ⟨ledger', hexecute⟩ := Option.isSome_iff_exists.mp hsucceeded.symm
    obtain ⟨-, token, ct, htoken, hct, hnewly⟩ := hsetsUp.execute hprograms hexecute
    simp only [hexecute, Option.getD_some]
    exact usable_of_newlyConfigured htoken hct hnewly

end Once

/-! ## One call of each SDK -/

namespace TwoCalls

open Unapproved

/-! ### Programs on the accounts of the example -/

/-- The account with its confidential-transfer extension. A proof is the key it is about. -/
def configure (account : Token) (args : Sdk.ConfigureArgs) (key : Address) : Token :=
  { account with
    extensions := some (.confidentialTransferAccount
      { Sdk.FullCounter.account with
        elgamalPubkey := key
        decryptableAvailableBalance := args.decryptableZeroBalance
        maximumPendingBalanceCreditCounter := args.maximumPendingBalanceCreditCounter } ::
      account.extensions.getD []) }

def emptyAccount : Token := { amount := 0, extensions := none }

/-- One instruction, between those before and after it. -/
def step (before after : List (Sdk.SetupInstruction Address)) (ledger : Sdk.TokenLedger) :
    Sdk.SetupInstruction Address → Option Sdk.TokenLedger
  | .createAssociatedTokenIdempotent _ ata _ _ _ =>
    some (Function.update ledger ata (some ((ledger ata).getD emptyAccount)))
  | .reallocate _ token _ _ _ => if (ledger token).isSome then some ledger else none
  | .configureConfidentialTransferAccount args =>
    match ledger args.token, Sdk.relative before after args.proofInstructionOffset with
    | some account, some (.verifyPubkeyValidity key) =>
      if (Sdk.keyOf (some account)).isSome then none
      else some (Function.update ledger args.token (some (configure account args key)))
    | _, _ => none
  | .verifyPubkeyValidity _ => some ledger
  | .setComputeUnitPrice _ => some ledger

def run : (before after : List (Sdk.SetupInstruction Address)) → Sdk.TokenLedger → Option Sdk.TokenLedger
  | _, [], ledger => some ledger
  | before, ix :: after, ledger => (step before after ledger ix).bind (run (ix :: before) after)

def programs : Sdk.SetupPrograms Address where
  execute is ledger := run [] is ledger
  verify := some

theorem step_configure_none {before after : List (Sdk.SetupInstruction Address)} {ledger : Sdk.TokenLedger}
    {args : Sdk.ConfigureArgs} (hkey : (Sdk.keyOf (ledger args.token)).isSome) :
    step before after ledger (.configureConfidentialTransferAccount args) = none := by
  simp only [step]
  split
  · rename_i account key haccount _
    rw [haccount] at hkey
    exact if_pos hkey
  · rfl

theorem step_configure_some {before after : List (Sdk.SetupInstruction Address)}
    {ledger ledger' : Sdk.TokenLedger} {args : Sdk.ConfigureArgs}
    (h : step before after ledger (.configureConfidentialTransferAccount args) = some ledger') :
    ∃ account key, Sdk.relative before after args.proofInstructionOffset = some (.verifyPubkeyValidity key) ∧
      ledger' = Function.update ledger args.token (some (configure account args key)) := by
  simp only [step] at h
  split at h
  · rename_i account key _ hproof
    split at h
    · cases h
    · exact ⟨account, key, hproof, (Option.some.inj h).symm⟩
  · cases h

/-- An account that is configured stays as it is. -/
theorem step_keeps {before after : List (Sdk.SetupInstruction Address)} {ledger ledger' : Sdk.TokenLedger}
    {a : Address} (hkey : (Sdk.keyOf (ledger a)).isSome) (ix : Sdk.SetupInstruction Address)
    (h : step before after ledger ix = some ledger') : ledger' a = ledger a := by
  cases ix with
  | createAssociatedTokenIdempotent payer ata owner mint program =>
    obtain rfl := Option.some.inj h
    by_cases hata : a = ata
    · subst hata
      cases haccount : ledger a with
      | none =>
        rw [haccount] at hkey
        cases hkey
      | some account =>
        rw [Function.update_self]
        rfl
    · exact Function.update_of_ne hata _ _
  | reallocate program token payer owner types =>
    simp only [step] at h
    split at h
    · rw [Option.some.inj h]
    · cases h
  | configureConfidentialTransferAccount args =>
    have hne : a ≠ args.token := by
      rintro rfl
      rw [step_configure_none hkey] at h
      cases h
    obtain ⟨account, key, -, rfl⟩ := step_configure_some h
    exact Function.update_of_ne hne _ _
  | verifyPubkeyValidity proof => rw [Option.some.inj h]
  | setComputeUnitPrice price => rw [Option.some.inj h]

theorem run_keeps {before after : List (Sdk.SetupInstruction Address)} {ledger ledger' : Sdk.TokenLedger}
    {a : Address} (hkey : (Sdk.keyOf (ledger a)).isSome) (h : run before after ledger = some ledger') :
    ledger' a = ledger a := by
  induction after generalizing before ledger with
  | nil => rw [Option.some.inj h]
  | cons ix after ih =>
    obtain ⟨ledger₁, hstep, hrun⟩ := Option.bind_eq_some_iff.mp h
    have hsame := step_keeps hkey ix hstep
    rw [← hsame] at hkey ⊢
    exact ih hkey hrun

theorem run_refuses {before after : List (Sdk.SetupInstruction Address)} {ledger : Sdk.TokenLedger}
    {args : Sdk.ConfigureArgs} (hmem : .configureConfidentialTransferAccount args ∈ after)
    (hkey : (Sdk.keyOf (ledger args.token)).isSome) : run before after ledger = none := by
  induction after generalizing before ledger with
  | nil => cases hmem
  | cons ix after ih =>
    unfold run
    rcases List.mem_cons.mp hmem with rfl | hmem
    · rw [step_configure_none hkey]
      rfl
    · cases hstep : step before after ledger ix with
      | none => rfl
      | some ledger₁ =>
        have hsame := step_keeps hkey ix hstep
        exact ih hmem (hsame ▸ hkey)

theorem run_configures {done before after : List (Sdk.SetupInstruction Address)}
    {ledger ledger' : Sdk.TokenLedger} {args : Sdk.ConfigureArgs}
    (h : run done (before ++ .configureConfidentialTransferAccount args :: after) ledger = some ledger') :
    Sdk.Configured programs (before.reverse ++ done) after args (ledger' args.token) := by
  induction before generalizing done ledger with
  | nil =>
    obtain ⟨ledger₁, hstep, hrun⟩ := Option.bind_eq_some_iff.mp h
    obtain ⟨account, key, hproof, rfl⟩ := step_configure_some hstep
    have hself : Function.update ledger args.token (some (configure account args key)) args.token =
        some (configure account args key) := Function.update_self _ _ _
    have hkey : (Sdk.keyOf (Function.update ledger args.token (some (configure account args key))
        args.token)).isSome := by
      rw [hself]
      rfl
    rw [run_keeps hkey hrun, hself]
    refine ⟨⟨key, hproof, rfl, rfl⟩, fun ct hct => ?_⟩
    obtain rfl := Option.some.inj hct
    rfl
  | cons ix before ih =>
    obtain ⟨ledger₁, -, hrun⟩ := Option.bind_eq_some_iff.mp h
    rw [List.reverse_cons, List.append_assoc]
    exact ih hrun

theorem programs_documented : programs.Documented where
  refuses hmem hkey := run_refuses hmem hkey
  configures h := by
    have hconfigured := run_configures h
    rwa [List.append_nil] at hconfigured

/-! ### The calls -/

def rustClient : Rust.Client Unit Address (ZMod (2 ^ 128)) (ZMod (2 ^ 128)) where
  net := { execute := fun _ chain _ => some chain }
  kit := .plain
  zk := .modular
  accounts _ _ _ := none
  payer := "payer"
  associatedTokenAddress owner mint _ := owner ++ "/" ++ mint
  transferProofData _ _ _ _ _ _ := .error "not needed"
  withdrawProofData _ _ _ _ := .error "not needed"
  pubkeyValidityProofData _ keys := .ok (ZkSdk.modular.elGamalPubkeyAddress keys)
  newDecryptableAvailableBalance _ _ _ _ := .error "not needed"
  tokenInstruction := .ok fun call => { ref := 0, programAddress := token2022ProgramAddress, call }
  extraAccountMetas _ _ _ _ _ _ := .ok []

def clients : Clients Unit Address (ZMod (2 ^ 128)) (ZMod (2 ^ 128)) where
  sdk := sdkClient
  hooks := Sdk.HookedMint.surroundings []
  surroundings :=
    { pubkeyValidityProofData := fun _ keys => .ok (ZkSdk.modular.elGamalPubkeyAddress keys)
      u64 := .plain
      send := fun _ _ => pure "signature" }
  rust := rustClient
  programs := programs
  verify_sdk h := congrArg some (Except.ok.inj h).symm
  verify_rust h := congrArg some (Except.ok.inj h).symm

/-- Others leave every configured account as it is. -/
def others (ledger ledger' : Sdk.TokenLedger) : Prop :=
  ∀ a, (Sdk.keyOf (ledger a)).isSome → ledger' a = ledger a

theorem others_leaveKey : LeaveKey onChain others alice := by
  intro ledger ledger' key hothers hkey
  rw [hothers _ (by simp [hkey]), hkey]

/-- Alice has no account yet. -/
def start : Race Address (ZMod (2 ^ 128)) := { ledger := fun _ => none }

def sdkCall : ConfiguringCall Address (ZMod (2 ^ 128)) :=
  .sdk (alice.configureInput onChain {} "payer" none true)

theorem reads_sdkCall : Reads onChain clients alice start.ledger sdkCall :=
  .sdk (w := { chain := () }) ⟨_, rfl⟩

/-- What the crate builds when it finds no account. -/
def rustInstructions : List (Sdk.SetupInstruction Address) :=
  (rustClient.configureTarget "alice" "mint" "alice/mint" alice.keys 2).instructions true
    (ZkSdk.modular.elGamalPubkeyAddress alice.keys)

theorem reads_rustCall : Reads onChain clients alice start.ledger (.rust rustInstructions) :=
  .rust (w := { chain := () }) rfl

/-- Someone else has created Alice's account, after both calls have read. -/
def bothRead : Race Address (ZMod (2 ^ 128)) where
  ledger := Function.update (fun _ => none) "alice/mint" (some emptyAccount)
  inFlight := [.rust rustInstructions, sdkCall]

def reading : List (RaceEvent Address (ZMod (2 ^ 128))) :=
  [.read sdkCall, .read (.rust rustInstructions), .other]

theorem run_bothRead : Steps (RaceStep onChain clients others alice) start reading bothRead := by
  refine .cons (.read reads_sdkCall) (.cons (.read reads_rustCall) (.single (.other fun a hkey => ?_)))
  cases hkey

/-- The crate's transaction arrives first. -/
theorem exists_rustArrival : ∃ state, state.inFlight = bothRead.inFlight ∧
    RaceStep onChain clients others alice bothRead (.arrive (.rust rustInstructions) true) state := by
  have hsends : Sends onChain clients alice (.rust rustInstructions) ([] ++ rustInstructions) := .rust (by simp)
  have hstep : RaceStep onChain clients others alice bothRead _ _ := .arrive (by simp [bothRead]) hsends
  have hsucceeded : (clients.programs.execute ([] ++ rustInstructions) bothRead.ledger).isSome = true := by
    decide +kernel
  rw [hsucceeded] at hstep
  refine ⟨_, ?_, hstep⟩
  rfl

end TwoCalls

open TwoCalls Unapproved in
/-- Alice's account is configured by the crate, and the SDK's transaction fails. -/
theorem rust_wins : ∃ succeeded state,
    Steps (RaceStep onChain clients others alice) start
      (reading ++ [.arrive (.rust rustInstructions) true, .arrive sdkCall succeeded]) state ∧
      succeeded = false ∧ Refused onChain clients alice state.ledger := by
  obtain ⟨state, hinFlight, hrust⟩ := exists_rustArrival
  have hsends : Sends onChain clients alice sdkCall (_ ++ []) := .sdk (n := 0) rfl (by simp)
  have hsdk : RaceStep onChain clients others alice state _ _ :=
    .arrive (by simp [hinFlight, bothRead]) hsends
  have hrun := run_bothRead.append (.cons hrust (.single hsdk))
  obtain ⟨honce, hrefused⟩ := configured_once programs_documented others_leaveKey hrun
  rcases honce with ⟨n, hn⟩ | ⟨⟨m, n, hmn⟩, hkey⟩
  · -- the crate's transaction did take effect
    have hfirst : [true, _] = List.replicate n false := hn
    have hmem : true ∈ List.replicate n false := hfirst ▸ List.mem_cons_self
    cases (List.mem_replicate.mp hmem).2
  · refine ⟨_, _, hrun, ?_, hrefused (Option.isSome_iff_exists.mpr ⟨_, hkey⟩)⟩
    have hall : [true, _] = List.replicate m false ++ true :: List.replicate n false := hmn
    cases m with
    | zero =>
      have hrest : [_] = List.replicate n false := List.tail_eq_of_cons_eq hall
      cases n with
      | zero => cases hrest
      | succ n => exact List.head_eq_of_cons_eq hrest
    | succ m => cases List.head_eq_of_cons_eq hall

open TwoCalls Unapproved in
/-- What the crate has configured, both SDKs read. -/
theorem rust_configures_for_both : ∃ state,
    RaceStep onChain clients others alice bothRead (.arrive (.rust rustInstructions) true) state ∧
      Usable onChain clients alice state.ledger := by
  obtain ⟨state, -, hrust⟩ := exists_rustArrival
  exact ⟨state, hrust, configured_usable programs_documented run_bothRead hrust⟩

end Compared
