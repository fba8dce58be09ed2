-- SUMMARY: Calls of both SDKs that configure one account, and what the SDKs read of it.
import ConfidentialTransfers.Compared.Balance
import ConfidentialTransfers.Rust.Configure
import ConfidentialTransfers.Sdk.Configure

/-!
# Configuring with either SDK

Calls of `configureAccount` and `configure_account` for one wallet, each split
into its read of the account and the arrival of its transactions, with other
activity at any time. What the programs make of a transaction, and what others
do, are parameters.
-/

open Solana

namespace Compared

variable {χ π F G : Type} [CommRing F] [AddCommGroup G] [Module F G]

/-! ## The chain and the clients -/

namespace OnChain

variable (s : OnChain)

/-- The same mint, with these token accounts. -/
def holding (ledger : Sdk.TokenLedger) : OnChain := { s with token := ledger }

end OnChain

/-- The two clients, what they configure accounts with, and the programs they send it to. A proof of a key
    pair verifies, for its public key. -/
structure Clients (χ π F G : Type) [CommRing F] [AddCommGroup G] [Module F G] where
  sdk : Sdk.Client χ F G
  hooks : Sdk.HookSurroundings χ
  surroundings : Sdk.ConfigureSurroundings χ π F G
  rust : Rust.Client χ π F G
  programs : Sdk.SetupPrograms π
  verify_sdk : ∀ {n keys proof}, surroundings.pubkeyValidityProofData n keys = .ok proof →
    programs.verify proof = some (sdk.zk.elGamalPubkeyAddress keys)
  verify_rust : ∀ {n keys proof}, rust.pubkeyValidityProofData n keys = .ok proof →
    programs.verify proof = some (sdk.zk.elGamalPubkeyAddress keys)

namespace Wallet

variable (wallet : Wallet F) (s : OnChain)

def configureInput (options : Sdk.SendOptions) (payer : Address) (maximum : Option Int) (passed : Bool) :
    Sdk.ConfigureAccountInput F where
  toSendOptions := options
  payer := payer
  owner := wallet.owner
  mint := s.mint
  keys := wallet.keysInput passed
  maximumPendingBalanceCreditCounter := maximum

end Wallet

/-! ## The race -/

/-- A call that has read the account: the input of the TypeScript call, whose attempts build their
    transactions anew, or the instructions of the Rust call. -/
inductive ConfiguringCall (π F : Type) [CommRing F]
  | sdk (input : Sdk.ConfigureAccountInput F)
  | rust (instructions : List (Sdk.SetupInstruction π))

/-- The token accounts, and the calls that may still have transactions arrive. -/
structure Race (π F : Type) [CommRing F] where
  ledger : Sdk.TokenLedger
  inFlight : List (ConfiguringCall π F) := []

inductive RaceEvent (π F : Type) [CommRing F]
  | read (call : ConfiguringCall π F)
  | arrive (call : ConfiguringCall π F) (succeeded : Bool)
  | other

section Race

variable (s : OnChain) (k : Clients χ π F G) (others : Sdk.TokenLedger → Sdk.TokenLedger → Prop)
  (wallet : Wallet F)

/-- The call reads the account and goes on. -/
inductive Reads (ledger : Sdk.TokenLedger) : ConfiguringCall π F → Prop
  | sdk {options payer maximum passed w}
    (h : ∃ keys, (Sdk.configureKeys ((s.holding ledger).sdk k.sdk k.hooks)
      (wallet.configureInput s options payer maximum passed) (s.associatedToken wallet.address) w).1 =
        .ok keys) :
    Reads ledger (.sdk (wallet.configureInput s options payer maximum passed))
  | rust {w is}
    (h : (((s.holding ledger).rust k.rust k.sdk.zk).buildConfigure wallet.signer s.mint w).1 = .ok is) :
    Reads ledger (.rust is)

/-- A transaction of a call: of an attempt, with a priority fee behind it or in front. -/
inductive Sends : ConfiguringCall π F → List (Sdk.SetupInstruction π) → Prop
  | sdk {input n is prices}
    (h : Sdk.configureInstructions k.sdk k.surroundings input token2022ProgramAddress
      (s.associatedToken wallet.address) wallet.keys n = .ok is)
    (hprices : ∀ ix ∈ prices, ix.isPrice = true) : Sends (.sdk input) (is ++ prices)
  | rust {is prices} (hprices : ∀ ix ∈ prices, ix.isPrice = true) : Sends (.rust is) (prices ++ is)

/-- A key that the wallet's account has is left to it: another one takes closing the account, and so a
    signature of the wallet. -/
def LeaveKey : Prop :=
  ∀ ledger ledger' key, others ledger ledger' →
    Sdk.keyOf (ledger (s.associatedToken wallet.address)) = some key →
      Sdk.keyOf (ledger' (s.associatedToken wallet.address)) = some key

/-- One step. A transaction that fails changes nothing; a call whose transaction has arrived may have
    another one arrive. -/
inductive RaceStep : Race π F → RaceEvent π F → Race π F → Prop
  | read {state : Race π F} {call : ConfiguringCall π F} (h : Reads s k wallet state.ledger call) :
    RaceStep state (.read call) { state with inFlight := call :: state.inFlight }
  | arrive {state : Race π F} {call : ConfiguringCall π F} {is : List (Sdk.SetupInstruction π)}
    (hcall : call ∈ state.inFlight) (h : Sends s k wallet call is) :
    RaceStep state (.arrive call (k.programs.execute is state.ledger).isSome)
      { state with ledger := (k.programs.execute is state.ledger).getD state.ledger }
  | other {state : Race π F} {ledger : Sdk.TokenLedger} (h : others state.ledger ledger) :
    RaceStep state .other { state with ledger }

end Race

/-- Which of the transactions that arrived took effect. -/
def arrivals (events : List (RaceEvent π F)) : List Bool :=
  events.filterMap fun
    | .arrive _ succeeded => some succeeded
    | _ => none

/-! ## What the SDKs read -/

section Reading

variable (s : OnChain) (k : Clients χ π F G) (wallet : Wallet F) (ledger : Sdk.TokenLedger)

/-- The account is configured already. -/
def configuredFault (account : Option Token) : Option Fault :=
  if (Sdk.keyOf account).isSome then some (.code .accountAlreadyConfigured) else none

theorem isSome_keyOf (account : Option Token) :
    (Sdk.keyOf account).isSome = (account.bind Sdk.confidentialState).isSome :=
  Option.isSome_map

/-- The TypeScript SDK goes on with the wallet's keys unless the account is configured. -/
theorem sdk_configureKeys (options : Sdk.SendOptions) (payer : Address) (maximum : Option Int)
    (passed : Bool) (w : World χ (ProofData F G)) :
    faultOf .ofThrown (Sdk.configureKeys ((s.holding ledger).sdk k.sdk k.hooks)
      (wallet.configureInput s options payer maximum passed) (s.associatedToken wallet.address) w).1 =
        configuredFault (ledger (s.associatedToken wallet.address)) := by
  have hfetch : Sdk.fetchMaybeToken ((s.holding ledger).sdk k.sdk k.hooks).net
      (s.associatedToken wallet.address) w =
        (.ok (ledger (s.associatedToken wallet.address)), w.tick) := rfl
  simp only [Sdk.configureKeys, bind, hfetch, configuredFault, isSome_keyOf]
  split
  · rfl
  · cases passed <;> rfl

/-- Derived or passed, the keys are the wallet's. -/
theorem sdk_configureKeys_eq_ok {options : Sdk.SendOptions} {payer : Address} {maximum : Option Int}
    {passed : Bool} {w w' : World χ (ProofData F G)} {keys : ConfidentialKeypairs F}
    (h : Sdk.configureKeys ((s.holding ledger).sdk k.sdk k.hooks)
      (wallet.configureInput s options payer maximum passed) (s.associatedToken wallet.address) w =
        (.ok keys, w')) : keys = wallet.keys := by
  obtain ⟨existing, w₁, -, h⟩ := Effect.run_bind_ok_iff.mp h
  split at h
  · cases h
  · obtain ⟨w₂, hkeys⟩ := sdk_ownerKeys (G := G) wallet "configureAccount" passed w₁
    exact Except.ok.inj (congrArg Prod.fst (h.symm.trans hkeys))

theorem rust_readTokenAccount (operation : String) (w : World χ π) :
    Rust.readTokenAccount ((s.holding ledger).rust k.rust k.sdk.zk).net
      ((s.holding ledger).rust k.rust k.sdk.zk).accounts (s.associatedToken wallet.address) s.mint operation w =
        (.ok (ledger (s.associatedToken wallet.address)), w.tick) := by
  have hfetch : Rust.fetch ((s.holding ledger).rust k.rust k.sdk.zk).net
      ((s.holding ledger).rust k.rust k.sdk.zk).accounts (s.associatedToken wallet.address) operation w =
        (.ok ((s.holding ledger).accountData (s.associatedToken wallet.address)), w.tick) := rfl
  have hdata : (s.holding ledger).accountData (s.associatedToken wallet.address) =
      (ledger (s.associatedToken wallet.address)).map fun t =>
        { owner := token2022ProgramAddress, unpackToken := some { mint := s.mint, state := t } } :=
    if_neg (s.associatedToken_ne wallet.address)
  simp only [Rust.readTokenAccount, bind, hfetch, hdata]
  cases ledger (s.associatedToken wallet.address) with
  | none => rfl
  | some token => simp [Rust.tokenAccountOf, Effect.ofExcept]

/-- On a configured account the crate fails as the SDK does, after it has read the mint. -/
theorem rust_buildConfigure_configured (w : World χ π)
    (hconfigured : (Sdk.keyOf (ledger (s.associatedToken wallet.address))).isSome = true) :
    faultOf .ofError (((s.holding ledger).rust k.rust k.sdk.zk).buildConfigure wallet.signer s.mint w).1 =
      firstFault [s.auditor.bind (keyFault k.sdk.zk (.code .invalidInput)),
        some (.code .accountAlreadyConfigured)] := by
  obtain ⟨info, hmint, hfault⟩ := rust_readMint (s.holding ledger) k.rust k.sdk.zk "configure_account" w
  refine faultOf_bind ((congrArg (faultOf _ ·.1) hmint).trans hfault) fun _ w' _ => ?_
  refine faultOf_bind_ok (rust_readTokenAccount s k wallet ledger "configure_account" w') ?_
  rw [isSome_keyOf] at hconfigured
  rw [if_pos hconfigured]
  rfl

/-- The crate's instructions create the account unless it is there. -/
theorem rust_buildConfigure_eq_ok {w : World χ π} {is : List (Sdk.SetupInstruction π)}
    (h : (((s.holding ledger).rust k.rust k.sdk.zk).buildConfigure wallet.signer s.mint w).1 = .ok is) :
    ∃ n, ((s.holding ledger).rust k.rust k.sdk.zk).configureInstructions wallet.address s.mint
      (s.associatedToken wallet.address) (ledger (s.associatedToken wallet.address))
      wallet.keys n = .ok is := by
  rcases hrun : ((s.holding ledger).rust k.rust k.sdk.zk).buildConfigure wallet.signer s.mint w with ⟨r, w'⟩
  rw [hrun] at h
  obtain rfl : r = .ok is := h
  obtain ⟨_, w₁, -, hrun⟩ := Effect.run_bind_ok_iff.mp hrun
  obtain ⟨existing, w₂, hread, hrun⟩ := Effect.run_bind_ok_iff.mp hrun
  obtain rfl : ledger (s.associatedToken wallet.address) = existing := by
    have hread' := rust_readTokenAccount s k wallet ledger "configure_account" w₁
    exact Except.ok.inj (congrArg Prod.fst (hread'.symm.trans hread))
  split at hrun
  · cases hrun
  · obtain ⟨keys, w₃, hkeys, hrun⟩ := Effect.run_bind_ok_iff.mp hrun
    obtain rfl : wallet.keys = keys := Except.ok.inj (congrArg Prod.fst hkeys)
    exact ⟨w₃.clock, congrArg Prod.fst hrun⟩

end Reading

end Compared
