-- SUMMARY: recoverProofAccounts, and which proof accounts it recovers.
import ConfidentialTransfers.Sdk.Cleanup
import ConfidentialTransfers.Sdk.LeftOpen

/-!
# Recovery

`recoverProofAccounts.ts` finds the proof accounts that store the payer's address
and closes them. It cannot find an account that was created but not verified,
and the accounts it finds have to fit into one RPC request.
-/

open Solana

namespace Sdk

variable {τ χ π σ α β : Type}

structure RecoverProofAccountsInput where
  authority : Address
  computeUnitPrice : Option Nat := none

structure RecoverProofAccountsResult where
  closed : List Address
  leftOpen : List Address
  /-- Rent returned to the authority. -/
  lamports : Nat
deriving DecidableEq, Repr

def recoverProofAccounts (net : Network χ π) (kit : Kit π) (input : RecoverProofAccountsInput) :
    Effect (World χ π) Thrown RecoverProofAccountsResult := do
  let accounts ← Effect.mapError .other (net.request (.getProgramAccounts input.authority)
    fun n chain => net.programAccounts n chain input.authority)
  let proofAccounts ← closeProofAccounts net kit
    { payer := input.authority, operation := "recoverProofAccounts",
      computeUnitPrice := input.computeUnitPrice } (accounts.map Prod.fst)
  let lamports := ((accounts.filter fun a => proofAccounts.closed.contains a.1).map Prod.snd).sum
  pure { closed := proofAccounts.closed, leftOpen := proofAccounts.leftOpen, lamports }

/-! ## Over a network that works -/

section Works

variable {net : Network (Chain τ) π} {programs : Programs τ π} {kit : Kit π}

/-- An account that can be closed is one that recovery finds. -/
theorem mem_found {c : Chain τ} {payer a : Address} :
    a ∈ (c.proofAccountsOf payer).map Prod.fst ↔ c.canClose payer a = true := by
  rw [Chain.canClose_iff, List.mem_map]
  constructor
  · rintro ⟨⟨_, lamports⟩, hmem, rfl⟩
    exact ⟨lamports, Chain.mem_proofAccountsOf.mp hmem⟩
  · rintro ⟨lamports, haccount⟩
    exact ⟨(a, lamports), Chain.mem_proofAccountsOf.mpr haccount, rfl⟩

/-- All accounts that recovery finds can be closed, so all batches are closed. -/
theorem closedOf_found (c : Chain τ) (payer : Address) :
    existingOf c ((c.proofAccountsOf payer).map Prod.fst) = (c.proofAccountsOf payer).map Prod.fst ∧
    closedOf c payer ((c.proofAccountsOf payer).map Prod.fst) =
      (c.proofAccountsOf payer).map Prod.fst := by
  have hexisting : existingOf c ((c.proofAccountsOf payer).map Prod.fst) =
      (c.proofAccountsOf payer).map Prod.fst := by
    refine List.filter_eq_self.mpr fun a ha => ?_
    exact Option.isSome_iff_ne_none.mpr (ne_none_of_canClose (mem_found.mp ha))
  refine ⟨hexisting, ?_⟩
  have hflat := List.flatten_batches (n := closesPerTransaction) (by decide)
    ((c.proofAccountsOf payer).map Prod.fst)
  rw [closedOf, hexisting, closableBatches, List.filter_eq_self.mpr, hflat]
  intro batch hbatch
  refine List.all_eq_true.mpr fun a ha => mem_found.mp ?_
  rw [← hflat]
  exact List.mem_flatten.mpr ⟨batch, hbatch, ha⟩

/-- Recovery closes all accounts it finds, or none if it finds more than 100. -/
theorem recoverProofAccounts_works (hworks : net.Works programs) (hsigns : kit.Signs)
    (input : RecoverProofAccountsInput) (w : World (Chain τ) π) :
    (recoverProofAccounts (net.withPrograms programs) kit input).wp (fun r w' =>
      if (w.chain.proofAccountsOf input.authority).length ≤ maxMultipleAccounts then
        r = .ok { closed := (w.chain.proofAccountsOf input.authority).map Prod.fst, leftOpen := [],
                  lamports := ((w.chain.proofAccountsOf input.authority).map Prod.snd).sum } ∧
          w'.chain = w.chain.closeAll ((w.chain.proofAccountsOf input.authority).map Prod.fst)
      else
        r = .ok { closed := [], leftOpen := (w.chain.proofAccountsOf input.authority).map Prod.fst,
                  lamports := 0 } ∧
          w'.chain = w.chain) w := by
  have hanswered : (net.withPrograms programs).refused w.clock (.getProgramAccounts input.authority) =
      none := (hworks.refused _ _).mpr rfl
  unfold recoverProofAccounts
  rw [Effect.wp_bind, Effect.wp_mapError]
  refine Effect.wp_of_run (.ok (w.chain.proofAccountsOf input.authority)) w.tick ?_ ?_
  · rw [Network.request, hanswered]
    rfl
  · simp only [Except.mapError]
    rw [Effect.wp_bind]
    split
    case isTrue hlength =>
      have hnodup := w.chain.proofAccountsOf_nodup input.authority
      refine (closeProofAccounts_works hworks hsigns _ hnodup (by simpa using hlength) _).mono
        fun r w' h => ?_
      obtain ⟨rfl, hchain⟩ := h
      obtain ⟨hexisting, hclosed⟩ := closedOf_found w.chain input.authority
      simp only [World.tick_chain, hexisting, hclosed] at hchain ⊢
      refine ⟨congrArg Except.ok ?_, hchain⟩
      have hnone : ((w.chain.proofAccountsOf input.authority).map Prod.fst).filter (fun a =>
          !((w.chain.proofAccountsOf input.authority).map Prod.fst).contains a) = [] :=
        List.filter_eq_nil_iff.mpr fun a ha => by simpa using ha
      have hall : (w.chain.proofAccountsOf input.authority).filter (fun a =>
          ((w.chain.proofAccountsOf input.authority).map Prod.fst).contains a.1) =
          w.chain.proofAccountsOf input.authority :=
        List.filter_eq_self.mpr fun a ha => by
          simpa using ⟨a.2, ha⟩
      rw [hnone, hall]
    case isFalse hlength =>
      refine (closeProofAccounts_refused hworks _ (by simpa using hlength) _).mono fun r w' h => ?_
      obtain ⟨rfl, hchain⟩ := h
      refine ⟨congrArg Except.ok ?_, hchain⟩
      simp

/-- After recovery nothing is left to be found. -/
theorem proofAccountsOf_closeAll (c : Chain τ) (payer : Address) :
    (c.closeAll ((c.proofAccountsOf payer).map Prod.fst)).proofAccountsOf payer = [] := by
  refine List.eq_nil_iff_forall_not_mem.mpr fun found hfound => ?_
  have hsome := Chain.mem_proofAccountsOf.mp hfound
  rw [Chain.proofAccount_closeAll] at hsome
  split at hsome
  · contradiction
  · rename_i hnot
    exact hnot (mem_found.mpr (Chain.canClose_iff.mpr ⟨found.2, hsome⟩))

variable (net programs kit) in
/-- The run of recovery from a chain `c` closed all accounts that store the authority, and a second
    run finds nothing. -/
structure RecoversAll (input : RecoverProofAccountsInput) (c : Chain τ)
    (r : Except Thrown RecoverProofAccountsResult) (w' : World (Chain τ) π) : Prop where
  returns : r = .ok { closed := (c.proofAccountsOf input.authority).map Prod.fst, leftOpen := [],
                      lamports := ((c.proofAccountsOf input.authority).map Prod.snd).sum }
  closed : ∀ a, c.canClose input.authority a = true → w'.chain.proofAccount a = none
  second : (recoverProofAccounts (net.withPrograms programs) kit input).wp
    (fun r _ => r = .ok { closed := [], leftOpen := [], lamports := 0 }) w'

/-- Recovery closes a backlog exactly if it is of at most 100 accounts. -/
theorem recovers_backlog_iff (hworks : net.Works programs) (hsigns : kit.Signs)
    (input : RecoverProofAccountsInput) (w : World (Chain τ) π) :
    (recoverProofAccounts (net.withPrograms programs) kit input).wp (fun r w' =>
      RecoversAll net programs kit input w.chain r w' ↔
        (w.chain.proofAccountsOf input.authority).length ≤ maxMultipleAccounts) w := by
  refine (recoverProofAccounts_works hworks hsigns input w).mono fun r w' h => ?_
  split at h
  case isTrue hlength =>
    obtain ⟨rfl, hchain⟩ := h
    refine iff_of_true ⟨rfl, fun a ha => ?_, ?_⟩ hlength
    · rw [hchain, Chain.proofAccount_closeAll, if_pos (mem_found.mpr ha)]
    · refine (recoverProofAccounts_works hworks hsigns input w').mono fun r'' w'' h' => ?_
      rw [hchain, proofAccountsOf_closeAll] at h'
      rw [if_pos (by decide)] at h'
      exact h'.1
  case isFalse hlength =>
    obtain ⟨rfl, -⟩ := h
    refine iff_of_false (fun hall => ?_) hlength
    have hclosed : [] = (w.chain.proofAccountsOf input.authority).map Prod.fst :=
      congrArg RecoverProofAccountsResult.closed (Except.ok.inj hall.returns)
    have hnil : w.chain.proofAccountsOf input.authority = [] := List.map_eq_nil_iff.mp hclosed.symm
    exact hlength (by rw [hnil]; decide)

end Works

/-- A chain with `n` verified accounts of the payer. -/
def backlog (n : Nat) : Chain Unit where
  proofAccounts :=
    { entries := (List.range n).map fun i =>
        ⟨(Kit.oneEach (π := Unit)).generateKeyPair i, { lamports := 1, authority := some "payer" }⟩
      nodupKeys := by
        rw [List.NodupKeys, List.keys, List.map_map]
        exact List.nodup_range.map (Kit.oneEach (π := Unit)).generateKeyPair_injective }
  rest := ()

theorem length_backlog (n : Nat) : ((backlog n).proofAccountsOf "payer").length = n := by
  simp [backlog, Chain.proofAccountsOf, List.filterMap_map]

/-- Twenty verified accounts, three transactions' worth, are recovered. -/
theorem recovers_twenty :
    (recoverProofAccounts (HalfSetUp.net.withPrograms HalfSetUp.programs) .oneEach
        { authority := "payer" }).wp
      (RecoversAll HalfSetUp.net HalfSetUp.programs .oneEach { authority := "payer" } (backlog 20))
      { chain := backlog 20 } :=
  (recovers_backlog_iff HalfSetUp.works Kit.signs_oneEach { authority := "payer" }
    { chain := backlog 20 }).mono fun _ _ h => h.mpr (by
      rw [length_backlog]
      decide)

/-- Of 101 verified accounts none is closed. -/
theorem keeps_backlog_of_101 :
    ¬ (recoverProofAccounts (HalfSetUp.net.withPrograms HalfSetUp.programs) .oneEach
        { authority := "payer" }).wp
      (RecoversAll HalfSetUp.net HalfSetUp.programs .oneEach { authority := "payer" } (backlog 101))
      { chain := backlog 101 } := by
  intro hall
  have hworks := recoverProofAccounts_works HalfSetUp.works Kit.signs_oneEach
    { authority := "payer" } { chain := backlog 101 }
  obtain ⟨hrun, hall⟩ := hworks.and hall
  simp only [length_backlog] at hrun
  rw [if_neg (by decide)] at hrun
  have hclosed : ((backlog 101).proofAccountsOf "payer").map Prod.fst = [] :=
    congrArg RecoverProofAccountsResult.closed (Except.ok.inj (hall.returns.symm.trans hrun.1))
  have hlength := length_backlog 101
  rw [List.map_eq_nil_iff.mp hclosed] at hlength
  simp at hlength

/-! ## What a call leaves -/

/-- A later recovery by the payer leaves none of these accounts on the chain. -/
def Recovers (net : Network (Chain τ) π) (programs : Programs τ π) (kit : Kit π) (payer : Address)
    (accounts : List Address) (c : Chain τ) : Prop :=
  ∀ computeUnitPrice clock keyPairs events,
    (recoverProofAccounts (net.withPrograms programs) kit { authority := payer, computeUnitPrice }).wp
      (fun _ w' => ∀ a ∈ accounts, w'.chain.proofAccount a = none)
      { chain := c, clock, keyPairs, events }

/-- The transactions that landed verified every account they created, and recovery does not find too
    many accounts for one request, unless it has nothing to do. -/
structure Recoverable (payer : Address) (accounts : List Address)
    (landed : List (List (Instruction π))) (c : Chain τ) : Prop where
  verified : ∀ a ∈ accounts, a ∈ createdAccounts landed → a ∈ verifiedAccounts landed
  few : (∃ a ∈ accounts, c.proofAccount a ≠ none) →
    (c.proofAccountsOf payer).length ≤ maxMultipleAccounts

/-- Recovery closes an account exactly if it can be closed and not too many are found. -/
theorem recovers_iff {net : Network (Chain τ) π} {programs : Programs τ π} {kit : Kit π}
    (hworks : net.Works programs) (hsigns : kit.Signs) {payer : Address} {accounts : List Address}
    {c : Chain τ} :
    Recovers net programs kit payer accounts c ↔ ∀ a ∈ accounts, c.proofAccount a ≠ none →
      c.canClose payer a = true ∧ (c.proofAccountsOf payer).length ≤ maxMultipleAccounts := by
  have hrun := fun input : RecoverProofAccountsInput => fun w : World (Chain τ) π =>
    recoverProofAccounts_works hworks hsigns input w
  constructor
  · intro hall a ha hopen
    have h := (hrun { authority := payer } { chain := c }).and (hall none 0 0 [])
    obtain ⟨hresult, hnone⟩ := h
    split at hresult
    case isTrue hlength =>
      refine ⟨?_, hlength⟩
      have hgone := hnone a ha
      rw [hresult.2, Chain.proofAccount_closeAll] at hgone
      split at hgone
      · exact mem_found.mp ‹_›
      · exact absurd hgone hopen
    case isFalse =>
      have hgone := hnone a ha
      rw [hresult.2] at hgone
      exact absurd hgone hopen
  · intro hall computeUnitPrice clock keyPairs events
    refine (hrun { authority := payer, computeUnitPrice } { chain := c, clock, keyPairs, events }).mono
      fun r w' h a ha => ?_
    by_cases hopen : c.proofAccount a = none
    · split at h
      · rw [h.2, Chain.proofAccount_closeAll]
        split
        · rfl
        · exact hopen
      · rw [h.2]
        exact hopen
    · obtain ⟨hclose, hlength⟩ := hall a ha hopen
      rw [if_pos hlength] at h
      rw [h.2, Chain.proofAccount_closeAll, if_pos (mem_found.mpr hclose)]

/-- Accounts of a flow can be recovered exactly if none was left created but not verified. -/
theorem recovers_iff_recoverable {net : Network (Chain τ) π} {programs : Programs τ π} {kit : Kit π}
    (hworks : net.Works programs) (hsigns : kit.Signs) {payer : Address} {accounts : List Address}
    {landed : List (List (Instruction π))} {c : Chain τ}
    (hfates : ∀ a ∈ accounts, AccountFate payer a landed none (c.proofAccount a)) :
    Recovers net programs kit payer accounts c ↔ Recoverable payer accounts landed c := by
  rw [recovers_iff hworks hsigns]
  constructor
  · refine fun hall => ⟨fun a ha hcreated => ?_, ?_⟩
    · have hfate := hfates a ha
      generalize haccount : c.proofAccount a = account at hfate
      cases hfate with
      | notCreated hnot => exact absurd hcreated hnot
      | verified _ hverified => exact hverified
      | notVerified =>
        obtain ⟨hclose, -⟩ := hall a ha (by simp [haccount])
        simp [Chain.canClose, haccount] at hclose
    · rintro ⟨a, ha, hopen⟩
      exact (hall a ha hopen).2
  · intro hrecoverable a ha hopen
    refine ⟨?_, hrecoverable.few ⟨a, ha, hopen⟩⟩
    have hfate := hfates a ha
    generalize haccount : c.proofAccount a = account at hfate
    cases hfate with
    | notCreated _ hafter =>
      refine absurd ?_ hopen
      rw [haccount]
      rcases hafter with hnone | hnone
      · exact hnone
      · exact hnone
    | notVerified hcreated hnot => exact absurd (hrecoverable.verified a ha hcreated) hnot
    | verified _ _ hafter =>
      rcases hafter with hnone | ⟨lamports, hstored⟩
      · exact absurd (haccount.trans hnone) hopen
      · exact Chain.canClose_iff.mpr ⟨lamports, haccount.trans hstored⟩

/-- The process stopped when the first transactions of the flow had landed. Before them, the flow's
    accounts did not exist. -/
structure StoppedAfter (net : Network (Chain τ) π) (programs : Programs τ π) (kit : Kit π)
    (flow : ProofFlow π) (chain : Chain τ) (landed : List (List (Instruction π))) (chain' : Chain τ) :
    Prop where
  planned : ∃ txs, PlannedTransactions kit flow txs ∧ landed <+: txs
  executed : Steps (net.withPrograms programs).Executes chain landed chain'
  fresh : ∀ a ∈ flow.proofAccounts, chain.proofAccount a = none

theorem StoppedAfter.fates {net : Network (Chain τ) π} {programs : Programs τ π} {kit : Kit π}
    {payer : Address} {flow : ProofFlow π} (hlives : FlowLives payer flow)
    {landed : List (List (Instruction π))} {chain chain' : Chain τ}
    (h : StoppedAfter net programs kit flow chain landed chain') :
    ∀ a ∈ flow.proofAccounts, AccountFate payer a landed none (chain'.proofAccount a) := by
  intro a ha
  obtain ⟨txs, hplanned, rest, rfl⟩ := h.planned
  obtain ⟨xs, hxs, habout⟩ := hplanned.about
  obtain ⟨lamports, proof, hlife⟩ := hlives.own a ha
  have hrun := life_of_executed h.executed a
  rw [h.fresh a ha, ← List.append_nil landed] at hrun
  rw [← List.append_nil landed]
  refine accountFate_of_life lamports proof ?_ (by simp) hrun
  rw [← hlife xs hxs, ← habout a, List.flatten_append, List.filterMap_append]
  exact List.prefix_append _ _

/-! ## What an error reports -/

/-- Transactions before that are not about the account do not matter. -/
theorem AccountFate.prepend {payer a : Address} {earlier txs : List (List (Instruction π))}
    {before after : Option ProofAccount} (hearlier : earlier.flatten.filterMap (·.about a) = [])
    (h : AccountFate payer a txs before after) : AccountFate payer a (earlier ++ txs) before after := by
  have hcreated : a ∈ createdAccounts (earlier ++ txs) ↔ a ∈ createdAccounts txs := by
    rw [createdAccounts_append, List.mem_append]
    refine or_iff_right fun hmem => ?_
    obtain ⟨lamports, hmem⟩ := mem_createdAccounts.mp hmem
    simp [hearlier] at hmem
  have hverified : a ∈ verifiedAccounts (earlier ++ txs) ↔ a ∈ verifiedAccounts txs := by
    rw [verifiedAccounts_append, List.mem_append]
    refine or_iff_right fun hmem => ?_
    obtain ⟨proof, authority, hmem⟩ := mem_verifiedAccounts.mp hmem
    simp [hearlier] at hmem
  cases h with
  | notCreated hnot hafter => exact .notCreated (mt hcreated.mp hnot) hafter
  | notVerified hmem hnot => exact .notVerified (hcreated.mpr hmem) (mt hverified.mp hnot) _
  | verified hmem hmem' hafter => exact .verified (hcreated.mpr hmem) (hverified.mpr hmem') hafter

/-- The key pairs not generated yet have no accounts, and no transaction was about them. -/
def FreshKeys (kit : Kit π) (w : World (Chain τ) π) : Prop :=
  ∀ n, w.keyPairs ≤ n → w.chain.proofAccount (kit.generateKeyPair n) = none ∧
    (landedTransactions w.events).flatten.filterMap (·.about (kit.generateKeyPair n)) = []

section Reported

variable {net : Network (Chain τ) π} {programs : Programs τ π} {kit : Kit π} {payer : Address}
  {w w' : World (Chain τ) π} {landed : List (List (Instruction π))} {reported : List Address}

theorem AttemptTracks.freshKeys (h : AttemptTracks net programs kit payer w landed reported w')
    (hfresh : FreshKeys kit w) : FreshKeys kit w' := by
  intro n hn
  have hnot : ¬ NewKey kit w w' (kit.generateKeyPair n) := by
    rintro ⟨m, -, hlt, hm⟩
    obtain rfl := kit.generateKeyPair_injective hm
    omega
  obtain ⟨hnone, habout⟩ := hfresh n (h.keyPairs.trans hn)
  refine ⟨(h.unchanged hnot).trans hnone, ?_⟩
  rw [h.logged, List.flatten_append, List.filterMap_append, habout, h.others _ hnot, List.append_nil]

/-- The fate of a reported account is that of an account of a flow. -/
theorem AttemptTracks.fate (h : AttemptTracks net programs kit payer w landed reported w')
    (hfresh : FreshKeys kit w) {a : Address} (ha : a ∈ reported) :
    AccountFate payer a (landedTransactions w'.events) none (w'.chain.proofAccount a) := by
  have hnew := h.subset a ha
  have hfate := h.fates a hnew
  obtain ⟨n, hle, -, rfl⟩ := hnew
  obtain ⟨hnone, habout⟩ := hfresh n hle
  rw [hnone] at hfate
  rw [h.logged]
  exact hfate.prepend habout

/-- What a settled call reports as left open is recovered exactly if all of it was verified. -/
structure ReportIsRecoverable (net : Network (Chain τ) π) (programs : Programs τ π) (kit : Kit π)
    (payer : Address) (view : σ → World (Chain τ) π) (leftOpen : α → List Address)
    (run : Retry.Run σ Thrown α) : Prop where
  settled : ∀ outcome, run.outcome = some outcome →
    (Recovers net programs kit payer (reportedOpen leftOpen outcome) (view run.state).chain ↔
      Recoverable payer (reportedOpen leftOpen outcome) (landedTransactions (view run.state).events)
        (view run.state).chain)

theorem ReportIsRecoverable.map {net : Network (Chain τ) π} {programs : Programs τ π} {kit : Kit π}
    {view : σ → World (Chain τ) π} {leftOpen : α → List Address} {leftOpen' : β → List Address}
    {run : Retry.Run σ Thrown α}
    (h : ReportIsRecoverable net programs kit payer view leftOpen run) (f : α → β)
    (hf : ∀ a, leftOpen' (f a) = leftOpen a) :
    ReportIsRecoverable net programs kit payer view leftOpen' (run.map f) where
  settled outcome' houtcome' := by
    obtain ⟨outcome, houtcome, rfl⟩ := Option.map_eq_some_iff.mp houtcome'
    rw [reportedOpen_map f hf]
    exact h.settled outcome houtcome

theorem withRetries_recoverable {net' : Network (Chain τ) π} {programs' : Programs τ π}
    {kit' : Kit π} (hworks : net'.Works programs') (hsigns : kit'.Signs)
    {view : σ → World (Chain τ) π} {leftOpen : α → List Address} {attempt : Effect σ Thrown α}
    (hattempt : KeepsTrack net programs kit payer view leftOpen attempt)
    (retries : Option JsNumber) (fuel : Nat) (s : σ) (hs : FreshKeys kit (view s)) :
    ReportIsRecoverable net' programs' kit' payer view leftOpen
      (withRetries retries attempt fuel s) where
  settled outcome houtcome := by
    have hfates : (Retry.run (retryAgain retries) attempt fuel 0 s).Satisfies
        (fun s => FreshKeys kit (view s)) (fun r s' => ∀ a ∈ reportedOpen leftOpen r,
          AccountFate payer a (landedTransactions (view s').events) none
            ((view s').chain.proofAccount a)) := by
      refine Retry.run_induction _ _ (fun n s hs => ?_) fuel 0 s hs
      refine (hattempt s).mono fun r s' h => ?_
      obtain ⟨landed, h⟩ := h
      cases r with
      | ok a => exact fun a ha => h.fate hs ha
      | error e =>
        simp only
        split
        · exact h.freshKeys hs
        · exact fun a ha => h.fate hs ha
    rw [Retry.Run.Satisfies, show (Retry.run (retryAgain retries) attempt fuel 0 s).outcome =
      some outcome from houtcome] at hfates
    exact recovers_iff_recoverable hworks hsigns hfates

end Reported

/-! ## The operations -/

section Operations

variable {F G : Type} [CommRing F] [AddCommGroup G] [Module F G] (c : Client (Chain τ) F G)
  (programs : Programs τ (ProofData F G)) {net' : Network (Chain τ) (ProofData F G)}
  {programs' : Programs τ (ProofData F G)} {kit' : Kit (ProofData F G)}

/-- Wherever a transfer or withdraw stops, its proof accounts are recovered exactly if none was left
    created but not verified and recovery finds at most 100; and so it is for the accounts that a
    call reports as left open. -/
theorem recovers_iff_setups_complete (hworks : net'.Works programs') (hsigns : kit'.Signs) :
    ((∀ (input : TransferFlowInput F) (proofs : TransferProofs F G) (k : Nat) chain landed chain',
      StoppedAfter c.net programs c.kit (transferFlow c.net c.kit input proofs k) chain landed chain' →
      (Recovers net' programs' kit' input.payer
          (transferFlow c.net c.kit input proofs k).proofAccounts chain' ↔
        Recoverable input.payer (transferFlow c.net c.kit input proofs k).proofAccounts landed
          chain')) ∧
    (∀ (input : WithdrawFlowInput F) (proofs : WithdrawProofs F G) (k : Nat) chain landed chain',
      StoppedAfter c.net programs c.kit (withdrawFlow c.net c.kit input proofs k) chain landed chain' →
      (Recovers net' programs' kit' input.payer
          (withdrawFlow c.net c.kit input proofs k).proofAccounts chain' ↔
        Recoverable input.payer (withdrawFlow c.net c.kit input proofs k).proofAccounts landed
          chain'))) ∧
    ∀ (fuel : Nat) (chain : Chain τ) (clock keyPairs : Nat),
      (∀ n, keyPairs ≤ n → chain.proofAccount (c.kit.generateKeyPair n) = none) →
      (∀ input : TransferInput F, Attempts
        (ReportIsRecoverable net' programs' kit' input.payer Prod.fst
          TransferResult.proofAccountsLeftOpen)
        (transfer (c.withPrograms programs) input fuel { chain, clock, keyPairs })) ∧
      (∀ input : WithdrawInput F, Attempts
        (ReportIsRecoverable net' programs' kit' input.payer Prod.fst
          WithdrawResult.proofAccountsLeftOpen)
        (withdraw (c.withPrograms programs) input fuel { chain, clock, keyPairs })) := by
  refine ⟨⟨fun input proofs k chain landed chain' h => ?_,
    fun input proofs k chain landed chain' h => ?_⟩,
    fun fuel chain clock keyPairs hnone => ⟨fun input => ?_, fun input => ?_⟩⟩
  · exact recovers_iff_recoverable hworks hsigns
      (h.fates (flowLives_transferFlow c.net c.kit input proofs k))
  · exact recovers_iff_recoverable hworks hsigns
      (h.fates (flowLives_withdrawFlow c.net c.kit input proofs k))
  · exact attempts_of_bind fun tokens => (withRetries_recoverable hworks hsigns
      (keepsTrack_transferAttempt c programs input _ _ _) _ fuel _
      fun n hn => ⟨hnone n hn, rfl⟩).map _ fun _ => rfl
  · exact attempts_of_bind fun _ => (withRetries_recoverable hworks hsigns
      (keepsTrack_withdrawAttempt c programs input _ _) _ fuel _
      fun n hn => ⟨hnone n hn, rfl⟩).map _ fun _ => rfl

end Operations

/-! ## A withdraw that stops -/

namespace StoppedWithdraw

def net : Network (Chain Unit) (ProofData (ZMod (2 ^ 128)) (ZMod (2 ^ 128))) where
  execute _ _ _ := none
  refused _ r := if r.isValid then none else some "invalid request"

def programs : Programs Unit (ProofData (ZMod (2 ^ 128)) (ZMod (2 ^ 128))) where
  operation _ _ _ := some ()

theorem works : net.Works programs := Network.works_plain programs fun _ _ _ => rfl

def client : Client (Chain Unit) (ZMod (2 ^ 128)) (ZMod (2 ^ 128)) := .packing net

def input : WithdrawFlowInput (ZMod (2 ^ 128)) where
  tokenAccount := TenTokens.account
  amount := 3
  keys := TenTokens.keys
  token := "token"
  mint := "mint"
  authority := "alice"
  decimals := 0
  payer := "payer"

def proofs : WithdrawProofs (ZMod (2 ^ 128)) (ZMod (2 ^ 128)) where
  equality :=
    { secret := 1
      ciphertext := (0, 0)
      commitment := 0
      opening := 0
      amount := 7 }
  range := { commitments := [0], amounts := [7], bitLengths := [64], openings := [0] }
  newDecryptableAvailableBalance := []

def flow := withdrawFlow client.net client.kit input proofs 1

/-- The plan's transactions: the equality proof with its account, the account of the range proof, the
    range proof, the withdraw. -/
def transactions := packed fitsTransaction [] (proofFlowToPlan flow).leaves

theorem planned : PlannedTransactions client.kit flow transactions := by
  refine ⟨_, rfl, ?_⟩
  rw [transactions, List.forall₂_map_left_iff, List.forall₂_same]
  exact fun _ _ => .inl rfl

/-- The chain with both accounts, the equality proof verified. -/
def chain (rangeAuthority : Option Address) : Chain Unit :=
  (({ proofAccounts := ∅, rest := () } : Chain Unit).setProofAccount "k"
    (some { lamports := 0, authority := some "payer" })).setProofAccount "kk"
      (some { lamports := 0, authority := rangeAuthority })

theorem chain_kk (authority : Option Address) :
    (chain authority).proofAccount "kk" = some { lamports := 0, authority } := by
  simp [chain]

/-- Stopped when the account of the range proof was created. -/
theorem stopped_created : StoppedAfter client.net programs client.kit flow
    { proofAccounts := ∅, rest := () } (transactions.take 2) (chain none) where
  planned := ⟨_, planned, List.take_prefix _ _⟩
  executed := .cons ⟨0, rfl⟩ (.single ⟨0, rfl⟩)
  fresh _ _ := rfl

/-- Stopped when the range proof was verified. -/
theorem stopped_verified : StoppedAfter client.net programs client.kit flow
    { proofAccounts := ∅, rest := () } (transactions.take 3) (chain (some "payer")) where
  planned := ⟨_, planned, List.take_prefix _ _⟩
  executed := .cons ⟨0, rfl⟩ (.cons ⟨0, rfl⟩ (.single ⟨0, rfl⟩))
  fresh _ _ := rfl

end StoppedWithdraw

/-- Stopped after both proofs were verified, the withdraw is recovered. -/
theorem recovers_verified :
    Recovers StoppedWithdraw.net StoppedWithdraw.programs StoppedWithdraw.client.kit "payer"
      StoppedWithdraw.flow.proofAccounts (StoppedWithdraw.chain (some "payer")) := by
  refine ((recovers_iff_setups_complete StoppedWithdraw.client StoppedWithdraw.programs
    StoppedWithdraw.works (Kit.signs_packing _)).1.2 StoppedWithdraw.input StoppedWithdraw.proofs 1 _ _ _
      StoppedWithdraw.stopped_verified).mpr ⟨?_, fun _ => by decide⟩
  decide

/-- Stopped after the account of the range proof was created, before the proof was verified, it is
    not. -/
theorem strands_created :
    StoppedAfter StoppedWithdraw.client.net StoppedWithdraw.programs StoppedWithdraw.client.kit
      StoppedWithdraw.flow { proofAccounts := ∅, rest := () } (StoppedWithdraw.transactions.take 2)
      (StoppedWithdraw.chain none) ∧
    ¬ Recovers StoppedWithdraw.net StoppedWithdraw.programs StoppedWithdraw.client.kit "payer"
      StoppedWithdraw.flow.proofAccounts (StoppedWithdraw.chain none) := by
  refine ⟨StoppedWithdraw.stopped_created, fun hall => ?_⟩
  obtain ⟨hclose, -⟩ := (recovers_iff StoppedWithdraw.works (Kit.signs_packing _)).mp hall "kk"
    (by decide) (by simp [StoppedWithdraw.chain_kk])
  simp [Chain.canClose, StoppedWithdraw.chain_kk] at hclose

end Sdk
