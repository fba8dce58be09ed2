-- SUMMARY: When the Rust crate's errors account for every proof account a failed call created.
import ConfidentialTransfers.Rust.Client
import ConfidentialTransfers.Rust.SetUp

/-!
# Accounted proof accounts

An error of a call lists the accounts it closed and those it left open. The list
is complete exactly if no creation landed unconfirmed, and the instruction was
not refused once the accounts were set up.
-/

open Solana

namespace Rust

variable {τ π α β : Type}

/-- Every proof account that a transaction of the log created and that is on the chain is listed as left
    open, and none that is listed as closed is on the chain. -/
structure Accounted (e : Error) (w : World (Chain τ) π) : Prop where
  leftOpen : ∀ a ∈ createdAccounts (landedTransactions w.events), w.chain.proofAccount a ≠ none →
    a ∈ (e.proofAccounts.getD {}).leftOpen
  closed : ∀ a ∈ (e.proofAccounts.getD {}).closed, w.chain.proofAccount a = none

/-- With nothing created there is nothing to account for. -/
theorem Accounted.of_none {e : Error} {w : World (Chain τ) π} (he : e.proofAccounts = none)
    (h : createdAccounts (landedTransactions w.events) = []) : Accounted e w := by
  constructor
  · simp [h]
  · simp [he]

/-! ## Transactions that only close -/

/-- The transactions do nothing to proof accounts but close them. -/
def OnlyClose (landed : List (Landing π)) : Prop :=
  ∀ a, ∀ i ∈ (landed.map Landing.instructions).flatten.filterMap (·.about a), i.isClose = true

theorem OnlyClose.of_mem {landed : List (Landing π)} (h : OnlyClose landed) {l : Landing π}
    (hl : l ∈ landed) : OnlyClose [l] := by
  intro a i hi
  obtain ⟨hmem, ha⟩ := mem_filterMap_about.mp hi
  rw [List.map_singleton, List.flatten_singleton] at hmem
  exact h a i (mem_filterMap_about.mpr
    ⟨List.mem_flatten.mpr ⟨_, List.mem_map_of_mem hl, hmem⟩, ha⟩)

/-- Closing creates and verifies nothing. -/
theorem OnlyClose.log {landed : List (Landing π)} (h : OnlyClose landed) {w w' : World (Chain τ) π}
    (hlog : landings w'.events = landings w.events ++ landed) :
    createdAccounts (landedTransactions w'.events) = createdAccounts (landedTransactions w.events) ∧
    (CreatesConfirmed w'.events ↔ CreatesConfirmed w.events) ∧
    confirmedVerified w'.events = confirmedVerified w.events := by
  have hcreated : createdAccounts (landed.map Landing.instructions) = [] :=
    createdAccounts_eq_nil_of_about h
  refine ⟨?_, ⟨fun hall l hl => hall l (by rw [hlog]; simp [hl]), fun hall l hl hcreates => ?_⟩, ?_⟩
  · rw [landedTransactions_eq, hlog, List.map_append, createdAccounts_append, hcreated,
      List.append_nil, ← landedTransactions_eq]
  · rw [hlog, List.mem_append] at hl
    rcases hl with hl | hl
    · exact hall l hl hcreates
    · exact absurd (createdAccounts_eq_nil_of_about (h.of_mem hl)) hcreates
  · have hverified : verifiedAccounts ((landed.filter Landing.isConfirmed).map
        Landing.instructions) = [] := by
      refine verifiedAccounts_eq_nil_of_about fun a i hi => ?_
      obtain ⟨hmem, ha⟩ := mem_filterMap_about.mp hi
      obtain ⟨js, hjs, hmem⟩ := List.mem_flatten.mp hmem
      obtain ⟨l, hl, rfl⟩ := List.mem_map.mp hjs
      refine h.of_mem (List.mem_filter.mp hl).1 a i (mem_filterMap_about.mpr ⟨?_, ha⟩)
      simpa using hmem
    rw [confirmedVerified, hlog, List.filter_append, List.map_append, verifiedAccounts_append,
      hverified, List.append_nil]
    rfl

section Cleanup

variable {net : Network (Chain τ) π} {programs : Programs τ π} {w w' : World (Chain τ) π}
  {accounts : List Address} {outcome : ProofAccounts × List Signature} {landed : List (Landing π)}

theorem Cleaned.onlyClose
    (h : Cleaned (net.withPrograms programs) w accounts accounts outcome landed w') : OnlyClose landed :=
  fun a i hi => (h.closes a i hi).1

/-- What is listed as closed is gone. -/
theorem Cleaned.gone (h : Cleaned (net.withPrograms programs) w accounts accounts outcome landed w')
    {a : Address} (ha : a ∈ outcome.1.closed) : w'.chain.proofAccount a = none := by
  have hlife := life_of_executed h.lands.executed a
  rcases life_closes (fun i hi => (h.closes a i hi).1) hlife with hnone | ⟨hnil, -⟩
  · exact hnone
  · exact absurd hnil (h.closed a ha)

/-- Accounts that were not to be closed stay as they are. -/
theorem Cleaned.others (h : Cleaned (net.withPrograms programs) w accounts accounts outcome landed w')
    {a : Address} (ha : a ∉ accounts) : w'.chain.proofAccount a = w.chain.proofAccount a := by
  have hlife := life_of_executed h.lands.executed a
  have hnone : (landed.map Landing.instructions).flatten.filterMap (·.about a) = [] :=
    List.eq_nil_iff_forall_not_mem.mpr fun i hi => ha (h.closes a i hi).2
  rw [hnone] at hlife
  exact (Option.some.inj hlife).symm

/-- Closing the accounts created, but for those listed as left open anyway, accounts for all. -/
theorem Cleaned.accountsFor
    (h : Cleaned (net.withPrograms programs) w accounts accounts outcome landed w')
    (unverified : List Address) (hcreated : ∀ a ∈ createdAccounts (landedTransactions w.events),
      a ∈ accounts ∨ a ∈ unverified) {e : Error}
    (he : e.proofAccounts = some { closed := outcome.1.closed
                                   leftOpen := outcome.1.leftOpen ++ unverified }) :
    Accounted e w' := by
  constructor
  · intro a ha hopen
    rw [(h.onlyClose.log h.lands.logged).1] at ha
    rw [he, Option.getD_some, List.mem_append]
    rcases hcreated a ha with ha | ha
    · rcases h.accounted a ha with ha | ha
      · exact absurd (h.gone ha) hopen
      · exact .inl ha
    · exact .inr ha
  · intro a ha
    rw [he, Option.getD_some] at ha
    exact h.gone ha

end Cleanup

/-! ## Setting up -/

section SetUp

variable (s : Sender) (net : Network (Chain τ) π) (programs : Programs τ π) (kit : Kit π)

/-- How a setup of fewer than `k + 1` accounts ends: with `accounts` verified, or with an error of fewer
    than `k`, all of them known or one lost. -/
def SetUp (kit : Kit π) (k : Nat) (accounts : α → List Address) (r : Except Error α)
    (s' : World (Chain τ) π × ProofSetup) : Prop :=
  match r with
  | .ok a => s'.2.verified = accounts a ∧ s'.2.unverified = [] ∧
      SetupTracks kit s'.2.verified [] s'.1
  | .error e => e.proofAccounts = none ∧ s'.2.verified.length < k ∧
      (SetupTracks kit s'.2.verified s'.2.unverified s'.1 ∨
        Lost s'.2.verified s'.2.unverified s'.1)

/-- One more account is created and verified, or the setup ends. -/
theorem create_wp (proof : π) (split : Bool) {w : World (Chain τ) π} {setup : ProofSetup}
    (hunverified : setup.unverified = []) (h : SetupTracks kit setup.verified [] w) :
    (ProofSetup.create s (net.withPrograms programs) kit proof split).wp
      (SetUp kit (setup.verified.length + 1) fun a => setup.verified ++ [a]) (w, setup) := by
  obtain ⟨verified, unverified, signatures⟩ := setup
  obtain rfl : unverified = [] := hunverified
  have hfresh : ¬ (kit.newKeypair w.keyPairs ∈ verified ∨ kit.newKeypair w.keyPairs ∈ []) := by
    intro hmem
    obtain ⟨n, hn, heq⟩ := h.known _ hmem
    obtain rfl := kit.newKeypair_injective heq
    exact absurd hn (lt_irrefl _)
  have hkey : ∀ w' : World (Chain τ) π, w'.keyPairs = w.keyPairs + 1 →
      ∃ n < w'.keyPairs, kit.newKeypair n = kit.newKeypair w.keyPairs :=
    fun w' hw' => ⟨w.keyPairs, by omega, rfl⟩
  unfold ProofSetup.create
  rw [Effect.wp_bind, Effect.wp_onFst]
  refine Effect.wp_of_run (.ok (kit.newKeypair w.keyPairs)) { w with keyPairs := w.keyPairs + 1 }
    rfl ?_
  simp only
  generalize hw₁ : ({ w with keyPairs := w.keyPairs + 1 } : World (Chain τ) π).tick = w₁
  have hkeys₁ : w₁.keyPairs = w.keyPairs + 1 := by rw [← hw₁]; rfl
  have htracks : SetupTracks kit verified [] w₁ := by
    subst hw₁
    exact h.quiet rfl rfl (Nat.le_succ _)
  rw [Effect.wp_bind, Effect.wp_onFst, Effect.wp_mapError]
  refine Network.request_wp _ (fun message _ => ?_) ?_
  · rw [hw₁]
    exact ⟨rfl, Nat.lt_succ_self _, .inl htracks⟩
  · rw [hw₁]
    simp only [Except.mapError]
    cases split with
    | false =>
      have hsent := s.send_wp (net.withPrograms programs) kit
        [.proof (.createAccount (kit.newKeypair w.keyPairs) (net.withPrograms programs).rentExemption),
          .proof (.verifyProof proof (kit.newKeypair w.keyPairs) s.payer)]
        [kit.newKeypair w.keyPairs] "proofs" w₁
      simp only [Bool.false_eq_true, if_false]
      rw [Effect.wp_bind, Effect.wp_onFst]
      refine hsent.mono fun r w' hsent => ?_
      obtain ⟨landed, hsent⟩ := hsent
      have hcreate := htracks.create (onceAbout_create _ _ _ _) rfl []
        (by simp [verifiedAccounts]) hfresh (hkey _ hkeys₁) hsent
      cases r with
      | ok signature => exact ⟨rfl, rfl, hcreate⟩
      | error e => exact ⟨hsent.outcome.2, Nat.lt_succ_self _, hcreate⟩
    | true =>
      have hsent := s.send_wp (net.withPrograms programs) kit
        [.proof (.createAccount (kit.newKeypair w.keyPairs) (net.withPrograms programs).rentExemption)]
        [kit.newKeypair w.keyPairs] "proofs" w₁
      simp only [if_true]
      rw [Effect.wp_bind, Effect.wp_onFst]
      refine hsent.mono fun r w' hsent => ?_
      obtain ⟨landed, hsent⟩ := hsent
      have hcreate := htracks.create (onceAbout_createOnly _ _) rfl
        [kit.newKeypair w.keyPairs] (by simp [verifiedAccounts]) hfresh
        (hkey _ hkeys₁) hsent
      cases r with
      | error e => exact ⟨hsent.outcome.2, Nat.lt_succ_self _, hcreate⟩
      | ok signature =>
        have hcreated : SetupTracks kit verified ([] ++ [kit.newKeypair w.keyPairs]) w' := by
          simpa [verifiedAccounts] using hcreate
        have hsent' := s.send_wp (net.withPrograms programs) kit
          [.proof (.verifyProof proof (kit.newKeypair w.keyPairs) s.payer)] [] "proofs" w'
        simp only
        rw [Effect.wp_bind, Effect.wp_modify]
        simp only
        rw [Effect.wp_bind, Effect.wp_attempt, Effect.wp_onFst]
        refine hsent'.mono fun r w'' hsent' => ?_
        obtain ⟨landed', hsent'⟩ := hsent'
        have hverify := hcreated.verify hsent'
        cases r with
        | ok signature => exact ⟨rfl, rfl, hverify⟩
        | error e => exact ⟨hsent'.outcome.2, Nat.lt_succ_self _, .inl hverify⟩

variable {s net programs kit} {w : World (Chain τ) π}

/-- How preparing ends: with these accounts verified, or with an error that accounts for the accounts
    exactly if no creation landed unconfirmed. Then fewer than `k` were verified. -/
def Prepared (kit : Kit π) (k : Nat) (accounts : α → List Address) (r : Except Error α)
    (w' : World (Chain τ) π) : Prop :=
  match r with
  | .ok a => SetupTracks kit (accounts a) [] w'
  | .error e => (Accounted e w' ↔ CreatesConfirmed w'.events) ∧
      (CreatesConfirmed w'.events → (confirmedVerified w'.events).length < k)

theorem fail_wp (s : Sender) {setup : ProofSetup} {k : Nat} (hlength : setup.verified.length < k)
    (h : SetupTracks kit setup.verified setup.unverified w ∨ Lost setup.verified setup.unverified w)
    (e : Error) (accounts : α → List Address) :
    (setup.fail s (net.withPrograms programs) kit e).wp
      (fun r w' => ∃ e', r = .ok e' ∧ Prepared kit k accounts (.error e') w') w := by
  unfold ProofSetup.fail
  rw [Effect.wp_bind]
  refine (closeProofAccounts_cleaned s _ kit setup.verified w).mono fun r w' hcleaned => ?_
  obtain ⟨⟨outcome, closing⟩, rfl, landed, hcleaned⟩ := hcleaned
  obtain ⟨hcreated, hconfirmed, hverified⟩ := hcleaned.onlyClose.log hcleaned.lands.logged
  simp only [Effect.wp_pure]
  refine ⟨_, rfl, ?_⟩
  rw [Prepared, hconfirmed, hverified]
  rcases h with h | h
  · refine ⟨iff_of_true ?_ h.confirmed, fun _ => by rwa [h.verified_eq]⟩
    exact hcleaned.accountsFor _ (fun a ha => (h.created a).mp ha) rfl
  · refine ⟨iff_of_false (fun haccounted => ?_) h.unconfirmed, fun hall => absurd hall h.unconfirmed⟩
    obtain ⟨a, ha, hopen, hverified, hunverified⟩ := h.account
    have hmem := haccounted.leftOpen a (hcreated ▸ ha) (by rwa [hcleaned.others hverified])
    rcases List.mem_append.mp hmem with hmem | hmem
    · exact hverified (hcleaned.subset hmem)
    · exact hunverified hmem

theorem run_wp (s : Sender) {created : Effect (World (Chain τ) π × ProofSetup) Error α} {k : Nat}
    {accounts : α → List Address} (hcreated : created.wp (SetUp kit k accounts) (w, {})) :
    (ProofSetup.run s (net.withPrograms programs) kit created).wp
      (Prepared kit k fun a => accounts a.1) w := by
  unfold ProofSetup.run
  rw [Effect.wp_bind, Effect.wp_withState]
  refine hcreated.mono fun r s' h => ?_
  cases r with
  | ok a =>
    obtain ⟨hverified, -, htracks⟩ := h
    rw [hverified] at htracks
    exact htracks
  | error e =>
    obtain ⟨-, hlength, h⟩ := h
    simp only
    rw [Effect.wp_bind]
    refine (fail_wp s hlength h e fun a : α × List Signature => accounts a.1).mono fun r w' hfail => ?_
    obtain ⟨e', rfl, hprepared⟩ := hfail
    exact hprepared

end SetUp

/-! ## Reading first -/

/-- Nothing landed, and no key pair was generated. -/
structure Untouched (w w' : World (Chain τ) π) : Prop where
  landed : landings w'.events = landings w.events
  chain : w'.chain = w.chain
  keyPairs : w'.keyPairs = w.keyPairs

instance : IsPreorder (World (Chain τ) π) Untouched where
  refl _ := ⟨rfl, rfl, rfl⟩
  trans _ _ _ h h' := ⟨h'.landed.trans h.landed, h'.chain.trans h.chain, h'.keyPairs.trans h.keyPairs⟩

/-- Reading touches nothing, and its errors have nothing to do with proof accounts. -/
structure Reads (m : Effect (World (Chain τ) π) Error α) : Prop where
  within : m.Within Untouched
  raises : m.Raises (·.proofAccounts = none)

namespace Reads

theorem pure (a : α) : Reads (pure a : Effect (World (Chain τ) π) Error α) := ⟨.pure a, .pure a⟩

theorem throw {e : Error} (h : e.proofAccounts = none) :
    Reads (Effect.throw e : Effect (World (Chain τ) π) Error α) := ⟨.throw e, .throw h⟩

theorem get : Reads (Effect.get : Effect (World (Chain τ) π) Error _) := ⟨.get, .get⟩

theorem ofExcept {r : Except Error α} (h : r.Raises (·.proofAccounts = none)) :
    Reads (Effect.ofExcept r : Effect (World (Chain τ) π) Error α) := ⟨.ofExcept r, .ofExcept h⟩

theorem bind {m : Effect (World (Chain τ) π) Error β} {f : β → Effect (World (Chain τ) π) Error α}
    (hm : Reads m) (hf : ∀ b, Reads (f b)) : Reads (m >>= f) :=
  ⟨hm.within.bind fun b => (hf b).within, hm.raises.bind fun b => (hf b).raises⟩

end Reads

section Reading

variable {F G : Type} [CommRing F] [AddCommGroup G] [Module F G] (net : Network (Chain τ) π)
  (accounts : Accounts (Chain τ)) (zk : ZkSdk F G)

theorem reads_fetch (address : Address) (operation : String) :
    Reads (fetch net accounts address operation) where
  within := (Sdk.within_request net (fun _ => ⟨rfl, rfl, rfl⟩) _ _).mapError _
  raises := by
    refine Effect.Raises.mapError (fun e => ?_) _
    rfl

theorem raises_mintInfoOf (programId mint : Address) (operation : String)
    (account : Option AccountData) :
    (mintInfoOf zk programId mint operation account).Raises (·.proofAccounts = none) := by
  have hnew : ∀ code message, (Except.error (Error.new code operation message) :
      Except Error (MintInfo G)).Raises (·.proofAccounts = none) := fun _ _ => .error rfl
  unfold mintInfoOf
  dsimp only
  split
  · exact hnew _ _
  · split
    · exact hnew _ _
    · split
      · exact hnew _ _
      · split
        · exact hnew _ _
        · exact .ok _
        · split
          · exact hnew _ _
          · exact .ok _

theorem reads_readMint (programId mint : Address) (operation : String) :
    Reads (readMint net accounts zk programId mint operation) :=
  (reads_fetch net accounts mint operation).bind fun account =>
    .ofExcept (raises_mintInfoOf zk programId mint operation account)

theorem reads_readTokenAccount (address mint : Address) (operation : String) :
    Reads (readTokenAccount net accounts address mint operation) := by
  refine (reads_fetch net accounts address operation).bind fun account => .ofExcept ?_
  unfold tokenAccountOf
  split
  · exact .ok _
  · split
    · exact .error rfl
    · split
      · exact .error rfl
      · exact .ok _

theorem reads_readConfiguredAccount (address mint : Address) (operation whose : String) :
    Reads (readConfiguredAccount net accounts address mint operation whose) := by
  refine (reads_readTokenAccount net accounts address mint operation).bind fun account => .ofExcept ?_
  unfold configured
  split
  · exact .error rfl
  · split
    · exact .error rfl
    · exact .ok _

theorem raises_assertCanReceive (ct : ConfidentialTransferAccountState) (address : Address)
    (operation whose : String) :
    (assertCanReceive ct address operation whose).Raises (·.proofAccounts = none) := by
  unfold assertCanReceive
  dsimp only
  split
  · exact .error rfl
  · split
    · exact .error rfl
    · split
      · exact .error rfl
      · exact .ok _

theorem raises_assertKeysMatch (keys : ConfidentialKeypairs F) (ct : ConfidentialTransferAccountState)
    (address : Address) (operation : String) :
    (assertKeysMatch zk keys ct address operation).Raises (·.proofAccounts = none) := by
  unfold assertKeysMatch
  split
  · exact .error rfl
  · exact .ok _

theorem raises_availableBalance (ct : ConfidentialTransferAccountState) (ae : Bytes)
    (address : Address) (operation : String) :
    (availableBalance zk ct ae address operation).Raises (·.proofAccounts = none) := by
  unfold availableBalance
  dsimp only
  split
  · exact .error rfl
  · refine Except.Raises.mapError (fun e => ?_) _
    rfl

theorem raises_checkAmount (amount : Nat) (operation : String) (capped : Bool) :
    (checkAmount amount operation capped).Raises (·.proofAccounts = none) := by
  unfold checkAmount
  split
  · exact .error rfl
  · split
    · exact .error rfl
    · exact .ok _

end Reading

/-! ## Preparing -/

/-- From a world in which nothing has landed, preparing ends as `Prepared` says. -/
def Prepares (kit : Kit π) (k : Nat) (accounts : α → List Address)
    (m : Effect (World (Chain τ) π) Error α) : Prop :=
  ∀ w, landings w.events = [] → m.wp (Prepared kit k accounts) w

section Preparing

variable {kit : Kit π} {k : Nat} {accounts : α → List Address}

/-- An error before anything landed. -/
theorem Prepared.early (hk : 0 < k) {e : Error} (he : e.proofAccounts = none)
    {w : World (Chain τ) π} (hw : landings w.events = []) :
    Prepared kit k accounts (.error e) w := by
  have hstart := SetupTracks.start kit hw
  refine ⟨iff_of_true (.of_none he ?_) hstart.confirmed, fun _ => ?_⟩
  · simp [landedTransactions_eq, hw, createdAccounts]
  · rw [hstart.verified_eq]
    exact hk

theorem Prepares.bind (hk : 0 < k) {m : Effect (World (Chain τ) π) Error β}
    {f : β → Effect (World (Chain τ) π) Error α} (hm : Reads m)
    (hf : ∀ b, Prepares kit k accounts (f b)) : Prepares kit k accounts (m >>= f) := by
  intro w hw
  refine Effect.wp.bind ((hm.within w).and (hm.raises w)) (fun b w' h => ?_) fun e w' h => ?_
  · exact hf b w' (h.1.landed.trans hw)
  · exact .early hk (h.2 e rfl) (h.1.landed.trans hw)

/-- What is made of the accounts afterwards. -/
theorem Prepared.bind {m : Effect (World (Chain τ) π) Error β} {accounts' : β → List Address}
    {w : World (Chain τ) π} (hm : m.wp (Prepared kit k accounts') w)
    {f : β → Effect (World (Chain τ) π) Error α}
    (hf : ∀ b w', SetupTracks kit (accounts' b) [] w' → (f b).wp (Prepared kit k accounts) w') :
    (m >>= f).wp (Prepared kit k accounts) w :=
  Effect.wp.bind hm hf fun _ _ h => h

/-- An error of a setup is one of a larger setup. -/
theorem SetUp.error {n : Nat} (hn : n ≤ k) {accounts' : β → List Address} {e : Error}
    {s' : World (Chain τ) π × ProofSetup} (h : SetUp kit n accounts' (.error e) s') :
    SetUp kit k accounts (.error e) s' :=
  ⟨h.1, h.2.1.trans_le hn, h.2.2⟩

variable (s : Sender) (net : Network (Chain τ) π) (programs : Programs τ π) (kit)

/-- The three accounts of a transfer. -/
theorem createTransfer_wp (equality validity range : π) {w : World (Chain τ) π}
    (hw : landings w.events = []) :
    (do
      let equality ← ProofSetup.create s (net.withPrograms programs) kit equality false
      let validity ← ProofSetup.create s (net.withPrograms programs) kit validity false
      let range ← ProofSetup.create s (net.withPrograms programs) kit range true
      pure (equality, validity, range)).wp
      (SetUp kit 3 fun a => [a.1, a.2.1, a.2.2]) (w, {}) := by
  refine Effect.wp.bind (create_wp s net programs kit equality false rfl (.start kit hw))
    (fun a s₁ h₁ => ?_) fun e s₁ h₁ => h₁.error (by decide)
  obtain ⟨hverified₁, hunverified₁, htracks₁⟩ := h₁
  refine Effect.wp.bind (create_wp s net programs kit validity false hunverified₁ htracks₁)
    (fun b s₂ h₂ => ?_) fun e s₂ h₂ => h₂.error (by simp [hverified₁])
  obtain ⟨hverified₂, hunverified₂, htracks₂⟩ := h₂
  refine Effect.wp.bind (create_wp s net programs kit range true hunverified₂ htracks₂)
    (fun d s₃ h₃ => ?_) fun e s₃ h₃ => h₃.error (by simp [hverified₂, hverified₁])
  obtain ⟨hverified₃, hunverified₃, htracks₃⟩ := h₃
  have hall : s₃.2.verified = [a, b, d] := by
    rw [hverified₃, hverified₂, hverified₁]
    rfl
  exact ⟨hall, hunverified₃, htracks₃⟩

/-- The two accounts of a withdraw. -/
theorem createWithdraw_wp (equality range : π) {w : World (Chain τ) π}
    (hw : landings w.events = []) :
    (do
      let equality ← ProofSetup.create s (net.withPrograms programs) kit equality false
      let range ← ProofSetup.create s (net.withPrograms programs) kit range true
      pure (equality, range)).wp
      (SetUp kit 2 fun a => [a.1, a.2]) (w, {}) := by
  refine Effect.wp.bind (create_wp s net programs kit equality false rfl (.start kit hw))
    (fun a s₁ h₁ => ?_) fun e s₁ h₁ => h₁.error (by decide)
  obtain ⟨hverified₁, hunverified₁, htracks₁⟩ := h₁
  refine Effect.wp.bind (create_wp s net programs kit range true hunverified₁ htracks₁)
    (fun b s₂ h₂ => ?_) fun e s₂ h₂ => h₂.error (by simp [hverified₁])
  obtain ⟨hverified₂, hunverified₂, htracks₂⟩ := h₂
  have hall : s₂.2.verified = [a, b] := by
    rw [hverified₂, hverified₁]
    rfl
  exact ⟨hall, hunverified₂, htracks₂⟩

end Preparing

/-! ## The operations -/

/-- The client over this chain. -/
def Client.withPrograms {F G : Type} [CommRing F] [AddCommGroup G] [Module F G]
    (c : Client (Chain τ) π F G) (programs : Programs τ π) : Client (Chain τ) π F G :=
  { c with net := c.net.withPrograms programs }

section Operations

variable {F G : Type} [CommRing F] [AddCommGroup G] [Module F G] (c : Client (Chain τ) π F G)
  (programs : Programs τ π)

theorem reads_deriveKeys (owner : Signer F) (operation : String) :
    Reads (Client.deriveKeys owner operation : Effect (World (Chain τ) π) Error _) := by
  refine Reads.get.bind fun w => .ofExcept fun e he => ?_
  cases hkeys : owner.derive w.clock with
  | ok keys => simp [hkeys, Except.mapError] at he
  | error e' =>
    obtain rfl : e'.within operation = e := by simpa [hkeys, Except.mapError] using he
    exact owner.derive_proofAccounts _ e' hkeys

theorem reads_transferChecks (operation : String) (mint source : Address)
    (keys : ConfidentialKeypairs F) (destination : Address) (amount : Nat) :
    Reads (c.transferChecks operation mint source keys destination amount) := by
  refine (reads_readConfiguredAccount _ _ _ _ _ _).bind fun account => ?_
  refine (Reads.ofExcept (raises_assertKeysMatch _ _ _ _ _)).bind fun _ => ?_
  refine (reads_readConfiguredAccount _ _ _ _ _ _).bind fun account' => ?_
  refine (Reads.ofExcept (raises_assertCanReceive _ _ _ _)).bind fun _ => ?_
  refine (Reads.ofExcept (raises_availableBalance _ _ _ _ _)).bind fun available => ?_
  split
  · exact .throw rfl
  · split
    · exact .throw rfl
    · exact .pure _

theorem reads_withdrawChecks (operation : String) (mint token : Address)
    (keys : ConfidentialKeypairs F) (amount : Nat) :
    Reads (c.withdrawChecks operation mint token keys amount) := by
  refine (reads_readConfiguredAccount _ _ _ _ _ _).bind fun account => ?_
  refine (Reads.ofExcept (raises_assertKeysMatch _ _ _ _ _)).bind fun _ => ?_
  refine (Reads.ofExcept (raises_availableBalance _ _ _ _ _)).bind fun available => ?_
  split
  · exact .throw rfl
  · exact .pure _

theorem raises_proofError {r : Except String β} (operation : String) :
    (r.mapError (proofError operation)).Raises (·.proofAccounts = none) := by
  refine Except.Raises.mapError (fun e => ?_) _
  rfl

theorem reads_transferProofs (operation : String) (mintInfo : MintInfo G)
    (keys : ConfidentialKeypairs F) (amount : Nat) (sourceCt : ConfidentialTransferAccountState)
    (destinationPubkey : G) :
    Reads (c.transferProofs operation mintInfo keys amount sourceCt destinationPubkey) :=
  Reads.get.bind fun _ => (Reads.ofExcept (raises_proofError operation)).bind fun _ =>
    (Reads.ofExcept (raises_proofError operation)).bind fun _ => .pure _

theorem reads_withdrawProofs (operation : String) (keys : ConfidentialKeypairs F) (amount : Nat)
    (ct : ConfidentialTransferAccountState) :
    Reads (c.withdrawProofs operation keys amount ct) :=
  Reads.get.bind fun _ => (Reads.ofExcept (raises_proofError operation)).bind fun _ =>
    (Reads.ofExcept (raises_proofError operation)).bind fun _ => .pure _

theorem prepares_transferInner (operation : String) (mint : Address) (mintInfo : MintInfo G)
    (source : Address) (keys : ConfidentialKeypairs F) (destination : Address) (amount : Nat) :
    Prepares c.kit 3 PreparedTransfer.proofAccounts ((c.withPrograms programs).prepareTransferInner
      operation mint mintInfo source keys destination amount) := by
  refine .bind (by decide) (reads_transferChecks _ _ _ _ _ _ _) fun checked => ?_
  refine .bind (by decide) (reads_transferProofs _ _ _ _ _ _ _) fun proofs => ?_
  intro w hw
  refine Prepared.bind (run_wp _ (createTransfer_wp c.kit _ c.net programs _ _ _ hw))
    fun accounts w' h => ?_
  exact h

theorem prepares_withdrawInner (operation : String) (mint : Address) (decimals : Nat)
    (token : Address) (keys : ConfidentialKeypairs F) (amount : Nat) :
    Prepares c.kit 2 PreparedWithdraw.proofAccounts ((c.withPrograms programs).prepareWithdrawInner
      operation mint decimals token keys amount) := by
  refine .bind (by decide) (reads_withdrawChecks _ _ _ _ _ _) fun checked => ?_
  refine .bind (by decide) (reads_withdrawProofs _ _ _ _ _) fun proofs => ?_
  intro w hw
  refine Prepared.bind (run_wp _ (createWithdraw_wp c.kit _ c.net programs _ _ hw))
    fun accounts w' h => ?_
  exact h

theorem prepares_transfer (mint source : Address) (keys : ConfidentialKeypairs F)
    (destination : Address) (amount : Nat) :
    Prepares c.kit 3 PreparedTransfer.proofAccounts
      ((c.withPrograms programs).prepareTransfer mint source keys destination amount) :=
  .bind (by decide) (.ofExcept (raises_checkAmount _ _ _)) fun _ =>
    .bind (by decide) (reads_readMint _ _ _ _ _ _) fun _ =>
      prepares_transferInner c programs _ _ _ _ _ _ _

theorem prepares_withdraw (mint token : Address) (keys : ConfidentialKeypairs F) (amount : Nat) :
    Prepares c.kit 2 PreparedWithdraw.proofAccounts
      ((c.withPrograms programs).prepareWithdraw mint token keys amount) :=
  .bind (by decide) (.ofExcept (raises_checkAmount _ _ _)) fun _ =>
    .bind (by decide) (reads_readMint _ _ _ _ _ _) fun _ =>
      prepares_withdrawInner c programs _ _ _ _ _ _

theorem prepares_configure (keys : ConfidentialKeypairs F) :
    Prepares c.kit 1 (fun p => [p.pubkeyValidityProof])
      ((c.withPrograms programs).prepareConfigure keys) := by
  refine .bind (by decide) .get fun w => .bind (by decide) (.ofExcept ?_) fun proof => ?_
  · refine Except.Raises.mapError (fun e => ?_) _
    rfl
  · intro w hw
    refine Prepared.bind (run_wp _ (create_wp _ c.net programs c.kit proof false rfl (.start c.kit hw)))
      fun accounts w' h => ?_
    exact h

/-! ## Running -/

theorem Sent.onlyClose {net : Network (Chain τ) π} {is : List (Instruction π)}
    {w w' : World (Chain τ) π} {landed : List (Landing π)} {r : Except Error Signature}
    (h : Sent net is w landed r w')
    (his : ∀ a, ∀ i ∈ is.filterMap (·.about a), i.isClose = true) : OnlyClose landed :=
  fun a i hi => his a i (h.about hi)

/-- The error accounts for all accounts, and every creation was confirmed. -/
structure AllAccounted (e : Error) (w : World (Chain τ) π) : Prop where
  accounted : Accounted e w
  confirmed : CreatesConfirmed w.events

/-- Abandoning all accounts that were created. -/
theorem abandon_wp (operation : String) {proofAccounts : List Address} (signatures : List Signature)
    (e : Error) {w : World (Chain τ) π}
    (hcreated : ∀ a ∈ createdAccounts (landedTransactions w.events), a ∈ proofAccounts)
    (hconfirmed : CreatesConfirmed w.events) :
    ((c.withPrograms programs).abandon operation proofAccounts signatures e).wp
      (fun r w' => ∃ e', r = .ok e' ∧ AllAccounted e' w') w := by
  unfold Client.abandon
  rw [Effect.wp_bind]
  refine (closeProofAccounts_cleaned _ (c.net.withPrograms programs) c.kit proofAccounts w).mono
    fun r w' hcleaned => ?_
  obtain ⟨⟨outcome, closing⟩, rfl, landed, hcleaned⟩ := hcleaned
  refine ⟨_, rfl, ?_, (hcleaned.onlyClose.log hcleaned.lands.logged).2.1.mpr hconfirmed⟩
  refine hcleaned.accountsFor [] (fun a ha => .inl (hcreated a ha)) ?_
  simp [Error.withSignatures, Error.withProofAccounts]

/-- A transfer or withdraw whose accounts are set up fails only with an error that accounts for them. -/
theorem runWithProofs_wp (operation : String) (instruction : Action) (owner : Signer F)
    {proofAccounts : List Address} (signatures : List Signature) {w : World (Chain τ) π}
    (h : SetupTracks c.kit proofAccounts [] w) :
    ((c.withPrograms programs).runWithProofs operation instruction owner proofAccounts signatures).wp
      (fun r w' => ∀ e, r = .error e → AllAccounted e w') w := by
  unfold Client.runWithProofs
  dsimp only
  rw [Effect.wp_bind, Effect.wp_attempt]
  refine (((c.withPrograms programs).sender operation).send_wp (c.net.withPrograms programs) c.kit _
    [owner.pubkey] operation w).mono fun r w₁ hsent => ?_
  obtain ⟨landed, hsent⟩ := hsent
  have hcloses : OnlyClose landed := by
    refine hsent.onlyClose fun a i hi => ?_
    split at hi
    · rw [List.filterMap_cons_none rfl] at hi
      obtain ⟨rfl, -⟩ := mem_about_closeInstructions hi
      rfl
    · simp [Instruction.about] at hi
  obtain ⟨hcreated, hconfirmed, -⟩ := hcloses.log hsent.lands.logged
  cases r with
  | error e =>
    simp only
    rw [Effect.wp_bind]
    refine (abandon_wp c programs operation signatures e (fun a ha => ?_)
      (hconfirmed.mpr h.confirmed)).mono fun r w' habandoned => ?_
    · rw [hcreated, h.created] at ha
      exact ha.resolve_right (by simp)
    · obtain ⟨e', rfl, hall⟩ := habandoned
      rintro _ ⟨⟩
      exact hall
  | ok signature =>
    simp only
    split
    · rintro _ ⟨⟩
    · rw [Effect.wp_bind]
      refine (closeProofAccounts_cleaned _ (c.net.withPrograms programs) c.kit proofAccounts w₁).mono
        fun r w' hcleaned => ?_
      obtain ⟨⟨outcome, closing⟩, rfl, -⟩ := hcleaned
      rintro _ ⟨⟩

/-- Finding the hook's accounts changes nothing, or fails with an error that accounts for all. -/
theorem withHookAccounts_wp (operation : String) (mintInfo : MintInfo G) {prepared : PreparedTransfer}
    (authority : Address) (instruction : Action) {w : World (Chain τ) π}
    (h : SetupTracks c.kit prepared.proofAccounts [] w) :
    ((c.withPrograms programs).withHookAccounts operation mintInfo prepared authority instruction).wp
      (fun r w' => match r with
        | .ok _ => SetupTracks c.kit prepared.proofAccounts [] w'
        | .error e => AllAccounted e w') w := by
  unfold Client.withHookAccounts
  split
  · rw [Effect.wp_bind, Effect.wp_attempt]
    have hresolves : Reads ((c.withPrograms programs).transferHookAccounts prepared.mint
        prepared.sourceTokenAccount prepared.destinationTokenAccount authority) := by
      refine Reads.get.bind fun w => .ofExcept ?_
      refine Except.Raises.mapError (fun e => ?_) _
      rfl
    refine (hresolves.within w).mono fun r w₁ huntouched => ?_
    have htracks := h.quiet huntouched.landed huntouched.chain huntouched.keyPairs.ge
    cases r with
    | ok extra => exact htracks
    | error e =>
      simp only
      rw [Effect.wp_bind]
      refine (abandon_wp c programs operation prepared.signatures e (fun a ha => ?_)
        htracks.confirmed).mono fun r w' habandoned => ?_
      · exact ((htracks.created a).mp ha).resolve_right (by simp)
      · obtain ⟨e', rfl, hall⟩ := habandoned
        exact hall
  · exact h

/-- The instruction can be built, or not all `k` proof accounts have been set up. -/
def Client.Buildable (c : Client (Chain τ) π F G) (k : Nat) (es : List (Event π)) : Prop :=
  ∀ message, c.tokenInstruction = .error message → (confirmedVerified es).length ≠ k

/-- From a world in which nothing has landed, the operation fails only with an error that accounts for
    all accounts exactly if no creation landed unconfirmed and the instruction can be built. -/
def Settles (c : Client (Chain τ) π F G) (k : Nat) (m : Effect (World (Chain τ) π) Error α) : Prop :=
  ∀ w, landings w.events = [] → m.wp (fun r w' => ∀ e, r = .error e →
    (Accounted e w' ↔ CreatesConfirmed w'.events ∧ c.Buildable k w'.events)) w

variable {c programs} {k : Nat}

theorem Settles.bind (hk : 0 < k) {m : Effect (World (Chain τ) π) Error β}
    {f : β → Effect (World (Chain τ) π) Error α} (hm : Reads m) (hf : ∀ b, Settles c k (f b)) :
    Settles c k (m >>= f) := by
  intro w hw
  refine Effect.wp.bind ((hm.within w).and (hm.raises w)) (fun b w' h => ?_) fun e w' h => ?_
  · exact hf b w' (h.1.landed.trans hw)
  · rintro _ ⟨⟩
    have hearly : Prepared c.kit k (fun _ : Unit => []) (.error e) w' :=
      .early hk (h.2 e rfl) (h.1.landed.trans hw)
    rw [hearly.1]
    exact ⟨fun hall => ⟨hall, fun _ _ => (hearly.2 hall).ne⟩, And.left⟩

/-- An instruction that is refused exactly if the token program's builder is; the error lists no
    accounts. -/
inductive Client.Builds (c : Client (Chain τ) π F G) : Except Error Action → Prop
  | refused {message : String} {e : Error} (hbuilder : c.tokenInstruction = .error message)
      (hnone : e.proofAccounts = none) : Builds c (.error e)
  | built {build : TokenCall → Action} (hbuilder : c.tokenInstruction = .ok build) (action : Action) :
      Builds c (.ok action)

theorem Client.Builds.within {r : Except Error Action} (h : c.Builds r) (operation : String) :
    c.Builds (r.mapError (·.within operation)) := by
  cases h with
  | refused hbuilder hnone => exact .refused hbuilder hnone
  | built hbuilder action => exact .built hbuilder action

theorem builds_transferInstruction (prepared : PreparedTransfer) (authority : Address) :
    c.Builds ((c.withPrograms programs).transferInstruction prepared authority) := by
  unfold Client.transferInstruction
  simp only [Client.withPrograms]
  cases hbuilder : c.tokenInstruction with
  | error message => exact .refused hbuilder rfl
  | ok build => exact .built hbuilder _

theorem builds_withdrawInstruction (prepared : PreparedWithdraw) (authority : Address) :
    c.Builds ((c.withPrograms programs).withdrawInstruction prepared authority) := by
  unfold Client.withdrawInstruction
  simp only [Client.withPrograms]
  cases hbuilder : c.tokenInstruction with
  | error message => exact .refused hbuilder rfl
  | ok build => exact .built hbuilder _

/-- After preparing, the instruction is built and the rest is run. -/
theorem Settles.of_prepares {m : Effect (World (Chain τ) π) Error β} {accounts : β → List Address}
    (hm : Prepares c.kit k accounts m) (hlength : ∀ b, (accounts b).length = k) (hk : 0 < k)
    {build : β → Except Error Action} (hbuild : ∀ b, c.Builds (build b))
    {f : β → Action → Effect (World (Chain τ) π) Error α}
    (hf : ∀ b action w, SetupTracks c.kit (accounts b) [] w →
      (f b action).wp (fun r w' => ∀ e, r = .error e → AllAccounted e w') w) :
    Settles c k (m >>= fun b => Effect.ofExcept (build b) >>= f b) := by
  intro w hw
  refine Effect.wp.bind (hm w hw) (fun b w₁ h => ?_) fun e w' h => ?_
  · have htracks : SetupTracks c.kit (accounts b) [] w₁ := h
    have hbuilds := hbuild b
    rw [Effect.wp_bind, Effect.wp_ofExcept]
    cases haction : build b with
    | error e =>
      rw [haction] at hbuilds
      rintro _ ⟨⟩
      cases hbuilds with
      | refused hmessage he =>
        refine iff_of_false (fun haccounted => ?_) fun hall => ?_
        · obtain ⟨a, ha⟩ := List.exists_mem_of_length_pos (by rw [hlength b]; exact hk)
          have hmem := haccounted.leftOpen a ((htracks.created a).mpr (.inl ha))
            (htracks.stands a (.inl ha))
          simp [he] at hmem
        · exact hall.2 _ hmessage (by rw [htracks.verified_eq, hlength b])
    | ok action =>
      rw [haction] at hbuilds
      cases hbuilds with
      | built hbuilder =>
        refine (hf b action w₁ htracks).mono fun r w' hall e he => ?_
        have hbuildable : c.Buildable k w'.events := by
          intro message hmessage
          cases hbuilder.symm.trans hmessage
        exact iff_of_true (hall e he).accounted ⟨(hall e he).confirmed, hbuildable⟩
  · rintro _ ⟨⟩
    rw [h.1]
    exact ⟨fun hall => ⟨hall, fun _ _ => (h.2 hall).ne⟩, And.left⟩

variable (c programs)

theorem settles_transfer (owner : Signer F) (mint destinationOwner : Address) (amount : Nat) :
    Settles c 3 ((c.withPrograms programs).transfer owner mint destinationOwner amount) := by
  refine .bind (by decide) (.ofExcept (raises_checkAmount _ _ _)) fun _ => ?_
  refine .bind (by decide) (reads_readMint _ _ _ _ _ _) fun mintInfo => ?_
  refine .bind (by decide) (reads_deriveKeys _ _) fun keys => ?_
  refine .of_prepares (prepares_transferInner c programs _ _ _ _ _ _ _) (fun _ => rfl) (by decide)
    (fun prepared => (builds_transferInstruction prepared _).within _) fun prepared action w htracks => ?_
  refine Effect.wp.bind (withHookAccounts_wp c programs _ _ _ _ htracks)
    (fun instruction w' htracks' => ?_) fun e w' hall => ?_
  · refine Effect.wp.bind (runWithProofs_wp c programs _ _ _ _ htracks') (fun _ _ _ => ?_)
      fun e w' hall => ?_
    · rintro _ ⟨⟩
    · rintro _ ⟨⟩
      exact hall e rfl
  · rintro _ ⟨⟩
    exact hall

theorem settles_withdraw (owner : Signer F) (mint : Address) (amount : Nat) :
    Settles c 2 ((c.withPrograms programs).withdraw owner mint amount) := by
  refine .bind (by decide) (.ofExcept (raises_checkAmount _ _ _)) fun _ => ?_
  refine .bind (by decide) (reads_readMint _ _ _ _ _ _) fun mintInfo => ?_
  refine .bind (by decide) (reads_deriveKeys _ _) fun keys => ?_
  refine .of_prepares (prepares_withdrawInner c programs _ _ _ _ _ _) (fun _ => rfl) (by decide)
    (fun prepared => (builds_withdrawInstruction prepared _).within _) fun prepared action w htracks => ?_
  refine Effect.wp.bind (runWithProofs_wp c programs _ _ _ _ htracks) (fun _ _ _ => ?_)
    fun e w' hall => ?_
  · rintro _ ⟨⟩
  · rintro _ ⟨⟩
    exact hall e rfl

/-- The error of a failed call accounts for the proof accounts it created exactly if no creation landed
    without being confirmed and, once all were set up, the instruction could be built. -/
theorem accounts_for_created_iff (chain : Chain τ) (clock keyPairs : Nat) :
    (∀ mint source keys destination amount,
      ((c.withPrograms programs).prepareTransfer mint source keys destination amount).wp
        (fun r w' => ∀ e, r = .error e → (Accounted e w' ↔ CreatesConfirmed w'.events))
        { chain, clock, keyPairs }) ∧
    (∀ mint token keys amount,
      ((c.withPrograms programs).prepareWithdraw mint token keys amount).wp
        (fun r w' => ∀ e, r = .error e → (Accounted e w' ↔ CreatesConfirmed w'.events))
        { chain, clock, keyPairs }) ∧
    (∀ keys, ((c.withPrograms programs).prepareConfigure keys).wp
        (fun r w' => ∀ e, r = .error e → (Accounted e w' ↔ CreatesConfirmed w'.events))
        { chain, clock, keyPairs }) ∧
    (∀ owner mint destinationOwner amount,
      ((c.withPrograms programs).transfer owner mint destinationOwner amount).wp
        (fun r w' => ∀ e, r = .error e →
          (Accounted e w' ↔ CreatesConfirmed w'.events ∧ c.Buildable 3 w'.events))
        { chain, clock, keyPairs }) ∧
    (∀ owner mint amount, ((c.withPrograms programs).withdraw owner mint amount).wp
        (fun r w' => ∀ e, r = .error e →
          (Accounted e w' ↔ CreatesConfirmed w'.events ∧ c.Buildable 2 w'.events))
        { chain, clock, keyPairs }) := by
  have hprepared : ∀ {β : Type} {k : Nat} {accounts : β → List Address}
      {m : Effect (World (Chain τ) π) Error β}, Prepares c.kit k accounts m →
      m.wp (fun r w' => ∀ e, r = .error e → (Accounted e w' ↔ CreatesConfirmed w'.events))
        { chain, clock, keyPairs } := by
    intro β k accounts m hm
    refine (hm _ rfl).mono fun r w' h e he => ?_
    subst he
    exact h.1
  refine ⟨fun mint source keys destination amount => ?_, fun mint token keys amount => ?_,
    fun keys => ?_, fun owner mint destinationOwner amount => ?_, fun owner mint amount => ?_⟩
  · exact hprepared (prepares_transfer c programs mint source keys destination amount)
  · exact hprepared (prepares_withdraw c programs mint token keys amount)
  · exact hprepared (prepares_configure c programs keys)
  · exact settles_transfer c programs owner mint destinationOwner amount _ rfl
  · exact settles_withdraw c programs owner mint amount _ rfl

end Operations

/-! ## A creation that is not confirmed -/

namespace UnconfirmedCreation

/-- The first sending lands, but its sender is told that it could not be confirmed. -/
def net : Network (Chain Unit) Unit where
  execute _ _ _ := none
  interrupted n _ := if n = 3 then some "unable to confirm transaction" else none

def programs : Programs Unit Unit where
  operation _ _ _ := some ()

def client : Client (Chain Unit) Unit (ZMod (2 ^ 128)) (ZMod (2 ^ 128)) where
  net := net
  kit := .plain
  zk := .modular
  accounts _ _ _ := none
  payer := "payer"
  maxRetries := 1
  associatedTokenAddress owner mint _ := owner ++ "/" ++ mint
  transferProofData _ _ _ _ _ _ := .error "not needed"
  withdrawProofData _ _ _ _ := .error "not needed"
  pubkeyValidityProofData _ _ := .ok ()
  newDecryptableAvailableBalance _ _ _ _ := .error "not needed"
  tokenInstruction := .ok fun call => { ref := 0, programAddress := token2022ProgramAddress, call }
  extraAccountMetas _ _ _ _ _ _ := .ok []

def prepare := (client.withPrograms programs).prepareConfigure { elgamalSecret := 1, aesKey := [] }

def start : World (Chain Unit) Unit where
  chain := { proofAccounts := ∅, rest := () }

end UnconfirmedCreation

/-- The account was created by the first sending; the second fails because it exists, and the error
    lists nothing. -/
theorem unconfirmed_creation_unaccounted :
    UnconfirmedCreation.prepare.wp (fun r w' => ∃ e, r = .error e ∧ e.code = .transactionFailed ∧
      e.proofAccounts = some {} ∧ ¬ Accounted e w') UnconfirmedCreation.start := by
  have hlists : (match (UnconfirmedCreation.prepare UnconfirmedCreation.start).1 with
      | .ok _ => false
      | .error e => e.code == .transactionFailed && e.proofAccounts == some {}) = true := by
    decide +kernel
  have hcreated : "" ∈ createdAccounts (landedTransactions
      (UnconfirmedCreation.prepare UnconfirmedCreation.start).2.events) := by decide +kernel
  have hopen : ((UnconfirmedCreation.prepare UnconfirmedCreation.start).2.chain.proofAccount "").isSome =
      true := by decide +kernel
  unfold Effect.wp
  generalize UnconfirmedCreation.prepare UnconfirmedCreation.start = run at hlists hcreated hopen ⊢
  obtain ⟨r, w'⟩ := run
  cases r with
  | ok p => contradiction
  | error e =>
    obtain ⟨hcode, hnone⟩ : e.code = .transactionFailed ∧ e.proofAccounts = some {} := by
      simpa using hlists
    refine ⟨e, rfl, hcode, hnone, fun haccounted => ?_⟩
    have hmem := haccounted.leftOpen "" hcreated (Option.isSome_iff_ne_none.mp hopen)
    simp [hnone] at hmem

end Rust
