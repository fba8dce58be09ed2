-- SUMMARY: What a proof flow makes of each proof account, however far it gets.
import ConfidentialTransfers.Solana.ProofProgram
import ConfidentialTransfers.Sdk.FlowLandings
import ConfidentialTransfers.Sdk.ProofFlow

/-!
# The accounts of a flow

A flow's plan creates, fills and closes each of its proof accounts once, in that
order, whatever the planner does with it. So the transactions that have landed
when a flow stops determine what is left of each account.
-/

open Solana

namespace Sdk

variable {τ χ π : Type}

/-! ## The plan's instructions about one account -/

/-- The instructions about a proof account in a flow's plan. -/
def plannedLife (payer a : Address) (lamports : Nat) (proof : π) : List (ProofInstruction π) :=
  [.createAccount a lamports, .verifyProof proof a payer, closeContextStateProof payer a]

/-- In every order the plan of the flow allows, each of its proof accounts has its planned life, and
    nothing is about another account. -/
structure FlowLives (payer : Address) (flow : ProofFlow π) : Prop where
  own : ∀ a ∈ flow.proofAccounts, ∃ lamports proof, ∀ xs, (proofFlowToPlan flow).Linearizes xs →
    xs.filterMap (·.about a) = plannedLife payer a lamports proof
  other : ∀ a ∉ flow.proofAccounts, ∀ xs, (proofFlowToPlan flow).Linearizes xs →
    xs.filterMap (·.about a) = []

/-- The plans are those of the SDK, paid by `payer`. -/
def PaidBy (payer : Address) (plans : List (ContextStateProofPlan π)) : Prop :=
  ∀ p ∈ plans, ∃ lamports proof, p.setup = .sequence [.createAccount p.address lamports,
    .verifyProof proof p.address payer] ∧ p.cleanup = closeContextStateProof payer p.address

section Plans

variable {plans : List (ContextStateProofPlan π)}

/-- Among parallel plans with an account each, one plan has all the instructions about its account. -/
theorem about_parallel (hnodup : (plans.map (·.address)).Nodup) {p : ContextStateProofPlan π}
    (hp : p ∈ plans) {f : ContextStateProofPlan π → Plan (Instruction π)}
    (hf : ∀ q ∈ plans, ∀ i ∈ (f q).leaves, ∀ a, a ≠ q.address → i.about a = none)
    {xs : List (Instruction π)} (h : (Plan.parallel (plans.map f)).Linearizes xs) :
    ∃ ys, (f p).Linearizes ys ∧
      xs.filterMap (·.about p.address) = ys.filterMap (·.about p.address) := by
  obtain ⟨pre, post, rfl⟩ := List.append_of_mem hp
  have hne : ∀ q ∈ pre ++ post, p.address ≠ q.address := by
    intro q hq heq
    rw [List.map_append, List.map_cons, List.nodup_middle, List.nodup_cons, ← List.map_append] at hnodup
    exact hnodup.1 (List.mem_map.mpr ⟨q, hq, heq.symm⟩)
  rw [List.map_append, List.map_cons] at h
  refine h.parallel_filterMap (fun q' hq' i hi => ?_) (fun q' hq' i hi => ?_)
  · obtain ⟨q, hq, rfl⟩ := List.mem_map.mp hq'
    exact hf q (by simp [hq]) i hi _ (hne q (by simp [hq]))
  · obtain ⟨q, hq, rfl⟩ := List.mem_map.mp hq'
    exact hf q (by simp [hq]) i hi _ (hne q (by simp [hq]))

/-- The setup of one account of the SDK is about that account. -/
theorem about_setup_none {payer : Address} (hpaid : PaidBy payer plans) :
    ∀ q ∈ plans, ∀ i ∈ (q.setup.map Instruction.proof).leaves, ∀ a, a ≠ q.address →
      i.about a = none := by
  intro q hq i hi a ha
  obtain ⟨lamports, proof, hsetup, -⟩ := hpaid q hq
  rw [Plan.leaves_map, hsetup, Plan.leaves_sequence] at hi
  obtain rfl | rfl : i = .proof (.createAccount q.address lamports) ∨
      i = .proof (.verifyProof proof q.address payer) := by simpa using hi
  · simp [Instruction.about, ProofInstruction.address, ha.symm]
  · simp [Instruction.about, ProofInstruction.address, ha.symm]

/-- So is its cleanup. -/
theorem about_cleanup_none {payer : Address} (hpaid : PaidBy payer plans) :
    ∀ q ∈ plans, ∀ i ∈ (Plan.single (Instruction.proof q.cleanup)).leaves, ∀ a, a ≠ q.address →
      i.about a = none := by
  intro q hq i hi a ha
  obtain ⟨-, -, -, hcleanup⟩ := hpaid q hq
  obtain rfl : i = .proof q.cleanup := by simpa [Plan.leaves] using hi
  rw [hcleanup]
  simp [Instruction.about, ProofInstruction.address, closeContextStateProof, ha.symm]

end Plans

section ProofFlowOf

variable {F G : Type} [CommRing F] [AddCommGroup G] [Module F G]
  {plans : List (ContextStateProofPlan (ProofData F G))}

omit [AddCommGroup G] [Module F G] in
/-- The orders a flow's plan allows: the setups in parallel, the action, the cleanups in parallel. -/
theorem proofFlowOf_linearizes {action : Action} {xs : List (Instruction (ProofData F G))}
    (h : (proofFlowToPlan (proofFlowOf plans action)).Linearizes xs) :
    ∃ ps rs, xs = ps ++ .operation action :: rs ∧
      (Plan.parallel (plans.map fun q => q.setup.map Instruction.proof)).Linearizes ps ∧
      (Plan.parallel (plans.map fun q => .single (Instruction.proof q.cleanup))).Linearizes rs := by
  obtain ⟨ps, rs, hxs, hps, hrs⟩ := proofFlowToPlan_linearizes _ h
  refine ⟨ps, rs, hxs, ?_, ?_⟩
  · simpa [proofFlowOf, Plan.map, Plan.mapAll_eq, Function.comp_def] using hps
  · simpa [proofFlowOf, Plan.unordered, Function.comp_def] using hrs

omit [AddCommGroup G] [Module F G] in
/-- The SDK's flows treat their accounts as planned. -/
theorem flowLives_proofFlowOf {payer : Address} (hpaid : PaidBy payer plans)
    (hnodup : (plans.map (·.address)).Nodup) (action : Action) :
    FlowLives payer (proofFlowOf plans action) where
  own a ha := by
    obtain ⟨p, hp, rfl⟩ := List.mem_map.mp ha
    obtain ⟨lamports, proof, hsetup, hcleanup⟩ := hpaid p hp
    refine ⟨lamports, proof, fun xs hxs => ?_⟩
    obtain ⟨ps, rs, rfl, hps, hrs⟩ := proofFlowOf_linearizes hxs
    obtain ⟨ys, hys, hps'⟩ := about_parallel hnodup hp (about_setup_none hpaid) hps
    obtain ⟨zs, hzs, hrs'⟩ := about_parallel hnodup hp (about_cleanup_none hpaid) hrs
    rw [hsetup, Plan.map_sequence] at hys
    obtain rfl := hys.sequence
    cases hzs
    rw [List.filterMap_append, List.filterMap_cons_none rfl, hps', hrs', hcleanup]
    simp [plannedLife, Instruction.about, ProofInstruction.address, closeContextStateProof]
  other a ha xs hxs := by
    have hne : ∀ q ∈ plans, a ≠ q.address := by
      rintro q hq rfl
      exact ha (List.mem_map.mpr ⟨q, hq, rfl⟩)
    obtain ⟨ps, rs, rfl, hps, hrs⟩ := proofFlowOf_linearizes hxs
    have hps' : ps.filterMap (·.about a) = [] := by
      refine hps.filterMap_eq_nil fun i hi => ?_
      rw [Plan.leaves, Plan.leavesAll_eq] at hi
      obtain ⟨q', hq', hiq⟩ := List.mem_flatMap.mp hi
      obtain ⟨q, hq, rfl⟩ := List.mem_map.mp hq'
      exact about_setup_none hpaid q hq i hiq a (hne q hq)
    have hrs' : rs.filterMap (·.about a) = [] := by
      refine hrs.filterMap_eq_nil fun i hi => ?_
      rw [Plan.leaves, Plan.leavesAll_eq] at hi
      obtain ⟨q', hq', hiq⟩ := List.mem_flatMap.mp hi
      obtain ⟨q, hq, rfl⟩ := List.mem_map.mp hq'
      exact about_cleanup_none hpaid q hq i hiq a (hne q hq)
    rw [List.filterMap_append, List.filterMap_cons_none rfl, hps', hrs', List.append_nil]

variable (net : Network χ (ProofData F G)) (kit : Kit (ProofData F G))

omit [AddCommGroup G] [Module F G] in
theorem flowLives_transferFlow (input : TransferFlowInput F) (proofs : TransferProofs F G) (k : Nat) :
    FlowLives input.payer (transferFlow net kit input proofs k) := by
  refine flowLives_proofFlowOf ?_ ?_ _
  · intro p hp
    obtain rfl | rfl | rfl := by simpa using hp
    · exact ⟨_, _, rfl, rfl⟩
    · exact ⟨_, _, rfl, rfl⟩
    · exact ⟨_, _, rfl, rfl⟩
  · simp [contextStateProofPlan, kit.generateKeyPair_injective.eq_iff]

omit [AddCommGroup G] [Module F G] in
theorem flowLives_withdrawFlow (input : WithdrawFlowInput F) (proofs : WithdrawProofs F G) (k : Nat) :
    FlowLives input.payer (withdrawFlow net kit input proofs k) := by
  refine flowLives_proofFlowOf ?_ ?_ _
  · intro p hp
    obtain rfl | rfl := by simpa using hp
    · exact ⟨_, _, rfl, rfl⟩
    · exact ⟨_, _, rfl, rfl⟩
  · simp [contextStateProofPlan, kit.generateKeyPair_injective.eq_iff]

end ProofFlowOf

/-! ## What has landed -/

theorem Priced.about {is js : List (Instruction π)} (h : Priced is js) (a : Address) :
    js.filterMap (·.about a) = is.filterMap (·.about a) := by
  rcases h with rfl | ⟨price, rfl⟩
  · rfl
  · simp [Instruction.about]

/-- The transactions of a plan hold its instructions in an order the plan allows. -/
theorem PlannedTransactions.about {kit : Kit π} {flow : ProofFlow π}
    {txs : List (List (Instruction π))} (h : PlannedTransactions kit flow txs) :
    ∃ xs, (proofFlowToPlan flow).Linearizes xs ∧
      ∀ a, txs.flatten.filterMap (·.about a) = xs.filterMap (·.about a) := by
  obtain ⟨planned, hplan, hpriced⟩ := h
  refine ⟨_, kit.plan_linearizes hplan, fun a => ?_⟩
  clear hplan
  induction hpriced with
  | nil => rfl
  | cons head _ ih =>
    rw [List.flatten_cons, List.flatMap_cons, List.filterMap_append, List.filterMap_append,
      head.about a, ih]

/-- The instructions of closing transactions about an account close it. -/
theorem Closings.about {payer : Address} {addresses closed : List Address}
    {txs : List (List (Instruction π))} (h : Closings payer addresses closed txs) (a : Address) :
    ∀ i ∈ txs.flatten.filterMap (·.about a), i.isClose = true ∧ a ∈ addresses := by
  intro i hi
  obtain ⟨hmem, rfl⟩ := mem_filterMap_about.mp hi
  obtain ⟨is, his, hi⟩ := List.mem_flatten.mp hmem
  obtain ⟨batch, hbatch, hpriced⟩ := h.only is his
  have hclose : i ∈ (closingInstructions payer batch).filterMap (·.about i.address) := by
    rw [← hpriced.about]
    exact mem_filterMap_about.mpr ⟨hi, rfl⟩
  obtain ⟨hmem', -⟩ := mem_filterMap_about.mp hclose
  obtain ⟨b, hb, heq⟩ := List.mem_map.mp hmem'
  obtain rfl := Instruction.proof.inj heq
  exact ⟨rfl, hbatch hb⟩

/-- An account reported as closed has been closed by a transaction that landed. -/
theorem Closings.about_ne_nil {payer : Address} {addresses closed : List Address}
    {txs : List (List (Instruction π))} (h : Closings payer addresses closed txs) {a : Address}
    (ha : a ∈ closed) : txs.flatten.filterMap (·.about a) ≠ [] := by
  obtain ⟨batch, hbatch, is, his, hpriced⟩ := h.landed a ha
  have hmem : closeContextStateProof payer a ∈ is.filterMap (·.about a) := by
    rw [hpriced.about]
    exact mem_filterMap_about.mpr ⟨List.mem_map.mpr ⟨a, hbatch, rfl⟩, rfl⟩
  obtain ⟨hmem', ha'⟩ := mem_filterMap_about.mp hmem
  exact List.ne_nil_of_mem (mem_filterMap_about.mpr ⟨List.mem_flatten.mpr ⟨is, his, hmem'⟩, ha'⟩)

/-- What is left of an account `a` after transactions of a flow, its setup and its closings. -/
inductive AccountFate (payer a : Address) (txs : List (List (Instruction π)))
    (before : Option ProofAccount) : Option ProofAccount → Prop
  | notCreated {after : Option ProofAccount} (hcreated : a ∉ createdAccounts txs)
    (hafter : after = none ∨ after = before) :
    AccountFate payer a txs before after
  | notVerified (hcreated : a ∈ createdAccounts txs) (hverified : a ∉ verifiedAccounts txs)
    (lamports : Nat) :
    AccountFate payer a txs before (some { lamports })
  | verified {after : Option ProofAccount} (hcreated : a ∈ createdAccounts txs)
    (hverified : a ∈ verifiedAccounts txs)
    (hafter : after = none ∨ ∃ lamports, after = some ⟨lamports, some payer⟩) :
    AccountFate payer a txs before after

/-- The beginnings of a planned life. -/
theorem plannedLife_prefix {payer a : Address} {lamports : Nat} {proof : π}
    {is : List (ProofInstruction π)} (h : is <+: plannedLife payer a lamports proof) :
    is = [] ∨ is = [.createAccount a lamports] ∨
      is = [.createAccount a lamports, .verifyProof proof a payer] ∨
      is = plannedLife payer a lamports proof := by
  simp only [plannedLife, List.prefix_cons_iff, List.prefix_nil] at h
  rcases h with h | ⟨_, rfl, h | ⟨_, rfl, h | ⟨_, rfl, rfl⟩⟩⟩
  · exact .inl h
  · exact .inr (.inl (by rw [h]))
  · exact .inr (.inr (.inl (by rw [h])))
  · exact .inr (.inr (.inr rfl))

/-- A whole planned life leaves nothing. -/
theorem life_plannedLife {payer a : Address} {lamports : Nat} {proof : π}
    {before after : Option ProofAccount}
    (h : life (plannedLife payer a lamports proof) before = some after) : after = none := by
  cases before with
  | none =>
    simp [plannedLife, life_cons, ProofInstruction.onAccount, closeContextStateProof] at h
    exact h.symm
  | some account => simp [plannedLife, life_cons, ProofInstruction.onAccount] at h

/-- However far a planned life gets before the account is closed, this is left of it. -/
theorem accountFate_of_life {payer a : Address} (lamports : Nat) (proof : π)
    {first closing : List (List (Instruction π))}
    (hfirst : first.flatten.filterMap (·.about a) <+: plannedLife payer a lamports proof)
    (hclosing : ∀ i ∈ closing.flatten.filterMap (·.about a), i.isClose = true)
    {before after : Option ProofAccount}
    (hlife : life ((first ++ closing).flatten.filterMap (·.about a)) before = some after) :
    AccountFate payer a (first ++ closing) before after := by
  have hcreated : a ∈ createdAccounts (first ++ closing) ↔
      ∃ lamports, .createAccount a lamports ∈ first.flatten.filterMap (·.about a) := by
    rw [createdAccounts_append, List.mem_append, mem_createdAccounts, mem_createdAccounts]
    refine or_iff_left ?_
    rintro ⟨lamports', hmem⟩
    exact absurd (hclosing _ hmem) (by simp [ProofInstruction.isClose])
  have hverified : a ∈ verifiedAccounts (first ++ closing) ↔
      ∃ proof authority, .verifyProof proof a authority ∈ first.flatten.filterMap (·.about a) := by
    rw [verifiedAccounts_append, List.mem_append, mem_verifiedAccounts, mem_verifiedAccounts]
    refine or_iff_left ?_
    rintro ⟨proof', authority, hmem⟩
    exact absurd (hclosing _ hmem) (by simp [ProofInstruction.isClose])
  rw [List.flatten_append, List.filterMap_append, life_append] at hlife
  obtain ⟨middle, hmiddle, hlast⟩ := Option.bind_eq_some_iff.mp hlife
  rcases plannedLife_prefix hfirst with h | h | h | h
  · rw [h] at hmiddle hcreated
    obtain rfl : before = middle := Option.some.inj hmiddle
    refine .notCreated (by rw [hcreated]; simp) ?_
    exact (life_closes hclosing hlast).imp_right And.right
  · rw [h] at hmiddle hcreated hverified
    obtain rfl : some { lamports } = middle := by
      cases before with
      | none => exact Option.some.inj hmiddle
      | some account => simp [ProofInstruction.onAccount] at hmiddle
    obtain rfl := life_closes_unverified hclosing hlast
    exact .notVerified (hcreated.mpr ⟨lamports, by simp⟩) (by rw [hverified]; simp) lamports
  · rw [h] at hmiddle hcreated hverified
    obtain rfl : some ⟨lamports, some payer⟩ = middle := by
      cases before with
      | none => exact Option.some.inj hmiddle
      | some account => simp [life_cons, ProofInstruction.onAccount] at hmiddle
    refine .verified (hcreated.mpr ⟨lamports, by simp⟩) (hverified.mpr ⟨proof, payer, by simp⟩) ?_
    rcases life_closes hclosing hlast with hnone | ⟨-, hsame⟩
    · exact .inl hnone
    · exact .inr ⟨lamports, hsame⟩
  · rw [h] at hmiddle hcreated hverified
    obtain rfl : none = middle := (life_plannedLife hmiddle).symm
    refine .verified (hcreated.mpr ⟨lamports, by simp [plannedLife]⟩)
      (hverified.mpr ⟨proof, payer, by simp [plannedLife]⟩) ?_
    rcases life_closes hclosing hlast with hnone | ⟨-, hnone⟩
    · exact .inl hnone
    · exact .inl hnone

/-! ## Running a flow -/

variable (net : Network (Chain τ) π) (programs : Programs τ π)

/-- What a flow that ends in `r` has done to proof accounts by the transactions `landed`: it worked on
    its own accounts only, and reports those it created and left on the chain. -/
structure FlowTracks (payer : Address) (proofAccounts : List Address) (w : World (Chain τ) π)
    (landed : List (List (Instruction π))) (r : Except Thrown ProofFlowResult)
    (w' : World (Chain τ) π) : Prop where
  lands : w.Lands (net.withPrograms programs) landed w'
  others : ∀ a ∉ proofAccounts, landed.flatten.filterMap (·.about a) = []
  fates : ∀ a ∈ proofAccounts,
    AccountFate payer a landed (w.chain.proofAccount a) (w'.chain.proofAccount a)
  reported : ∀ a ∈ createdAccounts landed, w'.chain.proofAccount a ≠ none →
    a ∈ reportedOpen ProofFlowResult.proofAccountsLeftOpen r
  subset : reportedOpen ProofFlowResult.proofAccountsLeftOpen r ⊆ proofAccounts

/-- Nothing landed, so nothing is left. -/
theorem FlowTracks.unsent {payer : Address} {proofAccounts : List Address}
    {w w' : World (Chain τ) π} {message : String}
    (hlands : w.Lands (net.withPrograms programs) [] w') :
    FlowTracks net programs payer proofAccounts w [] (.error (.other message)) w' where
  lands := hlands
  others := by simp
  fates a _ := by
    have hlife := life_of_executed hlands.executed a
    have hsame : w.chain.proofAccount a = w'.chain.proofAccount a := by simpa using hlife
    exact .notCreated (by simp [createdAccounts]) (.inr hsame.symm)
  reported := by simp [createdAccounts]
  subset := by simp [reportedOpen, Thrown.leftOpen]

variable {net programs}

/-- An account that is there after proof accounts were closed is reported as left open. -/
theorem ClosedProofAccounts.mem_leftOpen {payer : Address} {addresses : List Address}
    {w w' : World (Chain τ) π} {p : ProofAccounts} {txs : List (List (Instruction π))}
    (h : ClosedProofAccounts (net.withPrograms programs) payer addresses w p txs w') {a : Address}
    (ha : a ∈ addresses) (hopen : w'.chain.proofAccount a ≠ none) : a ∈ p.leftOpen := by
  have hlife := life_of_executed h.lands.executed a
  have hclosing := fun i hi => (h.closings.about a i hi).1
  rcases h.accounted a ha with hleft | hclosed | ⟨n, howner⟩
  · exact hleft
  · rcases life_closes hclosing hlife with hnone | ⟨hnil, -⟩
    · exact absurd hnone hopen
    · exact absurd hnil (h.closings.about_ne_nil hclosed)
  · have hnone : w.chain.proofAccount a = none := by
      by_contra hsome
      exact howner ((net.withPrograms_owner programs n w.chain a).mpr hsome)
    rcases life_closes hclosing hlife with hgone | ⟨-, hsame⟩
    · exact absurd hgone hopen
    · exact absurd (hsame.trans hnone) hopen

/-- Sending a flow's transactions keeps track of its accounts. -/
theorem FlowLandings.tracks {kit : Kit π} {payer : Address} {flow : ProofFlow π}
    (hlives : FlowLives payer flow) {txs : List (List (Instruction π))}
    (hplanned : PlannedTransactions kit flow txs) {w w' : World (Chain τ) π}
    {r : Except Thrown ProofFlowResult}
    (h : FlowLandings (net.withPrograms programs) payer flow.proofAccounts txs w r w') :
    ∃ landed, FlowTracks net programs payer flow.proofAccounts w landed r w' := by
  obtain ⟨xs, hxs, habout⟩ := hplanned.about
  have hown : ∀ a ∈ flow.proofAccounts, ∃ lamports proof,
      txs.flatten.filterMap (·.about a) = plannedLife payer a lamports proof := by
    intro a ha
    obtain ⟨lamports, proof, hlife⟩ := hlives.own a ha
    exact ⟨lamports, proof, (habout a).trans (hlife xs hxs)⟩
  have hother : ∀ a ∉ flow.proofAccounts, txs.flatten.filterMap (·.about a) = [] :=
    fun a ha => (habout a).trans (hlives.other a ha xs hxs)
  have hcreated : ∀ {ts : List (List (Instruction π))} {a : Address},
      (∀ b ∉ flow.proofAccounts, ts.flatten.filterMap (·.about b) = []) →
      a ∈ createdAccounts ts → a ∈ flow.proofAccounts := by
    intro ts a hts ha
    by_contra hnot
    obtain ⟨lamports, hmem⟩ := mem_createdAccounts.mp ha
    simp [hts a hnot] at hmem
  cases h with
  | @complete result _ hlands hleft =>
    have hgone : ∀ a ∈ flow.proofAccounts, w'.chain.proofAccount a = none := by
      intro a ha
      obtain ⟨lamports, proof, hlife⟩ := hown a ha
      have hrun := life_of_executed hlands.executed a
      rw [hlife] at hrun
      exact life_plannedLife hrun
    refine ⟨txs, hlands, hother, fun a ha => ?_, fun a ha hopen => ?_, by simp [reportedOpen, hleft]⟩
    · obtain ⟨lamports, proof, hlife⟩ := hown a ha
      have hrun := life_of_executed hlands.executed a
      have hwhole : txs.flatten.filterMap (·.about a) <+: plannedLife payer a lamports proof :=
        hlife ▸ List.prefix_rfl
      rw [← List.append_nil txs] at hrun ⊢
      exact accountFate_of_life lamports proof hwhole (by simp) hrun
    · exact absurd (hgone a (hcreated hother ha)) hopen
  | @stopped first closing p _ w₁ _ hfirst hlands hclosed hreported =>
    obtain ⟨rest, rfl⟩ := hfirst
    have hothers : ∀ a ∉ flow.proofAccounts,
        (first ++ closing).flatten.filterMap (·.about a) = [] := by
      intro a ha
      have hfirst : first.flatten.filterMap (·.about a) = [] := by
        have h := hother a ha
        rw [List.flatten_append, List.filterMap_append, List.append_eq_nil_iff] at h
        exact h.1
      have hclosing : closing.flatten.filterMap (·.about a) = [] := by
        refine List.eq_nil_iff_forall_not_mem.mpr fun i hi => ?_
        exact ha (hclosed.closings.about a i hi).2
      rw [List.flatten_append, List.filterMap_append, hfirst, hclosing, List.append_nil]
    refine ⟨first ++ closing, hlands.trans hclosed.lands, hothers, fun a ha => ?_,
      fun a ha hopen => ?_, ?_⟩
    · obtain ⟨lamports, proof, hlife⟩ := hown a ha
      refine accountFate_of_life lamports proof ?_
        (fun i hi => (hclosed.closings.about a i hi).1)
        (life_of_executed (hlands.trans hclosed.lands).executed a)
      rw [← hlife, List.flatten_append, List.filterMap_append]
      exact List.prefix_append _ _
    · rw [hreported]
      exact hclosed.mem_leftOpen (hcreated hothers ha) hopen
    · rw [hreported]
      exact hclosed.leftOpen

variable (net programs)

/-- Running a flow keeps track of its accounts. -/
theorem executeProofFlow_tracks (kit : Kit π) (ctx : SendContext) {flow : ProofFlow π}
    (hlives : FlowLives ctx.payer flow) (actionStep : String) (w : World (Chain τ) π) :
    (executeProofFlow (net.withPrograms programs) kit ctx flow actionStep).wp (fun r w' =>
      ∃ landed, FlowTracks net programs ctx.payer flow.proofAccounts w landed r w') w := by
  refine (executeProofFlow_lands _ kit ctx flow actionStep w).mono fun r w' h => ?_
  rcases h with ⟨⟨message, rfl⟩, hlands⟩ | ⟨txs, hplanned, h⟩
  · exact ⟨[], .unsent net programs hlands⟩
  · exact h.tracks hlives hplanned

end Sdk
