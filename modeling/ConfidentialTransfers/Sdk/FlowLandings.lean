-- SUMMARY: Which transactions of a proof flow and of its cleanup have landed when it ends.
import Mathlib.Data.List.Forall2
import ConfidentialTransfers.Sdk.SendOutcomes

/-!
# Landings of a flow

The functions of `internal/send.ts` again, now by the transactions that have
landed on the chain when they end, and by the proof accounts they report as left
open.
-/

open Solana

namespace Sdk

variable {χ π : Type} (net : Network χ π) (kit : Kit π) (ctx : SendContext)

/-! ## Cleanup -/

/-- The instructions that close a batch of proof accounts. -/
def closingInstructions (payer : Address) (batch : List Address) : List (Instruction π) :=
  batch.map fun contextState => .proof (closeContextStateProof payer contextState)

/-- Instructions sent on their own land if sending them succeeds, and may land if it does not. -/
theorem sendInstructions_lands (is : List (Instruction π)) (w : World χ π) :
    (sendInstructions net kit ctx is).wp (fun r w' => ∃ js, Priced is js ∧
      (w.Lands net [js] w' ∨ ((∃ e, r = .error e) ∧ w.Lands net [] w'))) w := by
  refine (sendInstructions_wp net kit ctx is w).mono fun r w' h => ?_
  cases h with
  | unsent _ _ hlands => exact ⟨is, .inl rfl, .inr ⟨⟨_, rfl⟩, hlands⟩⟩
  | @sent tx _ _ _ _ htx _ _ hlands hsent =>
    refine ⟨tx.message.instructions, htx, ?_⟩
    cases hsent with
    | confirmed _ hsent => exact .inl (hlands.trans hsent)
    | thwarted _ _ hsent =>
      rcases hsent with hsent | hsent
      · exact .inr ⟨⟨_, rfl⟩, hlands.trans hsent⟩
      · exact .inl (hlands.trans hsent)

/-- The landed transactions `txs` close accounts among `addresses`, those in `closed` for certain. -/
structure Closings (payer : Address) (addresses closed : List Address)
    (txs : List (List (Instruction π))) : Prop where
  only : ∀ is ∈ txs, ∃ batch, batch ⊆ addresses ∧ Priced (closingInstructions payer batch) is
  landed : ∀ a ∈ closed, ∃ batch, a ∈ batch ∧ ∃ is ∈ txs, Priced (closingInstructions payer batch) is
  subset : closed ⊆ addresses

theorem Closings.nil (payer : Address) (addresses : List Address) :
    Closings payer addresses [] ([] : List (List (Instruction π))) :=
  ⟨by simp, by simp, by simp⟩

theorem Closings.append {payer : Address} {addresses closed closed' : List Address}
    {txs txs' : List (List (Instruction π))} (h : Closings payer addresses closed txs)
    (h' : Closings payer addresses closed' txs') :
    Closings payer addresses (closed ++ closed') (txs ++ txs') where
  only is his := by
    rcases List.mem_append.mp his with his | his
    · exact h.only is his
    · exact h'.only is his
  landed a ha := by
    rcases List.mem_append.mp ha with ha | ha
    · obtain ⟨batch, hbatch, is, his, hpriced⟩ := h.landed a ha
      exact ⟨batch, hbatch, is, by simp [his], hpriced⟩
    · obtain ⟨batch, hbatch, is, his, hpriced⟩ := h'.landed a ha
      exact ⟨batch, hbatch, is, by simp [his], hpriced⟩
  subset := List.append_subset.mpr ⟨h.subset, h'.subset⟩

theorem closeBatches_lands (addresses : List Address) (batches : List (List Address))
    (hbatches : ∀ batch ∈ batches, batch ⊆ addresses) (w : World χ π) :
    (closeBatches net kit ctx batches).wp (fun r w' => ∃ closed txs, r = .ok closed ∧
      w.Lands net txs w' ∧ Closings ctx.payer addresses closed txs) w := by
  induction batches generalizing w with
  | nil => exact ⟨[], [], rfl, .refl w, .nil _ _⟩
  | cons batch batches ih =>
    have hbatch : batch ⊆ addresses := hbatches batch (by simp)
    unfold closeBatches
    rw [Effect.wp_bind, Effect.wp_attempt]
    refine (sendInstructions_lands net kit ctx _ w).mono fun sent w₁ hsent => ?_
    obtain ⟨js, hjs, hsent⟩ := hsent
    have hone : Closings ctx.payer addresses batch [js] :=
      ⟨fun is his => ⟨batch, hbatch, List.mem_singleton.mp his ▸ hjs⟩,
        fun a ha => ⟨batch, ha, js, by simp, hjs⟩, hbatch⟩
    simp only [Effect.wp_bind]
    refine (ih (fun b hb => hbatches b (by simp [hb])) w₁).mono fun r w' h => ?_
    obtain ⟨closed, txs, rfl, hlands, hclosings⟩ := h
    have hfailed : Closings ctx.payer addresses [] [js] := ⟨hone.only, by simp, by simp⟩
    rcases hsent with hsent | ⟨⟨e, rfl⟩, hsent⟩
    · cases sent with
      | ok signature => exact ⟨_, _, rfl, hsent.trans hlands, hone.append hclosings⟩
      | error e => exact ⟨_, _, rfl, hsent.trans hlands, hfailed.append hclosings⟩
    · exact ⟨_, _, rfl, hsent.trans hlands, hclosings⟩

/-- What closing proof accounts comes to: `txs` landed, and every account is listed as left open,
    closed, or was not there. -/
structure ClosedProofAccounts (payer : Address) (addresses : List Address) (w : World χ π)
    (p : ProofAccounts) (txs : List (List (Instruction π))) (w' : World χ π) : Prop where
  lands : w.Lands net txs w'
  closings : Closings payer addresses p.closed txs
  leftOpen : p.leftOpen ⊆ addresses
  accounted : ∀ a ∈ addresses, a ∈ p.leftOpen ∨ a ∈ p.closed ∨
    ∃ n, net.owner n w.chain a ≠ some zkElgamalProofProgramAddress

theorem closeProofAccounts_lands (addresses : List Address) (w : World χ π) :
    (closeProofAccounts net kit ctx addresses).wp (fun r w' => ∃ p txs, r = .ok p ∧
      ClosedProofAccounts net ctx.payer addresses w p txs w') w := by
  unfold closeProofAccounts
  split
  case isTrue hlength =>
    obtain rfl := List.length_eq_zero_iff.mp hlength
    exact ⟨_, [], rfl, .refl w, .nil _ _, by simp, by simp⟩
  case isFalse =>
    rw [Effect.wp_bind, Effect.wp_attempt]
    refine net.request_wp (fun message _ => ?_) ?_
    · exact ⟨_, [], rfl, .tick w, .nil _ _, List.Subset.refl _, fun a ha => .inl ha⟩
    · simp only
      have hexisting : ∀ a, a ∈ ((addresses.zip (addresses.map (net.owner w.clock w.chain))).filter
          (fun a => a.2 == some zkElgamalProofProgramAddress)).map Prod.fst ↔
          a ∈ addresses ∧ net.owner w.clock w.chain a = some zkElgamalProofProgramAddress := by
        intro a
        rw [← List.map_prod_left_eq_zip]
        simp
      generalize ((addresses.zip (addresses.map (net.owner w.clock w.chain))).filter
          (fun a => a.2 == some zkElgamalProofProgramAddress)).map Prod.fst = existing at hexisting
      have habsent : ∀ a ∈ addresses, a ∉ existing →
          ∃ n, net.owner n w.chain a ≠ some zkElgamalProofProgramAddress :=
        fun a ha hnot => ⟨_, fun howner => hnot ((hexisting a).mpr ⟨ha, howner⟩)⟩
      split
      case isTrue hnone =>
        obtain rfl := List.length_eq_zero_iff.mp hnone
        exact ⟨_, [], rfl, .tick w, .nil _ _, by simp, fun a ha => .inr (.inr (habsent a ha (by simp)))⟩
      case isFalse =>
        have hsub : ∀ batch ∈ existing.batches closesPerTransaction, batch ⊆ addresses := by
          intro batch hbatch a ha
          have hmem : a ∈ (existing.batches closesPerTransaction).flatten :=
            List.mem_flatten.mpr ⟨batch, hbatch, ha⟩
          rw [List.flatten_batches (by decide)] at hmem
          exact ((hexisting a).mp hmem).1
        rw [Effect.wp_bind]
        refine (closeBatches_lands net kit { ctx with operation := _ } addresses _ hsub _).mono
          fun r w' h => ?_
        obtain ⟨closed, txs, rfl, hlands, hclosings⟩ := h
        refine ⟨_, txs, rfl, (World.Lands.tick w).trans hlands, hclosings, ?_, fun a ha => ?_⟩
        · intro a ha
          exact ((hexisting a).mp (List.mem_filter.mp ha).1).1
        · by_cases hex : a ∈ existing
          · by_cases hclosed : a ∈ closed
            · exact .inr (.inl hclosed)
            · exact .inl (List.mem_filter.mpr ⟨hex, by simp [hclosed]⟩)
          · exact .inr (.inr (habsent a ha hex))

/-! ## The flow -/

/-- The proof accounts an outcome reports as left open. -/
def reportedOpen {α : Type} (leftOpen : α → List Address) : Except Thrown α → List Address
  | .ok result => leftOpen result
  | .error e => e.leftOpen

theorem reportedOpen_map {α β : Type} {leftOpen : α → List Address} {leftOpen' : β → List Address}
    (f : α → β) (hf : ∀ a, leftOpen' (f a) = leftOpen a) (outcome : Except Thrown α) :
    reportedOpen leftOpen' (outcome.map f) = reportedOpen leftOpen outcome := by
  cases outcome with
  | ok a => exact hf a
  | error e => rfl

/-- What sending the transactions `txs` of a flow comes to: all of them landed, or the first ones did
    and then the proof accounts were closed. -/
inductive FlowLandings (payer : Address) (proofAccounts : List Address)
    (txs : List (List (Instruction π))) (w : World χ π) :
    Except Thrown ProofFlowResult → World χ π → Prop
  | complete {result : ProofFlowResult} {w' : World χ π} (hlands : w.Lands net txs w')
    (hleft : result.proofAccountsLeftOpen = []) :
    FlowLandings payer proofAccounts txs w (.ok result) w'
  | stopped {first closing : List (List (Instruction π))} {p : ProofAccounts}
    {r : Except Thrown ProofFlowResult} {w₁ w' : World χ π} (hfirst : first <+: txs)
    (hlands : w.Lands net first w₁)
    (hclosed : ClosedProofAccounts net payer proofAccounts w₁ p closing w')
    (hreported : reportedOpen ProofFlowResult.proofAccountsLeftOpen r = p.leftOpen) :
    FlowLandings payer proofAccounts txs w r w'

/-- One more transaction that landed before the rest. -/
theorem FlowLandings.cons {payer : Address} {proofAccounts : List Address}
    {is : List (Instruction π)} {txs : List (List (Instruction π))} {w w₁ w' : World χ π}
    {r : Except Thrown ProofFlowResult} (hlands : w.Lands net [is] w₁)
    (h : FlowLandings net payer proofAccounts txs w₁ r w') :
    FlowLandings net payer proofAccounts (is :: txs) w r w' := by
  cases h with
  | complete hrest hleft => exact .complete (hlands.trans hrest) hleft
  | stopped hfirst hrest hclosed hreported =>
    exact .stopped ((List.prefix_cons_inj is).mpr hfirst) (hlands.trans hrest) hclosed hreported

variable (flow : ProofFlow π) (actionStep : String)

theorem sendInOrder_lands (actionIndex : Option Nat) (i : Nat) (txs : List (Transaction π))
    (signatures : List Signature) (w : World χ π) :
    (sendInOrder net kit ctx flow actionStep actionIndex i txs signatures).wp
      (FlowLandings net ctx.payer flow.proofAccounts (txs.map (·.message.instructions)) w) w := by
  induction txs generalizing i signatures w with
  | nil => exact .complete (.refl w) rfl
  | cons tx rest ih =>
    unfold sendInOrder
    rw [Effect.wp_bind, Effect.wp_attempt]
    refine (simulateAndSend_wp net ctx tx _ w).mono fun r w₁ hsent => ?_
    cases hsent with
    | confirmed _ hlands =>
      exact (ih (i + 1) _ w₁).mono fun r' w' h => h.cons net hlands
    | @thwarted e _ _ _ _ hlands =>
      have hfirst : ∃ first, first <+: (tx :: rest).map (·.message.instructions) ∧
          w.Lands net first w₁ := by
        rcases hlands with hlands | hlands
        · exact ⟨[], List.nil_prefix, hlands⟩
        · exact ⟨[tx.message.instructions], by simp, hlands⟩
      obtain ⟨first, hfirst, hlands⟩ := hfirst
      simp only
      rw [Effect.wp_bind]
      refine (closeProofAccounts_lands net kit ctx flow.proofAccounts w₁).mono fun r' w' h => ?_
      obtain ⟨p, closing, rfl, hclosed⟩ := h
      dsimp only
      split
      · exact .stopped hfirst hlands hclosed rfl
      · exact .stopped hfirst hlands hclosed rfl

/-- `txs` are the transactions of the flow's plan, with or without a priority fee. -/
def PlannedTransactions (txs : List (List (Instruction π))) : Prop :=
  ∃ planned, kit.plan (proofFlowToPlan flow) = .ok planned ∧
    List.Forall₂ (fun m is => Priced m.instructions is) planned txs

/-- A flow that sends nothing reports nothing; else its planned transactions are sent. -/
theorem executeProofFlow_lands (w : World χ π) :
    (executeProofFlow net kit ctx flow actionStep).wp (fun r w' =>
      ((∃ message, r = .error (.other message)) ∧ w.Lands net [] w') ∨
      ∃ txs, PlannedTransactions kit flow txs ∧
        FlowLandings net ctx.payer flow.proofAccounts txs w r w') w := by
  unfold executeProofFlow
  rw [Effect.wp_bind, Effect.wp_ofExcept]
  cases hplan : kit.plan (proofFlowToPlan flow) with
  | error message => exact .inl ⟨⟨message, rfl⟩, .refl w⟩
  | ok planned =>
    have hsigning : ∀ ms, w.Lands net [] (w.tick.record (.signRequest ms)) :=
      fun ms => (World.Lands.tick w).trans (.record rfl _)
    simp only [Except.mapError]
    rw [Effect.wp_bind]
    refine latestLifetime_wp net (fun message => .inl ⟨⟨message, rfl⟩, .tick w⟩) fun lifetime => ?_
    simp only
    rw [Effect.wp_bind]
    refine signTogether_wp kit (fun message => .inl ⟨⟨message, rfl⟩, hsigning _⟩) fun txs htxs => ?_
    refine (sendInOrder_lands net kit ctx flow actionStep _ 0 txs [] _).mono fun r w' h => ?_
    refine .inr ⟨txs.map (·.message.instructions), ⟨planned, hplan, ?_⟩, ?_⟩
    · rw [htxs, List.map_map, List.forall₂_map_right_iff, List.forall₂_same]
      exact fun m _ => withPriorityFee_priced kit ctx.computeUnitPrice { m with lifetime := some lifetime }
    · cases h with
      | complete hlands hleft => exact .complete ((hsigning _).trans hlands) hleft
      | stopped hfirst hlands hclosed hreported =>
        exact .stopped hfirst ((hsigning _).trans hlands) hclosed hreported

end Sdk
