-- SUMMARY: What one attempt at a proof flow reports: which transactions were sent, which failed, what was closed.
import ConfidentialTransfers.Sdk.FlowLandings

/-!
# The report of a flow

`executeProofFlow` sends the transactions of its plan one after the other and
stops at the first that throws. This module says what it resolves or rejects
with, by where that transaction stands in the plan, and what the cleanup then
sends and reports.
-/

open Solana

namespace Solana

variable {χ π : Type}

/-- The transaction that is simulated or submitted, if one is. -/
def Event.sends : Event π → Option (Transaction π)
  | .simulated tx _ => some tx
  | .submitted tx _ _ => some tx
  | .signRequest _ => none
  | .keyRequest => none

/-- From `w` to `w'` only transactions that satisfy `P` were simulated or submitted. -/
def World.SendsOnly (P : Transaction π → Prop) (w w' : World χ π) : Prop :=
  ∃ es, w.Logged es w' ∧ ∀ e ∈ es, ∀ tx, e.sends = some tx → P tx

variable {P : Transaction π → Prop}

instance : IsPreorder (World χ π) (World.SendsOnly P) where
  refl w := ⟨[], .refl w, by simp⟩
  trans := by
    rintro w w' w'' ⟨es, hlog, hes⟩ ⟨fs, hlog', hfs⟩
    refine ⟨es ++ fs, hlog.trans hlog', fun e he => ?_⟩
    rcases List.mem_append.mp he with he | he
    · exact hes e he
    · exact hfs e he

theorem World.SendsOnly.tick (w : World χ π) : World.SendsOnly P w w.tick := ⟨[], .refl w, by simp⟩

theorem World.SendsOnly.signRequest (ms : List (Message π)) (w : World χ π) :
    World.SendsOnly P w (w.record (.signRequest ms)) :=
  ⟨[.signRequest ms], rfl, by simp [Event.sends]⟩

theorem World.SendsOnly.mono {P' : Transaction π → Prop} {w w' : World χ π}
    (h : World.SendsOnly P w w') (hP : ∀ tx, P tx → P' tx) : World.SendsOnly P' w w' := by
  obtain ⟨es, hlog, hes⟩ := h
  exact ⟨es, hlog, fun e he tx htx => hP tx (hes e he tx htx)⟩

end Solana

namespace Sdk

variable {χ π : Type} (net : Network χ π) (kit : Kit π) (ctx : SendContext)

/-! ## What is sent -/

theorem Sent.sendsOnly {tx : Transaction π} {w w' : World χ π} {r : Except Thrown Signature}
    (h : Sent net tx w r w') : World.SendsOnly (fun t => t = tx) w w' := by
  cases h with
  | confirmed hlog => exact ⟨_, hlog, by simp [confirmedEvents, Event.sends]⟩
  | thwarted hfailed hlog =>
    refine ⟨_, hlog, ?_⟩
    cases hfailed <;> simp [Event.sends]

theorem sendsOnly_sendInstructions (is : List (Instruction π)) :
    (sendInstructions net kit ctx is).Within
      (World.SendsOnly fun tx => Priced is tx.message.instructions) := by
  intro w
  unfold sendInstructions
  rw [Effect.wp_bind]
  refine latestLifetime_wp net (fun message => .tick w) (fun lifetime => ?_)
  have hsigning : ∀ ms : List (Message π), World.SendsOnly
      (fun tx => Priced is tx.message.instructions) w (w.tick.record (.signRequest ms)) :=
    fun ms => IsTrans.trans _ _ _ (World.SendsOnly.tick w) (.signRequest ms _)
  simp only
  rw [Effect.wp_bind]
  refine signTogether_wp kit (fun message => hsigning _) (fun txs htxs => ?_)
  cases txs with
  | nil => simp at htxs
  | cons tx rest =>
    refine (simulateAndSend_wp net ctx tx ctx.operation _).mono fun r w' hsent => ?_
    have htx : tx.message.instructions = (withPriorityFee kit ctx.computeUnitPrice
        { instructions := is, lifetime := some lifetime }).instructions := by
      simpa using congrArg List.head? htxs
    have hpriced : Priced is tx.message.instructions := by
      rw [htx]
      exact withPriorityFee_priced kit _ _
    have honly : World.SendsOnly (fun t => Priced is t.message.instructions) _ w' :=
      (hsent.sendsOnly net).mono fun t ht => ht ▸ hpriced
    exact IsTrans.trans _ _ _ (hsigning _) honly

/-- The transaction closes proof accounts among `addresses` and does nothing else. -/
def Closes (payer : Address) (addresses : List Address) (tx : Transaction π) : Prop :=
  ∃ batch, batch ⊆ addresses ∧ Priced (closingInstructions payer batch) tx.message.instructions

/-- Closing batches returns accounts of these batches. -/
theorem closeBatches_closes (addresses : List Address) (batches : List (List Address))
    (hbatches : ∀ batch ∈ batches, batch ⊆ addresses) (w : World χ π) :
    (closeBatches net kit ctx batches).wp (fun r w' => ∃ closed, r = .ok closed ∧
      closed ⊆ addresses ∧ World.SendsOnly (Closes ctx.payer addresses) w w') w := by
  induction batches generalizing w with
  | nil => exact ⟨[], rfl, by simp, refl w⟩
  | cons batch batches ih =>
    have hbatch : batch ⊆ addresses := hbatches batch (by simp)
    unfold closeBatches
    rw [Effect.wp_bind, Effect.wp_attempt]
    refine (sendsOnly_sendInstructions net kit ctx _ w).mono fun sent w₁ hsent => ?_
    have hsent' : World.SendsOnly (Closes ctx.payer addresses) w w₁ :=
      hsent.mono fun tx htx => ⟨batch, hbatch, htx⟩
    simp only [Effect.wp_bind]
    refine (ih (fun b hb => hbatches b (by simp [hb])) w₁).mono fun r w' h => ?_
    obtain ⟨closed, rfl, hclosed, hrest⟩ := h
    have honly := IsTrans.trans _ _ _ hsent' hrest
    cases sent with
    | ok signature => exact ⟨_, rfl, List.append_subset.mpr ⟨hbatch, hclosed⟩, honly⟩
    | error e => exact ⟨_, rfl, hclosed, honly⟩

/-- What cleaning up the proof accounts `addresses` from `w` comes to, whatever its steps throw. -/
structure CleanedUp (payer : Address) (addresses : List Address) (w : World χ π) (p : ProofAccounts)
    (w' : World χ π) : Prop where
  sends : World.SendsOnly (Closes payer addresses) w w'
  disjoint : p.closed.Disjoint p.leftOpen
  /-- The accounts found open are those reported, as closed or as left open. -/
  found : net.refused w.clock (.getMultipleAccounts addresses) = none → ∀ a,
    a ∈ p.closed ∨ a ∈ p.leftOpen ↔
      a ∈ addresses ∧ net.owner w.clock w.chain a = some zkElgamalProofProgramAddress
  /-- When they could not be read, all count as left open. -/
  unread : ∀ message, net.refused w.clock (.getMultipleAccounts addresses) = some message →
    p = { closed := [], leftOpen := addresses }

theorem closeProofAccounts_cleanedUp (addresses : List Address) (w : World χ π) :
    (closeProofAccounts net kit ctx addresses).wp
      (fun r w' => ∃ p, r = .ok p ∧ CleanedUp net ctx.payer addresses w p w') w := by
  unfold closeProofAccounts
  split
  case isTrue hlength =>
    obtain rfl := List.length_eq_zero_iff.mp hlength
    exact ⟨_, rfl, refl w, by simp, by simp, by simp⟩
  case isFalse =>
    rw [Effect.wp_bind, Effect.wp_attempt]
    cases hrefused : net.refused w.clock (.getMultipleAccounts addresses) with
    | some message =>
      refine Effect.wp_of_run (.error message) w.tick (by simp [Network.request, hrefused]) ?_
      exact ⟨_, rfl, .tick w, by simp, by simp [hrefused], by simp⟩
    | none =>
      refine Effect.wp_of_run (.ok (addresses.map (net.owner w.clock w.chain))) w.tick
        (by simp [Network.request, hrefused]) ?_
      simp only
      rw [List.map_fst_filter_zip_map _ _ (· == some zkElgamalProofProgramAddress)]
      have hexisting : ∀ a, a ∈ addresses.filter
          (fun a => net.owner w.clock w.chain a == some zkElgamalProofProgramAddress) ↔
          a ∈ addresses ∧ net.owner w.clock w.chain a = some zkElgamalProofProgramAddress := by
        simp
      generalize addresses.filter
        (fun a => net.owner w.clock w.chain a == some zkElgamalProofProgramAddress) = existing
        at hexisting
      split
      case isTrue hnone =>
        obtain rfl := List.length_eq_zero_iff.mp hnone
        refine ⟨_, rfl, .tick w, by simp, fun _ a => ?_, by simp [hrefused]⟩
        simpa using hexisting a
      case isFalse =>
        have hbatches : ∀ batch ∈ existing.batches closesPerTransaction, batch ⊆ existing := by
          intro batch hbatch a ha
          rw [← List.flatten_batches (n := closesPerTransaction) (by decide) existing]
          exact List.mem_flatten.mpr ⟨batch, hbatch, ha⟩
        rw [Effect.wp_bind]
        refine (closeBatches_closes net kit { ctx with operation := _ } existing _ hbatches _).mono
          fun r w' h => ?_
        obtain ⟨closed, rfl, hclosed, hsends⟩ := h
        have honly : World.SendsOnly (Closes ctx.payer addresses) w w' := by
          refine IsTrans.trans _ _ _ (World.SendsOnly.tick w) (hsends.mono fun tx htx => ?_)
          obtain ⟨batch, hbatch, hpriced⟩ := htx
          exact ⟨batch, fun a ha => ((hexisting a).mp (hbatch ha)).1, hpriced⟩
        refine ⟨_, rfl, honly, fun a ha hopen => ?_, fun _ a => ?_, by simp [hrefused]⟩
        · simp [ha] at hopen
        · rw [← hexisting a]
          by_cases ha : a ∈ closed
          · simp [ha, hclosed ha]
          · simp [ha]

/-! ## The report -/

/-- Sending the transactions `txs` of a flow one after the other, from the first on, succeeds: each of them
    landed and was confirmed. -/
inductive SendsAll (actionIndex : Option Nat) (actionStep : String) (w : World χ π) :
    List (Transaction π) → World χ π → Prop
  | nil : SendsAll actionIndex actionStep w [] w
  | snoc {txs : List (Transaction π)} {tx : Transaction π} {w₁ w₂ : World χ π}
    (h : SendsAll actionIndex actionStep w txs w₁)
    (hsend : simulateAndSend net ctx tx (stepName actionIndex actionStep txs.length) w₁ =
      (.ok tx.signature, w₂))
    (hconfirmed : Sent net tx w₁ (.ok tx.signature) w₂) :
    SendsAll actionIndex actionStep w (txs ++ [tx]) w₂

variable (flow : ProofFlow π) (actionStep : String)

/-- The transactions `done` were confirmed, the next one, `tx`, was sent in vain and threw `e`, and then the
    cleanup ran, which came to `p`. -/
def Stopped (k : Nat) (w : World χ π) (done : List (Transaction π)) (tx : Transaction π) (e : Thrown)
    (p : ProofAccounts) (w' : World χ π) : Prop :=
  ∃ w₁ w₂, SendsAll net ctx (some k) actionStep w done w₁ ∧
    simulateAndSend net ctx tx (stepName (some k) actionStep done.length) w₁ = (.error e, w₂) ∧
    Sent net tx w₁ (.error e) w₂ ∧
    closeProofAccounts net kit ctx flow.proofAccounts w₂ = (.ok p, w') ∧
    CleanedUp net ctx.payer flow.proofAccounts w₂ p w'

/-- What sending the transactions `txs` of a flow, its action in number `k`, resolves or rejects
    with. -/
inductive FlowReport (k : Nat) (txs : List (Transaction π)) (w : World χ π) :
    Except Thrown ProofFlowResult → World χ π → Prop
  /-- No transaction throws. -/
  | complete {w' : World χ π} (hsent : SendsAll net ctx (some k) actionStep w txs w') :
    FlowReport k txs w
      (.ok { signatures := txs.map (·.signature), proofAccountsLeftOpen := [] }) w'
  /-- The first that throws is the action's or one before it. -/
  | rejected {done rest : List (Transaction π)} {tx : Transaction π} {e : Thrown}
    {p : ProofAccounts} {error : ConfidentialTransfersError} {w' : World χ π}
    (htxs : txs = done ++ tx :: rest) (hindex : done.length ≤ k)
    (hstopped : Stopped net kit ctx flow actionStep k w done tx e p w')
    (hcode : error.code = flowCode e) (hretryable : error.retryable = e.retryable)
    (hsignatures : error.signatures = some (done.map (·.signature)))
    (hstep : error.step = some (if done.length < k then "proofs" else actionStep))
    (hproofAccounts : error.proofAccounts = some p) :
    FlowReport k txs w (.error (.sdk error)) w'
  /-- The first that throws comes after the action's. -/
  | landed {done rest : List (Transaction π)} {tx : Transaction π} {e : Thrown}
    {p : ProofAccounts} {w' : World χ π}
    (htxs : txs = done ++ tx :: rest) (hindex : k < done.length)
    (haction : ∃ t ∈ done, t.message.includes flow.action = true)
    (hstopped : Stopped net kit ctx flow actionStep k w done tx e p w') :
    FlowReport k txs w
      (.ok { signatures := done.map (·.signature), proofAccountsLeftOpen := p.leftOpen }) w'

/-- The loop, from any transaction on: `done` is sent, `rest` is not. -/
theorem sendInOrder_reports {k : Nat} {txs : List (Transaction π)} {action : Transaction π}
    (hk : txs[k]? = some action) (haction : action.message.includes flow.action = true)
    (done rest : List (Transaction π)) (htxs : txs = done ++ rest) {w w₁ : World χ π}
    (hdone : SendsAll net ctx (some k) actionStep w done w₁) :
    (sendInOrder net kit ctx flow actionStep (some k) done.length rest (done.map (·.signature))).wp
      (FlowReport net kit ctx flow actionStep k txs w) w₁ := by
  induction rest generalizing done w₁ with
  | nil =>
    obtain rfl : txs = done := by simpa using htxs
    exact .complete hdone
  | cons tx rest ih =>
    unfold sendInOrder
    rw [Effect.wp_bind, Effect.wp_attempt]
    have hsent := simulateAndSend_wp net ctx tx (stepName (some k) actionStep done.length) w₁
    rcases hrun : simulateAndSend net ctx tx (stepName (some k) actionStep done.length) w₁ with ⟨r, w₂⟩
    refine Effect.wp_of_run r w₂ hrun ?_
    have hcame : Sent net tx w₁ r w₂ := hsent.run hrun
    cases r with
    | ok signature =>
      obtain rfl : tx.signature = signature := by
        cases hcame
        rfl
      have hnext := ih (done ++ [tx]) (by simp [htxs]) (hdone.snoc hrun hcame)
      simpa using hnext
    | error e =>
      simp only
      rw [Effect.wp_bind]
      have hclean := closeProofAccounts_cleanedUp net kit ctx flow.proofAccounts w₂
      rcases hclose : closeProofAccounts net kit ctx flow.proofAccounts w₂ with ⟨r', w'⟩
      refine Effect.wp_of_run r' w' hclose ?_
      obtain ⟨p, rfl, hclean⟩ := hclean.run hclose
      have hstopped : Stopped net kit ctx flow actionStep k w done tx e p w' :=
        ⟨w₁, w₂, hdone, hrun, hcame, hclose, hclean⟩
      simp only [actionLanded]
      by_cases hindex : k < done.length
      · simp only [hindex, decide_true, if_true]
        have hmem : action ∈ done := by
          rw [htxs, List.getElem?_append_left hindex] at hk
          exact List.mem_of_getElem? hk
        exact .landed htxs hindex ⟨action, hmem, haction⟩ hstopped
      · simp only [hindex, decide_false, Bool.false_eq_true, if_false]
        have he := flowError_spec ctx (stepName (some k) actionStep done.length)
          (done.map (·.signature)) p e
        exact .rejected htxs (by omega) hstopped he.code he.retryable rfl he.step rfl

/-- Why a flow ends before a transaction is sent. -/
inductive NotSent (w : World χ π) : Prop
  | unplanned {message : String} (h : kit.plan (proofFlowToPlan flow) = .error message)
  | noBlockhash {message : String} (h : net.refused w.clock .getLatestBlockhash = some message)
  | unsigned {messages : List (Message π)} {lifetime : Lifetime} {message : String}
    (h : kit.signTransactionMessagesTogether (w.clock + 1) messages lifetime = .error message)

/-- The signed transactions of the flow's plan, the action in number `k` and in no other. -/
structure SignedPlan (k : Nat) (txs : List (Transaction π)) : Prop where
  planned : ∃ planned, kit.plan (proofFlowToPlan flow) = .ok planned ∧
    List.Forall₂ (fun m tx => Priced m.instructions tx.message.instructions) planned txs
  action : ∀ i tx, txs[i]? = some tx → (tx.message.includes flow.action = true ↔ i = k)
  inRange : k < txs.length

/-- Signing the planned messages, with or without a priority fee each, gives a signed plan. -/
theorem SignedPlan.of_signed {planned pre post : List (Message π)} {m : Message π}
    {f : Message π → Message π} {txs : List (Transaction π)}
    (hplan : kit.plan (proofFlowToPlan flow) = .ok planned) (hplanned : planned = pre ++ m :: post)
    (hm : m.includes flow.action = true)
    (hpre : ∀ m' ∈ pre, m'.instructions.any (·.isOperation) = false)
    (hpost : ∀ m' ∈ post, m'.instructions.any (·.isOperation) = false)
    (hf : ∀ m, Priced m.instructions (f m).instructions)
    (htxs : txs.map (·.message.instructions) = (planned.map f).map (·.instructions)) :
    SignedPlan kit flow pre.length txs := by
  have hforall : List.Forall₂ (fun m tx => Priced m.instructions tx.message.instructions) planned txs := by
    have hsame : List.Forall₂ Priced (planned.map (·.instructions))
        (txs.map (·.message.instructions)) := by
      rw [htxs, List.map_map, List.forall₂_map_left_iff, List.forall₂_map_right_iff, List.forall₂_same]
      exact fun m _ => hf m
    rwa [List.forall₂_map_left_iff, List.forall₂_map_right_iff] at hsame
  subst hplanned
  obtain ⟨pre', tx, post', rfl, hlength, htx, hpre', hpost'⟩ := signed_cut hf htxs
  have hnot : ∀ {ts : List (Transaction π)} {ms : List (Message π)},
      (∀ t ∈ ts, ∃ m' ∈ ms, Priced m'.instructions t.message.instructions) →
      (∀ m' ∈ ms, m'.instructions.any (·.isOperation) = false) →
      ∀ t ∈ ts, ¬ t.message.includes flow.action = true := by
    intro ts ms hts hms t ht hinc
    obtain ⟨m', hm', hpriced⟩ := hts t ht
    rw [hpriced.includes] at hinc
    exact absurd (includes_of_isOperation hinc) (by simp [hms m' hm'])
  refine ⟨⟨_, hplan, hforall⟩, fun i t hi => ?_, by simp [← hlength]⟩
  rw [← hlength]
  rcases Nat.lt_trichotomy i pre'.length with hlt | rfl | hgt
  · rw [List.getElem?_append_left hlt] at hi
    exact iff_of_false (hnot hpre' hpre t (List.mem_of_getElem? hi)) (Nat.ne_of_lt hlt)
  · obtain rfl : tx = t := by simpa using hi
    rw [htx.includes]
    exact iff_of_true hm rfl
  · have hi' : (tx :: post')[i - pre'.length]? = some t := by
      rwa [List.getElem?_append_right hgt.le] at hi
    obtain ⟨j, hj⟩ : ∃ j, i - pre'.length = j + 1 := ⟨i - pre'.length - 1, by omega⟩
    rw [hj, List.getElem?_cons_succ] at hi'
    exact iff_of_false (hnot hpost' hpost t (List.mem_of_getElem? hi')) (Nat.ne_of_gt hgt)

/-- One attempt at a flow reports exactly what happened. -/
theorem executeProofFlow_reports (w : World χ π) :
    (executeProofFlow net kit ctx flow actionStep).wp (fun r w' =>
      (NotSent net kit flow w ∧ (∃ message, r = .error (.other message)) ∧
        World.SendsOnly (fun _ => False) w w') ∨
      ∃ k txs w₀, SignedPlan kit flow k txs ∧ World.SendsOnly (fun _ => False) w w₀ ∧
        FlowReport net kit ctx flow actionStep k txs w₀ r w') w := by
  unfold executeProofFlow
  rw [Effect.wp_bind, Effect.wp_ofExcept]
  cases hplan : kit.plan (proofFlowToPlan flow) with
  | error message => exact .inl ⟨.unplanned hplan, ⟨message, rfl⟩, refl w⟩
  | ok planned =>
    obtain ⟨pre, m, post, hplanned, hm, hpre, hpost⟩ := plan_messages kit flow hplan
    have hindex : planned.findIdx? (·.includes flow.action) = some pre.length := by
      rw [hplanned]
      exact findIdx?_includes hm hpre
    simp only [Except.mapError]
    rw [hindex, Effect.wp_bind, latestLifetime, Effect.wp_mapError]
    cases hrefused : net.refused w.clock .getLatestBlockhash with
    | some message =>
      refine Effect.wp_of_run (.error message) w.tick (by simp [Network.request, hrefused]) ?_
      exact .inl ⟨.noBlockhash hrefused, ⟨message, rfl⟩, .tick w⟩
    | none =>
      refine Effect.wp_of_run (.ok (net.blockhash w.clock)) w.tick
        (by simp [Network.request, hrefused]) ?_
      simp only [Except.mapError, Effect.wp_bind, signTogether, Effect.wp_modify, Effect.wp_get,
        Effect.wp_ofExcept]
      set messages := planned.map fun m => withPriorityFee kit ctx.computeUnitPrice
        { m with lifetime := some (net.blockhash w.clock) } with hmessages
      have hsigning : World.SendsOnly (fun _ => False) w (w.tick.record (.signRequest messages)) :=
        IsTrans.trans _ _ _ (World.SendsOnly.tick w) (.signRequest _ _)
      cases hsigned : kit.signTransactionMessagesTogether
          (w.tick.record (.signRequest messages)).clock messages (net.blockhash w.clock) with
      | error message => exact .inl ⟨.unsigned hsigned, ⟨message, rfl⟩, hsigning⟩
      | ok txs =>
        have hsignedPlan : SignedPlan kit flow pre.length txs :=
          .of_signed kit flow hplan hplanned hm hpre hpost
            (fun m => withPriorityFee_priced kit ctx.computeUnitPrice
              { m with lifetime := some (net.blockhash w.clock) })
            (kit.sign_instructions hsigned)
        have hget := List.getElem?_eq_getElem hsignedPlan.inRange
        refine (sendInOrder_reports net kit ctx flow actionStep hget
          ((hsignedPlan.action _ _ hget).mpr rfl) [] txs rfl .nil).mono fun r w' h => ?_
        exact .inr ⟨pre.length, txs, _, hsignedPlan, hsigning, h⟩

end Sdk
