-- SUMMARY: What sending a transaction, cleaning up and running a proof flow can come to.
import ConfidentialTransfers.Solana.Landing
import ConfidentialTransfers.Sdk.Send

/-!
# Outcomes of sending

One lemma per function of `internal/send.ts` that says everything its run can do
to the chain and to the log. Later proofs use these and never unfold the
functions.
-/

open Solana

namespace Solana

variable {χ π : Type}

/-- The event is about a transaction with an operation's own instruction. -/
def Event.isOperation : Event π → Bool
  | .simulated tx _ => tx.isOperation
  | .submitted tx _ _ => tx.isOperation
  | .signRequest _ => false
  | .keyRequest => false

/-- The signature of the operation that landed, if the event is a landing of one. -/
def Event.landedOperation : Event π → Option Signature
  | .submitted tx .landed _ => if tx.isOperation then some tx.signature else none
  | _ => none

/-- The signatures of the operations that landed. -/
def landedOperations (es : List (Event π)) : List Signature := es.filterMap Event.landedOperation

/-- Nothing in the log is about a transaction with an operation's own instruction. -/
def NoOperation (es : List (Event π)) : Prop := ∀ e ∈ es, e.isOperation = false

@[simp] theorem landedOperations_append (es fs : List (Event π)) :
    landedOperations (es ++ fs) = landedOperations es ++ landedOperations fs :=
  List.filterMap_append

theorem NoOperation.nil : NoOperation ([] : List (Event π)) := by
  simp [NoOperation]

theorem NoOperation.signRequest (ms : List (Message π)) : NoOperation [Event.signRequest ms] := by
  simp [NoOperation, Event.isOperation]

theorem NoOperation.append {es fs : List (Event π)} (h : NoOperation es) (h' : NoOperation fs) :
    NoOperation (es ++ fs) := by
  intro e he
  rcases List.mem_append.mp he with he | he
  · exact h e he
  · exact h' e he

theorem NoOperation.landedOperations {es : List (Event π)} (h : NoOperation es) :
    landedOperations es = [] := by
  refine List.filterMap_eq_nil_iff.mpr fun e he => ?_
  have hop := h e he
  unfold Event.landedOperation
  split
  · simp only [Event.isOperation] at hop
    simp [hop]
  · rfl

/-- From `w` to `w'` the events `es` happened. -/
def World.Logged (w : World χ π) (es : List (Event π)) (w' : World χ π) : Prop :=
  w'.events = w.events ++ es

theorem World.Logged.refl (w : World χ π) : w.Logged [] w := by
  simp [World.Logged]

/-- From `w` to `w'` nothing happened that is about an operation's own instruction. -/
def World.Quiet (w w' : World χ π) : Prop := ∃ es, w.Logged es w' ∧ NoOperation es

theorem World.Logged.record (e : Event π) (w : World χ π) : w.tick.Logged [e] (w.tick.record e) := rfl

theorem World.Logged.trans {w w' w'' : World χ π} {es fs : List (Event π)} (h : w.Logged es w')
    (h' : w'.Logged fs w'') : w.Logged (es ++ fs) w'' := by
  unfold World.Logged at *
  rw [h', h, List.append_assoc]

instance : IsPreorder (World χ π) World.Quiet where
  refl w := ⟨[], .refl w, .nil⟩
  trans := by
    rintro w w' w'' ⟨es, hlog, hes⟩ ⟨fs, hlog', hfs⟩
    exact ⟨es ++ fs, hlog.trans hlog', hes.append hfs⟩

theorem World.Quiet.tick (w : World χ π) : w.Quiet w.tick := ⟨[], .refl w, .nil⟩

end Solana

namespace Sdk

variable {χ π : Type}

/-! ## One transaction -/

/-- The ways to send `tx` in vain: what is thrown, and the events. -/
inductive Failed (tx : Transaction π) : Thrown → List (Event π) → Prop
  | unanswered (message : String) :
    Failed tx (.other message) [.simulated tx (.unanswered message)]
  | refused {err : String} {logs : List String} {e : ConfidentialTransfersError}
    (hcode : e.code = .transactionFailed) (hretry : e.retryable = false) :
    Failed tx (.sdk e) [.simulated tx (.refused err logs)]
  | expired {e : ConfidentialTransfersError}
    (hcode : e.code = .transactionExpired) (hretry : e.retryable = true) :
    Failed tx (.sdk e) [.simulated tx .passed, .submitted tx .dropped none]
  | failed {e : ConfidentialTransfersError}
    (hcode : e.code = .transactionFailed) (hretry : e.retryable = false) :
    Failed tx (.sdk e) [.simulated tx .passed, .submitted tx .failed none]
  | interrupted {fate : Fate} {message : String} {e : ConfidentialTransfersError}
    (hcode : e.code = .transactionFailed) (hretry : e.retryable = false) :
    Failed tx (.sdk e) [.simulated tx .passed, .submitted tx fate (some message)]

/-- The events of sending `tx` with success. -/
def confirmedEvents (tx : Transaction π) : List (Event π) :=
  [.simulated tx .passed, .submitted tx .landed none]

variable (net : Network χ π) (kit : Kit π)

/-- What sending `tx` came to. -/
inductive Sent (tx : Transaction π) (w : World χ π) : Except Thrown Signature → World χ π → Prop
  | confirmed {w' : World χ π} (hlog : w.Logged (confirmedEvents tx) w')
    (hlands : w.Lands net [tx.message.instructions] w') :
    Sent tx w (.ok tx.signature) w'
  | thwarted {e : Thrown} {es : List (Event π)} {w' : World χ π} (hfailed : Failed tx e es)
    (hlog : w.Logged es w')
    (hlands : w.Lands net [] w' ∨ w.Lands net [tx.message.instructions] w') :
    Sent tx w (.error e) w'

/-- A transaction without an operation's own instruction leaves no trace of an operation. -/
theorem Sent.noOperation {tx : Transaction π} {w w' : World χ π} {r : Except Thrown Signature}
    (h : Sent net tx w r w') (htx : tx.isOperation = false) : w.Quiet w' := by
  cases h with
  | confirmed hlog => exact ⟨_, hlog, by simp [NoOperation, confirmedEvents, Event.isOperation, htx]⟩
  | thwarted hfailed hlog =>
    refine ⟨_, hlog, ?_⟩
    cases hfailed <;> simp [NoOperation, Event.isOperation, htx]

/-- A simulation request is answered or not; either way only the log and the clock change. -/
theorem simulate_wp {tx : Transaction π} {w : World χ π}
    {Q : Except String (Option (String × List String)) → World χ π → Prop}
    (hunanswered : ∀ message, Q (.error message) (w.tick.record (.simulated tx (.unanswered message))))
    (hrefused : ∀ err logs, Q (.ok (some (err, logs))) (w.tick.record (.simulated tx (.refused err logs))))
    (hpassed : Q (.ok none) (w.tick.record (.simulated tx .passed))) :
    (net.simulate tx).wp Q w := by
  unfold Effect.wp Network.simulate
  cases net.refused w.clock (.simulateTransaction tx) with
  | some message => exact hunanswered message
  | none =>
    cases net.simulation w.clock w.chain tx with
    | some reply => exact hrefused reply.1 reply.2
    | none => exact hpassed

/-- A submitted transaction executes, fails or is dropped, and the wait for it may be cut short. -/
theorem sendAndConfirm_wp {tx : Transaction π} {w : World χ π}
    {Q : Except SendError Unit → World χ π → Prop}
    (hconfirmed : ∀ w', w.Logged [.submitted tx .landed none] w' →
      w.Lands net [tx.message.instructions] w' → Q (.ok ()) w')
    (hfailed : ∀ w', w.Logged [.submitted tx .failed none] w' → w.Lands net [] w' →
      Q (.error .transactionFailed) w')
    (hdropped : ∀ w', w.Logged [.submitted tx .dropped none] w' → w.Lands net [] w' →
      Q (.error .blockHeightExceeded) w')
    (hinterrupted : ∀ fate message w', w.Logged [.submitted tx fate (some message)] w' →
      (w.Lands net [] w' ∨ w.Lands net [tx.message.instructions] w') →
      Q (.error (.interrupted message)) w') :
    (net.sendAndConfirm tx).wp Q w := by
  have hsettle : (∃ c, net.execute w.clock w.chain tx.message.instructions = some c ∧
        net.settle w.clock w.chain tx = (.landed, c)) ∨
      net.settle w.clock w.chain tx = (.failed, w.chain) ∨
      net.settle w.clock w.chain tx = (.dropped, w.chain) := by
    unfold Network.settle
    split
    · cases hex : net.execute w.clock w.chain tx.message.instructions with
      | some c => exact .inl ⟨c, rfl, rfl⟩
      | none => exact .inr (.inl rfl)
    · exact .inr (.inr rfl)
  have hnone : ∀ fate interrupted, fate ≠ .landed → w.Lands net []
      (World.record (.submitted tx fate interrupted) { w.tick with chain := w.chain }) := by
    intro fate interrupted hfate
    refine (World.Lands.tick w).trans (World.Lands.record ?_ _)
    cases fate with
    | landed => exact absurd rfl hfate
    | failed => rfl
    | dropped => rfl
  have hlanded : ∀ c interrupted, net.execute w.clock w.chain tx.message.instructions = some c →
      w.Lands net [tx.message.instructions]
        (World.record (.submitted tx .landed interrupted) { w.tick with chain := c }) := by
    intro c interrupted hex
    exact ⟨by simp [landedTransactions, Event.landed], .single ⟨_, hex⟩, rfl⟩
  unfold Effect.wp Network.sendAndConfirm
  rcases hsettle with ⟨c, hex, hs⟩ | hs | hs <;> rw [hs] <;>
    cases hi : net.interrupted w.clock tx with
    | some message => ?_
    | none => ?_
  · exact hinterrupted _ _ _ rfl (.inr (hlanded c _ hex))
  · exact hconfirmed _ rfl (hlanded c _ hex)
  · exact hinterrupted _ _ _ rfl (.inl (hnone _ _ (by simp)))
  · exact hfailed _ rfl (hnone _ _ (by simp))
  · exact hinterrupted _ _ _ rfl (.inl (hnone _ _ (by simp)))
  · exact hdropped _ rfl (hnone _ _ (by simp))

/-- Looking up a transaction's logs never throws and changes nothing but the clock. -/
theorem logsOf_wp {signature : Signature} {w : World χ π}
    {Q : Except Thrown (Option (List String)) → World χ π → Prop}
    (h : ∀ logs, Q (.ok logs) w.tick) : (logsOf net signature).wp Q w := by
  unfold logsOf
  rw [Effect.wp_bind, Effect.wp_attempt]
  refine net.request_wp (fun message _ => ?_) ?_
  · exact h none
  · exact h _

/-- Sending a transaction confirms it, or throws for one of the reasons in `Failed`. -/
theorem simulateAndSend_wp (ctx : SendContext) (tx : Transaction π) (step : String)
    (w : World χ π) : (simulateAndSend net ctx tx step).wp (Sent net tx w) w := by
  have hsimulated : ∀ reply, w.Lands net [] (w.tick.record (.simulated tx reply)) :=
    fun reply => (World.Lands.tick w).trans (World.Lands.record rfl _)
  have hthen : ∀ {is w'}, (w.tick.record (.simulated tx .passed)).Lands net is w' →
      w.Lands net is w' := (hsimulated .passed).trans
  unfold simulateAndSend
  rw [Effect.wp_bind, Effect.wp_mapError]
  refine simulate_wp net (fun message => ?_) (fun err logs => ?_) ?_
  · exact .thwarted (.unanswered message) rfl (.inl (hsimulated _))
  · exact .thwarted (.refused rfl rfl) rfl (.inl (hsimulated _))
  · have hpassed : w.Logged [.simulated tx .passed] (w.tick.record (.simulated tx .passed)) := rfl
    simp only [Except.mapError]
    rw [Effect.wp_bind, Effect.wp_attempt]
    refine sendAndConfirm_wp net (fun w' hlog hlands => ?_) (fun w' hlog hlands => ?_)
      (fun w' hlog hlands => ?_) (fun fate message w' hlog hlands => ?_)
    · exact .confirmed (hpassed.trans hlog) (hthen hlands)
    · dsimp only
      rw [Effect.wp_bind]
      refine logsOf_wp net fun logs => ?_
      have htick : w'.Lands net [] w'.tick := .tick w'
      exact .thwarted (.failed rfl rfl) (hpassed.trans hlog) (.inl (hthen (hlands.trans htick)))
    · exact .thwarted (.expired rfl rfl) (hpassed.trans hlog) (.inl (hthen hlands))
    · dsimp only
      rw [Effect.wp_bind]
      refine logsOf_wp net fun logs => ?_
      have htick : w'.Lands net [] w'.tick := .tick w'
      refine .thwarted (.interrupted rfl rfl) (hpassed.trans hlog) ?_
      rcases hlands with hlands | hlands
      · exact .inl (hthen (hlands.trans htick))
      · have hafter := hthen (hlands.trans htick)
        rw [List.append_nil] at hafter
        exact .inr hafter

/-! ## Signing and sending in one transaction -/

/-- The instructions of a message to be sent, with or without a priority fee. -/
def Priced (is js : List (Instruction π)) : Prop :=
  js = is ∨ ∃ price, js = is ++ [.setComputeUnitPrice price]

theorem withPriorityFee_priced (price : Option Nat) (m : Message π) :
    Priced m.instructions (withPriorityFee kit price m).instructions := by
  unfold withPriorityFee
  cases price with
  | none => exact .inl rfl
  | some price =>
    simp only
    split
    · exact .inl rfl
    · split
      · exact .inr ⟨price, rfl⟩
      · exact .inl rfl

theorem Priced.any_isOperation {is js : List (Instruction π)} (h : Priced is js) :
    js.any (·.isOperation) = is.any (·.isOperation) := by
  rcases h with rfl | ⟨price, rfl⟩
  · rfl
  · simp

/-- Fetching a blockhash changes nothing but the clock. -/
theorem latestLifetime_wp {w : World χ π} {Q : Except Thrown Lifetime → World χ π → Prop}
    (herr : ∀ message, Q (.error (.other message)) w.tick) (hok : ∀ lifetime, Q (.ok lifetime) w.tick) :
    (latestLifetime net : Effect (World χ π) Thrown Lifetime).wp Q w := by
  unfold latestLifetime
  rw [Effect.wp_mapError]
  exact net.request_wp (fun message _ => herr message) (hok _)

/-- Signing logs the request; what is signed are the messages, in order. -/
theorem signTogether_wp {ms : List (Message π)} {lifetime : Lifetime} {w : World χ π}
    {Q : Except Thrown (List (Transaction π)) → World χ π → Prop}
    (herr : ∀ message, Q (.error (.other message)) (w.record (.signRequest ms)))
    (hok : ∀ txs : List (Transaction π),
      txs.map (·.message.instructions) = ms.map (·.instructions) →
        Q (.ok txs) (w.record (.signRequest ms))) :
    (signTogether kit ms lifetime).wp Q w := by
  unfold signTogether
  simp only [Effect.wp_bind, Effect.wp_modify, Effect.wp_get, Effect.wp_ofExcept]
  cases h : kit.signTransactionMessagesTogether (w.record (.signRequest ms)).clock ms lifetime with
  | error message => exact herr message
  | ok txs => exact hok txs (kit.sign_instructions h)

/-- What `sendInstructions` comes to: it stops before anything is submitted, or sends one
    transaction with these instructions. -/
inductive SentInstructions (is : List (Instruction π)) (w : World χ π) :
    Except Thrown Signature → World χ π → Prop
  | unsent {message : String} {es : List (Event π)} {w' : World χ π} (hlog : w.Logged es w')
    (hes : NoOperation es) (hlands : w.Lands net [] w') :
    SentInstructions is w (.error (.other message)) w'
  | sent {tx : Transaction π} {es : List (Event π)} {w₁ w' : World χ π}
    {r : Except Thrown Signature} (htx : Priced is tx.message.instructions) (hlog : w.Logged es w₁)
    (hes : NoOperation es) (hlands : w.Lands net [] w₁) (hsent : Sent net tx w₁ r w') :
    SentInstructions is w r w'

theorem sendInstructions_wp (ctx : SendContext) (is : List (Instruction π)) (w : World χ π) :
    (sendInstructions net kit ctx is).wp (SentInstructions net is w) w := by
  unfold sendInstructions
  rw [Effect.wp_bind]
  refine latestLifetime_wp net (fun message => ?_) (fun lifetime => ?_)
  · exact .unsent (.refl _) .nil (.tick w)
  · have hsigning : ∀ ms, w.Lands net [] (w.tick.record (.signRequest ms)) :=
      fun ms => (World.Lands.tick w).trans (.record rfl _)
    simp only
    rw [Effect.wp_bind]
    refine signTogether_wp kit (fun message => ?_) (fun txs htxs => ?_)
    · exact .unsent (World.Logged.record _ _) (.signRequest _) (hsigning _)
    · cases txs with
      | nil => simp at htxs
      | cons tx rest =>
        refine (simulateAndSend_wp net ctx tx ctx.operation _).mono fun r w' hsent => ?_
        have htx : tx.message.instructions = (withPriorityFee kit ctx.computeUnitPrice
            { instructions := is, lifetime := some lifetime }).instructions := by
          simpa using congrArg List.head? htxs
        have hpriced : Priced is tx.message.instructions := by
          rw [htx]
          exact withPriorityFee_priced kit _ _
        exact .sent hpriced (World.Logged.record _ _) (.signRequest _) (hsigning _) hsent

/-- A request changes nothing but the clock. -/
theorem within_request {α : Type} {R : World χ π → World χ π → Prop} (hR : ∀ w, R w w.tick)
    (r : Request π) (reply : Nat → χ → α) : (net.request r reply).Within R :=
  fun w => net.request_wp (fun _ _ => hR w) (hR w)

/-- Sending other instructions than an operation's own. -/
theorem SentInstructions.noOperation {is : List (Instruction π)} {w w' : World χ π}
    {r : Except Thrown Signature} (h : SentInstructions net is w r w')
    (his : is.any (·.isOperation) = false) : w.Quiet w' := by
  cases h with
  | unsent hlog hes => exact ⟨_, hlog, hes⟩
  | sent htx hlog hes _ hsent =>
    have htx' : Transaction.isOperation _ = false := htx.any_isOperation.trans his
    obtain ⟨fs, hlog', hfs⟩ := hsent.noOperation net htx'
    exact ⟨_, hlog.trans hlog', hes.append hfs⟩

theorem quiet_sendInstructions (ctx : SendContext) {is : List (Instruction π)}
    (his : is.any (·.isOperation) = false) :
    (sendInstructions net kit ctx is).Within World.Quiet :=
  fun w => (sendInstructions_wp net kit ctx is w).mono fun _ _ h => h.noOperation net his

/-! ## Cleanup -/

theorem quiet_closeBatches (ctx : SendContext) (batches : List (List Address)) :
    (closeBatches net kit ctx batches).Within World.Quiet := by
  induction batches with
  | nil => exact .pure []
  | cons batch batches ih =>
    have hsend : (sendInstructions net kit ctx (batch.map fun contextState =>
        .proof (closeContextStateProof ctx.payer contextState))).Within World.Quiet :=
      quiet_sendInstructions net kit ctx (by simp)
    refine hsend.attempt.bind fun sent => ih.bind fun closed => ?_
    cases sent with
    | ok _ => exact .pure _
    | error _ => exact .pure _

theorem quiet_closeProofAccounts (ctx : SendContext) (addresses : List Address) :
    (closeProofAccounts net kit ctx addresses).Within World.Quiet := by
  unfold closeProofAccounts
  split
  · exact .pure _
  · refine (within_request net World.Quiet.tick _ _).attempt.bind fun reply => ?_
    cases reply with
    | error _ => exact .pure _
    | ok value =>
      simp only
      split
      · exact .pure _
      · exact (quiet_closeBatches net kit _ _).bind fun _ => .pure _

theorem closeBatches_returns (ctx : SendContext) (batches : List (List Address)) (w : World χ π) :
    (closeBatches net kit ctx batches).wp (fun r _ => ∃ closed, r = .ok closed) w := by
  induction batches generalizing w with
  | nil => exact ⟨[], rfl⟩
  | cons batch batches ih =>
    unfold closeBatches
    rw [Effect.wp_bind, Effect.wp_attempt]
    refine Effect.wp.mono (P := fun _ _ => True) trivial fun sent w₁ _ => ?_
    simp only [Effect.wp_bind]
    refine (ih w₁).mono fun r w₂ hr => ?_
    obtain ⟨closed, rfl⟩ := hr
    cases sent with
    | ok _ => exact ⟨_, rfl⟩
    | error _ => exact ⟨_, rfl⟩

/-- Cleaning up never throws. -/
theorem closeProofAccounts_returns (ctx : SendContext) (addresses : List Address) (w : World χ π) :
    (closeProofAccounts net kit ctx addresses).wp (fun r _ => ∃ p, r = .ok p) w := by
  unfold closeProofAccounts
  split
  · exact ⟨_, rfl⟩
  · rw [Effect.wp_bind, Effect.wp_attempt]
    refine net.request_wp (fun message _ => ⟨_, rfl⟩) ?_
    simp only
    split
    · exact ⟨_, rfl⟩
    · rw [Effect.wp_bind]
      refine (closeBatches_returns net kit _ _ _).mono fun r w₁ hr => ?_
      obtain ⟨closed, rfl⟩ := hr
      exact ⟨_, rfl⟩

/-! ## Proof flows -/

/-- The code of the error a flow rejects with when a step threw `e`. -/
def flowCode : Thrown → ErrorCode
  | .sdk e => e.code
  | .other _ => .transactionFailed

/-- `e` is the error of a flow whose step `step` threw `thrown`. -/
structure FlowError (step : String) (thrown : Thrown) (e : ConfidentialTransfersError) : Prop where
  step : e.step = some step
  code : e.code = flowCode thrown
  retryable : e.retryable = thrown.retryable

theorem flowError_spec (ctx : SendContext) (step : String) (signatures : List Signature)
    (proofAccounts : ProofAccounts) (thrown : Thrown) :
    FlowError step thrown (flowError ctx step signatures proofAccounts thrown) := by
  cases thrown with
  | sdk e => exact ⟨rfl, rfl, rfl⟩
  | other message => exact ⟨rfl, rfl, rfl⟩

/-- What running a proof flow with this action comes to. -/
inductive FlowRun (action : Action) (actionStep : String) (w : World χ π) :
    Except Thrown ProofFlowResult → World χ π → Prop
  /-- It stops before anything is submitted. -/
  | unsent {message : String} {es : List (Event π)} {w' : World χ π} (hlog : w.Logged es w')
    (hes : NoOperation es) :
    FlowRun action actionStep w (.error (.other message)) w'
  /-- A transaction before the action's fails. -/
  | setupFailed {thrown : Thrown} {e : ConfidentialTransfersError} {es : List (Event π)}
    {w' : World χ π} (he : FlowError "proofs" thrown e) (hlog : w.Logged es w')
    (hes : NoOperation es) :
    FlowRun action actionStep w (.error (.sdk e)) w'
  /-- The action's transaction fails. -/
  | actionFailed {tx : Transaction π} {thrown : Thrown} {e : ConfidentialTransfersError}
    {es fs gs : List (Event π)} {w' : World χ π} (htx : tx.message.includes action = true)
    (hfailed : Failed tx thrown fs) (he : FlowError actionStep thrown e)
    (hlog : w.Logged (es ++ (fs ++ gs)) w') (hes : NoOperation es) (hgs : NoOperation gs) :
    FlowRun action actionStep w (.error (.sdk e)) w'
  /-- The action's transaction is confirmed. -/
  | done {tx : Transaction π} {res : ProofFlowResult} {es gs : List (Event π)} {w' : World χ π}
    (htx : tx.message.includes action = true) (hsig : tx.signature ∈ res.signatures)
    (hlog : w.Logged (es ++ (confirmedEvents tx ++ gs)) w') (hes : NoOperation es)
    (hgs : NoOperation gs) :
    FlowRun action actionStep w (.ok res) w'

/-- Events before a run that are not about an operation. -/
theorem FlowRun.prepend {action : Action} {actionStep : String} {w w₁ w' : World χ π}
    {es : List (Event π)} {r : Except Thrown ProofFlowResult} (hlog : w.Logged es w₁)
    (hes : NoOperation es) (h : FlowRun action actionStep w₁ r w') :
    FlowRun action actionStep w r w' := by
  cases h with
  | unsent hlog' hes' => exact .unsent (hlog.trans hlog') (hes.append hes')
  | setupFailed he hlog' hes' => exact .setupFailed he (hlog.trans hlog') (hes.append hes')
  | actionFailed htx hfailed he hlog' hes' hgs =>
    refine .actionFailed htx hfailed he ?_ (hes.append hes') hgs
    rw [List.append_assoc]
    exact hlog.trans hlog'
  | done htx hsig hlog' hes' hgs =>
    refine .done htx hsig ?_ (hes.append hes') hgs
    rw [List.append_assoc]
    exact hlog.trans hlog'

variable (ctx : SendContext) (flow : ProofFlow π) (actionStep : String)

/-- After the action: the flow succeeds whatever becomes of the rest. -/
theorem sendInOrder_after {k : Nat} (txs : List (Transaction π))
    (htxs : ∀ tx ∈ txs, tx.isOperation = false) {i : Nat} (hi : k < i)
    (signatures : List Signature) (w : World χ π) :
    (sendInOrder net kit ctx flow actionStep (some k) i txs signatures).wp (fun r w' =>
      ∃ res es, r = .ok res ∧ signatures ⊆ res.signatures ∧ w.Logged es w' ∧ NoOperation es) w := by
  induction txs generalizing i signatures w with
  | nil => exact ⟨_, [], rfl, List.Subset.refl _, .refl w, .nil⟩
  | cons tx rest ih =>
    unfold sendInOrder
    rw [Effect.wp_bind, Effect.wp_attempt]
    refine (simulateAndSend_wp net ctx tx _ w).mono fun r w₁ hsent => ?_
    obtain ⟨es, hlog, hes⟩ := hsent.noOperation net (htxs tx (by simp))
    cases hsent with
    | confirmed =>
      refine (ih (fun t ht => htxs t (by simp [ht])) (by omega) _ w₁).mono fun r' w' h => ?_
      obtain ⟨res, fs, hr, hsub, hlog', hfs⟩ := h
      exact ⟨res, es ++ fs, hr, fun s hs => hsub (by simp [hs]), hlog.trans hlog', hes.append hfs⟩
    | thwarted =>
      have hquiet := quiet_closeProofAccounts net kit ctx flow.proofAccounts w₁
      have hreturns := closeProofAccounts_returns net kit ctx flow.proofAccounts w₁
      simp only [actionLanded, hi, decide_true, if_true]
      rw [Effect.wp_bind]
      refine (hquiet.and hreturns).mono fun r' w' h => ?_
      obtain ⟨⟨fs, hlog', hfs⟩, p, rfl⟩ := h
      exact ⟨_, es ++ fs, rfl, List.Subset.refl _, hlog.trans hlog', hes.append hfs⟩

/-- A transaction that fails before the action or at it: the proof accounts are closed and the flow
    rejects. -/
theorem sendInOrder_thwarted {k i : Nat} (hi : i ≤ k) {thrown : Thrown}
    (signatures : List Signature) (w : World χ π) :
    (closeProofAccounts net kit ctx flow.proofAccounts >>= fun proofAccounts =>
      if actionLanded (some k) i = true then
        pure { signatures, proofAccountsLeftOpen := proofAccounts.leftOpen }
      else
        Effect.throw (.sdk (flowError ctx (stepName (some k) actionStep i) signatures
          proofAccounts thrown)) : Effect (World χ π) Thrown ProofFlowResult).wp (fun r w' =>
      ∃ e es, r = .error (.sdk e) ∧ FlowError (stepName (some k) actionStep i) thrown e ∧
        w.Logged es w' ∧ NoOperation es) w := by
  have hquiet := quiet_closeProofAccounts net kit ctx flow.proofAccounts w
  have hreturns := closeProofAccounts_returns net kit ctx flow.proofAccounts w
  have hnot : ¬ k < i := by omega
  simp only [actionLanded, hnot, decide_false, Bool.false_eq_true, if_false]
  rw [Effect.wp_bind]
  refine (hquiet.and hreturns).mono fun r w' h => ?_
  obtain ⟨⟨es, hlog, hes⟩, p, rfl⟩ := h
  exact ⟨_, es, rfl, flowError_spec ctx _ _ _ _, hlog, hes⟩

/-- From the action on. -/
theorem sendInOrder_action {k : Nat} {tx : Transaction π}
    (htx : tx.message.includes flow.action = true) (post : List (Transaction π))
    (hpost : ∀ t ∈ post, t.isOperation = false) (signatures : List Signature) (w : World χ π) :
    (sendInOrder net kit ctx flow actionStep (some k) k (tx :: post) signatures).wp
      (FlowRun flow.action actionStep w) w := by
  unfold sendInOrder
  rw [Effect.wp_bind, Effect.wp_attempt]
  refine (simulateAndSend_wp net ctx tx _ w).mono fun r w₁ hsent => ?_
  cases hsent with
  | confirmed hlog =>
    refine (sendInOrder_after net kit ctx flow actionStep post hpost (Nat.lt_succ_self k) _ w₁).mono
      fun r' w' h => ?_
    obtain ⟨res, gs, rfl, hsub, hlog', hgs⟩ := h
    have hlog₂ : w.Logged ([] ++ (confirmedEvents tx ++ gs)) w' := hlog.trans hlog'
    exact .done htx (hsub (by simp)) hlog₂ .nil hgs
  | @thwarted _ fs _ hfailed hlog =>
    refine (sendInOrder_thwarted net kit ctx flow actionStep (Nat.le_refl k) signatures w₁).mono
      fun r' w' h => ?_
    obtain ⟨e, gs, rfl, he, hlog', hgs⟩ := h
    have hstep : stepName (some k) actionStep k = actionStep := by simp [stepName]
    rw [hstep] at he
    have hlog₂ : w.Logged ([] ++ (fs ++ gs)) w' := hlog.trans hlog'
    exact .actionFailed htx hfailed he hlog₂ .nil hgs

/-- From any transaction before the action on. -/
theorem sendInOrder_run {k : Nat} {tx : Transaction π}
    (htx : tx.message.includes flow.action = true) (pre post : List (Transaction π))
    (hpre : ∀ t ∈ pre, t.isOperation = false) (hpost : ∀ t ∈ post, t.isOperation = false)
    {i : Nat} (hi : i + pre.length = k) (signatures : List Signature) (w : World χ π) :
    (sendInOrder net kit ctx flow actionStep (some k) i (pre ++ tx :: post) signatures).wp
      (FlowRun flow.action actionStep w) w := by
  induction pre generalizing i signatures w with
  | nil =>
    obtain rfl : i = k := by simpa using hi
    exact sendInOrder_action net kit ctx flow actionStep htx post hpost signatures w
  | cons t pre ih =>
    have hik : i < k := by simp only [List.length_cons] at hi; omega
    simp only [List.cons_append]
    unfold sendInOrder
    rw [Effect.wp_bind, Effect.wp_attempt]
    refine (simulateAndSend_wp net ctx t _ w).mono fun r w₁ hsent => ?_
    obtain ⟨es, hlog, hes⟩ := hsent.noOperation net (hpre t (by simp))
    cases hsent with
    | confirmed =>
      have hi' : i + 1 + pre.length = k := by simp only [List.length_cons] at hi; omega
      refine (ih (fun t' ht' => hpre t' (by simp [ht'])) hi' _ w₁).mono fun r' w' h => ?_
      exact h.prepend hlog hes
    | thwarted =>
      refine (sendInOrder_thwarted net kit ctx flow actionStep hik.le signatures w₁).mono
        fun r' w' h => ?_
      obtain ⟨e, gs, rfl, he, hlog', hgs⟩ := h
      have hstep : stepName (some k) actionStep i = "proofs" := by simp [stepName, hik]
      rw [hstep] at he
      exact .setupFailed he (hlog.trans hlog') (hes.append hgs)

/-! ### The transactions of a plan -/

/-- Cutting a concatenation at one of its elements. -/
theorem exists_flatMap_eq {α β : Type} {f : α → List β} {xs : List α} {ys zs : List β} {b : β}
    (h : xs.flatMap f = ys ++ b :: zs) :
    ∃ pre x post ys' zs', xs = pre ++ x :: post ∧ f x = ys' ++ b :: zs' ∧
      ys = pre.flatMap f ++ ys' ∧ zs = zs' ++ post.flatMap f := by
  induction xs generalizing ys with
  | nil => simp at h
  | cons x xs ih =>
    rw [List.flatMap_cons] at h
    rcases List.append_eq_append_iff.mp h with ⟨us, hys, hxs⟩ | ⟨us, hfx, hus⟩
    · obtain ⟨pre, x', post, ys', zs', rfl, hx', rfl, rfl⟩ := ih hxs
      exact ⟨x :: pre, x', post, ys', zs', rfl, hx', by simp [hys], rfl⟩
    · cases us with
      | nil =>
        have hxs : xs.flatMap f = [] ++ b :: zs := hus.symm
        obtain ⟨pre, x', post, ys', zs', rfl, hx', hys', rfl⟩ := ih hxs
        refine ⟨x :: pre, x', post, ys', zs', rfl, hx', ?_, rfl⟩
        have hempty : pre.flatMap f ++ ys' = [] := hys'.symm
        simp only [List.flatMap_cons, List.append_assoc, hempty, List.append_nil]
        simpa using hfx.symm
      | cons u us =>
        obtain ⟨rfl, rfl⟩ : b = u ∧ zs = us ++ xs.flatMap f := by simpa using hus
        exact ⟨[], x, xs, ys, us, rfl, hfx, by simp, rfl⟩

/-- The instructions of a proof flow in an order the plan allows: setup, the action, cleanup. -/
theorem proofFlowToPlan_linearizes {xs : List (Instruction π)}
    (h : (proofFlowToPlan flow).Linearizes xs) :
    ∃ ps rs, xs = ps ++ .operation flow.action :: rs ∧
      (flow.setup.map Instruction.proof).Linearizes ps ∧
      (Plan.unordered (flow.cleanup.map Instruction.proof)).Linearizes rs := by
  obtain ⟨ps, qs, rs, rfl, hps, hqs, hrs⟩ := Plan.Linearizes.three h
  cases hqs
  exact ⟨ps, rs, rfl, hps, hrs⟩

/-- A plan of proof instructions holds no operation. -/
theorem noOperation_of_linearizes {p : Plan (Instruction π)} {is : List (ProofInstruction π)}
    {xs : List (Instruction π)} (h : p.Linearizes xs) (hp : p.leaves = is.map .proof) :
    ∀ x ∈ xs, x.isOperation = false := by
  intro x hx
  have hmem : x ∈ is.map Instruction.proof := hp ▸ h.perm.mem_iff.mp hx
  obtain ⟨i, -, rfl⟩ := List.mem_map.mp hmem
  rfl

/-- The planner's messages: those before the action, the one with it, those after it. -/
theorem plan_messages {ms : List (Message π)} (h : kit.plan (proofFlowToPlan flow) = .ok ms) :
    ∃ pre m post, ms = pre ++ m :: post ∧ m.includes flow.action = true ∧
      (∀ m' ∈ pre, m'.instructions.any (·.isOperation) = false) ∧
      (∀ m' ∈ post, m'.instructions.any (·.isOperation) = false) := by
  obtain ⟨ps, rs, hxs, hps, hrs⟩ := proofFlowToPlan_linearizes flow (kit.plan_linearizes h)
  obtain ⟨pre, m, post, ps', rs', rfl, hm, rfl, rfl⟩ := exists_flatMap_eq hxs
  have hps' := noOperation_of_linearizes hps (Plan.leaves_map _ _)
  have hrs' := noOperation_of_linearizes hrs (Plan.leaves_unordered _)
  refine ⟨pre, m, post, rfl, ?_, fun m' hm' => ?_, fun m' hm' => ?_⟩
  · simp [Message.includes, hm, Instruction.isObject]
  · simp only [List.any_eq_false, Bool.not_eq_true]
    intro x hx
    exact hps' x (List.mem_append_left _ (List.mem_flatMap.mpr ⟨m', hm', hx⟩))
  · simp only [List.any_eq_false, Bool.not_eq_true]
    intro x hx
    exact hrs' x (List.mem_append_right _ (List.mem_flatMap.mpr ⟨m', hm', hx⟩))

/-- Only an operation's own instruction is the same object as the action. -/
theorem includes_of_isOperation {m : Message π} {action : Action}
    (h : m.includes action = true) : m.instructions.any (·.isOperation) = true := by
  obtain ⟨x, hx, hobj⟩ := List.any_eq_true.mp h
  refine List.any_eq_true.mpr ⟨x, hx, ?_⟩
  cases x with
  | operation a => rfl
  | proof _ => simp [Instruction.isObject] at hobj
  | setComputeUnitPrice _ => simp [Instruction.isObject] at hobj

theorem Priced.includes {m m' : Message π} {action : Action}
    (h : Priced m.instructions m'.instructions) : m'.includes action = m.includes action := by
  unfold Message.includes
  rcases h with heq | ⟨price, heq⟩
  · rw [heq]
  · simp [heq, Instruction.isObject]

/-- Where the action is among the planned messages. -/
theorem findIdx?_includes {pre post : List (Message π)} {m : Message π} {action : Action}
    (hm : m.includes action = true)
    (hpre : ∀ m' ∈ pre, m'.instructions.any (·.isOperation) = false) :
    (pre ++ m :: post).findIdx? (·.includes action) = some pre.length := by
  have hnone : ∀ m' ∈ pre, m'.includes action = false := by
    intro m' hm'
    by_contra hinc
    have := includes_of_isOperation (Bool.eq_true_of_not_eq_false hinc)
    simp [hpre m' hm'] at this
  rw [List.findIdx?_append, List.findIdx?_eq_none_iff.mpr hnone]
  simp [List.findIdx?_cons, hm]

/-- Signing the priced messages of `pre ++ m :: post` gives transactions cut at the same place. -/
theorem signed_cut {pre post : List (Message π)} {m : Message π} {f : Message π → Message π}
    {txs : List (Transaction π)} (hf : ∀ m, Priced m.instructions (f m).instructions)
    (h : txs.map (·.message.instructions) = ((pre ++ m :: post).map f).map (·.instructions)) :
    ∃ pre' tx post', txs = pre' ++ tx :: post' ∧ pre'.length = pre.length ∧
      Priced m.instructions tx.message.instructions ∧
      (∀ t ∈ pre', ∃ m' ∈ pre, Priced m'.instructions t.message.instructions) ∧
      (∀ t ∈ post', ∃ m' ∈ post, Priced m'.instructions t.message.instructions) := by
  have hmem : ∀ {ts : List (Transaction π)} {ms : List (Message π)},
      ts.map (·.message.instructions) = (ms.map f).map (·.instructions) →
      ∀ t ∈ ts, ∃ m' ∈ ms, Priced m'.instructions t.message.instructions := by
    intro ts ms hts t ht
    have ht' : t.message.instructions ∈ (ms.map f).map (·.instructions) :=
      hts ▸ List.mem_map.mpr ⟨t, ht, rfl⟩
    simp only [List.map_map, List.mem_map, Function.comp_apply] at ht'
    obtain ⟨m', hm', heq⟩ := ht'
    exact ⟨m', hm', heq ▸ hf m'⟩
  rw [List.map_append, List.map_append, List.map_eq_append_iff] at h
  obtain ⟨pre', rest, rfl, hpre, hrest⟩ := h
  rw [List.map_cons, List.map_cons, List.map_eq_cons_iff] at hrest
  obtain ⟨tx, post', rfl, htx, hpost⟩ := hrest
  refine ⟨pre', tx, post', rfl, ?_, ?_, hmem hpre, hmem hpost⟩
  · simpa using congrArg List.length hpre
  · rw [htx]
    exact hf m

/-- Running a proof flow. -/
theorem executeProofFlow_wp (w : World χ π) :
    (executeProofFlow net kit ctx flow actionStep).wp (FlowRun flow.action actionStep w) w := by
  unfold executeProofFlow
  rw [Effect.wp_bind, Effect.wp_ofExcept]
  cases hplan : kit.plan (proofFlowToPlan flow) with
  | error message => exact .unsent (.refl w) .nil
  | ok planned =>
    obtain ⟨pre, m, post, rfl, hm, hpre, hpost⟩ := plan_messages kit flow hplan
    simp only [Except.mapError]
    rw [Effect.wp_bind]
    refine latestLifetime_wp net (fun message => .unsent (.refl w) .nil) (fun lifetime => ?_)
    simp only
    rw [Effect.wp_bind]
    refine signTogether_wp kit (fun message => ?_) (fun txs htxs => ?_)
    · exact .unsent (World.Logged.record _ _) (.signRequest _)
    · obtain ⟨pre', tx, post', rfl, hlength, htx, hpre', hpost'⟩ := signed_cut
        (fun m => withPriorityFee_priced kit ctx.computeUnitPrice { m with lifetime := some lifetime })
        htxs
      rw [findIdx?_includes hm hpre]
      have hops : ∀ {ts : List (Transaction π)} {ms : List (Message π)},
          (∀ t ∈ ts, ∃ m' ∈ ms, Priced m'.instructions t.message.instructions) →
          (∀ m' ∈ ms, m'.instructions.any (·.isOperation) = false) →
          ∀ t ∈ ts, t.isOperation = false := by
        intro ts ms hts hms t ht
        obtain ⟨m', hm', hpriced⟩ := hts t ht
        exact hpriced.any_isOperation.trans (hms m' hm')
      refine (sendInOrder_run net kit ctx flow actionStep ?_ pre' post' (hops hpre' hpre)
        (hops hpost' hpost) (by simp [hlength]) [] _).mono fun r w' h => ?_
      · rw [htx.includes]
        exact hm
      · exact h.prepend (World.Logged.record _ _) (.signRequest _)

end Sdk
