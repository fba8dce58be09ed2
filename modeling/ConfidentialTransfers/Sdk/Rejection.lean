-- SUMMARY: What a rejected transfer or withdraw says about the tokens.
import ConfidentialTransfers.Sdk.SendOutcomes

/-!
# Rejected flows

A caller who sees `executeProofFlow` reject takes the tokens for not moved, and
`TRANSACTION_FAILED` for a transaction that failed. Both hold as long as the
network leaves no doubt about the action's transaction.
-/

open Solana

namespace Solana

/-- No transaction among events that are not about operations holds the action. -/
theorem NoOperation.not_includes {π : Type} {action : Action} {es : List (Event π)}
    (hes : NoOperation es) {e : Event π} (he : e ∈ es) {tx : Transaction π}
    (hop : e.isOperation = tx.isOperation) : tx.message.includes action = false := by
  by_contra h
  have htx : tx.isOperation = true := Sdk.includes_of_isOperation (Bool.eq_true_of_not_eq_false h)
  simp [hes e he, htx] at hop

end Solana

namespace Sdk

variable {χ π : Type}

/-- A rejected flow has not moved tokens, and `TRANSACTION_FAILED` at the action's step means that the
    action's transaction failed in simulation or on chain. -/
structure RejectionIsSafe (action : Action) (actionStep : String)
    (r : Except Thrown ProofFlowResult) (es : List (Event π)) : Prop where
  notLanded : ∀ thrown, r = .error thrown → ∀ tx interrupted,
    .submitted tx .landed interrupted ∈ es → tx.message.includes action = false
  failed : ∀ e, r = .error (.sdk e) → e.code = .transactionFailed → e.step = some actionStep →
    ∃ tx, tx.message.includes action = true ∧
      ((∃ err logs, .simulated tx (.refused err logs) ∈ es) ∨
        ∃ interrupted, .submitted tx .failed interrupted ∈ es)

/-- The network leaves no doubt about the action's transaction: it answers the simulation request,
    and if it cuts the wait for a confirmation short, the transaction has failed on chain. -/
structure ActionUnambiguous (action : Action) (es : List (Event π)) : Prop where
  answered : ∀ tx message, .simulated tx (.unanswered message) ∈ es →
    tx.message.includes action = false
  awaited : ∀ tx fate message, .submitted tx fate (some message) ∈ es →
    tx.message.includes action = true → fate = .failed

variable {action : Action} {es fs gs : List (Event π)}

/-- An event about the action is one of those around the action's own transaction. -/
theorem mem_around (hes : NoOperation es) (hgs : NoOperation gs) {e : Event π} {tx : Transaction π}
    (hop : e.isOperation = tx.isOperation) (hinc : tx.message.includes action = true) :
    e ∈ es ++ (fs ++ gs) ↔ e ∈ fs := by
  have hes' : e ∉ es := fun he => by simp [hes.not_includes he hop] at hinc
  have hgs' : e ∉ gs := fun he => by simp [hgs.not_includes he hop] at hinc
  simp [hes', hgs']

theorem actionUnambiguous_of_noOperation (hes : NoOperation es) : ActionUnambiguous action es where
  answered _ _ h := hes.not_includes h rfl
  awaited tx fate message h hinc := by
    have hnot : tx.message.includes action = false := hes.not_includes h rfl
    simp [hnot] at hinc

/-- Only the events around the action's own transaction matter to what the network leaves open. -/
theorem actionUnambiguous_around (hes : NoOperation es) (hgs : NoOperation gs) :
    ActionUnambiguous action (es ++ (fs ++ gs)) ↔ ActionUnambiguous action fs := by
  constructor
  · intro h
    exact ⟨fun tx message he => h.answered tx message (by simp [he]),
      fun tx fate message he => h.awaited tx fate message (by simp [he])⟩
  · intro h
    refine ⟨fun tx message he => ?_, fun tx fate message he hinc => ?_⟩
    · by_contra hinc
      have hinc' := Bool.eq_true_of_not_eq_false hinc
      exact hinc (h.answered tx message ((mem_around hes hgs rfl hinc').mp he))
    · exact h.awaited tx fate message ((mem_around hes hgs rfl hinc).mp he) hinc

/-- Only the events around the action's own transaction matter to what a rejection says. -/
theorem rejectionIsSafe_around {actionStep : String} {r : Except Thrown ProofFlowResult}
    (hes : NoOperation es) (hgs : NoOperation gs) :
    RejectionIsSafe action actionStep r (es ++ (fs ++ gs)) ↔ RejectionIsSafe action actionStep r fs := by
  constructor
  · intro h
    refine ⟨fun thrown hr tx i he => h.notLanded thrown hr tx i (by simp [he]),
      fun e hr hcode hstep => ?_⟩
    obtain ⟨tx, hinc, ⟨err, logs, he⟩ | ⟨i, he⟩⟩ := h.failed e hr hcode hstep
    · exact ⟨tx, hinc, .inl ⟨err, logs, (mem_around hes hgs rfl hinc).mp he⟩⟩
    · exact ⟨tx, hinc, .inr ⟨i, (mem_around hes hgs rfl hinc).mp he⟩⟩
  · intro h
    refine ⟨fun thrown hr tx i he => ?_, fun e hr hcode hstep => ?_⟩
    · by_contra hinc
      have hinc' := Bool.eq_true_of_not_eq_false hinc
      exact hinc (h.notLanded thrown hr tx i ((mem_around hes hgs rfl hinc').mp he))
    · obtain ⟨tx, hinc, ⟨err, logs, he⟩ | ⟨i, he⟩⟩ := h.failed e hr hcode hstep
      · exact ⟨tx, hinc, .inl ⟨err, logs, by simp [he]⟩⟩
      · exact ⟨tx, hinc, .inr ⟨i, by simp [he]⟩⟩

/-- One case for each way the action's transaction can fail. -/
theorem rejectionIsSafe_of_failed {actionStep : String} {tx : Transaction π} {thrown : Thrown}
    {e : ConfidentialTransfersError} (htx : tx.message.includes action = true)
    (he : FlowError actionStep thrown e) (hfailed : Failed tx thrown fs) :
    RejectionIsSafe action actionStep (.error (.sdk e)) fs ↔ ActionUnambiguous action fs := by
  cases hfailed with
  | unanswered message =>
    refine iff_of_false (fun h => ?_) (fun h => ?_)
    · obtain ⟨tx', -, ⟨err, logs, hmem⟩ | ⟨i, hmem⟩⟩ := h.failed e rfl he.code he.step
      · simp at hmem
      · simp at hmem
    · simp [h.answered tx message (by simp)] at htx
  | refused hcode =>
    refine iff_of_true ⟨by simp, fun e' _ _ _ => ⟨tx, htx, .inl ⟨_, _, List.mem_singleton.mpr rfl⟩⟩⟩ ?_
    exact ⟨by simp, by simp⟩
  | expired hcode =>
    refine iff_of_true ⟨by simp, fun e' hr hcode' => ?_⟩ ⟨by simp, by simp⟩
    obtain rfl : e = e' := by simpa using hr
    have hexpired : e.code = .transactionExpired := he.code.trans hcode
    simp [hexpired] at hcode'
  | failed hcode =>
    exact iff_of_true ⟨by simp, fun e' _ _ _ => ⟨tx, htx, .inr ⟨none, by simp⟩⟩⟩
      ⟨by simp, by simp⟩
  | @interrupted fate message e' hcode =>
    have hawaited : ActionUnambiguous action
        [.simulated tx .passed, .submitted tx fate (some message)] ↔ fate = .failed := by
      refine ⟨fun h => h.awaited tx fate message (by simp) htx, fun h => ⟨by simp, ?_⟩⟩
      rintro tx' fate' message' hmem -
      obtain ⟨rfl, rfl, rfl⟩ : tx' = tx ∧ fate' = fate ∧ message' = message := by simpa using hmem
      exact h
    rw [hawaited]
    constructor
    · intro h
      obtain ⟨tx', -, ⟨err, logs, hmem⟩ | ⟨i, hmem⟩⟩ :=
        h.failed e rfl (he.code.trans hcode) he.step
      · simp at hmem
      · obtain ⟨-, rfl, -⟩ : tx' = tx ∧ Fate.failed = fate ∧ i = some message := by simpa using hmem
        rfl
    · rintro rfl
      exact ⟨by simp, fun _ _ _ _ => ⟨tx, htx, .inr ⟨some message, by simp⟩⟩⟩

variable (net : Network χ π) (kit : Kit π) (ctx : SendContext) (flow : ProofFlow π)

/-- A rejection is safe exactly if the network leaves no doubt about the action's transaction. -/
theorem rejection_safe_iff (actionStep : String) (hstep : actionStep ≠ "proofs") (chain : χ)
    (clock keyPairs : Nat) :
    (executeProofFlow net kit ctx flow actionStep).wp (fun r w' =>
      RejectionIsSafe flow.action actionStep r w'.events ↔ ActionUnambiguous flow.action w'.events)
      { chain, clock, keyPairs } := by
  refine (executeProofFlow_wp net kit ctx flow actionStep _).mono fun r w' h => ?_
  cases h with
  | @unsent message es _ hlog hes =>
    have hw : w'.events = es := hlog
    refine iff_of_true ⟨fun _ _ tx i he => ?_, by simp⟩ ?_
    · exact hes.not_includes (hw ▸ he) rfl
    · rw [hw]
      exact actionUnambiguous_of_noOperation hes
  | @setupFailed thrown e es _ he hlog hes =>
    have hw : w'.events = es := hlog
    refine iff_of_true ⟨fun _ _ tx i hmem => ?_, fun e' hr _ hstep' => ?_⟩ ?_
    · exact hes.not_includes (hw ▸ hmem) rfl
    · obtain rfl : e = e' := by simpa using hr
      rw [he.step] at hstep'
      exact absurd (Option.some.inj hstep').symm hstep
    · rw [hw]
      exact actionUnambiguous_of_noOperation hes
  | @actionFailed tx thrown e es fs gs _ htx hfailed he hlog hes hgs =>
    have hw : w'.events = es ++ (fs ++ gs) := hlog
    rw [hw, rejectionIsSafe_around hes hgs, actionUnambiguous_around hes hgs]
    exact rejectionIsSafe_of_failed htx he hfailed
  | @done tx res es gs _ htx hsig hlog hes hgs =>
    have hw : w'.events = es ++ (confirmedEvents tx ++ gs) := hlog
    rw [hw, rejectionIsSafe_around hes hgs, actionUnambiguous_around hes hgs]
    exact iff_of_true ⟨by simp, by simp⟩ ⟨by simp [confirmedEvents], by simp [confirmedEvents]⟩

/-! ## A dropped websocket -/

/-- A network that executes everything but loses the subscription while an operation confirms. -/
def websocketDrops : Network Unit Unit where
  execute _ _ _ := some ()
  interrupted _ tx := if tx.isOperation then some "WebSocket connection closed" else none

/-- The flow of a withdraw of 5 base units, its proofs left out. -/
def exampleWithdraw : ProofFlow Unit where
  proofAccounts := ["equality", "range"]
  setup := .parallel [
    .sequence [.createAccount "equality" 1, .verifyProof () "equality" "payer"],
    .sequence [.createAccount "range" 1, .verifyProof () "range" "payer"]]
  action :=
    { ref := 0
      programAddress := token2022ProgramAddress
      call := .withdraw
        { token := "token", mint := "mint", equalityRecord := "equality", rangeRecord := "range",
          authority := "owner", amount := 5, decimals := 0, newDecryptableAvailableBalance := [] } }
  cleanup := [closeContextStateProof "payer" "equality", closeContextStateProof "payer" "range"]

/-- The withdraw lands, and the call rejects. -/
theorem websocketDrops_not_safe :
    ¬ (executeProofFlow websocketDrops .oneEach { payer := "payer", operation := "withdraw" }
        exampleWithdraw "withdraw").wp
      (fun r w' => RejectionIsSafe exampleWithdraw.action "withdraw" r w'.events) { chain := () } := by
  intro h
  have hnot := h.notLanded _ rfl
    { message := { instructions := [.operation exampleWithdraw.action],
                   lifetime := some ⟨"", 0⟩ },
      signature := toString 1 ++ "." ++ toString 4 } (some "WebSocket connection closed")
  have hincludes := hnot (List.mem_of_getElem? (i := 10) rfl)
  simp [Message.includes, Instruction.isObject] at hincludes

/-- A withdraw whose network loses no request and no subscription. -/
theorem rejection_safe_iff_quiet_network :
    (executeProofFlow ({ execute := fun _ _ _ => some () } : Network Unit Unit) .oneEach
        { payer := "payer", operation := "withdraw" } exampleWithdraw "withdraw").wp
      (fun r w' => RejectionIsSafe exampleWithdraw.action "withdraw" r w'.events ↔
        ActionUnambiguous exampleWithdraw.action w'.events) { chain := () } :=
  rejection_safe_iff _ _ _ _ "withdraw" (by decide) () 0 0

end Sdk
