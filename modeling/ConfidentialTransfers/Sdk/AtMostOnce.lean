-- SUMMARY: One call moves tokens at most once, however often it is retried.
import ConfidentialTransfers.Sdk.Operations

/-!
# At most once

An attempt that fails with a retryable error has not landed its operation, so
the attempts of one call land at most one operation together.
-/

open Solana

namespace Sdk

variable {χ π σ τ α β : Type}

/-! ## One attempt -/

/-- An attempt lands its operation once and returns its signature, or lands nothing; it may also
    throw after landing it once, but then with an error that is not retryable. -/
def MovesOnce (view : σ → World χ π) (signatures : α → List Signature) (m : Effect σ Thrown α) :
    Prop :=
  ∀ s, m.wp (fun r s' => ∃ es, (view s).Logged es (view s') ∧
    match r with
    | .ok a => ∃ t ∈ signatures a, landedOperations es = [t]
    | .error e => landedOperations es = [] ∨ (e.retryable = false ∧ ∃ t, landedOperations es = [t])) s

section Rules

variable {view : σ → World χ π} {signatures : α → List Signature}

theorem MovesOnce.throw (e : Thrown) : MovesOnce view signatures (Effect.throw e) :=
  fun _ => ⟨[], .refl _, .inl rfl⟩

/-- Reading before the attempt. -/
theorem MovesOnce.bind {m : Effect σ Thrown β} {f : β → Effect σ Thrown α}
    (hm : m.Within (Order.Preimage view World.Quiet)) (hf : ∀ b, MovesOnce view signatures (f b)) :
    MovesOnce view signatures (m >>= f) := by
  intro s
  refine Effect.wp.bind (hm s) (fun b s₁ hquiet => ?_) (fun e s₁ hquiet => ?_)
  · obtain ⟨es, hlog, hes⟩ := hquiet
    refine (hf b s₁).mono fun r s' h => ?_
    obtain ⟨fs, hlog', hfs⟩ := h
    refine ⟨es ++ fs, hlog.trans hlog', ?_⟩
    rw [landedOperations_append, hes.landedOperations, List.nil_append]
    exact hfs
  · obtain ⟨es, hlog, hes⟩ := hquiet
    exact ⟨es, hlog, .inl hes.landedOperations⟩

theorem MovesOnce.onFst {m : Effect (World χ π) Thrown α} (h : MovesOnce id signatures m) :
    MovesOnce Prod.fst signatures (Effect.onFst m : Effect (World χ π × τ) Thrown α) :=
  fun s => h s.1

end Rules

/-- An operation that was sent in vain has landed only if the error is not retryable. -/
theorem Failed.landed {tx : Transaction π} {thrown : Thrown} {es : List (Event π)}
    (h : Failed tx thrown es) :
    landedOperations es = [] ∨ (thrown.retryable = false ∧ ∃ t, landedOperations es = [t]) := by
  cases h with
  | unanswered | refused | expired | failed =>
    exact .inl (by simp [landedOperations, Event.landedOperation])
  | @interrupted fate message e _ hretry =>
    cases hop : tx.isOperation with
    | false => exact .inl (by cases fate <;> simp [landedOperations, Event.landedOperation, hop])
    | true =>
      cases fate with
      | landed =>
        exact .inr ⟨hretry, tx.signature,
          by simp [landedOperations, List.filterMap_cons, Event.landedOperation, hop]⟩
      | failed => exact .inl (by simp [landedOperations, Event.landedOperation])
      | dropped => exact .inl (by simp [landedOperations, Event.landedOperation])

theorem landedOperations_confirmedEvents {tx : Transaction π} (hop : tx.isOperation = true) :
    landedOperations (confirmedEvents tx) = [tx.signature] := by
  simp [landedOperations, List.filterMap_cons, confirmedEvents, Event.landedOperation, hop]

variable (net : Network χ π) (kit : Kit π) (ctx : SendContext)

/-- Sending one operation in one transaction. -/
theorem movesOnce_sendInstructions (action : Action) :
    MovesOnce id (fun signature => [signature])
      (sendInstructions net kit ctx [.operation action]) := by
  intro w
  refine (sendInstructions_wp net kit ctx _ w).mono fun r w' h => ?_
  cases h with
  | unsent hlog hes => exact ⟨_, hlog, .inl hes.landedOperations⟩
  | @sent tx es _ _ _ htx hlog hes _ hsent =>
    have hop : tx.isOperation = true := htx.any_isOperation.trans (by simp)
    cases hsent with
    | confirmed hlog' =>
      refine ⟨_, hlog.trans hlog', tx.signature, List.mem_singleton.mpr rfl, ?_⟩
      rw [landedOperations_append, hes.landedOperations, landedOperations_confirmedEvents hop]
      rfl
    | @thwarted _ fs _ hfailed hlog' =>
      refine ⟨es ++ fs, hlog.trans hlog', ?_⟩
      rw [landedOperations_append, hes.landedOperations, List.nil_append]
      exact hfailed.landed

/-- Running a proof flow. -/
theorem movesOnce_executeProofFlow (flow : ProofFlow π) (actionStep : String) :
    MovesOnce id ProofFlowResult.signatures (executeProofFlow net kit ctx flow actionStep) := by
  intro w
  refine (executeProofFlow_wp net kit ctx flow actionStep w).mono fun r w' h => ?_
  cases h with
  | unsent hlog hes => exact ⟨_, hlog, .inl hes.landedOperations⟩
  | setupFailed _ hlog hes => exact ⟨_, hlog, .inl hes.landedOperations⟩
  | @actionFailed tx thrown e es fs gs _ htx hfailed he hlog hes hgs =>
    refine ⟨_, hlog, ?_⟩
    simp only [landedOperations_append, hes.landedOperations, hgs.landedOperations,
      List.nil_append, List.append_nil]
    have hretry : Thrown.retryable (.sdk e) = thrown.retryable := he.retryable
    rw [hretry]
    exact hfailed.landed
  | @done tx res es gs _ htx hsig hlog hes hgs =>
    refine ⟨_, hlog, tx.signature, hsig, ?_⟩
    simp only [landedOperations_append, hes.landedOperations, hgs.landedOperations,
      List.nil_append, List.append_nil]
    exact landedOperations_confirmedEvents (includes_of_isOperation htx)

/-! ## The attempts of a call -/

/-- The most attempts a call makes with this `retries` value, if there is a limit. -/
def attemptLimit (retries : Option JsNumber) : Option Nat :=
  (retries.getD (.ofNat 0)).countBelow.map (· + 1)

/-- What the attempts of one call come to together. -/
structure MovesTokensOnce (retries : Option JsNumber) (fuel : Nat) (view : σ → World χ π)
    (signatures : α → List Signature) (run : Retry.Run σ Thrown α) : Prop where
  atMostOnce : (landedOperations (view run.state).events).length ≤ 1
  resolved : ∀ a, run.outcome = some (.ok a) →
    ∃ t ∈ signatures a, landedOperations (view run.state).events = [t]
  /-- Only failures with a retryable error are followed by another attempt. -/
  retryable : ∀ failure ∈ run.retried, failure.1.retryable = true
  attempts : ∀ limit, attemptLimit retries = some limit → run.attempts ≤ limit
  settles : ∀ limit, attemptLimit retries = some limit → limit ≤ fuel → run.outcome.isSome = true

theorem MovesTokensOnce.map {retries : Option JsNumber} {fuel : Nat} {view : σ → World χ π}
    {signatures : α → List Signature} {signatures' : β → List Signature} {run : Retry.Run σ Thrown α}
    (h : MovesTokensOnce retries fuel view signatures run) (f : α → β)
    (hf : ∀ a, signatures' (f a) = signatures a) :
    MovesTokensOnce retries fuel view signatures' (run.map f) where
  atMostOnce := h.atMostOnce
  resolved b hb := by
    cases hout : run.outcome with
    | none => simp [Retry.Run.map, hout] at hb
    | some r =>
      cases r with
      | error e => simp [Retry.Run.map, hout, Except.map] at hb
      | ok a =>
        obtain rfl : f a = b := by simpa [Retry.Run.map, hout, Except.map] using hb
        rw [hf a]
        exact h.resolved a hout
  retryable := h.retryable
  attempts := by simpa using h.attempts
  settles := by simpa [Retry.Run.map] using h.settles

theorem retryAgain_retryable {retries : Option JsNumber} {n : Nat} {e : Thrown}
    (h : retryAgain retries n e = true) : e.retryable = true := by
  cases hr : e.retryable with
  | true => rfl
  | false => simp [retryAgain, hr] at h

theorem retryAgain_lt {retries : Option JsNumber} {limit : Nat}
    (hlimit : attemptLimit retries = some (limit + 1)) (n : Nat) (e : Thrown)
    (h : retryAgain retries n e = true) : n < limit := by
  have hcount : (retries.getD (.ofNat 0)).countBelow = some limit := by
    simpa [attemptLimit] using hlimit
  refine JsNumber.lt_of_not_ge ?_ hcount
  cases hge : JsNumber.ge (.ofNat n) (retries.getD (.ofNat 0)) with
  | false => rfl
  | true => simp [retryAgain, hge] at h

/-- How the landings of an attempt add up with those of the attempts before it. -/
def MovedAtMostOnce (view : σ → World χ π) (signatures : α → List Signature) :
    Except Thrown α → σ → Prop
  | .ok a, s => ∃ t ∈ signatures a, landedOperations (view s).events = [t]
  | .error _, s => (landedOperations (view s).events).length ≤ 1

/-- The loop's invariant: before every attempt nothing has landed. -/
theorem withRetries_landed {view : σ → World χ π} {signatures : α → List Signature}
    {attempt : Effect σ Thrown α} (hattempt : MovesOnce view signatures attempt)
    (retries : Option JsNumber) (fuel : Nat) (s : σ) (hs : landedOperations (view s).events = []) :
    (withRetries retries attempt fuel s).Satisfies
      (fun s => landedOperations (view s).events = []) (MovedAtMostOnce view signatures) := by
  refine Retry.run_induction _ _ (fun n s hs => ?_) fuel 0 s hs
  refine (hattempt s).mono fun r s' h => ?_
  obtain ⟨es, hlog, h⟩ := h
  have hlanded : landedOperations (view s').events = landedOperations es := by
    rw [hlog, landedOperations_append, hs, List.nil_append]
  cases r with
  | ok a => simpa [MovedAtMostOnce, hlanded] using h
  | error e =>
    simp only [MovedAtMostOnce, hlanded]
    rcases h with hnone | ⟨hretry, t, hone⟩
    · simp [hnone]
    · cases hagain : retryAgain retries n e with
      | true => simp [retryAgain_retryable hagain] at hretry
      | false => simp [hone]

/-- Attempts that each move tokens at most once do so together when retried. -/
theorem withRetries_movesTokensOnce {view : σ → World χ π} {signatures : α → List Signature}
    {attempt : Effect σ Thrown α} (hattempt : MovesOnce view signatures attempt)
    (retries : Option JsNumber) (fuel : Nat) (s : σ) (hs : landedOperations (view s).events = []) :
    MovesTokensOnce retries fuel view signatures (withRetries retries attempt fuel s) := by
  have hlanded := withRetries_landed hattempt retries fuel s hs
  have hretried : ∀ limit, attemptLimit retries = some limit →
      (withRetries retries attempt fuel s).retried.length + 1 ≤ limit := by
    intro limit hlimit
    cases limit with
    | zero => simp [attemptLimit] at hlimit
    | succ limit =>
      have hle := Retry.run_retried_le attempt (retryAgain_lt hlimit) fuel 0 s
      simpa [withRetries] using hle
  refine ⟨?_, ?_, ?_, ?_, ?_⟩
  · unfold Retry.Run.Satisfies at hlanded
    cases hout : (withRetries retries attempt fuel s).outcome with
    | none => rw [hout] at hlanded; simp [hlanded]
    | some r =>
      rw [hout] at hlanded
      cases r with
      | ok a => obtain ⟨t, -, ht⟩ := hlanded; simp [ht]
      | error e => exact hlanded
  · intro a ha
    rw [Retry.Run.Satisfies, ha] at hlanded
    exact hlanded
  · intro failure hmem
    obtain ⟨k, hk⟩ := Retry.run_retried fuel 0 s failure hmem
    exact retryAgain_retryable hk
  · intro limit hlimit
    have hle := hretried limit hlimit
    have hout : (withRetries retries attempt fuel s).outcome.toList.length ≤ 1 := by
      cases (withRetries retries attempt fuel s).outcome <;> simp
    unfold Retry.Run.attempts
    omega
  · intro limit hlimit hfuel
    have hle := hretried limit hlimit
    cases hout : (withRetries retries attempt fuel s).outcome with
    | some r => rfl
    | none =>
      have hlength := Retry.run_running fuel 0 s hout
      unfold withRetries at hle
      omega

/-! ## The operations -/

section Operations

variable {F G : Type} [CommRing F] [AddCommGroup G] [Module F G] (c : Client χ F G)

omit [AddCommGroup G] [Module F G] in
/-- Reads in a session are quiet. -/
theorem quiet_of_readOnly {m : Effect (Session χ F G) Thrown β}
    (h : m.Within (Order.Preimage Prod.fst World.ReadOnly)) :
    m.Within (Order.Preimage Prod.fst World.Quiet) :=
  h.mono fun _ _ h => h.quiet

omit [AddCommGroup G] [Module F G] in
theorem Generated.quiet {n : Nat} {w w' : World χ (ProofData F G)} (h : Generated n w w') : w.Quiet w' :=
  ⟨[], by simp [World.Logged, h.events], .nil⟩

theorem quiet_getConfidentialTransferProofFlow (input : TransferFlowInput F) :
    (getConfidentialTransferProofFlow c.net c.kit c.zk c.transferRandomness input).Within
      World.Quiet := by
  intro w
  refine (getConfidentialTransferProofFlow_wp c.net c.kit c.zk _ input w).mono fun r w' h => ?_
  cases r with
  | error e =>
    obtain ⟨⟨n, hgenerated⟩, _⟩ := h
    exact hgenerated.quiet
  | ok flow => exact h.1.quiet

theorem quiet_getConfidentialWithdrawProofFlow (input : WithdrawFlowInput F) :
    (getConfidentialWithdrawProofFlow c.net c.kit c.zk c.withdrawRandomness input).Within
      World.Quiet := by
  intro w
  refine (getConfidentialWithdrawProofFlow_wp c.net c.kit c.zk _ input w).mono fun r w' h => ?_
  cases r with
  | error e =>
    obtain ⟨⟨n, hgenerated⟩, _⟩ := h
    exact hgenerated.quiet
  | ok flow => exact h.1.quiet

theorem movesOnce_depositAttempt (input : DepositInput F) (programAddress token : Address) :
    MovesOnce id (fun signature => [signature]) (depositAttempt c input programAddress token) := by
  refine .bind ((readOnly_readConfiguredAccount c.net token _ _).mono fun _ _ h => h.quiet)
    fun account => ?_
  simp only
  split
  · exact .throw _
  · exact .bind (.ofExcept _) fun _ => movesOnce_sendInstructions c.net c.kit _ _

theorem movesOnce_applyPendingBalanceAttempt (input : ApplyPendingBalanceInput F)
    (programAddress token : Address) :
    MovesOnce Prod.fst (fun signature => [signature])
      (applyPendingBalanceAttempt c input programAddress token) := by
  have haction : (applyPendingBalanceAction c input programAddress token).Within
      (Order.Preimage Prod.fst World.ReadOnly) := by
    refine (readOnly_readConfiguredAccount c.net token _ _).onFst.bind fun account => ?_
    refine (readOnly_sessionKeys input.owner _).bind fun keys => ?_
    refine (Effect.Within.ofExcept _).bind fun _ => (Effect.Within.ofExcept _).bind fun newAvailable => ?_
    exact Effect.Within.get.bind fun session => .pure _
  exact .bind (quiet_of_readOnly haction) fun action =>
    (movesOnce_sendInstructions c.net c.kit _ _).onFst

theorem movesOnce_transferAttempt (input : TransferInput F)
    (programAddress sourceToken destination : Address) :
    MovesOnce Prod.fst ProofFlowResult.signatures
      (transferAttempt c input programAddress sourceToken destination) := by
  refine .bind (quiet_of_readOnly (within_both c (readOnly_readConfiguredAccount c.net _ _ _)
    (readOnly_readConfiguredAccount c.net _ _ _)).onFst) fun accounts => ?_
  refine .bind (.ofExcept _) fun _ => ?_
  refine .bind (quiet_of_readOnly (c.resolve_readOnly _ _ _ _ _).onFst) fun hookAccounts => ?_
  refine .bind (quiet_of_readOnly (readOnly_sessionKeys input.owner _)) fun keys => ?_
  refine .bind (.ofExcept _) fun _ => ?_
  refine .bind (quiet_of_readOnly (readOnly_givenOrMintAuditorKey c _ _).onFst) fun auditor => ?_
  refine .bind (quiet_getConfidentialTransferProofFlow c _).onFst fun flow => ?_
  exact (movesOnce_executeProofFlow c.net c.kit _ flow _).onFst

theorem movesOnce_withdrawAttempt (input : WithdrawInput F) (programAddress token : Address) :
    MovesOnce Prod.fst ProofFlowResult.signatures (withdrawAttempt c input programAddress token) := by
  refine .bind (quiet_of_readOnly (readOnly_readConfiguredAccount c.net token _ _).onFst)
    fun account => ?_
  refine .bind (quiet_of_readOnly (readOnly_sessionKeys input.owner _)) fun keys => ?_
  refine .bind (.ofExcept _) fun _ => ?_
  refine .bind (quiet_getConfidentialWithdrawProofFlow c _).onFst fun flow => ?_
  exact (movesOnce_executeProofFlow c.net c.kit _ flow _).onFst

/-- The call was rejected before its first attempt, or its attempts satisfy `P`. -/
def Attempts (P : Retry.Run σ Thrown α → Prop) : Except Thrown (Retry.Run σ Thrown α) → Prop
  | .ok run => P run
  | .error _ => True

/-- A call that checks its input and then makes its attempts. -/
theorem attempts_of_bind {P : Retry.Run σ Thrown α → Prop} {checked : Except Thrown β}
    {call : β → Retry.Run σ Thrown α} (h : ∀ b, P (call b)) :
    Attempts P (checked >>= fun b => pure (call b)) := by
  cases checked with
  | error e => exact trivial
  | ok b => exact h b

end Operations

/-! ## A congested network -/

/-- A network on which every transaction expires, with one configured token account. -/
def congested : Network Unit (ProofData (ZMod (2 ^ 128)) (ZMod (2 ^ 128))) where
  execute _ _ _ := none
  delivered _ _ := false
  token _ _ _ := .ok (some
    { amount := 100
      extensions := some [.confidentialTransferAccount
        { approved := true, elgamalPubkey := "", pendingBalanceLow := [], pendingBalanceHigh := [],
          availableBalance := [], decryptableAvailableBalance := [],
          allowConfidentialCredits := true, pendingBalanceCreditCounter := 0,
          maximumPendingBalanceCreditCounter := 65536 }] })

/-- A deposit that asks for so many retries. -/
def retriedDeposit (retries : JsNumber) : DepositInput (ZMod (2 ^ 128)) where
  payer := "payer"
  owner :=
    { address := "owner"
      deriveConfidentialKeys := fun _ => .error (.other "User rejected the request.")
      derive_raises := fun _ => .error trivial }
  mint := "mint"
  amount := 5
  decimals := 0
  retries := some retries

/-- Every attempt expires. -/
theorem retriedDeposit_expires (retries : JsNumber)
    (w : World Unit (ProofData (ZMod (2 ^ 128)) (ZMod (2 ^ 128)))) :
    ∃ e w', e.retryable = true ∧
      depositAttempt (.plain congested) (retriedDeposit retries) token2022ProgramAddress "owner/mint" w =
        (.error e, w') :=
  ⟨_, _, rfl, rfl⟩

/-- Without a bound the deposit is tried again and again. -/
theorem retriedDeposit_endless {retries : JsNumber} (hlimit : attemptLimit (some retries) = none)
    (fuel : Nat) : ∃ run, deposit (.plain congested) (retriedDeposit retries) fuel { chain := () } = .ok run ∧
      run.outcome = none ∧ run.attempts = fuel := by
  refine ⟨_, rfl, ?_⟩
  have hcount : retries.countBelow = none := by simpa [attemptLimit] using hlimit
  have hge : ∀ n, JsNumber.ge (.ofNat n) retries = false := by
    intro n
    rw [Bool.eq_false_iff, ne_eq, JsNumber.ge_ofNat_iff, hcount]
    simp
  have hretried : ∀ w, ∃ e w', depositAttempt (.plain congested) (retriedDeposit retries)
      token2022ProgramAddress "owner/mint" w = (.error e, w') ∧
        ∀ n, retryAgain (some retries) n e = true := by
    intro w
    obtain ⟨e, w', he, hw⟩ := retriedDeposit_expires retries w
    refine ⟨e, w', hw, fun n => ?_⟩
    simp [retryAgain, hge, he]
  obtain ⟨hnone, hattempts⟩ := Retry.run_endless hretried fuel 0 { chain := () }
  refine ⟨?_, ?_⟩
  · exact congrArg (Option.map _) hnone
  · rw [Retry.Run.map_attempts]
    exact hattempts

/-- A deposit that asks for half a retry. -/
def halfRetryDeposit : DepositInput (ZMod (2 ^ 128)) := retriedDeposit (.finite (1 / 2))

theorem halfRetryDeposit_expires (w : World Unit (ProofData (ZMod (2 ^ 128)) (ZMod (2 ^ 128)))) :
    ∃ e w', e.retryable = true ∧
      depositAttempt (.plain congested) halfRetryDeposit token2022ProgramAddress "owner/mint" w =
        (.error e, w') :=
  retriedDeposit_expires _ w

/-- Half a retry is one retry: two attempts, more than one and a half. -/
theorem halfRetryDeposit_attempts : ∃ run,
    deposit (.plain congested) halfRetryDeposit 2 { chain := () } = .ok run ∧
      ¬ (run.attempts : ℚ) ≤ max 0 (1 / 2) + 1 := by
  refine ⟨_, rfl, ?_⟩
  obtain ⟨e, w, he, hfirst⟩ := halfRetryDeposit_expires { chain := () }
  obtain ⟨e', w', he', hsecond⟩ := halfRetryDeposit_expires w
  have hagain : retryAgain halfRetryDeposit.retries 0 e = true := by
    simp [retryAgain, JsNumber.ge, JsNumber.ofNat, halfRetryDeposit, retriedDeposit, he]
  have hstop : retryAgain halfRetryDeposit.retries 1 e' = false := by
    have hle : (2 : ℚ)⁻¹ ≤ 1 := by norm_num
    simp [retryAgain, JsNumber.ge, JsNumber.ofNat, halfRetryDeposit, retriedDeposit, hle]
  have hrun : withRetries halfRetryDeposit.retries
      (depositAttempt (.plain congested) halfRetryDeposit token2022ProgramAddress "owner/mint") 2
      { chain := () } = ⟨[(e, w)], some (.error e'), w'⟩ := by
    simp [withRetries, Retry.run, hfirst, hsecond, hagain, hstop]
  have hattempts : (withRetries halfRetryDeposit.retries
      (depositAttempt (.plain congested) halfRetryDeposit token2022ProgramAddress "owner/mint") 2
      { chain := () }).attempts = 2 := by
    rw [hrun]
    rfl
  rw [Retry.Run.map_attempts]
  intro hle
  have hle' : ((2 : ℕ) : ℚ) ≤ max 0 (1 / 2) + 1 := by
    rw [← hattempts]
    exact hle
  norm_num at hle'

/-! ## Every call -/

variable {F G : Type} [CommRing F] [AddCommGroup G] [Module F G]

/-- For every operation, whatever the network does and however often it is retried. Where `retries` sets
    no bound there is none. -/
theorem operations_move_tokens_once (c : Client χ F G) (fuel : Nat) (chain : χ) (clock keyPairs : Nat) :
    (∀ input : DepositInput F, Attempts
      (MovesTokensOnce input.retries fuel id fun r => [r.signature])
      (deposit c input fuel { chain, clock, keyPairs })) ∧
    (∀ input : ApplyPendingBalanceInput F, Attempts
      (MovesTokensOnce input.retries fuel Prod.fst fun r => [r.signature])
      (applyPendingBalance c input fuel { chain, clock, keyPairs })) ∧
    (∀ input : TransferInput F, Attempts
      (MovesTokensOnce input.retries fuel Prod.fst TransferResult.signatures)
      (transfer c input fuel { chain, clock, keyPairs })) ∧
    (∀ input : WithdrawInput F, Attempts
      (MovesTokensOnce input.retries fuel Prod.fst WithdrawResult.signatures)
      (withdraw c input fuel { chain, clock, keyPairs })) ∧
    (∀ retries, attemptLimit (some retries) = none → ∀ bound, ∃ run,
      deposit (.plain congested) (retriedDeposit retries) bound { chain := () } = .ok run ∧
        run.attempts = bound) := by
  refine ⟨fun input => ?_, fun input => ?_, fun input => ?_, fun input => ?_, fun retries hlimit bound => ?_⟩
  · exact attempts_of_bind fun _ =>
      (withRetries_movesTokensOnce (movesOnce_depositAttempt c input _ _) _ fuel _ rfl).map _
        fun _ => rfl
  · exact (withRetries_movesTokensOnce (movesOnce_applyPendingBalanceAttempt c input _ _) _ fuel _
      rfl).map _ fun _ => rfl
  · exact attempts_of_bind fun tokens =>
      (withRetries_movesTokensOnce (movesOnce_transferAttempt c input _ _ _) _ fuel _ rfl).map _
        fun _ => rfl
  · exact attempts_of_bind fun _ =>
      (withRetries_movesTokensOnce (movesOnce_withdrawAttempt c input _ _) _ fuel _ rfl).map _
        fun _ => rfl
  · obtain ⟨run, hrun, -, hattempts⟩ := retriedDeposit_endless hlimit bound
    exact ⟨run, hrun, hattempts⟩

end Sdk
