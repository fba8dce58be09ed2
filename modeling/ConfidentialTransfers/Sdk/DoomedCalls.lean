-- SUMMARY: A call that one of its checks rejects has not opened the wallet, and the two kinds of calls that have.
import ConfidentialTransfers.Sdk.Agreement
import ConfidentialTransfers.Sdk.Prompts

/-!
# Doomed calls

A call rejects before its attempts, or as its last attempt does. An attempt is
tried again only when one of its transactions has expired, so a doomed call
either let one expire or made a single attempt.
-/

open Solana

namespace Sdk

variable {χ π σ α β : Type}

/-- What a call rejected with, and the world then. -/
def rejection (view : σ → World χ π) (w : World χ π) :
    Except Thrown (Retry.Run σ Thrown α) → Option (Thrown × World χ π)
  | .error e => some (e, w)
  | .ok run =>
    match run.outcome with
    | some (.error e) => some (e, view run.state)
    | _ => none

section Attempts

variable {view : σ → World χ π} {attempt : Effect σ Thrown α}

theorem MovesOnce.grows {signatures : α → List Signature} (h : MovesOnce view signatures attempt) :
    attempt.Within (Order.Preimage view World.Grows) := by
  intro s
  obtain ⟨es, hlog, _⟩ := h s
  exact ⟨es, hlog⟩

/-- Attempts only add to the log. -/
theorem grows_attempts (hgrows : attempt.Within (Order.Preimage view World.Grows))
    (again : Nat → Thrown → Bool) (fuel n : Nat) (s : σ) :
    (view s).Grows (view (Retry.run again attempt fuel n s).state) := by
  have hrun : (Retry.run again attempt fuel n s).Satisfies (fun s' => (view s).Grows (view s'))
      (fun _ s' => (view s).Grows (view s')) := by
    refine Retry.run_induction _ _ (fun n s₁ hbefore => ?_) fuel n s (refl (view s))
    refine (hgrows s₁).mono fun r s' hstep => ?_
    have hafter : (view s).Grows (view s') := IsTrans.trans _ _ _ hbefore hstep
    cases r with
    | ok a => exact hafter
    | error e =>
      simp only
      split
      · exact hafter
      · exact hafter
  unfold Retry.Run.Satisfies at hrun
  split at hrun
  · exact hrun
  · exact hrun

/-- A call that rejects does so after its first attempt, or that attempt was followed by others. -/
theorem rejection_cases (hgrows : attempt.Within (Order.Preimage view World.Grows))
    {retries : Option JsNumber} {fuel : Nat} {s : σ} {f : α → β} {w w' : World χ π} {e : Thrown}
    (h : rejection view w (.ok ((withRetries retries attempt fuel s).map f)) = some (e, w')) :
    (∃ s', attempt s = (.error e, s') ∧ w' = view s') ∨
      ∃ e₀ s₁, attempt s = (.error e₀, s₁) ∧ retryAgain retries 0 e₀ = true ∧ (view s₁).Grows w' := by
  have hended : ∃ s', (withRetries retries attempt fuel s).outcome = some (.error e) ∧
      w' = view s' ∧ s' = (withRetries retries attempt fuel s).state := by
    unfold rejection Retry.Run.map at h
    cases hout : (withRetries retries attempt fuel s).outcome with
    | none => simp [hout] at h
    | some r =>
      cases r with
      | ok a => simp [hout, Except.map] at h
      | error e' =>
        simp only [hout, Option.map_some, Except.map, Option.some.injEq, Prod.mk.injEq] at h
        exact ⟨_, by rw [h.1], h.2.symm, rfl⟩
  obtain ⟨_, hout, rfl, rfl⟩ := hended
  cases fuel with
  | zero => cases hout
  | succ fuel =>
    unfold withRetries at hout ⊢
    rcases Retry.run_succ_cases (retryAgain retries) attempt fuel 0 s with
      ⟨a, s', ha, hr⟩ | ⟨e₀, s', ha, hagain, hr⟩ | ⟨e₀, s', ha, hagain, hr⟩
    · rw [hr] at hout
      cases hout
    · rw [hr] at hout ⊢
      obtain rfl : e₀ = e := by simpa using hout
      exact .inl ⟨s', ha, rfl⟩
    · rw [hr]
      exact .inr ⟨e₀, s', ha, hagain, grows_attempts hgrows _ fuel 1 s'⟩

/-- A transaction was signed or sent, so the call did not keep away. -/
theorem KeepsAway.not_sent {code : ErrorCode} {w w' : World χ π} (h : KeepsAway code w w')
    (hcode : code ∈ codesBeforeKeys ++ codesBeforeSigning)
    (hsent : w.Logs (fun e => e.isTransaction = true) w') : False := by
  rcases List.mem_append.mp hcode with hcode | hcode
  · obtain ⟨e, ⟨_, hnot⟩, his⟩ := (h.signers hcode).not_logs hsent
    exact Bool.noConfusion (hnot.symm.trans his)
  · obtain ⟨e, hnot, his⟩ := (h.transactions hcode).not_logs hsent
    exact Bool.noConfusion (hnot.symm.trans his)

theorem KeepsAway.of_silent {code : ErrorCode} {w w' : World χ π} (h : w'.events = w.events) :
    KeepsAway code w w' where
  signers _ := ⟨[], by rw [World.Logged, h, List.append_nil], by simp⟩
  transactions _ := ⟨[], by rw [World.Logged, h, List.append_nil], by simp⟩

/-- An attempt that stops with a code of a check has kept away. -/
theorem Halted.keepsAway {w w' : World χ π} {e : ConfidentialTransfersError}
    (h : Halted w (.sdk e) w') (hcode : e.code ∈ codesBeforeKeys ++ codesBeforeSigning) :
    KeepsAway e.code w w' := by
  cases h with
  | early hsilent => exact .of_silent hsilent
  | late h =>
    cases h with
    | checking hkeys _ hlate =>
      refine ⟨fun hbefore => absurd hbefore hlate, fun _ => ?_⟩
      obtain ⟨es, hlog, hes⟩ := hkeys
      refine ⟨es, hlog, ?_⟩
      intro ev hev
      have hkey := hes ev hev
      cases ev with
      | keyRequest => rfl
      | simulated | submitted | signRequest => cases hkey
    | sending h => exact absurd hcode h.code

theorem Expires.sent {w w' : World χ π} (h : Expires w w') :
    w.Logs (fun e => e.isTransaction = true) w' := by
  obtain ⟨es, hlog, e, he, tx, rfl⟩ := h
  exact ⟨es, hlog, _, he, rfl⟩

/-- What is known of an attempt: where it stops, unless it derives keys in vain (`vain`), and how it then
    ends. -/
structure Checked (view : σ → World χ π) (attempt : Effect σ Thrown α) (vain : Prop) (s : σ) : Prop where
  grows : attempt.Within (Order.Preimage view World.Grows)
  halts : ¬vain → attempt.wp (fun r s' => ∀ e, r = .error e → Halted (view s) e (view s')) s
  inVain : vain → ∃ (e : ConfidentialTransfersError) (s' : σ), attempt s = (.error (.sdk e), s') ∧
    e.retryable = false ∧ e.code = .amountTooLarge ∧
    (view s).Logs (fun e => e.isKeyRequest = true) (view s')

section Checked

variable {retries : Option JsNumber} {fuel : Nat} {s : σ} {f : α → β} {vain : Prop}
  {e : ConfidentialTransfersError} {w w' : World χ π}

/-- A call made one attempt, or one of its transactions expired. -/
theorem Checked.rejects_once (h : Checked view attempt vain s)
    (hrejects : rejection view w (.ok ((withRetries retries attempt fuel s).map f)) = some (.sdk e, w')) :
    (∃ s', attempt s = (.error (.sdk e), s') ∧ w' = view s') ∨ Expires (view s) w' := by
  rcases rejection_cases h.grows hrejects with honce | ⟨e₀, s₁, hattempt, hagain, hafter⟩
  · exact .inl honce
  · right
    have hretryable := retryAgain_retryable hagain
    have hnot : ¬vain := by
      intro hv
      obtain ⟨e₁, s₂, hattempt₁, hretry, _⟩ := h.inVain hv
      obtain ⟨he, _⟩ := Prod.mk.inj (hattempt.symm.trans hattempt₁)
      obtain rfl := Except.error.inj he
      exact Bool.noConfusion (hretry.symm.trans hretryable)
    cases (h.halts hnot).run hattempt _ rfl with
    | early _ hretry => exact Bool.noConfusion (hretry.symm.trans hretryable)
    | late hlate =>
      cases hlate with
      | checking _ hretry => exact Bool.noConfusion (hretry.symm.trans hretryable)
      | sending hfailed => exact (hfailed.expires hretryable).grows hafter

/-- A call that rejects with the code of a check has kept away exactly if none of its transactions
    expired and its attempt did not derive keys in vain. -/
theorem Checked.keepsAway_iff (h : Checked view attempt vain s)
    (hrejects : rejection view w (.ok ((withRetries retries attempt fuel s).map f)) = some (.sdk e, w'))
    (hcode : e.code ∈ codesBeforeKeys ++ codesBeforeSigning) :
    KeepsAway e.code (view s) w' ↔ ¬Expires (view s) w' ∧ ¬vain := by
  rcases h.rejects_once hrejects with ⟨s', hattempt, rfl⟩ | hexpires
  · constructor
    · intro hkeeps
      refine ⟨fun hexpires => hkeeps.not_sent hcode hexpires.sent, ?_⟩
      intro hv
      obtain ⟨e₁, s₁, hattempt₁, _, hlarge, hasked⟩ := h.inVain hv
      obtain ⟨he, rfl⟩ := Prod.mk.inj (hattempt.symm.trans hattempt₁)
      obtain rfl := Thrown.sdk.inj (Except.error.inj he)
      have hbefore : e.code ∈ codesBeforeKeys := by simp [hlarge, codesBeforeKeys]
      obtain ⟨ev, ⟨hnot, _⟩, his⟩ := (hkeeps.signers hbefore).not_logs hasked
      exact Bool.noConfusion (hnot.symm.trans his)
    · intro hnot
      exact ((h.halts hnot.2).run hattempt _ rfl).keepsAway hcode
  · constructor
    · intro hkeeps
      exact (hkeeps.not_sent hcode hexpires.sent).elim
    · intro hnot
      exact absurd hexpires hnot.1

end Checked

end Attempts

/-! ## The operations -/

section Operations

variable {F G : Type} [CommRing F] [AddCommGroup G] [Module F G] (c : Client χ F G)

/-- A call of one of the operations. -/
inductive Operation (F : Type) [CommRing F]
  | deposit (input : DepositInput F)
  | applyPendingBalance (input : ApplyPendingBalanceInput F)
  | transfer (input : TransferInput F)
  | withdraw (input : WithdrawInput F)

namespace Operation

/-- What the call rejects with, and the world then. -/
def rejection (fuel : Nat) (w : World χ (ProofData F G)) :
    Operation F → Option (Thrown × World χ (ProofData F G))
  | .deposit input => Sdk.rejection id w (Sdk.deposit c input fuel w)
  | .applyPendingBalance input => Sdk.rejection Prod.fst w (Sdk.applyPendingBalance c input fuel w)
  | .transfer input => Sdk.rejection Prod.fst w (Sdk.transfer c input fuel w)
  | .withdraw input => Sdk.rejection Prod.fst w (Sdk.withdraw c input fuel w)

/-- A transfer of more than one can carry, without keys, that no earlier check rejects. -/
def DerivesKeysInVain (code : ErrorCode) : Operation F → Prop
  | .transfer input => input.keys = none ∧ maxTransferAmount < input.amount ∧ code = .amountTooLarge
  | _ => False

end Operation

omit [AddCommGroup G] [Module F G] in
/-- A call rejected before its attempts has done nothing. -/
theorem keepsAway_before {w w' : World χ (ProofData F G)} {view : σ → World χ (ProofData F G)}
    {thrown : Thrown} {e : ConfidentialTransfersError}
    (h : rejection view w (.error thrown : Except Thrown (Retry.Run σ Thrown α)) = some (.sdk e, w')) :
    KeepsAway e.code w w' := by
  obtain ⟨_, rfl⟩ := Prod.mk.inj (Option.some.inj h)
  exact .of_silent rfl

theorem checkWithdrawAmount_ok {amount : Int} (h : checkWithdrawAmount amount = .ok ()) : 0 < amount := by
  unfold checkWithdrawAmount at h
  split at h
  · cases h
  · exact not_le.mp ‹_›

theorem transferTokens_ok {input : TransferInput F} {programAddress : Address} {tokens : Address × Address}
    (h : transferTokens c input programAddress = .ok tokens) : 0 < input.amount := by
  refine not_le.mp fun hle => ?_
  simp only [transferTokens, hle, if_true] at h
  cases h

theorem raises_transferTokens (input : TransferInput F) (programAddress : Address) :
    (transferTokens c input programAddress).Raises (Thrown.NoneOf [.amountTooLarge]) := by
  intro e h
  unfold transferTokens at h
  by_cases hpos : input.amount ≤ 0
  · rw [if_pos hpos] at h
    cases h
    simp [Thrown.NoneOf, ConfidentialTransfersError.new]
  · simp only [if_neg hpos] at h
    cases hdestination : input.destinationToken with
    | some destination =>
      rw [hdestination] at h
      cases h
    | none =>
      cases howner : input.destinationOwner with
      | some owner =>
        rw [hdestination, howner] at h
        cases h
      | none =>
        rw [hdestination, howner] at h
        cases h
        simp [Thrown.NoneOf, ConfidentialTransfersError.new]

/-- What an attempt of a transfer is known by. -/
theorem checked_transferAttempt {input : TransferInput F} (hpos : 0 < input.amount)
    (programAddress sourceToken destination : Address) (w : World χ (ProofData F G)) :
    Checked Prod.fst (transferAttempt c input programAddress sourceToken destination)
      (input.keys = none ∧ maxTransferAmount < input.amount ∧ ∃ flowInput s,
        transferReads c input programAddress sourceToken destination (w, none) = (.ok flowInput, s))
      (w, input.keys) where
  grows := (movesOnce_transferAttempt c input _ _ _).grows
  halts hvain := halted_transferAttempt c hpos hvain
  inVain := by
    rintro ⟨hkeys, hlarge, flowInput, s, hreads⟩
    obtain ⟨message, hattempt⟩ := transferAttempt_tooLarge c hpos hlarge hreads
    have hasked : w.Logged [.keyRequest] s.1 := (transferReads_ok c hreads).2
    rw [hkeys]
    exact ⟨_, s, hattempt, rfl, rfl, _, hasked, .keyRequest, by simp, rfl⟩

/-- An attempt that rejects because of the amount is past its reads. -/
theorem transferReads_of_tooLarge {input : TransferInput F}
    {programAddress sourceToken destination : Address} {w : World χ (ProofData F G)}
    {e : ConfidentialTransfersError} {s : Session χ F G} (hkeys : input.keys = none)
    (hattempt : transferAttempt c input programAddress sourceToken destination (w, input.keys) =
      (.error (.sdk e), s)) (hcode : e.code = .amountTooLarge) :
    ∃ flowInput s, transferReads c input programAddress sourceToken destination (w, none) =
      (.ok flowInput, s) := by
  rw [hkeys, transferAttempt_reads] at hattempt
  rcases hreads : transferReads c input programAddress sourceToken destination (w, none) with ⟨r, s'⟩
  cases r with
  | ok flowInput => exact ⟨flowInput, s', rfl⟩
  | error thrown =>
    rw [Effect.run_bind_of_error hreads] at hattempt
    obtain rfl := Except.error.inj (Prod.mk.inj hattempt).1
    have hnone := (raises_transferReads c input programAddress sourceToken destination (w, none)).run hreads _ rfl
    exact absurd hcode (by simpa [Thrown.NoneOf] using hnone)

/-- A doomed call never opens the wallet: one that rejects with the code of a check has asked no signer
    for anything and sent nothing, or, when the check comes after the keys, signed and sent no
    transaction. So it is exactly if none of its transactions expired and it is no transfer that derived
    keys for an amount that is too large. -/
theorem doomed_keepsAway_iff (operation : Operation F) {fuel : Nat} {w w' : World χ (ProofData F G)}
    {e : ConfidentialTransfersError} (hrejects : operation.rejection c fuel w = some (.sdk e, w'))
    (hcode : e.code ∈ codesBeforeKeys ++ codesBeforeSigning) :
    KeepsAway e.code w w' ↔ ¬Expires w w' ∧ ¬operation.DerivesKeysInVain e.code := by
  have hbefore : ∀ {σ α : Type} {view : σ → World χ (ProofData F G)} {thrown : Thrown},
      rejection view w (.error thrown : Except Thrown (Retry.Run σ Thrown α)) = some (.sdk e, w') →
        ¬Expires w w' ∧ KeepsAway e.code w w' := by
    intro σ α view thrown h
    have hkeeps := keepsAway_before h
    exact ⟨fun hexpires => hkeeps.not_sent hcode hexpires.sent, hkeeps⟩
  cases operation with
  | deposit input =>
    simp only [Operation.rejection, deposit] at hrejects
    simp only [Operation.DerivesKeysInVain]
    cases hamount : checkDepositAmount input.amount with
    | error thrown =>
      rw [hamount] at hrejects
      obtain ⟨hexpires, hkeeps⟩ := hbefore hrejects
      exact iff_of_true hkeeps ⟨hexpires, not_false⟩
    | ok _ =>
      rw [hamount] at hrejects
      exact Checked.keepsAway_iff ⟨(movesOnce_depositAttempt c input _ _).grows,
        fun _ => halts_depositAttempt c input _ _ w, False.elim⟩ hrejects hcode
  | applyPendingBalance input =>
    simp only [Operation.rejection, applyPendingBalance] at hrejects
    exact Checked.keepsAway_iff ⟨(movesOnce_applyPendingBalanceAttempt c input _ _).grows,
      fun _ => halts_applyPendingBalanceAttempt c input _ _ _, False.elim⟩ hrejects hcode
  | transfer input =>
    simp only [Operation.rejection, transfer] at hrejects
    simp only [Operation.DerivesKeysInVain]
    cases htokens : transferTokens c input (input.programAddress.getD token2022ProgramAddress) with
    | error thrown =>
      rw [htokens] at hrejects
      obtain ⟨hexpires, hkeeps⟩ := hbefore hrejects
      refine iff_of_true hkeeps ⟨hexpires, fun hvain => ?_⟩
      obtain rfl := (Prod.mk.inj (Option.some.inj hrejects)).1
      have hnone := raises_transferTokens c input _ _ htokens
      exact absurd hvain.2.2 (by simpa [Thrown.NoneOf] using hnone)
    | ok tokens =>
      obtain ⟨sourceToken, destination⟩ := tokens
      rw [htokens] at hrejects
      have hchecked := checked_transferAttempt c (transferTokens_ok c htokens)
        (input.programAddress.getD token2022ProgramAddress) sourceToken destination w
      refine (hchecked.keepsAway_iff hrejects hcode).trans (and_congr_right fun hexpires => not_congr ?_)
      obtain ⟨s', hattempt, -⟩ := (hchecked.rejects_once hrejects).resolve_right hexpires
      constructor
      · intro hvain
        obtain ⟨e', s₁, hattempt', -, hlarge, -⟩ := hchecked.inVain hvain
        obtain rfl := Thrown.sdk.inj (Except.error.inj (Prod.mk.inj (hattempt.symm.trans hattempt')).1)
        exact ⟨hvain.1, hvain.2.1, hlarge⟩
      · intro hvain
        exact ⟨hvain.1, hvain.2.1, transferReads_of_tooLarge c hvain.1 hattempt hvain.2.2⟩
  | withdraw input =>
    simp only [Operation.rejection, withdraw] at hrejects
    simp only [Operation.DerivesKeysInVain]
    cases hamount : checkWithdrawAmount input.amount with
    | error thrown =>
      rw [hamount] at hrejects
      obtain ⟨hexpires, hkeeps⟩ := hbefore hrejects
      exact iff_of_true hkeeps ⟨hexpires, not_false⟩
    | ok _ =>
      rw [hamount] at hrejects
      exact Checked.keepsAway_iff ⟨(movesOnce_withdrawAttempt c input _ _).grows,
        fun _ => halts_withdrawAttempt c (checkWithdrawAmount_ok hamount) _ _ _, False.elim⟩ hrejects hcode

end Operations

/-! ## A transfer of too much -/

namespace TooMuch

/-- Every token account is configured. -/
def net : Network Unit (ProofData (ZMod (2 ^ 128)) (ZMod (2 ^ 128))) where
  execute _ _ _ := none
  token _ _ _ := .ok (some TenTokens.account)
  mint _ _ _ := .ok { extensions := none }

/-- One more base unit than a transfer can carry. -/
def input : TransferInput (ZMod (2 ^ 128)) where
  payer := "payer"
  owner := { address := "alice", deriveConfidentialKeys := fun _ => pure TenTokens.keys }
  mint := "mint"
  destinationOwner := some "bob"
  amount := 2 ^ 48

def withKeys : TransferInput (ZMod (2 ^ 128)) := { input with keys := some TenTokens.keys }

end TooMuch

/-- The owner is asked for the keys to an amount that no transfer can carry. -/
theorem tooMuch_asks_for_keys : ∃ e w',
    (Operation.transfer TooMuch.input).rejection (Client.plain TooMuch.net) 1 { chain := () } =
      some (.sdk e, w') ∧
    e.code = .amountTooLarge ∧ ¬KeepsAway e.code { chain := () } w' := by
  refine ⟨_, _, rfl, rfl, ?_⟩
  intro h
  obtain ⟨es, hlog, hnone⟩ := h.signers (by decide)
  obtain rfl : [.keyRequest] = es := hlog
  exact Bool.noConfusion (hnone .keyRequest (by simp)).1

/-- With the keys passed, the same transfer is rejected before the wallet is asked for anything. -/
theorem tooMuch_with_keys_keepsAway : ∃ e w',
    (Operation.transfer TooMuch.withKeys).rejection (Client.plain TooMuch.net) 1 { chain := () } =
      some (.sdk e, w') ∧
    e.code = .amountTooLarge ∧ KeepsAway e.code { chain := () } w' := by
  have hrun : ∃ e w', (Operation.transfer TooMuch.withKeys).rejection (Client.plain TooMuch.net) 1
      { chain := () } = some (.sdk e, w') ∧ e.code = .amountTooLarge ∧ w'.events = [] :=
    ⟨_, _, rfl, rfl, rfl⟩
  obtain ⟨e, w', hrejects, hcode, hevents⟩ := hrun
  have hbefore : e.code ∈ codesBeforeKeys ++ codesBeforeSigning := by
    rw [hcode]
    decide
  refine ⟨e, w', hrejects, hcode, ?_⟩
  apply (doomed_keepsAway_iff (Client.plain TooMuch.net) _ hrejects hbefore).mpr
  constructor
  · -- Nothing was submitted at all.
    intro hexpires
    obtain ⟨es, hlog, ev, hev, -⟩ := hexpires
    obtain rfl : [] = es := hevents.symm.trans hlog
    cases hev
  · intro hvain
    cases hvain.1

end Sdk
