-- SUMMARY: Wherever a call of the Rust client stops, a later recovery frees all its accounts that hold a proof.
import ConfidentialTransfers.Rust.Cleanup
import ConfidentialTransfers.Rust.Sendings
import ConfidentialTransfers.Sdk.Recovery

/-!
# Recovery, in Rust

`recover_proof_accounts` finds accounts by the authority they store. A call
verifies proofs in its payer's name only, so what it cannot find of a call's
accounts are those without a proof, which nobody can close.
-/

open Solana

namespace Rust

variable {τ π α β : Type}

/-! ## Over a network that works -/

section Works

variable {net : Network (Chain τ) π} {programs : Programs τ π} {kit : Kit π} (s : Sender)

/-- Accounts that can all be closed are closed. -/
theorem closeProofAccounts_all (hworks : net.Works programs) (hsigns : kit.Signs) {accounts : List Address}
    (hnodup : accounts.Nodup) (w : World (Chain τ) π)
    (hclose : ∀ a ∈ accounts, w.chain.canClose s.payer a = true) :
    (closeProofAccounts s (net.withPrograms programs) kit accounts).wp (fun r w' => ∃ signatures,
      r = .ok ({ closed := accounts }, signatures) ∧ w'.chain = w.chain.closeAll accounts) w := by
  have hflat := List.flatten_batches (n := closesPerTransaction) (by decide) accounts
  refine (Effect.wp.foldlM (I := fun batches => ClosesExactly s.payer w batches.flatten)
    (fun batches batch rest outcome w' hall h => ?_) (List.nil_append _).symm (.nil s.payer w)).mono
      fun r w' h => ?_
  · rw [List.flatten_append, List.flatten_singleton]
    apply closeBatch_works s hworks hsigns _ h
    rw [← hflat, hall, List.flatten_append, List.flatten_cons, ← List.append_assoc] at hnodup
    exact (List.nodup_append'.1 hnodup).1
  · obtain ⟨⟨outcome, signatures⟩, rfl, h⟩ := h
    rw [hflat] at h
    have hclosed : outcome.closed = accounts := h.closed.trans (List.filter_eq_self.2 hclose)
    have hleftOpen : outcome.leftOpen = [] := by
      refine h.leftOpen.trans (List.filter_eq_nil_iff.2 fun a ha => ?_)
      simp [hclose a ha]
    have hchain : w'.chain = w.chain.closeAll outcome.closed := h.chain
    rw [hclosed] at hchain
    refine ⟨signatures, ?_, hchain⟩
    rw [← hclosed, ← hleftOpen]

variable {F G : Type} [CommRing F] [AddCommGroup G] [Module F G] (c : Client (Chain τ) π F G)

/-- Recovery closes every account that stores the payer, however many there are. -/
theorem recoverProofAccounts_works (hworks : c.net.Works programs) (hsigns : c.kit.Signs)
    (w : World (Chain τ) π) : (c.withPrograms programs).recoverProofAccounts.wp (fun r w' =>
      r = .ok { closed := (w.chain.proofAccountsOf c.payer).map Prod.fst, leftOpen := [],
                lamports := ((w.chain.proofAccountsOf c.payer).map Prod.snd).sum } ∧
        w'.chain = w.chain.closeAll ((w.chain.proofAccountsOf c.payer).map Prod.fst)) w := by
  have hanswered : (c.net.withPrograms programs).refused w.clock
      (.getProgramAccounts (c.withPrograms programs).payer) = none := (hworks.refused _ _).2 rfl
  unfold Client.recoverProofAccounts
  rw [Effect.wp_bind, Effect.wp_mapError]
  refine Effect.wp_of_run (.ok (w.chain.proofAccountsOf c.payer)) w.tick ?_ ?_
  · change (c.net.withPrograms programs).request _ _ w = _
    rw [Network.request, hanswered]
    rfl
  · simp only [Except.mapError]
    rw [Effect.wp_bind]
    refine (closeProofAccounts_all ((c.withPrograms programs).sender _) hworks hsigns
      (w.chain.proofAccountsOf_nodup c.payer) w.tick fun a ha => Sdk.mem_found.1 ha).mono fun r w' h => ?_
    obtain ⟨signatures, rfl, hchain⟩ := h
    refine ⟨congrArg Except.ok ?_, hchain⟩
    have hall : (w.chain.proofAccountsOf c.payer).filter (fun x =>
        ((w.chain.proofAccountsOf c.payer).map Prod.fst).contains x.1) = w.chain.proofAccountsOf c.payer := by
      refine List.filter_eq_self.2 fun x hx => ?_
      simpa using ⟨x.2, hx⟩
    simp only
    rw [hall]

end Works

/-! ## The accounts of a call -/

/-- After an instruction of a call its account is gone, or it stores the payer or nothing. -/
theorem Upkeep.onAccount {payer : Address} {i : ProofInstruction π} (hi : Upkeep payer (.proof i))
    {account : Option ProofAccount} {x : ProofAccount} (h : i.onAccount account = some (some x)) :
    x.authority = none ∨ x.authority = some payer := by
  cases hi with
  | create a lamports =>
    cases account with
    | none =>
      cases h
      exact .inl rfl
    | some y => cases h
  | verify proof a =>
    obtain _ | ⟨lamports, _ | stored⟩ := account
    · cases h
    · cases h
      exact .inr rfl
    · cases h
  | close a =>
    obtain ⟨hnone, -⟩ := onAccount_close rfl h
    cases hnone

theorem life_upkeep {payer : Address} {is : List (ProofInstruction π)} (his : ∀ i ∈ is, Upkeep payer (.proof i))
    (hne : is ≠ []) {account : Option ProofAccount} {x : ProofAccount} (h : life is account = some (some x)) :
    x.authority = none ∨ x.authority = some payer := by
  induction is generalizing account with
  | nil => contradiction
  | cons i is ih =>
    rw [life_cons, Option.bind_eq_some_iff] at h
    obtain ⟨account', hon, hrest⟩ := h
    cases is with
    | nil =>
      cases hrest
      exact (his i List.mem_cons_self).onAccount hon
    | cons j is => exact ih (fun i hi => his i (List.mem_cons_of_mem _ hi)) (List.cons_ne_nil _ _) hrest

/-- An instruction a call may send. -/
def CallInstruction (payer : Address) (i : Instruction π) : Prop :=
  Upkeep payer i ∨ i.isOperation = true

theorem Sends.call {net : Network (Chain τ) π} {payer : Address} {w w' : World (Chain τ) π}
    (h : Sends net (Upkeep payer) w w') : Sends net (CallInstruction payer) w w' :=
  h.mono fun _ => .inl

/-- An account that the transactions of a call created is gone, or it stores the payer or nothing. -/
theorem authority_of_created {net : Network (Chain τ) π} {programs : Programs τ π} {payer a : Address}
    {txs : List (List (Instruction π))} {c c' : Chain τ}
    (hexecuted : Steps (net.withPrograms programs).Executes c txs c')
    (hcall : ∀ is ∈ txs, ∀ i ∈ is, CallInstruction payer i) (ha : a ∈ createdAccounts txs) {x : ProofAccount}
    (hx : c'.proofAccount a = some x) : x.authority = none ∨ x.authority = some payer := by
  have hlife := life_of_executed hexecuted a
  rw [hx] at hlife
  obtain ⟨lamports, hcreate⟩ := mem_createdAccounts.1 ha
  refine life_upkeep (fun i hi => ?_) (List.ne_nil_of_mem hcreate) hlife
  obtain ⟨hmem, -⟩ := mem_filterMap_about.1 hi
  obtain ⟨is, his, hmem⟩ := List.mem_flatten.1 hmem
  rcases hcall is his _ hmem with hupkeep | hoperation
  · exact hupkeep
  · cases hoperation

section Calls

variable {F G : Type} [CommRing F] [AddCommGroup G] [Module F G] (c : Client (Chain τ) π F G)

theorem sends_runWithProofs (operation : String) (action : Action) (owner : Signer F)
    (proofAccounts : List Address) (signatures : List Signature) :
    (c.runWithProofs operation action owner proofAccounts signatures).Within
      (Sends c.net (CallInstruction c.payer)) := by
  have hcloses := (sends_closeProofAccounts (c.sender operation) c.net c.kit proofAccounts).mono
    fun _ _ => Sends.call
  have hsend : ∀ closes : Bool, ((c.sender operation).send c.net c.kit
      (if closes then .operation action :: closeInstructions c.payer proofAccounts
        else [.operation action]) [owner.pubkey] operation).Within (Sends c.net (CallInstruction c.payer)) := by
    intro closes w
    refine ((c.sender operation).send_wp c.net c.kit _ _ _ w).mono fun r w' h => ?_
    obtain ⟨landed, h⟩ := h
    refine h.sends (fun price => .inl (.price price)) fun i hi => ?_
    cases closes with
    | false =>
      cases List.mem_singleton.1 hi
      exact .inr rfl
    | true =>
      cases hi with
      | head => exact .inr rfl
      | tail _ hi => exact .inl (upkeep_closeInstructions c.payer proofAccounts i hi)
  refine .bind (.attempt (hsend _)) fun r => ?_
  cases r with
  | error e => exact .bind (.bind hcloses fun _ => .pure _) fun e => .throw e
  | ok signature =>
    simp only
    split
    · exact .pure _
    · exact .bind hcloses fun _ => .pure _

/-- The client over another network. -/
def Client.over (net : Network (Chain τ) π) : Client (Chain τ) π F G := { c with net := net }

variable (programs : Programs τ π) (later : Network (Chain τ) π) (programs' : Programs τ π)

/-- Wherever a call stops, that is after any prefix of the transactions that landed in it, a later recovery
    returns the rent of all accounts that store the payer; and of the accounts the call created, it leaves
    exactly those without a proof. -/
def Recoverable (chain : Chain τ) (w' : World (Chain τ) π) : Prop :=
  ∀ done left, landings w'.events = done ++ left → ∀ w : World (Chain τ) π,
    Steps (c.net.withPrograms programs).Executes chain (done.map Landing.instructions) w.chain →
    ((c.over later).withPrograms programs').recoverProofAccounts.wp (fun r w'' =>
      r = .ok { closed := (w.chain.proofAccountsOf c.payer).map Prod.fst, leftOpen := [],
                lamports := ((w.chain.proofAccountsOf c.payer).map Prod.snd).sum } ∧
      ∀ a ∈ createdAccounts (done.map Landing.instructions),
        w''.chain.proofAccount a = (w.chain.proofAccount a).filter fun x => x.authority = none) w

variable {programs later programs'}

theorem recoverable_of_sends (hworks : later.Works programs') (hsigns : c.kit.Signs)
    {m : Effect (World (Chain τ) π) Error α}
    (hm : m.Within (Sends (c.net.withPrograms programs) (CallInstruction c.payer))) (chain : Chain τ)
    (clock keyPairs : Nat) :
    m.wp (fun _ w' => Recoverable c programs later programs' chain w') { chain, clock, keyPairs } := by
  refine (hm _).mono fun r w' h done left hdone w hexecuted => ?_
  obtain ⟨landed, hlog, -, hcall⟩ := h
  have hlanded : landed = done ++ left := hlog.symm.trans hdone
  refine (recoverProofAccounts_works (c.over later) hworks hsigns w).mono fun r w'' h => ?_
  obtain ⟨hr, hchain⟩ := h
  refine ⟨hr, fun a ha => ?_⟩
  have hauthority : ∀ x, w.chain.proofAccount a = some x → x.authority = none ∨ x.authority = some c.payer := by
    intro x hx
    apply authority_of_created hexecuted _ ha hx
    intro is his i hi
    obtain ⟨l, hl, rfl⟩ := List.mem_map.1 his
    exact hcall l (by rw [hlanded]; exact List.mem_append_left _ hl) i hi
  have hpayer : (c.over later).payer = c.payer := rfl
  rw [hchain, hpayer, Chain.proofAccount_closeAll]
  split
  · rename_i hfound
    obtain ⟨lamports, haccount⟩ := Chain.canClose_iff.1 (Sdk.mem_found.1 hfound)
    rw [haccount]
    simp [Option.filter_some]
  · rename_i hnot
    cases haccount : w.chain.proofAccount a with
    | none => rfl
    | some x =>
      rcases hauthority x haccount with hnone | hsome
      · simp [Option.filter_some, hnone]
      · exact absurd (Sdk.mem_found.2 (Chain.canClose_iff.2 ⟨x.lamports, by rw [haccount, ← hsome]⟩)) hnot

variable (programs)

/-- Wherever a call of the Rust client stops, whatever the network did to it: recovery over a network that
    works leaves none of the proof accounts it created open, but for those that hold no proof. -/
theorem recovers_wherever_stopped (hworks : later.Works programs') (hsigns : c.kit.Signs) (chain : Chain τ)
    (clock keyPairs : Nat) :
    (∀ mint source keys destination amount,
      ((c.withPrograms programs).prepareTransfer mint source keys destination amount).wp
        (fun _ w' => Recoverable c programs later programs' chain w') { chain, clock, keyPairs }) ∧
    (∀ mint token keys amount, ((c.withPrograms programs).prepareWithdraw mint token keys amount).wp
        (fun _ w' => Recoverable c programs later programs' chain w') { chain, clock, keyPairs }) ∧
    (∀ keys, ((c.withPrograms programs).prepareConfigure keys).wp
        (fun _ w' => Recoverable c programs later programs' chain w') { chain, clock, keyPairs }) ∧
    (∀ owner mint destinationOwner amount,
      ((c.withPrograms programs).transfer owner mint destinationOwner amount).wp
        (fun _ w' => Recoverable c programs later programs' chain w') { chain, clock, keyPairs }) ∧
    (∀ owner mint amount, ((c.withPrograms programs).withdraw owner mint amount).wp
        (fun _ w' => Recoverable c programs later programs' chain w') { chain, clock, keyPairs }) := by
  have hupkeep : ∀ {β : Type} {m : Effect (World (Chain τ) π) Error β},
      m.Within (Sends (c.net.withPrograms programs) (Upkeep c.payer)) →
      m.Within (Sends (c.net.withPrograms programs) (CallInstruction c.payer)) :=
    fun h => h.mono fun _ _ => Sends.call
  refine ⟨fun mint source keys destination amount => ?_, fun mint token keys amount => ?_, fun keys => ?_,
    fun owner mint destinationOwner amount => ?_, fun owner mint amount => ?_⟩
  · exact recoverable_of_sends c hworks hsigns (hupkeep (sends_prepareTransfer (c.withPrograms programs) mint
      source keys destination amount)) chain clock keyPairs
  · exact recoverable_of_sends c hworks hsigns (hupkeep (sends_prepareWithdraw (c.withPrograms programs) mint
      token keys amount)) chain clock keyPairs
  · exact recoverable_of_sends c hworks hsigns (hupkeep (sends_prepareConfigure (c.withPrograms programs) keys))
      chain clock keyPairs
  · apply recoverable_of_sends c hworks hsigns
    refine .bind (.ofExcept _) fun _ => .bind (reads_readMint _ _ _ _ _ _).sends fun mintInfo => ?_
    refine .bind (reads_deriveKeys _ _).sends fun keys => ?_
    refine .bind (hupkeep (sends_prepareTransferInner (c.withPrograms programs) _ _ _ _ _ _ _)) fun prepared => ?_
    refine .bind (.ofExcept _) fun instruction => ?_
    refine .bind (hupkeep (sends_withHookAccounts (c.withPrograms programs) _ _ _ _ _)) fun instruction => ?_
    exact .bind (sends_runWithProofs (c.withPrograms programs) _ _ owner _ _) fun sent => .pure _
  · apply recoverable_of_sends c hworks hsigns
    refine .bind (.ofExcept _) fun _ => .bind (reads_readMint _ _ _ _ _ _).sends fun mintInfo => ?_
    refine .bind (reads_deriveKeys _ _).sends fun keys => ?_
    refine .bind (hupkeep (sends_prepareWithdrawInner (c.withPrograms programs) _ _ _ _ _ _)) fun prepared => ?_
    refine .bind (.ofExcept _) fun instruction => ?_
    exact .bind (sends_runWithProofs (c.withPrograms programs) _ _ owner _ _) fun sent => .pure _

end Calls

/-- The account that a setup lost track of is one that recovery finds. -/
theorem recovers_unconfirmed_creation : UnconfirmedCreation.prepare.wp (fun _ w' =>
    Recoverable UnconfirmedCreation.client UnconfirmedCreation.programs Sdk.HalfSetUp.net
      Sdk.HalfSetUp.programs UnconfirmedCreation.start.chain w') UnconfirmedCreation.start :=
  (recovers_wherever_stopped UnconfirmedCreation.client UnconfirmedCreation.programs Sdk.HalfSetUp.works
    Kit.signs_plain UnconfirmedCreation.start.chain 0 0).2.2.1 { elgamalSecret := 1, aesKey := [] }

end Rust
