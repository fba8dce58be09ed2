-- SUMMARY: The Rust crate closes exactly the proof accounts that can be closed.
import ConfidentialTransfers.Rust.Proofs
import ConfidentialTransfers.Sdk.Cleanup

/-!
# The crate's cleanup

`close_proof_accounts` over a network where everything goes right that can go
right. A batch that fails is closed one by one, so an account that cannot be
closed keeps no other open.
-/

open Solana

namespace Rust

variable {τ π : Type}

/-- Every transaction gets signed. -/
def Kit.Signs (kit : Kit π) : Prop :=
  ∀ n is signers lifetime, ∃ tx, kit.trySign n is signers lifetime = .ok tx

theorem Kit.signs_plain : (Kit.plain : Kit π).Signs := fun _ _ _ _ => ⟨_, rfl⟩

/-- The accounts that the transactions close. -/
def closedAccounts (txs : List (List (Instruction π))) : List Address :=
  txs.flatten.filterMap fun
    | .proof (.closeContextState contextState _ _) => some contextState
    | _ => none

theorem closedAccounts_append (txs txs' : List (List (Instruction π))) :
    closedAccounts (txs ++ txs') = closedAccounts txs ++ closedAccounts txs' := by
  simp [closedAccounts]

/-- A transaction closes what it is meant to close. -/
theorem Priced.closedAccounts {payer : Address} {batch : List Address} {is : List (Instruction π)}
    (h : Priced (closeInstructions payer batch) is) : closedAccounts [is] = batch := by
  have hbatch : Rust.closedAccounts [(closeInstructions payer batch : List (Instruction π))] = batch := by
    simp [Rust.closedAccounts, closeInstructions, closeContextState, List.filterMap_map,
      Function.comp_def]
  rcases h with rfl | ⟨price, rfl⟩
  · exact hbatch
  · simpa [Rust.closedAccounts] using hbatch

section Works

variable {net : Network (Chain τ) π} {programs : Programs τ π} {kit : Kit π} (s : Sender)

theorem build_signs (hsigns : kit.Signs) (n : Nat) (is : List (Instruction π))
    (signers : List Address) (blockhash : Lifetime) :
    ∃ tx, s.build kit n is signers blockhash = .ok tx := by
  have hsign : ∀ js, ∃ tx, s.sign kit n js signers blockhash = .ok tx := by
    intro js
    obtain ⟨tx, htx⟩ := hsigns n js (s.chosen kit js signers) blockhash
    exact ⟨tx, by rw [Sender.sign, htx]; rfl⟩
  unfold Sender.build
  dsimp only
  split
  · split
    · exact hsign _
    · exact hsign _
  · exact hsign _

/-- A transaction that can be executed is confirmed. -/
theorem sendOnce_works (hworks : net.Works programs) (hsigns : kit.Signs) {is : List (Instruction π)}
    (signers : List Address) (step : String) {w : World (Chain τ) π} {c' : Chain τ}
    (hexecute : ∀ js, Priced is js → ∀ n, programs.execute n w.chain js = some c') :
    (s.sendOnce (net.withPrograms programs) kit is signers step).wp (fun r w' => ∃ tx,
      r = .ok tx.signature ∧ w'.chain = c' ∧ Priced is tx.message.instructions ∧
        landings w'.events = landings w.events ++ [⟨tx, none⟩]) w := by
  have hanswered : ∀ n r, r.isValid = true → (net.withPrograms programs).refused n r = none :=
    fun n r hr => (hworks.refused n r).mpr hr
  obtain ⟨tx, hbuild⟩ := build_signs s hsigns w.tick.clock is signers
    ((net.withPrograms programs).blockhash w.clock)
  have hpriced := s.build_priced kit hbuild
  have hexecute' : ∀ n, (net.withPrograms programs).execute n w.chain tx.message.instructions =
      some c' := hexecute _ hpriced
  have hsimulated : (net.withPrograms programs).simulation w.tick.clock w.tick.chain tx = none :=
    hworks.simulated _ _ _ ⟨c', 0, hexecute' 0⟩
  have hdelivered : ∀ n, (net.withPrograms programs).delivered n tx = true :=
    fun n => hworks.delivered n tx
  have hawaited : ∀ n, (net.withPrograms programs).interrupted n tx = none :=
    fun n => hworks.awaited n tx
  unfold Sender.sendOnce
  rw [Effect.wp_bind, Effect.wp_mapError]
  refine Effect.wp_of_run (.ok ((net.withPrograms programs).blockhash w.clock)) w.tick ?_ ?_
  · rw [Network.request, hanswered _ _ rfl]
  · simp only [Except.mapError]
    rw [Effect.wp_bind, Effect.wp_get]
    simp only
    rw [Effect.wp_bind, Effect.wp_ofExcept, hbuild]
    simp only
    rw [Effect.wp_bind, Effect.wp_mapError]
    refine Effect.wp_of_run (.ok none) (w.tick.tick.record (.simulated tx .passed)) ?_ ?_
    · rw [Network.simulate, hanswered _ _ rfl]
      simp only [hsimulated]
    · simp only [Except.mapError]
      rw [Effect.wp_bind, Effect.wp_get]
      simp only
      rw [Effect.wp_bind, Effect.wp_mapError]
      refine Effect.wp_of_run (.ok ()) (World.record (.submitted tx .landed none)
        { (w.tick.tick.record (.simulated tx .passed)).tick with chain := c' }) ?_ ?_
      · simp [Network.sendAndConfirm, Network.settle, hdelivered, hawaited, hexecute']
      · simp only [Except.mapError, Effect.wp_pure]
        refine ⟨tx, rfl, rfl, hpriced, ?_⟩
        rw [World.record_events, World.tick_events, World.record_events, landings_append,
          landings_append, List.append_assoc]
        rfl

/-- Instructions that can be executed are sent with success, by one transaction. -/
theorem send_works (hworks : net.Works programs) (hsigns : kit.Signs) {is : List (Instruction π)}
    (signers : List Address) (step : String) {w : World (Chain τ) π} {c' : Chain τ}
    (hexecute : ∀ js, Priced is js → ∀ n, programs.execute n w.chain js = some c') :
    (s.send (net.withPrograms programs) kit is signers step).wp (fun r w' => ∃ tx,
      r = .ok tx.signature ∧ w'.chain = c' ∧ Priced is tx.message.instructions ∧
        landings w'.events = landings w.events ++ [⟨tx, none⟩]) w := by
  have honce := sendOnce_works s hworks hsigns signers step hexecute
  unfold Sender.send
  cases s.maxRetries with
  | zero => exact honce
  | succ retries =>
    unfold Sender.sendUpTo
    rw [Effect.wp_bind, Effect.wp_attempt]
    refine honce.mono fun r w' h => ?_
    obtain ⟨tx, rfl, h⟩ := h
    exact ⟨tx, rfl, h⟩

/-- Instructions that cannot be executed do not land. -/
theorem send_fails {is : List (Instruction π)} (signers : List Address) (step : String)
    {w : World (Chain τ) π}
    (hexecute : ∀ js, Priced is js → ∀ n, programs.execute n w.chain js = none) :
    (s.send (net.withPrograms programs) kit is signers step).wp (fun r w' =>
      (∃ e, r = .error e) ∧ w'.chain = w.chain ∧ landings w'.events = landings w.events) w := by
  refine (s.send_wp _ kit is signers step w).mono fun r w' h => ?_
  obtain ⟨landed, h⟩ := h
  have hnone : landed = [] := by
    cases landed with
    | nil => rfl
    | cons l landed =>
      have hexecuted := h.lands.executed
      rw [List.map_cons] at hexecuted
      cases hexecuted with
      | cons head _ =>
        obtain ⟨n, hsome⟩ := head
        have hnone := hexecute _ (h.priced l (by simp)) n
        exact absurd (hnone.symm.trans hsome) (by simp)
  subst hnone
  refine ⟨?_, h.lands.executed.of_nil, by simpa using h.lands.logged⟩
  cases r with
  | ok signature =>
    obtain ⟨untold, tx, hlanded, -⟩ := h.outcome
    simp at hlanded
  | error e => exact ⟨e, rfl⟩

/-! ## The whole cleanup -/

/-- The accounts done so far: those that could be closed are closed, each by one transaction that
    landed, and the others are listed as left open. -/
structure ClosesExactly (payer : Address) (w : World (Chain τ) π) (done : List Address)
    (outcome : ProofAccounts × List Signature) (w' : World (Chain τ) π) : Prop where
  closed : outcome.1.closed = done.filter (w.chain.canClose payer)
  leftOpen : outcome.1.leftOpen = done.filter fun a => !w.chain.canClose payer a
  chain : w'.chain = w.chain.closeAll outcome.1.closed
  landed : ∃ landed, landings w'.events = landings w.events ++ landed ∧
    outcome.2 = landed.map (·.tx.signature) ∧
    closedAccounts (landed.map Landing.instructions) = outcome.1.closed

theorem ClosesExactly.nil (payer : Address) (w : World (Chain τ) π) :
    ClosesExactly payer w [] ({}, []) w :=
  ⟨rfl, rfl, rfl, [], by simp, rfl, rfl⟩

section Step

variable {payer : Address} {w w₁ w' : World (Chain τ) π} {done batch : List Address}
  {outcome : ProofAccounts × List Signature}

/-- What could be closed at the start can still be closed unless it has been. -/
theorem ClosesExactly.canClose (h : ClosesExactly payer w done outcome w₁) {a : Address}
    (ha : a ∉ done) : w₁.chain.canClose payer a = w.chain.canClose payer a := by
  rw [h.chain]
  refine Chain.canClose_closeAll fun hmem => ha ?_
  rw [h.closed] at hmem
  exact (List.mem_filter.mp hmem).1

/-- A transaction closes the next accounts. -/
theorem ClosesExactly.close (h : ClosesExactly payer w done outcome w₁)
    (hbatch : ∀ a ∈ batch, w.chain.canClose payer a = true) {tx : Transaction π}
    (hchain : w'.chain = w₁.chain.closeAll batch)
    (hpriced : Priced (closeInstructions payer batch) tx.message.instructions)
    (hlanded : landings w'.events = landings w₁.events ++ [⟨tx, none⟩]) :
    ClosesExactly payer w (done ++ batch)
      ({ outcome.1 with closed := outcome.1.closed ++ batch }, outcome.2 ++ [tx.signature]) w' where
  closed := by
    have hall : batch.filter (w.chain.canClose payer) = batch := List.filter_eq_self.mpr hbatch
    rw [List.filter_append, hall, ← h.closed]
  leftOpen := by
    have hnone : batch.filter (fun a => !w.chain.canClose payer a) = [] :=
      List.filter_eq_nil_iff.mpr fun a ha => by simp [hbatch a ha]
    rw [List.filter_append, hnone, List.append_nil, ← h.leftOpen]
  chain := by rw [hchain, h.chain, Chain.closeAll_append]
  landed := by
    obtain ⟨landed, hlog, hsignatures, hclosed⟩ := h.landed
    refine ⟨landed ++ [⟨tx, none⟩], ?_, ?_, ?_⟩
    · rw [hlanded, hlog, List.append_assoc]
    · rw [hsignatures, List.map_append]
      rfl
    · rw [List.map_append, closedAccounts_append, hclosed]
      exact congrArg _ hpriced.closedAccounts

/-- The next accounts cannot be closed. -/
theorem ClosesExactly.leave (h : ClosesExactly payer w done outcome w₁)
    (hbatch : ∀ a ∈ batch, w.chain.canClose payer a = false) (hchain : w'.chain = w₁.chain)
    (hlanded : landings w'.events = landings w₁.events) :
    ClosesExactly payer w (done ++ batch)
      ({ outcome.1 with leftOpen := outcome.1.leftOpen ++ batch }, outcome.2) w' where
  closed := by
    have hnone : batch.filter (w.chain.canClose payer) = [] :=
      List.filter_eq_nil_iff.mpr fun a ha => by simp [hbatch a ha]
    rw [List.filter_append, hnone, List.append_nil, ← h.closed]
  leftOpen := by
    have hall : batch.filter (fun a => !w.chain.canClose payer a) = batch :=
      List.filter_eq_self.mpr fun a ha => by simp [hbatch a ha]
    rw [List.filter_append, hall, ← h.leftOpen]
  chain := hchain.trans h.chain
  landed := by
    rw [hlanded]
    exact h.landed

/-- Nothing has been done to the accounts done so far. -/
theorem ClosesExactly.unchanged (h : ClosesExactly payer w done outcome w₁)
    (hchain : w'.chain = w₁.chain) (hlanded : landings w'.events = landings w₁.events) :
    ClosesExactly payer w done outcome w' :=
  ⟨h.closed, h.leftOpen, hchain.trans h.chain, hlanded ▸ h.landed⟩

end Step

/-- Sending the closes of distinct accounts succeeds if all can be closed, and else changes nothing. -/
theorem send_closing (hworks : net.Works programs) (hsigns : kit.Signs) {batch : List Address}
    (hnodup : batch.Nodup) (w : World (Chain τ) π) :
    (s.send (net.withPrograms programs) kit (closeInstructions s.payer batch) []
        "close proof accounts").wp (fun r w' =>
      if batch.all (w.chain.canClose s.payer) then ∃ tx, r = .ok tx.signature ∧
        w'.chain = w.chain.closeAll batch ∧
        Priced (closeInstructions s.payer batch) tx.message.instructions ∧
        landings w'.events = landings w.events ++ [⟨tx, none⟩]
      else (∃ e, r = .error e) ∧ w'.chain = w.chain ∧ landings w'.events = landings w.events) w := by
  split
  case isTrue hall =>
    refine send_works s hworks hsigns [] _ fun js hjs n => ?_
    have hfold := Sdk.foldlM_closing programs n hnodup (List.all_eq_true.mp hall)
    unfold Programs.execute
    rw [hworks.accepted]
    rcases hjs with rfl | ⟨price, rfl⟩
    · exact hfold
    · exact hfold
  case isFalse hall =>
    refine send_fails s [] _ fun js hjs n => ?_
    by_contra hsome
    obtain ⟨c', hc'⟩ := Option.ne_none_iff_exists'.mp hsome
    exact hall (List.all_eq_true.mpr (Sdk.canClose_of_execute programs hjs.about hc'))

theorem closeOne_works (hworks : net.Works programs) (hsigns : kit.Signs) {a : Address}
    {w w₁ : World (Chain τ) π} {done : List Address} {outcome : ProofAccounts × List Signature}
    (ha : a ∉ done) (h : ClosesExactly s.payer w done outcome w₁) :
    (closeOne s (net.withPrograms programs) kit outcome a).wp (fun r w' => ∃ outcome',
      r = .ok outcome' ∧ ClosesExactly s.payer w (done ++ [a]) outcome' w') w₁ := by
  unfold closeOne
  rw [Effect.wp_bind, Effect.wp_attempt]
  refine (send_closing s hworks hsigns (List.nodup_singleton a) w₁).mono fun r w' hsent => ?_
  have hsame : w₁.chain.canClose s.payer a = w.chain.canClose s.payer a := h.canClose ha
  rw [List.all_cons, List.all_nil, Bool.and_true, hsame] at hsent
  split at hsent
  case isTrue hclose =>
    obtain ⟨tx, rfl, hchain, hpriced, hlanded⟩ := hsent
    exact ⟨_, rfl, h.close (by simpa using hclose) hchain hpriced hlanded⟩
  case isFalse hclose =>
    obtain ⟨⟨e, rfl⟩, hchain, hlanded⟩ := hsent
    exact ⟨_, rfl, h.leave (by simpa using hclose) hchain hlanded⟩

theorem closeBatch_works (hworks : net.Works programs) (hsigns : kit.Signs)
    {w w₁ : World (Chain τ) π} {done batch : List Address}
    {outcome : ProofAccounts × List Signature} (hnodup : (done ++ batch).Nodup)
    (h : ClosesExactly s.payer w done outcome w₁) :
    (closeBatch s (net.withPrograms programs) kit outcome batch).wp (fun r w' => ∃ outcome',
      r = .ok outcome' ∧ ClosesExactly s.payer w (done ++ batch) outcome' w') w₁ := by
  obtain ⟨-, hbatch, hdisjoint⟩ := List.nodup_append'.mp hnodup
  have hsame : ∀ a ∈ batch, w₁.chain.canClose s.payer a = w.chain.canClose s.payer a :=
    fun a ha => h.canClose fun hdone => hdisjoint hdone ha
  unfold closeBatch
  rw [Effect.wp_bind, Effect.wp_attempt]
  refine (send_closing s hworks hsigns hbatch w₁).mono fun r w₂ hsent => ?_
  split at hsent
  case isTrue hall =>
    obtain ⟨tx, rfl, hchain, hpriced, hlanded⟩ := hsent
    refine ⟨_, rfl, h.close (fun a ha => ?_) hchain hpriced hlanded⟩
    rw [← hsame a ha]
    exact List.all_eq_true.mp hall a ha
  case isFalse hall =>
    obtain ⟨⟨e, rfl⟩, hchain, hlanded⟩ := hsent
    simp only
    split
    case isTrue =>
      refine Effect.wp.foldlM (I := fun part => ClosesExactly s.payer w (done ++ part))
        (fun part a rest outcome' w' hpart hpartial => ?_) (List.nil_append batch).symm ?_
      · rw [← List.append_assoc]
        refine closeOne_works s hworks hsigns (fun ha => ?_) hpartial
        rw [hpart, ← List.append_assoc] at hnodup
        exact (List.nodup_append'.mp hnodup).2.2 ha (by simp)
      · rw [List.append_nil]
        exact h.unchanged hchain hlanded
    case isFalse hlength =>
      refine ⟨_, rfl, h.leave (fun a ha => ?_) hchain hlanded⟩
      obtain ⟨b, rfl⟩ : ∃ b, batch = [b] := by
        refine List.length_eq_one_iff.mp ?_
        have hpos := List.length_pos_of_mem ha
        omega
      obtain rfl := List.mem_singleton.mp ha
      simpa [hsame a ha] using hall

/-- The crate closes each account that can be closed once, and lists the others as left open. -/
theorem closeProofAccounts_closes_exactly (hworks : net.Works programs) (hsigns : kit.Signs)
    {accounts : List Address} (hnodup : accounts.Nodup) (w : World (Chain τ) π) :
    (closeProofAccounts s (net.withPrograms programs) kit accounts).wp (fun r w' => ∃ outcome,
      r = .ok outcome ∧ ClosesExactly s.payer w accounts outcome w') w := by
  have hflat := List.flatten_batches (n := closesPerTransaction) (by decide) accounts
  refine (Effect.wp.foldlM (I := fun batches => ClosesExactly s.payer w batches.flatten)
    (fun batches batch rest outcome w' hall hpartial => ?_) (List.nil_append _).symm
      (.nil s.payer w)).mono fun r w' h => ?_
  · rw [List.flatten_append, List.flatten_singleton]
    refine closeBatch_works s hworks hsigns ?_ hpartial
    rw [← hflat, hall, List.flatten_append, List.flatten_cons, ← List.append_assoc] at hnodup
    exact (List.nodup_append'.mp hnodup).1
  · rwa [hflat] at h

end Works

/-- Of a verified and an unverified account, the verified one is closed. -/
theorem closes_equality_next_to_range :
    (closeProofAccounts { payer := "payer", operation := "transfer" }
        (Sdk.HalfSetUp.net.withPrograms Sdk.HalfSetUp.programs) .plain ["equality", "range"]).wp
      (fun r w' => ∃ outcome, r = .ok outcome ∧ ClosesExactly "payer"
        { chain := Sdk.HalfSetUp.chain } ["equality", "range"] outcome w')
      { chain := Sdk.HalfSetUp.chain } :=
  closeProofAccounts_closes_exactly { payer := "payer", operation := "transfer" }
    Sdk.HalfSetUp.works Kit.signs_plain (by decide) { chain := Sdk.HalfSetUp.chain }

end Rust
