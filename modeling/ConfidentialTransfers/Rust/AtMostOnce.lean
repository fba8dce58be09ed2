-- SUMMARY: One call of the Rust client moves tokens at most once, however often it is sent again.
import ConfidentialTransfers.Rust.Cleanup
import ConfidentialTransfers.Rust.Sendings

/-!
# At most once, in Rust

A call sends its operation again only after a report of an expired blockhash. If
such a report is wrong the operation may land twice, but not if the proof
accounts are closed with it: they cannot be closed twice.
-/

open Solana

namespace Rust

variable {τ π α β : Type}

/-- The transactions with an operation that landed. -/
def moved (es : List (Event π)) : List (Landing π) := (landings es).filter (·.tx.isOperation)

/-- The code of the crate's error for a wait that ended with this text. -/
def Kit.reportedCode (kit : Kit π) (message : String) : ErrorCode :=
  match kit.getTransactionError message with
  | some err => if err = "BlockhashNotFound" then .transactionExpired else .transactionFailed
  | none => if isExpiry message then .transactionExpired else .rpc

/-- The sender of the landing was told that it had expired. -/
def Landing.SaidExpired (kit : Kit π) (l : Landing π) : Prop :=
  ∃ message, l.interrupted = some message ∧ kit.reportedCode message = .transactionExpired

/-- How often an operation landed in a call that sends it again at most this often, and what the call was
    told: it succeeds after a confirmed landing, and goes on after one it was told had expired. -/
inductive Told (kit : Kit π) (signature : α → Signature) :
    Nat → List (Landing π) → Except Error α → Prop
  | confirmed {retries : Nat} (tx : Transaction π) {a : α} (h : tx.signature = signature a) :
    Told kit signature retries [⟨tx, none⟩] (.ok a)
  | nothing {retries : Nat} (e : Error) : Told kit signature retries [] (.error e)
  | untold {retries : Nat} (tx : Transaction π) {message : String} {e : Error}
      (h : e.code = kit.reportedCode message) :
    Told kit signature retries [⟨tx, some message⟩] (.error e)
  | again {retries : Nat} (tx : Transaction π) {message : String} {landed : List (Landing π)}
      {r : Except Error α} (h : kit.reportedCode message = .transactionExpired)
      (rest : Told kit signature retries landed r) :
    Told kit signature (retries + 1) (⟨tx, some message⟩ :: landed) r

namespace Told

variable {kit : Kit π} {signature : α → Signature} {retries : Nat} {landed : List (Landing π)}

theorem succ {r : Except Error α} (h : Told kit signature retries landed r) :
    Told kit signature (retries + 1) landed r := by
  induction h with
  | confirmed tx h => exact .confirmed tx h
  | nothing e => exact .nothing e
  | untold tx h => exact .untold tx h
  | again tx h rest ih => exact .again tx h ih

theorem of_zero {r : Except Error α} (h : Told kit signature 0 landed r) :
    Told kit signature retries landed r := by
  induction retries with
  | zero => exact h
  | succ retries ih => exact ih.succ

/-- A sending that ended as expired is followed by another. -/
theorem before {landed' : List (Landing π)} {e : Error} {r : Except Error α}
    (h : Told kit signature 0 landed (.error e)) (he : e.code = .transactionExpired)
    (h' : Told kit signature retries landed' r) : Told kit signature (retries + 1) (landed ++ landed') r := by
  cases h with
  | nothing e => exact h'.succ
  | untold tx hcode => exact .again tx (hcode.symm.trans he) h'

/-- Only a wrong report makes an operation land again. -/
theorem saidExpired {r : Except Error α} (h : Told kit signature retries landed r)
    (hlength : 1 < landed.length) : ∃ l ∈ landed, l.SaidExpired kit := by
  cases h with
  | confirmed => simp at hlength
  | nothing => simp at hlength
  | untold => simp at hlength
  | again tx h rest => exact ⟨_, List.mem_cons_self, _, rfl, h⟩

theorem map_ok {signature' : β → Signature} {a : α} {b : β} (h : Told kit signature retries landed (.ok a))
    (hab : signature a = signature' b) : Told kit signature' retries landed (.ok b) := by
  generalize hr : (Except.ok a : Except Error α) = r at h
  induction h with
  | confirmed tx h =>
    cases hr
    exact .confirmed tx (h.trans hab)
  | nothing e => cases hr
  | untold tx h => cases hr
  | again tx h rest ih => exact .again tx h (ih hr)

theorem map_error {signature' : β → Signature} {e e' : Error}
    (h : Told kit signature retries landed (.error e)) (hcode : e'.code = e.code) :
    Told kit signature' retries landed (.error e') := by
  generalize hr : (Except.error e : Except Error α) = r at h
  induction h with
  | confirmed tx h => cases hr
  | nothing e => exact .nothing e'
  | untold tx h =>
    cases hr
    exact .untold tx (hcode.trans h)
  | again tx h rest ih => exact .again tx h (ih hr)

end Told

/-! ## One sending -/

section Sending

variable (s : Sender) (net : Network (Chain τ) π) (kit : Kit π)

theorem Sender.sendError_code (n : Nat) (tx : Transaction π) (step message : String) :
    (s.sendError kit n tx step (.interrupted message)).code = kit.reportedCode message := by
  unfold Sender.sendError Kit.reportedCode
  dsimp only
  cases kit.getTransactionError message with
  | some err => rfl
  | none =>
    simp only
    split
    · rfl
    · rfl

/-- Submitting a transaction, with what its sender is told of a landing. -/
theorem sendAndConfirm_told (tx : Transaction π) {w : World (Chain τ) π}
    {Q : Except SendError Unit → World (Chain τ) π → Prop}
    (hconfirmed : ∀ w', Lands net w [⟨tx, none⟩] w' → Q (.ok ()) w')
    (hnothing : ∀ e w', Lands net w [] w' → Q (.error e) w')
    (huntold : ∀ message w', Lands net w [⟨tx, some message⟩] w' → Q (.error (.interrupted message)) w') :
    (net.sendAndConfirm tx).wp Q w := by
  have hnone : ∀ fate interrupted, fate ≠ .landed → Lands net w []
      (World.record (.submitted tx fate interrupted) { w.tick with chain := w.chain }) := by
    intro fate interrupted hfate
    refine ⟨?_, .nil _, rfl⟩
    cases fate with
    | landed => contradiction
    | failed => simp [landings, landing]
    | dropped => simp [landings, landing]
  unfold Effect.wp Network.sendAndConfirm Network.settle
  cases hdelivered : net.delivered w.clock tx with
  | false =>
    cases hawaited : net.interrupted w.clock tx with
    | none => exact hnothing _ _ (hnone .dropped none (by simp))
    | some message => exact hnothing _ _ (hnone .dropped (some message) (by simp))
  | true =>
    cases hexecute : net.execute w.clock w.chain tx.message.instructions with
    | none =>
      cases hawaited : net.interrupted w.clock tx with
      | none => exact hnothing _ _ (hnone .failed none (by simp))
      | some message => exact hnothing _ _ (hnone .failed (some message) (by simp))
    | some chain =>
      have hlands : ∀ interrupted, Lands net w [⟨tx, interrupted⟩]
          (World.record (.submitted tx .landed interrupted) { w.tick with chain := chain }) :=
        fun _ => ⟨by simp [landings, landing], .single ⟨_, hexecute⟩, rfl⟩
      cases hawaited : net.interrupted w.clock tx with
      | none => exact hconfirmed _ (hlands none)
      | some message => exact huntold message _ (hlands (some message))

/-- These transactions landed with the instructions, and their sender was told this. -/
structure Sending (retries : Nat) (is : List (Instruction π)) (w : World (Chain τ) π)
    (landed : List (Landing π)) (r : Except Error Signature) (w' : World (Chain τ) π) : Prop where
  lands : Lands net w landed w'
  priced : ∀ l ∈ landed, Priced is l.instructions
  told : Told kit id retries landed r

theorem sendOnce_sending (is : List (Instruction π)) (signers : List Address) (step : String)
    (w : World (Chain τ) π) : (s.sendOnce net kit is signers step).wp
      (fun r w' => ∃ landed, Sending net kit 0 is w landed r w') w := by
  have hnothing : ∀ {e : Error} {w'}, Lands net w [] w' →
      ∃ landed, Sending net kit 0 is w landed (.error e) w' :=
    fun hlands => ⟨[], hlands, by simp, .nothing _⟩
  unfold Sender.sendOnce
  rw [Effect.wp_bind, Effect.wp_mapError]
  refine net.request_wp (fun message _ => hnothing (.tick w)) ?_
  simp only [Except.mapError]
  rw [Effect.wp_bind, Effect.wp_get]
  simp only
  rw [Effect.wp_bind, Effect.wp_ofExcept]
  cases hbuild : s.build kit w.tick.clock is signers (net.blockhash w.clock) with
  | error e => exact hnothing (.tick w)
  | ok tx =>
    have hpriced : ∀ interrupted, ∀ l ∈ [(⟨tx, interrupted⟩ : Landing π)], Priced is l.instructions := by
      intro interrupted l hl
      cases List.mem_singleton.1 hl
      exact s.build_priced kit hbuild
    simp only
    rw [Effect.wp_bind, Effect.wp_mapError]
    have hsimulated : (net.simulate tx).wp (fun _ w' => Lands net w [] w') w.tick := by
      have hrecord : ∀ reply, Lands net w [] (w.tick.tick.record (.simulated tx reply)) := fun reply =>
        ((Lands.tick w).trans (.tick _)).trans (.record rfl _)
      unfold Effect.wp Network.simulate
      split
      · exact hrecord _
      · split
        · exact hrecord _
        · exact hrecord _
    refine hsimulated.mono fun simulation w₁ hlands => ?_
    cases simulation with
    | error message => exact hnothing hlands
    | ok simulation =>
      cases simulation with
      | some failure => exact hnothing hlands
      | none =>
        simp only [Except.mapError]
        rw [Effect.wp_bind, Effect.wp_get]
        simp only
        rw [Effect.wp_bind, Effect.wp_mapError]
        apply sendAndConfirm_told
        · intro w' hlands'
          exact ⟨_, hlands.trans hlands', hpriced none, .confirmed tx rfl⟩
        · intro e w' hlands'
          exact hnothing (hlands.trans hlands')
        · intro message w' hlands'
          exact ⟨_, hlands.trans hlands', hpriced (some message), .untold tx (s.sendError_code kit _ tx step message)⟩

theorem send_sending (is : List (Instruction π)) (signers : List Address) (step : String)
    (w : World (Chain τ) π) : (s.send net kit is signers step).wp
      (fun r w' => ∃ landed, Sending net kit s.maxRetries is w landed r w') w := by
  have hupTo : ∀ retries w, (s.sendUpTo net kit is signers step retries).wp
      (fun r w' => ∃ landed, Sending net kit retries is w landed r w') w := by
    intro retries
    induction retries with
    | zero => exact sendOnce_sending s net kit is signers step
    | succ retries ih =>
      intro w
      unfold Sender.sendUpTo
      rw [Effect.wp_bind, Effect.wp_attempt]
      refine (sendOnce_sending s net kit is signers step w).mono fun r w₁ h => ?_
      obtain ⟨landed, h⟩ := h
      cases r with
      | ok signature => exact ⟨landed, h.lands, h.priced, h.told.of_zero⟩
      | error e =>
        simp only
        split
        · rename_i he
          refine (ih w₁).mono fun r w' h' => ?_
          obtain ⟨landed', h'⟩ := h'
          refine ⟨landed ++ landed', h.lands.trans h'.lands, fun l hl => ?_, h.told.before he h'.told⟩
          exact (List.mem_append.1 hl).elim (h.priced l) (h'.priced l)
        · exact ⟨landed, h.lands, h.priced, h.told.of_zero⟩
  exact hupTo _ w

end Sending

/-! ## One call -/

theorem moved_append {es es' : List (Event π)} {landed : List (Landing π)}
    (h : landings es' = landings es ++ landed) : moved es' = moved es ++ landed.filter (·.tx.isOperation) := by
  rw [moved, h, List.filter_append]
  rfl

/-- No operation is among the instructions about proof accounts. -/
theorem Sends.moved {net : Network (Chain τ) π} {payer : Address} {w w' : World (Chain τ) π}
    (h : Sends net (Upkeep payer) w w') : moved w'.events = Rust.moved w.events := by
  obtain ⟨landed, hlog, -, hupkeep⟩ := h
  have hnone : landed.filter (·.tx.isOperation) = [] := by
    refine List.filter_eq_nil_iff.2 fun l hl hoperation => ?_
    obtain ⟨i, hi, hoperation⟩ := List.any_eq_true.1 hoperation
    cases hupkeep l hl i hi with
    | price => cases hoperation
    | create => cases hoperation
    | verify => cases hoperation
    | close => cases hoperation
  rw [moved_append hlog, hnone, List.append_nil]

/-- Whatever it starts from, the call is told of its operation's landings as `Told` says; if there are
    several, it was wrongly told of an expiry, and none of them closed proof accounts. -/
def MovesOnce (kit : Kit π) (retries : Nat) (signature : α → Signature)
    (m : Effect (World (Chain τ) π) Error α) : Prop :=
  ∀ w, m.wp (fun r w' => ∃ moves, moved w'.events = moved w.events ++ moves ∧
    Told kit signature retries moves r ∧
    (1 < moves.length → (∃ l ∈ moves, l.SaidExpired kit) ∧
      ∀ l ∈ moves, closedAccounts [l.instructions] = [])) w

section Rules

variable {net : Network (Chain τ) π} {kit : Kit π} {payer : Address} {retries : Nat}
  {signature : α → Signature}

theorem MovesOnce.bind {m : Effect (World (Chain τ) π) Error β}
    {f : β → Effect (World (Chain τ) π) Error α} (hm : m.Within (Sends net (Upkeep payer)))
    (hf : ∀ b, MovesOnce kit retries signature (f b)) : MovesOnce kit retries signature (m >>= f) := by
  intro w
  refine Effect.wp.bind (hm w) (fun b w₁ h => ?_) fun e w₁ h => ?_
  · rw [← h.moved]
    exact hf b w₁
  · exact ⟨[], by rw [h.moved, List.append_nil], .nothing e, by simp⟩

/-- Reading first. -/
theorem MovesOnce.read {m : Effect (World (Chain τ) π) Error β}
    {f : β → Effect (World (Chain τ) π) Error α} (hm : Reads m)
    (hf : ∀ b, MovesOnce kit retries signature (f b)) : MovesOnce kit retries signature (m >>= f) := by
  have hmoved : ∀ {w w' : World (Chain τ) π}, Untouched w w' → moved w'.events = moved w.events := by
    intro w w' h
    rw [moved, h.landed]
    rfl
  intro w
  refine Effect.wp.bind (hm.within w) (fun b w₁ h => ?_) fun e w₁ h => ?_
  · rw [← hmoved h]
    exact hf b w₁
  · exact ⟨[], by rw [hmoved h, List.append_nil], .nothing e, by simp⟩

/-- What is made of the result moves nothing more. -/
theorem MovesOnce.result {signature' : β → Signature} {m : Effect (World (Chain τ) π) Error β}
    (hm : MovesOnce kit retries signature' m) {f : β → Effect (World (Chain τ) π) Error α}
    (hf : ∀ b, ∃ a, f b = pure a ∧ signature' b = signature a) :
    MovesOnce kit retries signature (m >>= f) := by
  intro w
  refine Effect.wp.bind (hm w) (fun b w₁ h => ?_) fun e w₁ h => ?_
  · obtain ⟨moves, hmoved, htold, hclosing⟩ := h
    obtain ⟨a, hfb, hsignature⟩ := hf b
    rw [hfb]
    exact ⟨moves, hmoved, htold.map_ok hsignature, hclosing⟩
  · obtain ⟨moves, hmoved, htold, hclosing⟩ := h
    exact ⟨moves, hmoved, htold.map_error rfl, hclosing⟩

/-- Instructions that close an account land at most once. -/
theorem Sending.at_most_once {programs : Programs τ π} {is : List (Instruction π)}
    {w w' : World (Chain τ) π} {landed : List (Landing π)} {r : Except Error Signature} {a : Address}
    (h : Sending (net.withPrograms programs) kit retries is w landed r w')
    (hclose : ∀ i ∈ is.filterMap (·.about a), i.isClose = true) (hne : is.filterMap (·.about a) ≠ []) :
    landed.length ≤ 1 := by
  match landed with
  | [] => simp
  | [l] => simp
  | l :: l' :: rest =>
    exfalso
    have hlife := life_of_executed h.lands.executed a
    rw [List.map_cons, List.map_cons, List.flatten_cons, List.flatten_cons, List.filterMap_append,
      List.filterMap_append, (h.priced l (by simp)).about, (h.priced l' (by simp)).about,
      life_append, Option.bind_eq_some_iff] at hlife
    obtain ⟨account, hfirst, hrest⟩ := hlife
    rw [life_append, Option.bind_eq_some_iff] at hrest
    obtain ⟨account', hsecond, -⟩ := hrest
    obtain rfl : account = none := by
      rcases life_closes hclose hfirst with hnone | ⟨hnil, -⟩
      · exact hnone
      · contradiction
    cases hall : is.filterMap (·.about a) with
    | nil => contradiction
    | cons i is' =>
      rw [hall, life_cons, Option.bind_eq_some_iff] at hsecond
      obtain ⟨account'', hon, -⟩ := hsecond
      obtain ⟨-, lamports, stored, hstored⟩ := onAccount_close (hclose i (by simp [hall])) hon
      cases hstored

end Rules

/-! ## The calls -/

theorem Priced.isOperation {action : Action} {rest js : List (Instruction π)}
    (h : Priced (.operation action :: rest) js) : js.any (·.isOperation) = true := by
  obtain rfl | ⟨price, rfl⟩ := h
  · rfl
  · rfl

theorem Priced.closes_nothing {action : Action} {js : List (Instruction π)}
    (h : Priced [.operation action] js) : Rust.closedAccounts [js] = [] := by
  obtain rfl | ⟨price, rfl⟩ := h
  · rfl
  · rfl

/-- All landings of a sending with an operation count. -/
theorem Sending.moved {net : Network (Chain τ) π} {kit : Kit π} {retries : Nat} {action : Action}
    {rest : List (Instruction π)} {w w' : World (Chain τ) π} {landed : List (Landing π)}
    {r : Except Error Signature} (h : Sending net kit retries (.operation action :: rest) w landed r w') :
    moved w'.events = Rust.moved w.events ++ landed := by
  rw [moved_append h.lands.logged, List.filter_eq_self.2]
  intro l hl
  exact (h.priced l hl).isOperation

/-- Sending one operation alone. -/
theorem movesOnce_send (s : Sender) (net : Network (Chain τ) π) (kit : Kit π) (action : Action)
    (signers : List Address) (step : String) :
    MovesOnce kit s.maxRetries id (s.send net kit [.operation action] signers step) := by
  intro w
  refine (send_sending s net kit [.operation action] signers step w).mono fun r w' h => ?_
  obtain ⟨landed, h⟩ := h
  exact ⟨landed, h.moved, h.told, fun htwice => ⟨h.told.saidExpired htwice, fun l hl =>
    (h.priced l hl).closes_nothing⟩⟩

section Calls

variable {F G : Type} [CommRing F] [AddCommGroup G] [Module F G] (c : Client (Chain τ) π F G)
  (programs : Programs τ π)

/-- Sending an operation, with the closing of its proof accounts or without. -/
theorem movesOnce_together (s : Sender) (action : Action) (proofAccounts : List Address) (closes : Bool)
    (signers : List Address) (step : String) :
    MovesOnce c.kit s.maxRetries id (s.send (c.net.withPrograms programs) c.kit
      (if closes then .operation action :: closeInstructions c.payer proofAccounts
        else [.operation action]) signers step) := by
  cases closes with
  | false => exact movesOnce_send s _ c.kit action signers step
  | true =>
    cases proofAccounts with
    | nil => exact movesOnce_send s _ c.kit action signers step
    | cons a rest =>
      intro w
      refine (send_sending s _ c.kit _ signers step w).mono fun r w' h => ?_
      obtain ⟨landed, h⟩ := h
      rw [if_pos rfl] at h
      have honce : landed.length ≤ 1 := by
        apply h.at_most_once (a := a)
        · intro i hi
          rw [List.filterMap_cons_none rfl] at hi
          obtain ⟨rfl, -⟩ := mem_about_closeInstructions hi
          rfl
        · rw [List.filterMap_cons_none rfl]
          exact about_closeInstructions_ne_nil List.mem_cons_self
      exact ⟨landed, h.moved, h.told, fun hlength => absurd hlength (by omega)⟩

theorem movesOnce_runWithProofs (operation : String) (action : Action) (owner : Signer F)
    (proofAccounts : List Address) (signatures : List Signature) :
    MovesOnce c.kit c.maxRetries Prod.fst
      ((c.withPrograms programs).runWithProofs operation action owner proofAccounts signatures) := by
  intro w
  unfold Client.runWithProofs
  dsimp only
  rw [Effect.wp_bind, Effect.wp_attempt]
  refine (movesOnce_together c programs ((c.withPrograms programs).sender operation) action proofAccounts _
    [owner.pubkey] operation w).mono fun r w₁ h => ?_
  obtain ⟨moves, hmoved, htold, hclosing⟩ := h
  -- Closing afterwards always returns, and moves nothing.
  have hcloses : ∀ w₁, (closeProofAccounts ((c.withPrograms programs).sender operation)
      (c.net.withPrograms programs) c.kit proofAccounts).wp
      (fun r w' => (∃ outcome, r = .ok outcome) ∧ Rust.moved w'.events = Rust.moved w₁.events) w₁ := by
    intro w₁
    refine ((closeProofAccounts_cleaned _ _ c.kit proofAccounts w₁).and
      (sends_closeProofAccounts _ _ c.kit proofAccounts w₁)).mono fun r w' h => ?_
    obtain ⟨outcome, hr, -⟩ := h.1
    exact ⟨⟨outcome, hr⟩, h.2.moved⟩
  cases r with
  | error e =>
    simp only
    unfold Client.abandon
    rw [Effect.wp_bind, Effect.wp_bind]
    refine (hcloses w₁).mono fun r w' h => ?_
    obtain ⟨⟨outcome, rfl⟩, hsame⟩ := h
    exact ⟨moves, hsame.trans hmoved, htold.map_error rfl, hclosing⟩
  | ok signature =>
    simp only
    split
    · exact ⟨moves, hmoved, htold.map_ok rfl, hclosing⟩
    · rw [Effect.wp_bind]
      refine (hcloses w₁).mono fun r w' h => ?_
      obtain ⟨⟨outcome, rfl⟩, hsame⟩ := h
      exact ⟨moves, hsame.trans hmoved, htold.map_ok rfl, hclosing⟩

/-- However the network treats a call, its operation lands as often as the call was wrongly told that it had
    expired, and once more if the call succeeds; and if it lands again, it did not close its proof accounts. -/
theorem call_moves_once (applied : AppliedBalance F) :
    (∀ owner mint amount, MovesOnce c.kit c.maxRetries id
      ((c.withPrograms programs).deposit owner mint amount)) ∧
    (∀ owner mint, MovesOnce c.kit c.maxRetries id
      ((c.withPrograms programs).applyPendingBalance applied owner mint)) ∧
    (∀ owner mint destinationOwner amount, MovesOnce c.kit c.maxRetries TransferResult.transferSignature
      ((c.withPrograms programs).transfer owner mint destinationOwner amount)) ∧
    (∀ owner mint amount, MovesOnce c.kit c.maxRetries WithdrawResult.withdrawSignature
      ((c.withPrograms programs).withdraw owner mint amount)) := by
  refine ⟨fun owner mint amount => ?_, fun owner mint => ?_, fun owner mint destinationOwner amount => ?_,
    fun owner mint amount => ?_⟩
  · refine .read (reads_depositChecks _ owner mint amount) fun mintInfo => ?_
    refine .read (.ofExcept (raises_buildError _)) fun build => ?_
    exact movesOnce_send _ _ c.kit _ _ _
  · refine .read (reads_deriveKeys _ _) fun keys => ?_
    refine .read (reads_pendingBalanceUpdateInner _ applied _ _ _ _) fun update => ?_
    refine .read (.ofExcept (raises_buildError _)) fun build => ?_
    exact movesOnce_send _ _ c.kit _ _ _
  · refine .read (.ofExcept (raises_checkAmount _ _ _)) fun _ => ?_
    refine .read (reads_readMint _ _ _ _ _ _) fun mintInfo => ?_
    refine .read (reads_deriveKeys _ _) fun keys => ?_
    refine .bind (sends_prepareTransferInner (c.withPrograms programs) _ _ _ _ _ _ _) fun prepared => ?_
    refine .bind (sends_ofExcept (c.withPrograms programs) _) fun instruction => ?_
    refine .bind (sends_withHookAccounts (c.withPrograms programs) _ _ _ _ _) fun instruction => ?_
    exact .result (movesOnce_runWithProofs c programs _ _ owner _ _) fun sent => ⟨_, rfl, rfl⟩
  · refine .read (.ofExcept (raises_checkAmount _ _ _)) fun _ => ?_
    refine .read (reads_readMint _ _ _ _ _ _) fun mintInfo => ?_
    refine .read (reads_deriveKeys _ _) fun keys => ?_
    refine .bind (sends_prepareWithdrawInner (c.withPrograms programs) _ _ _ _ _ _) fun prepared => ?_
    refine .bind (sends_ofExcept (c.withPrograms programs) _) fun instruction => ?_
    exact .result (movesOnce_runWithProofs c programs _ _ owner _ _) fun sent => ⟨_, rfl, rfl⟩

end Calls

end Rust
