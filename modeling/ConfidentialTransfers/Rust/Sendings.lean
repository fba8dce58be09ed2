-- SUMMARY: What the Rust crate's calls send: instructions about proof accounts, and one operation.
import ConfidentialTransfers.Rust.Accounted
import ConfidentialTransfers.Rust.Balance

/-!
# The sendings of a call

Everything a call sends besides its operation creates, fills or closes proof
accounts in the payer's name. So between two worlds of a call lies a run of such
transactions, whatever the network does to them.
-/

open Solana

namespace Rust

variable {τ π α β : Type}

/-- An instruction of a call that is not its operation. -/
inductive Upkeep (payer : Address) : Instruction π → Prop
  | price (microLamports : Nat) : Upkeep payer (.setComputeUnitPrice microLamports)
  | create (a : Address) (lamports : Nat) : Upkeep payer (.proof (.createAccount a lamports))
  | verify (proof : π) (a : Address) : Upkeep payer (.proof (.verifyProof proof a payer))
  | close (a : Address) : Upkeep payer (.proof (.closeContextState a payer payer))

/-- From `w` to `w'` transactions landed, and they hold only instructions of this kind. -/
def Sends (net : Network (Chain τ) π) (Kind : Instruction π → Prop) (w w' : World (Chain τ) π) : Prop :=
  ∃ landed : List (Landing π), landings w'.events = landings w.events ++ landed ∧
    Steps net.Executes w.chain (landed.map Landing.instructions) w'.chain ∧
    ∀ l ∈ landed, ∀ i ∈ l.instructions, Kind i

section Sends

variable {net : Network (Chain τ) π} {Kind : Instruction π → Prop} {w w' : World (Chain τ) π}

instance : IsPreorder (World (Chain τ) π) (Sends net Kind) where
  refl _ := ⟨[], by simp, .nil _, by simp⟩
  trans _ _ _ h h' := by
    obtain ⟨landed, hlog, hexecuted, hkind⟩ := h
    obtain ⟨landed', hlog', hexecuted', hkind'⟩ := h'
    refine ⟨landed ++ landed', ?_, ?_, ?_⟩
    · rw [hlog', hlog, List.append_assoc]
    · rw [List.map_append]
      exact hexecuted.append hexecuted'
    · intro l hl
      exact (List.mem_append.1 hl).elim (hkind l) (hkind' l)

theorem Sends.mono {Kind' : Instruction π → Prop} (h : Sends net Kind w w')
    (hkind : ∀ i, Kind i → Kind' i) : Sends net Kind' w w' := by
  obtain ⟨landed, hlog, hexecuted, hall⟩ := h
  exact ⟨landed, hlog, hexecuted, fun l hl i hi => hkind i (hall l hl i hi)⟩

theorem Untouched.sends (h : Untouched w w') : Sends net Kind w w' :=
  ⟨[], by rw [h.landed, List.append_nil], by rw [h.chain]; exact .nil _, by simp⟩

theorem Reads.sends {m : Effect (World (Chain τ) π) Error α} (h : Reads m) : m.Within (Sends net Kind) :=
  h.within.mono fun _ _ huntouched => huntouched.sends

theorem Sent.sends {is : List (Instruction π)} {landed : List (Landing π)} {r : Except Error Signature}
    (h : Sent net is w landed r w') (hprice : ∀ price, Kind (.setComputeUnitPrice price))
    (his : ∀ i ∈ is, Kind i) : Sends net Kind w w' := by
  refine ⟨landed, h.lands.logged, h.lands.executed, fun l hl i hi => ?_⟩
  obtain heq | ⟨price, heq⟩ := h.priced l hl
  · exact his i (heq ▸ hi)
  · rw [heq] at hi
    cases hi with
    | head => exact hprice price
    | tail _ hi => exact his i hi

end Sends

/-! ## The parts of a call -/

section Parts

variable (s : Sender) (net : Network (Chain τ) π) (kit : Kit π)

theorem sends_send {is : List (Instruction π)} (his : ∀ i ∈ is, Upkeep s.payer i) (signers : List Address)
    (step : String) : (s.send net kit is signers step).Within (Sends net (Upkeep s.payer)) := by
  intro w
  refine (s.send_wp net kit is signers step w).mono fun r w' h => ?_
  obtain ⟨landed, h⟩ := h
  exact h.sends .price his

theorem upkeep_closeInstructions (payer : Address) (accounts : List Address) :
    ∀ i ∈ (closeInstructions payer accounts : List (Instruction π)), Upkeep payer i := by
  intro i hi
  obtain ⟨a, -, rfl⟩ := List.mem_map.1 hi
  exact .close a

theorem sends_closeOne (outcome : ProofAccounts × List Signature) (a : Address) :
    (closeOne s net kit outcome a).Within (Sends net (Upkeep s.payer)) := by
  refine .bind (.attempt (sends_send s net kit (upkeep_closeInstructions s.payer [a]) _ _)) fun r => ?_
  cases r with
  | ok signature => exact .pure _
  | error e => exact .pure _

theorem sends_closeBatch (outcome : ProofAccounts × List Signature) (batch : List Address) :
    (closeBatch s net kit outcome batch).Within (Sends net (Upkeep s.payer)) := by
  refine .bind (.attempt (sends_send s net kit (upkeep_closeInstructions s.payer batch) _ _)) fun r => ?_
  cases r with
  | ok signature => exact .pure _
  | error e =>
    simp only
    split
    · exact .foldlM (sends_closeOne s net kit) _ _
    · exact .pure _

theorem sends_closeProofAccounts (accounts : List Address) :
    (closeProofAccounts s net kit accounts).Within (Sends net (Upkeep s.payer)) :=
  .foldlM (sends_closeBatch s net kit) _ _

theorem sends_create (proof : π) (split : Bool) :
    (ProofSetup.create s net kit proof split).Within
      (Order.Preimage Prod.fst (Sends net (Upkeep s.payer))) := by
  have hcreate : ∀ a lamports, ∀ i ∈ [(.proof (.createAccount a lamports) : Instruction π)],
      Upkeep s.payer i := by
    intro a lamports i hi
    cases List.mem_singleton.1 hi
    exact .create a lamports
  have hverify : ∀ a, ∀ i ∈ [(.proof (.verifyProof proof a s.payer) : Instruction π)], Upkeep s.payer i := by
    intro a i hi
    cases List.mem_singleton.1 hi
    exact .verify proof a
  have hmodify : ∀ f : World (Chain τ) π × ProofSetup → World (Chain τ) π × ProofSetup, (∀ x, (f x).1 = x.1) →
      (Effect.modify f : Effect (World (Chain τ) π × ProofSetup) Error Unit).Within
        (Order.Preimage Prod.fst (Sends net (Upkeep s.payer))) := by
    intro f hf x
    change Sends net _ x.1 (f x).1
    rw [hf]
    exact refl x.1
  have hnew : (ProofSetup.newKeypair kit : Effect (World (Chain τ) π) Error Address).Within
      (Sends net (Upkeep s.payer)) :=
    fun w => ⟨[], (List.append_nil _).symm, .nil _, by simp⟩
  refine .bind (.onFst hnew) fun a => .bind (.onFst (.mapError (fun w => ?_) _)) fun rent => ?_
  · exact net.request_wp (fun _ _ => ⟨[], by simp, .nil _, by simp⟩) ⟨[], by simp, .nil _, by simp⟩
  · cases split with
    | true =>
      refine .bind (.onFst (sends_send s net kit (hcreate a rent) _ _)) fun _ => ?_
      refine .bind (hmodify _ fun _ => rfl) fun _ => ?_
      refine .bind (.attempt (.onFst (sends_send s net kit (hverify a) _ _))) fun r => ?_
      cases r with
      | ok signature =>
        exact .bind (hmodify _ fun _ => rfl) fun _ => .bind (hmodify _ fun _ => rfl) fun _ => .pure _
      | error e =>
        refine .bind (hmodify _ fun _ => rfl) fun _ => .bind (.throw e) fun _ => ?_
        exact .bind (hmodify _ fun _ => rfl) fun _ => .pure _
    | false =>
      refine .bind (.onFst (sends_send s net kit (fun i hi => ?_) _ _)) fun _ => ?_
      · exact (List.mem_append.1 hi).elim (hcreate a rent i) (hverify a i)
      · exact .bind (hmodify _ fun _ => rfl) fun _ => .bind (hmodify _ fun _ => rfl) fun _ => .pure _

/-- Setting up, and closing what was set up if it fails. -/
theorem sends_run {created : Effect (World (Chain τ) π × ProofSetup) Error α}
    (hcreated : created.Within (Order.Preimage Prod.fst (Sends net (Upkeep s.payer)))) :
    (ProofSetup.run s net kit created).Within (Sends net (Upkeep s.payer)) := by
  refine .bind (fun w => hcreated (w, {})) fun x => ?_
  obtain ⟨r, setup⟩ := x
  cases r with
  | ok accounts => exact .pure _
  | error e =>
    refine .bind (.bind (sends_closeProofAccounts s net kit setup.verified) fun _ => .pure _) fun e => ?_
    exact .throw e

end Parts

/-! ## The calls -/

section Calls

variable {F G : Type} [CommRing F] [AddCommGroup G] [Module F G] (c : Client (Chain τ) π F G)

theorem raises_buildError {r : Except String β} (operation : String) :
    (r.mapError (buildError operation)).Raises (·.proofAccounts = none) := by
  refine Except.Raises.mapError (fun e => ?_) _
  rfl

theorem reads_depositChecks (owner : Signer F) (mint : Address) (amount : Nat) :
    Reads (c.depositChecks owner mint amount) := by
  refine (Reads.ofExcept (raises_checkAmount _ _ _)).bind fun _ => ?_
  refine (reads_readMint _ _ _ _ _ _).bind fun mintInfo => ?_
  refine (reads_readConfiguredAccount _ _ _ _ _ _).bind fun account => ?_
  refine (Reads.ofExcept (raises_assertCanReceive _ _ _ _)).bind fun _ => ?_
  split
  · exact .throw rfl
  · exact .pure _

theorem reads_pendingBalanceUpdateInner (applied : AppliedBalance F) (operation : String)
    (mint token : Address) (keys : ConfidentialKeypairs F) :
    Reads (c.pendingBalanceUpdateInner applied operation mint token keys) := by
  refine (reads_readConfiguredAccount _ _ _ _ _ _).bind fun account => ?_
  refine (Reads.ofExcept (raises_assertKeysMatch _ _ _ _ _)).bind fun _ => ?_
  refine Reads.get.bind fun w => .ofExcept ?_
  refine .bind ?_ fun _ => .ok _
  refine Except.Raises.mapError (fun e => ?_) _
  rfl

theorem sends_ofExcept (r : Except Error β) :
    (Effect.ofExcept r : Effect (World (Chain τ) π) Error β).Within (Sends c.net (Upkeep c.payer)) :=
  .ofExcept r

theorem sends_prepareTransferInner (operation : String) (mint : Address) (mintInfo : MintInfo G)
    (source : Address) (keys : ConfidentialKeypairs F) (destination : Address) (amount : Nat) :
    (c.prepareTransferInner operation mint mintInfo source keys destination amount).Within
      (Sends c.net (Upkeep c.payer)) := by
  refine .bind (reads_transferChecks c operation mint source keys destination amount).sends fun checked => ?_
  refine .bind (reads_transferProofs c operation mintInfo keys amount _ _).sends fun proofs => ?_
  refine .bind (sends_run (c.sender operation) c.net c.kit ?_) fun x => .pure _
  exact .bind (sends_create _ _ _ _ _) fun _ => .bind (sends_create _ _ _ _ _) fun _ =>
    .bind (sends_create _ _ _ _ _) fun _ => .pure _

theorem sends_prepareWithdrawInner (operation : String) (mint : Address) (decimals : Nat) (token : Address)
    (keys : ConfidentialKeypairs F) (amount : Nat) :
    (c.prepareWithdrawInner operation mint decimals token keys amount).Within
      (Sends c.net (Upkeep c.payer)) := by
  refine .bind (reads_withdrawChecks c operation mint token keys amount).sends fun ct => ?_
  refine .bind (reads_withdrawProofs c operation keys amount ct).sends fun proofs => ?_
  refine .bind (sends_run (c.sender operation) c.net c.kit ?_) fun x => .pure _
  exact .bind (sends_create _ _ _ _ _) fun _ => .bind (sends_create _ _ _ _ _) fun _ => .pure _

theorem sends_prepareTransfer (mint source : Address) (keys : ConfidentialKeypairs F) (destination : Address)
    (amount : Nat) :
    (c.prepareTransfer mint source keys destination amount).Within (Sends c.net (Upkeep c.payer)) :=
  .bind (.ofExcept _) fun _ => .bind (reads_readMint _ _ _ _ _ _).sends fun _ =>
    sends_prepareTransferInner c _ _ _ _ _ _ _

theorem sends_prepareWithdraw (mint token : Address) (keys : ConfidentialKeypairs F) (amount : Nat) :
    (c.prepareWithdraw mint token keys amount).Within (Sends c.net (Upkeep c.payer)) :=
  .bind (.ofExcept _) fun _ => .bind (reads_readMint _ _ _ _ _ _).sends fun _ =>
    sends_prepareWithdrawInner c _ _ _ _ _ _

theorem sends_prepareConfigure (keys : ConfidentialKeypairs F) :
    (c.prepareConfigure keys).Within (Sends c.net (Upkeep c.payer)) :=
  .bind .get fun _ => .bind (.ofExcept _) fun proof =>
    .bind (sends_run (c.sender _) c.net c.kit (sends_create _ _ _ proof false)) fun _ =>
      .bind .get fun _ => .pure _

theorem sends_abandon (operation : String) (proofAccounts : List Address) (signatures : List Signature)
    (error : Error) : (c.abandon operation proofAccounts signatures error).Within
      (Sends c.net (Upkeep c.payer)) :=
  .bind (sends_closeProofAccounts (c.sender operation) c.net c.kit proofAccounts) fun _ => .pure _

theorem sends_withHookAccounts (operation : String) (mintInfo : MintInfo G) (prepared : PreparedTransfer)
    (authority : Address) (instruction : Action) :
    (c.withHookAccounts operation mintInfo prepared authority instruction).Within
      (Sends c.net (Upkeep c.payer)) := by
  unfold Client.withHookAccounts
  split
  · refine .bind (.attempt (.bind .get fun _ => .ofExcept _)) fun r => ?_
    cases r with
    | ok extra => exact .pure _
    | error e => exact .bind (sends_abandon c operation _ _ e) fun e => .throw e
  · exact .pure _

end Calls

end Rust
