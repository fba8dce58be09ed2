-- SUMMARY: The codes of the errors thrown before anything is sent.
import ConfidentialTransfers.Sdk.Operations

/-!
# Early errors

What a call throws while it reads accounts, finds keys and computes proofs: a
plain error, or one with a code of its own place. Such an error is not to be
tried again, and lists no proof accounts; only the error of a failed proof flow
does that.
-/

open Solana

namespace Sdk

variable {χ F G : Type} [CommRing F] [AddCommGroup G] [Module F G]

/-- The error lists no proof account as left open. -/
def Thrown.ReportsNone (e : Thrown) : Prop := e.leftOpen = []

/-- A plain error, or one with one of these codes that says nothing of retries and proof accounts. -/
def Thrown.Coded (codes : List ErrorCode) : Thrown → Prop
  | .sdk e => e.code ∈ codes ∧ e.retryable = false ∧ e.proofAccounts = none
  | .other _ => True

namespace Thrown

theorem Coded.new {codes : List ErrorCode} {code : ErrorCode} {message : String}
    {details : ConfidentialTransfersErrorDetails} (hcode : code ∈ codes)
    (hexpired : code ≠ .transactionExpired) (hretryable : details.retryable = none)
    (hproofAccounts : details.proofAccounts = none) :
    (sdk (.new code message details)).Coded codes := by
  refine ⟨hcode, ?_, hproofAccounts⟩
  simp [ConfidentialTransfersError.new, hretryable, hexpired]

theorem Coded.mono {codes codes' : List ErrorCode} {e : Thrown} (h : e.Coded codes)
    (hsub : codes ⊆ codes') : e.Coded codes' := by
  cases e with
  | sdk error => exact ⟨hsub h.1, h.2⟩
  | other message => trivial

theorem Coded.widen {α : Type} {codes codes' : List ErrorCode} {r : Except Thrown α}
    (h : r.Raises (Coded codes)) (hsub : codes ⊆ codes') : r.Raises (Coded codes') :=
  h.mono fun _ h => h.mono hsub

theorem Coded.reportsNone {codes : List ErrorCode} {e : Thrown} (h : e.Coded codes) : e.ReportsNone := by
  cases e with
  | sdk error => simp [ReportsNone, leftOpen, h.2.2]
  | other message => rfl

theorem Coded.not_retryable {codes : List ErrorCode} {e : Thrown} (h : e.Coded codes) :
    e.retryable = false := by
  cases e with
  | sdk error => exact h.2.1
  | other message => rfl

theorem Plain.coded {e : Thrown} (h : e.Plain) (codes : List ErrorCode) : e.Coded codes := by
  cases e with
  | sdk error => exact h.elim
  | other message => trivial

theorem coded_other (codes : List ErrorCode) (message : String) : (other message).Coded codes := trivial

end Thrown

/-- Deriving keys has codes of its own. -/
theorem AboutKeys.coded {e : Thrown} (h : AboutKeys e) :
    e.Coded [.badMessageSignature, .cannotSignMessages, .cryptoUnavailable] := by
  cases e with
  | other message => trivial
  | sdk error =>
    obtain ⟨code, message, rfl, hcode⟩ := h
    apply Thrown.Coded.new hcode
    · rintro rfl
      simp at hcode
    · rfl
    · rfl

/-! ## Computing the proofs -/

section Proofs

variable (zk : ZkSdk F G) {codes : List ErrorCode}

theorem raises_getRequiredExtension (account : Token) :
    (getRequiredConfidentialTransferAccountExtension account).Raises
      (Thrown.Coded [.accountNotConfigured]) := by
  unfold getRequiredConfidentialTransferAccountExtension
  split
  · exact .error (.new (by simp) (by simp) rfl rfl)
  · split
    · exact .error (.new (by simp) (by simp) rfl rfl)
    · exact .ok _

theorem raises_assertNonNegativeAmount (amount : Int) :
    (assertNonNegativeAmount amount).Raises (Thrown.Coded [.invalidInput]) := by
  unfold assertNonNegativeAmount
  split
  · exact .error (.new (by simp) (by simp) rfl rfl)
  · exact .ok _

theorem raises_assertTransferableAmount (amount : Int) :
    (assertTransferableAmount amount).Raises (Thrown.Coded [.amountTooLarge]) := by
  unfold assertTransferableAmount
  split
  · exact .error (.new (by simp) (by simp) rfl rfl)
  · exact .ok _

theorem raises_assertPositiveWithdraw (amount : Int) :
    (assertPositiveWithdraw amount).Raises (Thrown.Coded [.invalidInput]) := by
  unfold assertPositiveWithdraw
  split
  · exact .error (.new (by simp) (by simp) rfl rfl)
  · exact .ok _

theorem raises_elGamalPubkeyFromBytes (bytes : Bytes) :
    (elGamalPubkeyFromBytes zk bytes).Raises (Thrown.Coded codes) := by
  unfold elGamalPubkeyFromBytes
  split
  · exact .ok _
  · exact .error trivial

theorem raises_getDestinationElGamalPubkey (input : TransferProofInput F) :
    (getDestinationElGamalPubkey zk input).Raises
      (Thrown.Coded [.invalidInput, .accountNotConfigured]) := by
  unfold getDestinationElGamalPubkey
  split
  · exact raises_elGamalPubkeyFromBytes zk _
  · exact .error (.new (by simp) (by simp) rfl rfl)
  · refine (Thrown.Coded.widen (raises_getRequiredExtension _) ?_).bind fun _ => ?_
    · exact List.subset_cons_self _ _
    · exact raises_elGamalPubkeyFromBytes zk _

theorem raises_auditorPubkeyOf (auditor : Option Address) :
    (auditorPubkeyOf zk auditor).Raises (Thrown.Coded codes) := by
  unfold auditorPubkeyOf
  split
  · exact raises_elGamalPubkeyFromBytes zk _
  · exact raises_elGamalPubkeyFromBytes zk _

theorem raises_parseElGamalCiphertext (bytes : Bytes) :
    (parseElGamalCiphertext zk bytes).Raises (Thrown.Coded [.decryptionFailed]) := by
  unfold parseElGamalCiphertext
  split
  · exact .ok _
  · exact .error (.new (by simp) (by simp) rfl rfl)

theorem raises_decryptAvailableBalance (account : ConfidentialTransferAccountState) (aesKey : Bytes) :
    (decryptAvailableBalance zk account aesKey).Raises (Thrown.Coded [.decryptionFailed]) := by
  have hparse : (parseAeCiphertext account.decryptableAvailableBalance).Raises
      (Thrown.Coded [.decryptionFailed]) := by
    unfold parseAeCiphertext
    split
    · exact .ok _
    · exact .error (.new (by simp) (by simp) rfl rfl)
  exact hparse.bind fun _ => .mapError (Thrown.coded_other _) _

theorem raises_computeNewAvailableBalance {amount : Int} (currentBalance : Nat)
    (hamount : (assertNonNegativeAmount amount).Raises (Thrown.Coded codes))
    (hcodes : .insufficientFunds ∈ codes) :
    (computeNewAvailableBalance currentBalance amount).Raises (Thrown.Coded codes) := by
  refine hamount.bind fun _ => ?_
  simp only
  split
  · exact .error (.new hcodes (by simp) rfl rfl)
  · exact .ok _

/-- The codes of a transfer's proofs: those its first checks may throw, and those of the balance. -/
theorem raises_transferProofs (random : TransferRandomness F) {input : TransferProofInput F}
    (hsource : (getRequiredConfidentialTransferAccountExtension input.sourceTokenAccount).Raises
      (Thrown.Coded codes))
    (hamount : (assertNonNegativeAmount input.amount).Raises (Thrown.Coded codes))
    (htransferable : (assertTransferableAmount input.amount).Raises (Thrown.Coded codes))
    (hdestination : (getDestinationElGamalPubkey zk input).Raises (Thrown.Coded codes))
    (hcodes : [.decryptionFailed, .insufficientFunds] ⊆ codes) :
    (transferProofs zk random input).Raises (Thrown.Coded codes) := by
  have hother : ∀ {α : Type} (r : Except String α), (r.mapError Thrown.other).Raises (Thrown.Coded codes) :=
    fun r => .mapError (Thrown.coded_other codes) r
  have hdecryption : [.decryptionFailed] ⊆ codes := by
    intro code hcode
    exact hcodes (List.mem_cons.mpr (.inl (List.mem_singleton.mp hcode)))
  refine hsource.bind fun sourceAccount => hamount.bind fun _ => htransferable.bind fun _ => ?_
  refine hdestination.bind fun destination => (raises_auditorPubkeyOf zk _).bind fun auditor => ?_
  refine (hother _).bind fun sourceLo => (hother _).bind fun sourceHi => ?_
  refine (hother _).bind fun auditorLo => (hother _).bind fun auditorHi => ?_
  refine (Thrown.Coded.widen (raises_decryptAvailableBalance zk _ _) hdecryption).bind
    fun currentBalance => ?_
  refine (raises_computeNewAvailableBalance _ hamount (hcodes (by simp))).bind
    fun newAvailableBalance => (hother _).bind fun bytes => ?_
  refine (Thrown.Coded.widen (raises_parseElGamalCiphertext zk _) hdecryption).bind fun ciphertext => ?_
  exact (hother _).bind fun commitmentLo => (hother _).bind fun commitmentHi => .ok _

/-- The codes of a withdraw's proofs. -/
theorem raises_withdrawProofs (random : WithdrawRandomness F) {input : WithdrawProofInput F}
    (haccount : (getRequiredConfidentialTransferAccountExtension input.tokenAccount).Raises
      (Thrown.Coded codes))
    (hpositive : (assertPositiveWithdraw input.amount).Raises (Thrown.Coded codes))
    (hamount : (assertNonNegativeAmount input.amount).Raises (Thrown.Coded codes))
    (hcodes : [.decryptionFailed, .insufficientFunds] ⊆ codes) :
    (withdrawProofs zk random input).Raises (Thrown.Coded codes) := by
  have hdecryption : [.decryptionFailed] ⊆ codes := by
    intro code hcode
    exact hcodes (List.mem_cons.mpr (.inl (List.mem_singleton.mp hcode)))
  refine haccount.bind fun account => hpositive.bind fun _ => ?_
  refine (Thrown.Coded.widen (raises_decryptAvailableBalance zk _ _) hdecryption).bind
    fun currentBalance => ?_
  refine (raises_computeNewAvailableBalance _ hamount (hcodes (by simp))).bind
    fun newAvailableBalance => ?_
  refine (Except.Raises.mapError (Thrown.coded_other codes) _).bind fun bytes => ?_
  exact (Thrown.Coded.widen (raises_parseElGamalCiphertext zk _) hdecryption).bind fun ciphertext => .ok _

/-- Whatever the input, a transfer's proofs fail with a code of their own. -/
theorem coded_transferProofs (random : TransferRandomness F) (input : TransferProofInput F) :
    (transferProofs zk random input).Raises (Thrown.Coded [.accountNotConfigured, .invalidInput,
      .amountTooLarge, .decryptionFailed, .insufficientFunds]) :=
  raises_transferProofs zk random
    (Thrown.Coded.widen (raises_getRequiredExtension _) (by simp))
    (Thrown.Coded.widen (raises_assertNonNegativeAmount _) (by simp))
    (Thrown.Coded.widen (raises_assertTransferableAmount _) (by simp))
    (Thrown.Coded.widen (raises_getDestinationElGamalPubkey zk _) (by simp)) (by simp)

/-- So do a withdraw's. -/
theorem coded_withdrawProofs (random : WithdrawRandomness F) (input : WithdrawProofInput F) :
    (withdrawProofs zk random input).Raises (Thrown.Coded [.accountNotConfigured, .invalidInput,
      .decryptionFailed, .insufficientFunds]) :=
  raises_withdrawProofs zk random
    (Thrown.Coded.widen (raises_getRequiredExtension _) (by simp))
    (Thrown.Coded.widen (raises_assertPositiveWithdraw _) (by simp))
    (Thrown.Coded.widen (raises_assertNonNegativeAmount _) (by simp)) (by simp)

theorem raises_assertKeysMatchAccount (keys : ConfidentialKeypairs F) (account : Token)
    (token : Address) (operation : String) :
    (assertKeysMatchAccount zk keys account token operation).Raises (Thrown.Coded [.keysMismatch]) := by
  unfold assertKeysMatchAccount
  split
  · exact .ok _
  · dsimp only
    split
    · exact .error (.new (by simp) (by simp) rfl rfl)
    · exact .ok _

theorem raises_newAvailableBalance (keys : ConfidentialKeypairs F)
    (ct : ConfidentialTransferAccountState) (operation token : String) :
    (newAvailableBalance zk keys ct operation token).Raises (Thrown.Coded [.decryptionFailed]) := by
  have hdecrypt : ∀ what run, (decryptOf operation token what run).Raises
      (Thrown.Coded [.decryptionFailed]) :=
    fun what run => .mapError (fun _ => (.new (by simp) (by simp) rfl rfl)) run
  refine (hdecrypt _ _).bind fun pendingLo => (hdecrypt _ _).bind fun pendingHi => ?_
  exact (hdecrypt _ _).bind fun currentAvailable => .ok _

end Proofs

theorem raises_assertCanReceive (ct : ConfidentialTransferAccountState) (token : Address)
    (operation whose : String) :
    (assertCanReceive ct token operation whose).Raises (Thrown.Coded [.accountNotApproved,
      .recipientRejectsConfidential, .pendingBalanceLimit]) := by
  unfold assertCanReceive
  dsimp only
  split
  · exact .error (.new (by simp) (by simp) rfl rfl)
  · split
    · exact .error (.new (by simp) (by simp) rfl rfl)
    · split
      · exact .error (.new (by simp) (by simp) rfl rfl)
      · exact .ok _

/-! ## Reading -/

section Reading

variable (c : Client χ F G)

omit [AddCommGroup G] [Module F G] in
theorem raises_readConfiguredAccount (net : Network χ (ProofData F G)) (token : Address)
    (operation whose : String) :
    (readConfiguredAccount net token operation whose).Raises
      (Thrown.Coded [.accountNotFound, .accountNotConfigured]) := by
  have hfetch : (fetchMaybeToken net token).Raises
      (Thrown.Coded [.accountNotFound, .accountNotConfigured]) := by
    refine (Effect.Raises.mapError (Thrown.coded_other _) _).bind fun reply => ?_
    cases reply with
    | ok account => exact .pure account
    | error message => exact .throw trivial
  refine hfetch.bind fun account => ?_
  cases account with
  | none => exact .throw (.new (by simp) (by simp) rfl rfl)
  | some account =>
    simp only
    cases confidentialState account with
    | none => exact .throw (.new (by simp) (by simp) rfl rfl)
    | some ct => exact .pure _

omit [AddCommGroup G] [Module F G] in
theorem raises_sessionKeys (owner : Owner F) (operation : String) :
    (sessionKeys owner operation : Effect (Session χ F G) Thrown _).Raises
      (Thrown.Coded [.badMessageSignature, .cannotSignMessages, .cryptoUnavailable]) := by
  refine Effect.Raises.get.bind fun session => ?_
  cases session.2 with
  | some keys => exact .pure keys
  | none =>
    have hkeys : (ownerKeys owner none operation :
        Effect (World χ (ProofData F G)) Thrown _).Raises
        (Thrown.Coded [.badMessageSignature, .cannotSignMessages, .cryptoUnavailable]) := by
      unfold ownerKeys
      simp only
      split
      · exact .throw (.new (by simp) (by simp) rfl rfl)
      · refine (Effect.Raises.modify _).bind fun _ => Effect.Raises.get.bind fun w => .ofExcept ?_
        exact (owner.derive_raises w.clock).mono fun _ h => h.coded
    exact hkeys.onFst.bind fun keys => (Effect.Raises.modify _).bind fun _ => .pure keys

theorem raises_both {α β : Type} {P : Thrown → Prop} {m : Effect (World χ (ProofData F G)) Thrown α}
    {m' : Effect (World χ (ProofData F G)) Thrown β} (hm : m.Raises P) (hm' : m'.Raises P) :
    (both c m m').Raises P := by
  intro w
  unfold both
  rw [Effect.wp_bind, Effect.wp_attempt]
  refine (hm w).mono fun first w₁ hfirst => ?_
  simp only
  rw [Effect.wp_bind, Effect.wp_attempt]
  refine (hm' w₁).mono fun second w₂ hsecond => ?_
  simp only
  rw [Effect.wp_bind, Effect.wp_get]
  cases first with
  | ok a =>
    cases second with
    | ok b => exact .ok (a, b)
    | error e => exact .error (hsecond e rfl)
  | error e =>
    cases second with
    | ok b => exact .error (hfirst e rfl)
    | error e' =>
      refine .error ?_
      split
      · exact hfirst e rfl
      · exact hsecond e' rfl

theorem raises_givenOrMintAuditorKey (given : Option Address) (mint : Address) :
    (givenOrMintAuditorKey c given mint).Raises Thrown.Plain := by
  cases given with
  | some auditor => exact .pure _
  | none =>
    refine (Effect.Raises.mapError (fun _ => trivial) _).bind fun reply => ?_
    cases reply with
    | error message => exact .throw trivial
    | ok data =>
      simp only
      cases data.extensions with
      | none => exact .pure none
      | some extensions => exact .pure _

end Reading

end Sdk
