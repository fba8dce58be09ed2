-- SUMMARY: What a call that one of its checks rejects has asked its signers for, and what it has sent.
import ConfidentialTransfers.Sdk.Amounts
import ConfidentialTransfers.Sdk.AtMostOnce
import ConfidentialTransfers.Sdk.EarlyErrors

/-!
# Before the wallet opens

An operation reads and checks, asks the owner for the keys if it was given none,
checks again, and only then signs and sends. An attempt that throws has stopped
in one of these places, and the code of its error says in which.
-/

open Solana

namespace Solana

variable {χ π : Type}

/-- A signer was asked to sign the key-derivation message. -/
def Event.isKeyRequest : Event π → Bool
  | .keyRequest => true
  | _ => false

/-- A signer was asked to sign transactions, or a transaction was sent. -/
def Event.isTransaction : Event π → Bool
  | .signRequest _ => true
  | .submitted _ _ _ => true
  | _ => false

/-- From `w` to `w'` only such events were logged. -/
def World.LogsOnly (p : Event π → Prop) (w w' : World χ π) : Prop := ∃ es, w.Logged es w' ∧ ∀ e ∈ es, p e

/-- From `w` to `w'` such an event was logged. -/
def World.Logs (p : Event π → Prop) (w w' : World χ π) : Prop := ∃ es, w.Logged es w' ∧ ∃ e ∈ es, p e

/-- Nothing is taken from the log. -/
def World.Grows (w w' : World χ π) : Prop := ∃ es, w.Logged es w'

section Log

variable {p : Event π → Prop}

instance : IsPreorder (World χ π) (World.LogsOnly p) where
  refl w := ⟨[], .refl w, by simp⟩
  trans := by
    rintro w w' w'' ⟨es, hlog, hes⟩ ⟨fs, hlog', hfs⟩
    refine ⟨es ++ fs, hlog.trans hlog', ?_⟩
    intro e he
    rcases List.mem_append.mp he with he | he
    · exact hes e he
    · exact hfs e he

instance : IsPreorder (World χ π) World.Grows where
  refl w := ⟨[], .refl w⟩
  trans := by
    rintro w w' w'' ⟨es, hlog⟩ ⟨fs, hlog'⟩
    exact ⟨es ++ fs, hlog.trans hlog'⟩

theorem World.LogsOnly.grows {w w' : World χ π} (h : w.LogsOnly p w') : w.Grows w' := by
  obtain ⟨es, hlog, _⟩ := h
  exact ⟨es, hlog⟩

theorem World.Silent.logsOnly {w w' : World χ π} (h : w.Silent w') : w.LogsOnly p w' :=
  ⟨[], by rw [World.Logged, h.events, List.append_nil], by simp⟩

theorem World.Logs.grows {w w' w'' : World χ π} (h : w.Logs p w') (h' : w'.Grows w'') : w.Logs p w'' := by
  obtain ⟨es, hlog, e, he, hp⟩ := h
  obtain ⟨fs, hlog'⟩ := h'
  exact ⟨es ++ fs, hlog.trans hlog', e, List.mem_append_left fs he, hp⟩

theorem World.Grows.logs {w w' w'' : World χ π} (h : w.Grows w') (h' : w'.Logs p w'') : w.Logs p w'' := by
  obtain ⟨es, hlog⟩ := h
  obtain ⟨fs, hlog', e, he, hp⟩ := h'
  exact ⟨es ++ fs, hlog.trans hlog', e, List.mem_append_right es he, hp⟩

/-- What is logged is logged once. -/
theorem World.LogsOnly.not_logs {q : Event π → Prop} {w w' : World χ π} (h : w.LogsOnly p w')
    (h' : w.Logs q w') : ∃ e, p e ∧ q e := by
  obtain ⟨es, hlog, hes⟩ := h
  obtain ⟨fs, hlog', e, he, hq⟩ := h'
  obtain rfl : es = fs := List.append_cancel_left (hlog.symm.trans hlog')
  exact ⟨e, hes e he, hq⟩

end Log

end Solana

namespace Sdk

variable {χ π σ α β : Type}

/-! ## The codes -/

/-- The codes a call rejects with before it asks a signer for anything. -/
def codesBeforeKeys : List ErrorCode :=
  [.invalidInput, .accountNotFound, .accountNotConfigured, .accountNotApproved,
    .recipientRejectsConfidential, .pendingBalanceLimit, .amountTooLarge]

/-- The codes a call may reject with once it has the keys, before it asks for a signature. -/
def codesBeforeSigning : List ErrorCode := [.keysMismatch, .insufficientFunds, .decryptionFailed]

/-- An error with a code that is not among these. -/
def Thrown.NoneOf (codes : List ErrorCode) : Thrown → Prop
  | .sdk e => e.code ∉ codes
  | .other _ => True

theorem Thrown.Coded.noneOf {codes codes' : List ErrorCode} {e : Thrown} (h : e.Coded codes)
    (hdisjoint : ∀ code ∈ codes, code ∉ codes') : e.NoneOf codes' := by
  cases e with
  | sdk error => exact hdisjoint _ h.1
  | other message => trivial

/-- From `w` to `w'` a call that rejected with this code kept away from its signers: it asked for
    nothing and sent nothing, or at least signed and sent no transaction. -/
structure KeepsAway (code : ErrorCode) (w w' : World χ π) : Prop where
  signers : code ∈ codesBeforeKeys →
    w.LogsOnly (fun e => e.isKeyRequest = false ∧ e.isTransaction = false) w'
  transactions : code ∈ codesBeforeSigning → w.LogsOnly (fun e => e.isTransaction = false) w'

/-! ## Where an attempt stops -/

/-- Only the key-derivation message was signed. -/
abbrev AsksForKeys (w w' : World χ π) : Prop := w.LogsOnly (fun e => e.isKeyRequest = true) w'

/-- From `w` to `w'` a transaction was submitted that the network let expire. -/
def Expires (w w' : World χ π) : Prop := w.Logs (fun e => ∃ tx, e = .submitted tx .dropped none) w'

/-- An attempt threw `e` while it signed and sent. It is tried again only if a transaction expired. -/
structure FailedSending (w : World χ π) (e : Thrown) (w' : World χ π) : Prop where
  code : e.NoneOf (codesBeforeKeys ++ codesBeforeSigning)
  expires : e.retryable = true → Expires w w'

/-- An attempt threw `e` after it had the keys. -/
inductive HaltedLate (w : World χ π) (e : Thrown) (w' : World χ π) : Prop
  | checking (hkeys : AsksForKeys w w') (hretry : e.retryable = false) (hcode : e.NoneOf codesBeforeKeys)
  | sending (h : FailedSending w e w')

/-- An attempt threw `e`: before it asked for anything, or after. -/
inductive Halted (w : World χ π) (e : Thrown) (w' : World χ π) : Prop
  | early (hsilent : w'.events = w.events) (hretry : e.retryable = false)
  | late (h : HaltedLate w e w')

theorem FailedSending.prepend {w w₁ w' : World χ π} {e : Thrown} (hgrows : w.Grows w₁)
    (h : FailedSending w₁ e w') : FailedSending w e w' where
  code := h.code
  expires hretry := hgrows.logs (h.expires hretry)

theorem FailedSending.other (message : String) (w w' : World χ π) :
    FailedSending w (.other message) w' where
  code := trivial
  expires hretry := by cases hretry

theorem HaltedLate.prepend {w w₁ w' : World χ π} {e : Thrown} (hkeys : AsksForKeys w w₁)
    (h : HaltedLate w₁ e w') : HaltedLate w e w' := by
  cases h with
  | checking hkeys' hretry hcode => exact .checking (IsTrans.trans _ _ _ hkeys hkeys') hretry hcode
  | sending h => exact .sending (h.prepend hkeys.grows)

/-! ### Sending -/

/-- A computation that throws only while it signs and sends. -/
def FailsSending (m : Effect (World χ π) Thrown α) : Prop :=
  ∀ w, m.wp (fun r w' => w.Grows w' ∧ ∀ e, r = .error e → FailedSending w e w') w

theorem FailsSending.bind {m : Effect (World χ π) Thrown β} {f : β → Effect (World χ π) Thrown α}
    (hm : FailsSending m) (hf : ∀ b, FailsSending (f b)) : FailsSending (m >>= f) := by
  intro w
  refine (hm w).bind (fun b w₁ h => ?_) (fun e w₁ h => ?_)
  · refine (hf b w₁).mono fun r w' h' => ?_
    refine ⟨IsTrans.trans _ _ _ h.1 h'.1, ?_⟩
    intro e he
    exact (h'.2 e he).prepend h.1
  · refine ⟨h.1, ?_⟩
    rintro e' ⟨⟩
    exact h.2 e rfl

theorem FailsSending.ofExcept {r : Except Thrown α} (h : r.Raises Thrown.Plain) :
    FailsSending (Effect.ofExcept r : Effect (World χ π) Thrown α) := by
  intro w
  refine ⟨refl w, ?_⟩
  intro e he
  have hplain := h e he
  cases e with
  | sdk error => exact hplain.elim
  | other message => exact .other message w w

variable (net : Network χ π) (kit : Kit π) (ctx : SendContext)

/-- Of the ways to send in vain only the expiry is tried again, and by then it is sent. -/
theorem Failed.failedSending {tx : Transaction π} {thrown : Thrown} {es : List (Event π)}
    (h : Failed tx thrown es) {w w' : World χ π} (hlog : w.Logged es w') :
    FailedSending w thrown w' := by
  cases h with
  | unanswered message => exact .other message w w'
  | refused hcode hretry =>
    refine ⟨by simp [Thrown.NoneOf, hcode, codesBeforeKeys, codesBeforeSigning], ?_⟩
    intro h
    exact absurd (hretry.symm.trans h) (by simp)
  | expired hcode hretry =>
    refine ⟨by simp [Thrown.NoneOf, hcode, codesBeforeKeys, codesBeforeSigning], ?_⟩
    intro _
    exact ⟨_, hlog, .submitted tx .dropped none, by simp, tx, rfl⟩
  | failed hcode hretry =>
    refine ⟨by simp [Thrown.NoneOf, hcode, codesBeforeKeys, codesBeforeSigning], ?_⟩
    intro h
    exact absurd (hretry.symm.trans h) (by simp)
  | interrupted hcode hretry =>
    refine ⟨by simp [Thrown.NoneOf, hcode, codesBeforeKeys, codesBeforeSigning], ?_⟩
    intro h
    exact absurd (hretry.symm.trans h) (by simp)

theorem failsSending_simulateAndSend (tx : Transaction π) (step : String) :
    FailsSending (simulateAndSend net ctx tx step) := by
  intro w
  refine (simulateAndSend_wp net ctx tx step w).mono fun r w' h => ?_
  cases h with
  | confirmed hlog =>
    refine ⟨⟨_, hlog⟩, ?_⟩
    rintro e ⟨⟩
  | thwarted hfailed hlog =>
    refine ⟨⟨_, hlog⟩, ?_⟩
    rintro e ⟨⟩
    exact hfailed.failedSending hlog

theorem failsSending_latestLifetime :
    FailsSending (latestLifetime net : Effect (World χ π) Thrown Lifetime) := by
  intro w
  refine latestLifetime_wp net (fun message => ⟨⟨[], .refl w⟩, ?_⟩) (fun lifetime => ⟨⟨[], .refl w⟩, ?_⟩)
  · rintro e ⟨⟩
    exact .other message w _
  · rintro e ⟨⟩

theorem failsSending_signTogether (messages : List (Message π)) (lifetime : Lifetime) :
    FailsSending (signTogether kit messages lifetime : Effect (World χ π) Thrown _) := by
  intro w
  refine signTogether_wp kit (fun message => ⟨⟨_, rfl⟩, ?_⟩) (fun txs _ => ⟨⟨_, rfl⟩, ?_⟩)
  · rintro e ⟨⟩
    exact .other message w _
  · rintro e ⟨⟩

theorem failsSending_sendInstructions (instructions : List (Instruction π)) :
    FailsSending (sendInstructions net kit ctx instructions) := by
  refine (failsSending_latestLifetime net).bind fun lifetime => ?_
  refine (failsSending_signTogether kit _ lifetime).bind fun txs => ?_
  cases txs with
  | nil =>
    intro w
    refine ⟨refl w, ?_⟩
    rintro e ⟨⟩
    exact .other _ w w
  | cons tx rest => exact failsSending_simulateAndSend net ctx tx _

/-- Cleaning up only adds to the log. -/
theorem grows_closeProofAccounts (addresses : List Address) :
    (closeProofAccounts net kit ctx addresses).Within World.Grows :=
  (quiet_closeProofAccounts net kit ctx addresses).mono fun w w' h => by
    obtain ⟨es, hlog, _⟩ := h
    exact ⟨es, hlog⟩

/-- The loop over a flow's transactions; what a transaction threw keeps its code and its `retryable`. -/
theorem failsSending_sendInOrder (flow : ProofFlow π) (actionStep : String) (actionIndex : Option Nat)
    (i : Nat) (txs : List (Transaction π)) (signatures : List Signature) :
    FailsSending (sendInOrder net kit ctx flow actionStep actionIndex i txs signatures) := by
  induction txs generalizing i signatures with
  | nil =>
    intro w
    refine ⟨refl w, ?_⟩
    rintro e ⟨⟩
  | cons tx rest ih =>
    intro w
    unfold sendInOrder
    simp only
    rw [Effect.wp_bind, Effect.wp_attempt]
    refine (failsSending_simulateAndSend net ctx tx _ w).mono fun sent w₁ h => ?_
    obtain ⟨hgrows, hfailed⟩ := h
    cases sent with
    | ok signature =>
      refine (ih (i + 1) (signatures ++ [signature]) w₁).mono fun r w' h' => ?_
      refine ⟨IsTrans.trans _ _ _ hgrows h'.1, ?_⟩
      intro e he
      exact (h'.2 e he).prepend hgrows
    | error thrown =>
      have hthrown := hfailed thrown rfl
      simp only
      refine ((grows_closeProofAccounts net kit ctx flow.proofAccounts w₁).and
        (closeProofAccounts_returns net kit ctx flow.proofAccounts w₁)).bind ?_ ?_
      · rintro proofAccounts w' ⟨hcleaned, _⟩
        have hall : w.Grows w' := IsTrans.trans _ _ _ hgrows hcleaned
        split
        · refine ⟨hall, ?_⟩
          rintro e ⟨⟩
        · refine ⟨hall, ?_⟩
          rintro e ⟨⟩
          have hspec := flowError_spec ctx (stepName actionIndex actionStep i) signatures proofAccounts thrown
          refine ⟨?_, ?_⟩
          · simp only [Thrown.NoneOf, hspec.code]
            cases thrown with
            | sdk error => exact hthrown.code
            | other message => simp [flowCode, codesBeforeKeys, codesBeforeSigning]
          · intro hretry
            have hretry : thrown.retryable = true := hspec.retryable.symm.trans hretry
            exact (hthrown.expires hretry).grows hcleaned
      · rintro e w' ⟨_, proofAccounts, ⟨⟩⟩

theorem failsSending_executeProofFlow (flow : ProofFlow π) (actionStep : String) :
    FailsSending (executeProofFlow net kit ctx flow actionStep) := by
  refine (FailsSending.ofExcept (.mapError (fun _ => trivial) _)).bind fun planned => ?_
  refine (failsSending_latestLifetime net).bind fun lifetime => ?_
  refine (failsSending_signTogether kit _ lifetime).bind fun txs => ?_
  exact failsSending_sendInOrder net kit ctx flow actionStep _ 0 txs []

/-! ### Checking -/

section Stages

variable {view : σ → World χ π}

/-- A computation that only throws as an attempt does that has the keys. -/
def HaltsLate (view : σ → World χ π) (m : Effect σ Thrown α) : Prop :=
  ∀ s, m.wp (fun r s' => ∀ e, r = .error e → HaltedLate (view s) e (view s')) s

/-- A computation that only throws as an attempt does. -/
def Halts (view : σ → World χ π) (m : Effect σ Thrown α) : Prop :=
  ∀ s, m.wp (fun r s' => ∀ e, r = .error e → Halted (view s) e (view s')) s

theorem FailsSending.haltsLate {m : Effect (World χ π) Thrown α} (h : FailsSending m) : HaltsLate id m := by
  intro w
  refine (h w).mono fun r w' hfails => ?_
  intro e he
  exact .sending (hfails.2 e he)

/-- A check before the signing. -/
theorem HaltsLate.bind {m : Effect σ Thrown β} {f : β → Effect σ Thrown α} {codes : List ErrorCode}
    (hkeys : m.Within (Order.Preimage view AsksForKeys)) (hraises : m.Raises (Thrown.Coded codes))
    (hcodes : ∀ code ∈ codes, code ∉ codesBeforeKeys) (hf : ∀ b, HaltsLate view (f b)) :
    HaltsLate view (m >>= f) := by
  intro s
  refine ((hkeys s).and (hraises s)).bind ?_ ?_
  · rintro b s₁ ⟨hkeys, _⟩
    refine (hf b s₁).mono fun r s' h => ?_
    intro e he
    exact (h e he).prepend hkeys
  · rintro e s₁ ⟨hkeys, hraises⟩ _ ⟨⟩
    have hcoded := hraises e rfl
    exact .checking hkeys hcoded.not_retryable (hcoded.noneOf hcodes)

theorem HaltsLate.onFst {τ : Type} {m : Effect (World χ π) Thrown α} (h : HaltsLate id m) :
    HaltsLate Prod.fst (Effect.onFst m : Effect (World χ π × τ) Thrown α) :=
  fun s => h s.1

/-- What is left of an attempt that has only read so far. -/
theorem Halted.prepend {w w₁ w' : World χ π} {e : Thrown} (hsilent : w.Silent w₁)
    (h : Halted w₁ e w') : Halted w e w' := by
  cases h with
  | early hsilent' hretry => exact .early (hsilent'.trans hsilent.events) hretry
  | late h => exact .late (h.prepend hsilent.logsOnly)

/-- A check before the keys. -/
theorem Halts.bind {m : Effect σ Thrown β} {f : β → Effect σ Thrown α} {codes : List ErrorCode}
    {P : β → Prop} (hsilent : m.Within (Order.Preimage view World.Silent))
    (hraises : m.Raises (Thrown.Coded codes)) (hreturns : m.Returns P)
    (hf : ∀ b, P b → Halts view (f b)) : Halts view (m >>= f) := by
  intro s
  refine (((hsilent s).and (hraises s)).and (hreturns s)).bind ?_ ?_
  · rintro b s₁ ⟨⟨hsilent, _⟩, hreturns⟩
    refine (hf b (hreturns b rfl) s₁).mono fun r s' h => ?_
    intro e he
    exact (h e he).prepend hsilent
  · rintro e s₁ ⟨⟨hsilent, hraises⟩, _⟩ _ ⟨⟩
    exact .early hsilent.events (hraises e rfl).not_retryable

theorem Halts.throw {e : Thrown} (hretry : e.retryable = false) :
    Halts view (Effect.throw e : Effect σ Thrown α) := by
  rintro s _ ⟨⟩
  exact .early rfl hretry

theorem HaltsLate.halts {m : Effect σ Thrown α} (h : HaltsLate view m) : Halts view m := by
  intro s
  refine (h s).mono fun r s' hlate => ?_
  intro e he
  exact .late (hlate e he)

end Stages

/-! ## The operations -/

section Operations

variable {F G : Type} [CommRing F] [AddCommGroup G] [Module F G] (c : Client χ F G)

omit [AddCommGroup G] [Module F G] in
theorem returns_readConfiguredAccount (net : Network χ (ProofData F G)) (token : Address)
    (operation whose : String) :
    (readConfiguredAccount net token operation whose).Returns
      (fun account => confidentialState account.1 = some account.2) := by
  refine Effect.Returns.bind (R := fun _ => True) (fun _ _ _ => trivial) fun account _ => ?_
  cases account with
  | none => exact .throw _
  | some account =>
    simp only
    cases hstate : confidentialState account with
    | none => exact .throw _
    | some ct => exact .pure hstate

omit [AddCommGroup G] [Module F G] in
/-- Finding the keys asks for them at most. -/
theorem asksForKeys_sessionKeys (owner : Owner F) (operation : String) :
    (sessionKeys owner operation : Effect (Session χ F G) Thrown _).Within
      (Order.Preimage Prod.fst AsksForKeys) := by
  refine Effect.Within.get.bind fun session => ?_
  cases session.2 with
  | some keys => exact .pure keys
  | none =>
    have hask : (ownerKeys owner none operation :
        Effect (World χ (ProofData F G)) Thrown _).Within AsksForKeys := by
      unfold ownerKeys
      simp only
      split
      · exact .throw _
      · have hrecord : (Effect.modify (World.record .keyRequest) :
            Effect (World χ (ProofData F G)) Thrown Unit).Within AsksForKeys :=
          fun w => ⟨[.keyRequest], rfl, by simp [Event.isKeyRequest]⟩
        exact hrecord.bind fun _ => Effect.Within.get.bind fun _ => .ofExcept _
    have hstore : ∀ keys, (Effect.modify (fun session : Session χ F G => (session.1, some keys)) :
        Effect (Session χ F G) Thrown Unit).Within (Order.Preimage Prod.fst AsksForKeys) :=
      fun keys session => refl session.1
    exact hask.onFst.bind fun keys => (hstore keys).bind fun _ => .pure keys

theorem halts_depositAttempt (input : DepositInput F) (programAddress token : Address) :
    Halts id (depositAttempt c input programAddress token) := by
  refine .bind (silent_readConfiguredAccount c.net token _ _) (raises_readConfiguredAccount c.net token _ _)
    (returns_readConfiguredAccount c.net token _ _) fun account _ => ?_
  simp only
  split
  · exact .throw rfl
  · refine .bind (.ofExcept _) (.ofExcept (raises_assertCanReceive _ _ _ _)) (P := fun _ => True)
      (fun _ _ _ => trivial) fun _ _ => ?_
    exact (failsSending_sendInstructions c.net c.kit _ _).haltsLate.halts

/-- The keys and what is checked with them. -/
theorem haltsLate_keys {α : Type} (owner : Owner F) (account : Token) (token : Address) (operation : String)
    {f : ConfidentialKeypairs F → Effect (Session χ F G) Thrown α}
    (hf : ∀ keys, HaltsLate Prod.fst (f keys)) :
    HaltsLate Prod.fst (sessionKeys owner operation >>= fun keys =>
      Effect.ofExcept (assertKeysMatchAccount c.zk keys account token operation) >>= fun _ => f keys) := by
  refine .bind (asksForKeys_sessionKeys owner operation) (raises_sessionKeys owner operation)
    (by decide) fun keys => ?_
  exact .bind (.ofExcept _) (.ofExcept (raises_assertKeysMatchAccount c.zk _ _ _ _)) (by decide)
    fun _ => hf keys

theorem halts_applyPendingBalanceAttempt (input : ApplyPendingBalanceInput F)
    (programAddress token : Address) :
    Halts Prod.fst (applyPendingBalanceAttempt c input programAddress token) := by
  unfold applyPendingBalanceAttempt applyPendingBalanceAction
  simp only [bind_assoc]
  refine .bind (silent_readConfiguredAccount c.net token _ _).onFst
    (raises_readConfiguredAccount c.net token _ _).onFst
    (returns_readConfiguredAccount c.net token _ _).onFst fun account _ => ?_
  refine (haltsLate_keys c _ _ _ _ fun keys => ?_).halts
  refine .bind (.ofExcept _) (.ofExcept (raises_newAvailableBalance c.zk _ _ _ _)) (by decide)
    fun newAvailable => ?_
  have hget : (Effect.get : Effect (Session χ F G) Thrown _).Raises (Thrown.Coded []) := .get
  refine .bind .get hget (by decide) fun session => ?_
  exact (failsSending_sendInstructions c.net c.kit _ _).haltsLate.onFst

/-! ### withdraw -/

omit [AddCommGroup G] [Module F G] in
/-- Building a flow logs nothing. -/
theorem Generated.logsOnly {n : Nat} {p : Event (ProofData F G) → Prop} {w w' : World χ (ProofData F G)}
    (h : Generated n w w') : w.LogsOnly p w' :=
  ⟨[], by rw [World.Logged, h.events, List.append_nil], by simp⟩

theorem decryption_insufficient :
    ∀ code ∈ [ErrorCode.decryptionFailed, .insufficientFunds], code ∉ codesBeforeKeys := by
  decide

/-- A flow that is built and then run, when building it fails with a code that comes after the keys. -/
theorem haltsLate_flow {codes : List ErrorCode}
    {build : Effect (World χ (ProofData F G)) Thrown (ProofFlow (ProofData F G))}
    (hbuild : ∀ w, build.wp (fun r w' => (∃ n, Generated n w w') ∧ r.Raises (Thrown.Coded codes)) w)
    (hcodes : ∀ code ∈ codes, code ∉ codesBeforeKeys) (ctx : SendContext) (actionStep : String) :
    HaltsLate Prod.fst (Effect.onFst build >>= fun flow =>
      (Effect.onFst (executeProofFlow c.net c.kit ctx flow actionStep) :
        Effect (Session χ F G) Thrown _)) := by
  have hkeys : build.Within AsksForKeys := by
    intro w
    obtain ⟨⟨n, hgenerated⟩, _⟩ := hbuild w
    exact hgenerated.logsOnly
  have hraises : build.Raises (Thrown.Coded codes) := fun w => (hbuild w).2
  refine .bind hkeys.onFst hraises.onFst hcodes fun flow => ?_
  exact (failsSending_executeProofFlow c.net c.kit ctx flow actionStep).haltsLate.onFst

/-- A positive amount passes the checks of amounts among the proofs. -/
theorem raises_positive {amount : Int} (hpos : 0 < amount) {codes : List ErrorCode} :
    (assertPositiveWithdraw amount).Raises (Thrown.Coded codes) ∧
      (assertNonNegativeAmount amount).Raises (Thrown.Coded codes) := by
  constructor
  · rw [assertPositiveWithdraw, if_neg (not_le.mpr hpos)]
    exact .ok _
  · rw [assertNonNegativeAmount, if_neg (not_lt.mpr hpos.le)]
    exact .ok _

theorem raises_configured {account : Token} {ct : ConfidentialTransferAccountState}
    (h : confidentialState account = some ct) {codes : List ErrorCode} :
    (getRequiredConfidentialTransferAccountExtension account).Raises (Thrown.Coded codes) := by
  rw [getRequired_eq h]
  exact .ok _

theorem haltsLate_withdrawFlow {input : WithdrawFlowInput F} {ct : ConfidentialTransferAccountState}
    (hstate : confidentialState input.tokenAccount = some ct) (hpos : 0 < input.amount)
    (ctx : SendContext) (actionStep : String) :
    HaltsLate Prod.fst (Effect.onFst (getConfidentialWithdrawProofFlow c.net c.kit c.zk
        c.withdrawRandomness input) >>= fun flow =>
      (Effect.onFst (executeProofFlow c.net c.kit ctx flow actionStep) :
        Effect (Session χ F G) Thrown _)) := by
  obtain ⟨hpositive, hnonneg⟩ := raises_positive hpos
  have hproofs : ∀ random, (withdrawProofs c.zk random input.toWithdrawProofInput).Raises
      (Thrown.Coded [.decryptionFailed, .insufficientFunds]) := by
    intro random
    exact raises_withdrawProofs c.zk random (raises_configured hstate) hpositive hnonneg (by simp)
  refine haltsLate_flow c (fun w => ?_) decryption_insufficient ctx actionStep
  refine (getConfidentialWithdrawProofFlow_wp c.net c.kit c.zk _ input w).mono fun r w' h => ?_
  cases r with
  | ok flow => exact ⟨⟨2, h.1⟩, .ok flow⟩
  | error e =>
    obtain ⟨hgenerated, hfailed | ⟨n, message, _, rfl⟩⟩ := h
    · exact ⟨hgenerated, .error (hproofs _ e hfailed)⟩
    · exact ⟨hgenerated, .error trivial⟩

theorem halts_withdrawAttempt {input : WithdrawInput F} (hpos : 0 < input.amount)
    (programAddress token : Address) :
    Halts Prod.fst (withdrawAttempt c input programAddress token) := by
  refine .bind (silent_readConfiguredAccount c.net token _ _).onFst
    (raises_readConfiguredAccount c.net token _ _).onFst
    (returns_readConfiguredAccount c.net token _ _).onFst fun account hstate => ?_
  refine (haltsLate_keys c _ _ _ _ fun keys => ?_).halts
  apply haltsLate_withdrawFlow c
  · exact hstate
  · exact hpos

/-! ### transfer -/

/-- What an attempt does before it looks at the size of the amount, and what its flow is to be built
    from. -/
def transferReads (input : TransferInput F) (programAddress sourceToken destination : Address) :
    Effect (Session χ F G) Thrown (TransferFlowInput F) := do
  let operation := "transfer"
  let (source, dest) ← Effect.onFst (both c
    (readConfiguredAccount c.net sourceToken operation "your")
    (readConfiguredAccount c.net destination operation "the recipient's"))
  Effect.ofExcept (assertCanReceive dest.2 destination operation "the recipient's")
  let transferHookAccounts ← Effect.onFst (c.resolveTransferHookAccounts input.mint sourceToken
    destination input.owner.address programAddress)
  let keys ← sessionKeys input.owner operation
  Effect.ofExcept (assertKeysMatchAccount c.zk keys source.1 sourceToken operation)
  let auditorElgamalPubkey ← Effect.onFst (givenOrMintAuditorKey c input.auditorElgamalPubkey input.mint)
  pure
    { payer := input.payer
      sourceToken
      mint := input.mint
      destinationToken := destination
      sourceTokenAccount := source.1
      destinationTokenAccount := some dest.1
      authority := input.owner.address
      amount := input.amount
      keys
      auditorElgamalPubkey
      transferHookAccounts
      programAddress := some programAddress }

theorem transferAttempt_reads (input : TransferInput F)
    (programAddress sourceToken destination : Address) :
    transferAttempt c input programAddress sourceToken destination =
      transferReads c input programAddress sourceToken destination >>= fun flowInput =>
        Effect.onFst (getConfidentialTransferProofFlow c.net c.kit c.zk c.transferRandomness flowInput) >>=
          fun flow => Effect.onFst (executeProofFlow c.net c.kit
            { payer := input.payer, operation := "transfer", computeUnitPrice := input.computeUnitPrice }
            flow "transfer") := by
  unfold transferAttempt transferReads
  simp only [bind_assoc, pure_bind]

/-- What is known of the input of a transfer's flow. -/
structure FlowReady (input : TransferInput F) (flowInput : TransferFlowInput F) : Prop where
  amount : flowInput.amount = input.amount
  source : ∃ ct, confidentialState flowInput.sourceTokenAccount = some ct
  destination : flowInput.destinationElgamalPubkey = none ∧ ∃ account ct,
    flowInput.destinationTokenAccount = some account ∧ confidentialState account = some ct

theorem returns_both {α β : Type} {P : α → Prop} {Q : β → Prop}
    {m : Effect (World χ (ProofData F G)) Thrown α} {m' : Effect (World χ (ProofData F G)) Thrown β}
    (hm : m.Returns P) (hm' : m'.Returns Q) : (both c m m').Returns (fun x => P x.1 ∧ Q x.2) := by
  intro w
  unfold both
  rw [Effect.wp_bind, Effect.wp_attempt]
  refine (hm w).mono fun first w₁ hfirst => ?_
  simp only
  rw [Effect.wp_bind, Effect.wp_attempt]
  refine (hm' w₁).mono fun second w₂ hsecond => ?_
  simp only
  rw [Effect.wp_bind, Effect.wp_get]
  cases first with
  | ok a =>
    cases second with
    | ok b =>
      rintro _ ⟨⟩
      exact ⟨hfirst a rfl, hsecond b rfl⟩
    | error e => rintro _ ⟨⟩
  | error e =>
    cases second with
    | ok b => rintro _ ⟨⟩
    | error e' => rintro _ ⟨⟩

/-- Both accounts of a transfer are configured. -/
theorem returns_bothAccounts (sourceToken destination : Address) :
    (both c (readConfiguredAccount c.net sourceToken "transfer" "your")
      (readConfiguredAccount c.net destination "transfer" "the recipient's")).Returns
      (fun accounts => confidentialState accounts.1.1 = some accounts.1.2 ∧
        confidentialState accounts.2.1 = some accounts.2.2) :=
  returns_both c (returns_readConfiguredAccount c.net _ _ _) (returns_readConfiguredAccount c.net _ _ _)

theorem halts_transferReads (input : TransferInput F)
    (programAddress sourceToken destination : Address) :
    Halts Prod.fst (transferReads c input programAddress sourceToken destination) := by
  refine .bind (within_both c (silent_readConfiguredAccount c.net _ _ _)
      (silent_readConfiguredAccount c.net _ _ _)).onFst
    (raises_both c (raises_readConfiguredAccount c.net _ _ _)
      (raises_readConfiguredAccount c.net _ _ _)).onFst
    (returns_bothAccounts c _ _).onFst fun accounts _ => ?_
  refine .bind (.ofExcept _) (.ofExcept (raises_assertCanReceive _ _ _ _)) (P := fun _ => True)
    (fun _ _ _ => trivial) fun _ _ => ?_
  refine .bind (c.resolve_silent _ _ _ _ _).onFst
    ((c.resolve_plain _ _ _ _ _).mono fun _ h => h.coded []).onFst (P := fun _ => True)
    (fun _ _ _ => trivial) fun hookAccounts _ => ?_
  refine (haltsLate_keys c _ _ _ _ fun keys => ?_).halts
  refine .bind ((silent_givenOrMintAuditorKey c _ _).mono fun _ _ h => h.logsOnly).onFst
    ((raises_givenOrMintAuditorKey c _ _).mono fun _ h => h.coded []).onFst (by decide) fun auditor => ?_
  rintro s _ ⟨⟩

/-- None of these checks is about the size of the amount. -/
theorem raises_transferReads (input : TransferInput F) (programAddress sourceToken destination : Address) :
    (transferReads c input programAddress sourceToken destination).Raises
      (Thrown.NoneOf [.amountTooLarge]) := by
  have haccounts := raises_both c (raises_readConfiguredAccount c.net sourceToken "transfer" "your")
    (raises_readConfiguredAccount c.net destination "transfer" "the recipient's")
  refine .bind (haccounts.mono fun _ h => h.noneOf (by decide)).onFst fun accounts => ?_
  refine .bind (.ofExcept ((raises_assertCanReceive _ _ _ _).mono fun _ h => h.noneOf (by decide))) fun _ => ?_
  refine .bind ((c.resolve_plain _ _ _ _ _).mono fun _ h => (h.coded []).noneOf (by decide)).onFst
    fun hookAccounts => ?_
  refine .bind ((raises_sessionKeys _ _).mono fun _ h => h.noneOf (by decide)) fun keys => ?_
  refine .bind (.ofExcept ((raises_assertKeysMatchAccount _ _ _ _ _).mono fun _ h => h.noneOf (by decide)))
    fun _ => ?_
  refine .bind ((raises_givenOrMintAuditorKey c _ _).mono fun _ h => (h.coded []).noneOf (by decide)).onFst
    fun auditor => ?_
  exact .pure _

/-- The log of finding the keys: empty if they were given. -/
def keyPrompt (keys : Option (ConfidentialKeypairs F)) : List (Event (ProofData F G)) :=
  match keys with
  | some _ => []
  | none => [.keyRequest]

omit [AddCommGroup G] [Module F G] in
theorem sessionKeys_ok {owner : Owner F} {operation : String} {w : World χ (ProofData F G)}
    {keys : Option (ConfidentialKeypairs F)} {found : ConfidentialKeypairs F} {s : Session χ F G}
    (h : sessionKeys owner operation (w, keys) = (.ok found, s)) : w.Logged (keyPrompt keys) s.1 := by
  obtain ⟨session, s₁, hget, h⟩ := Effect.run_bind_ok_iff.mp h
  obtain ⟨rfl, rfl⟩ : (w, keys) = session ∧ (w, keys) = s₁ := by
    simpa [Effect.get] using hget
  cases keys with
  | some given =>
    obtain ⟨_, rfl⟩ := Prod.mk.inj h
    exact .refl w
  | none =>
    obtain ⟨derived, s₂, hderived, h⟩ := Effect.run_bind_ok_iff.mp h
    obtain ⟨_, s₃, hstored, h⟩ := Effect.run_bind_ok_iff.mp h
    obtain ⟨_, rfl⟩ := Prod.mk.inj hstored
    obtain ⟨_, rfl⟩ := Prod.mk.inj h
    unfold Effect.onFst ownerKeys at hderived
    simp only at hderived
    split at hderived
    · cases hderived
    · obtain ⟨_, rfl⟩ := Prod.mk.inj hderived
      rfl

omit [AddCommGroup G] [Module F G] in
theorem onFst_silent {α : Type} {m : Effect (World χ (ProofData F G)) Thrown α} {P : α → Prop}
    (hsilent : m.Within World.Silent) (hreturns : m.Returns P) {w : World χ (ProofData F G)}
    {keys : Option (ConfidentialKeypairs F)} {a : α} {s : Session χ F G}
    (h : Effect.onFst m (w, keys) = (.ok a, s)) : P a ∧ ∃ w', s = (w', keys) ∧ w.Silent w' := by
  obtain ⟨hresult, rfl⟩ := Prod.mk.inj h
  exact ⟨hreturns w a hresult, _, rfl, hsilent w⟩

/-- Up to the size of the amount a transfer logs the request for the keys it was not given. -/
theorem transferReads_ok {input : TransferInput F} {programAddress sourceToken destination : Address}
    {w : World χ (ProofData F G)} {keys : Option (ConfidentialKeypairs F)}
    {flowInput : TransferFlowInput F} {s : Session χ F G}
    (h : transferReads c input programAddress sourceToken destination (w, keys) = (.ok flowInput, s)) :
    FlowReady input flowInput ∧ w.Logged (keyPrompt keys) s.1 := by
  obtain ⟨accounts, s₁, haccounts, h⟩ := Effect.run_bind_ok_iff.mp h
  obtain ⟨_, s₂, hreceive, h⟩ := Effect.run_bind_ok_iff.mp h
  obtain ⟨hookAccounts, s₃, hhook, h⟩ := Effect.run_bind_ok_iff.mp h
  obtain ⟨found, s₄, hkeys, h⟩ := Effect.run_bind_ok_iff.mp h
  obtain ⟨_, s₅, hmatch, h⟩ := Effect.run_bind_ok_iff.mp h
  obtain ⟨auditor, s₆, hauditor, h⟩ := Effect.run_bind_ok_iff.mp h
  obtain ⟨⟨hsource, hdestination⟩, w₁, rfl, hsilent₁⟩ := onFst_silent
    (within_both c (silent_readConfiguredAccount c.net _ _ _) (silent_readConfiguredAccount c.net _ _ _))
    (returns_bothAccounts c _ _) haccounts
  obtain ⟨_, rfl⟩ := Prod.mk.inj hreceive
  obtain ⟨_, w₃, rfl, hsilent₃⟩ := onFst_silent (P := fun _ => True) (c.resolve_silent _ _ _ _ _)
    (fun _ _ _ => trivial) hhook
  have hprompt := sessionKeys_ok hkeys
  obtain ⟨_, rfl⟩ := Prod.mk.inj hmatch
  obtain ⟨_, w₆, rfl, hsilent₆⟩ := onFst_silent (P := fun _ => True)
    (silent_givenOrMintAuditorKey c _ _) (fun _ _ _ => trivial) hauditor
  obtain ⟨hflowInput, rfl⟩ := Prod.mk.inj h
  obtain rfl := Except.ok.inj hflowInput
  refine ⟨⟨rfl, ⟨_, hsource⟩, rfl, _, _, rfl, hdestination⟩, ?_⟩
  unfold World.Logged at hprompt ⊢
  rw [hsilent₆.events, hprompt, hsilent₃.events, hsilent₁.events]

/-- The checks of a flow's accounts and of a positive amount pass. -/
theorem FlowReady.raises {input : TransferInput F} {flowInput : TransferFlowInput F}
    (h : FlowReady input flowInput) (hpos : 0 < input.amount) {codes : List ErrorCode} :
    (getRequiredConfidentialTransferAccountExtension flowInput.sourceTokenAccount).Raises
        (Thrown.Coded codes) ∧
      (assertNonNegativeAmount flowInput.amount).Raises (Thrown.Coded codes) ∧
      (getDestinationElGamalPubkey c.zk flowInput.toTransferProofInput).Raises (Thrown.Coded codes) := by
  obtain ⟨hamount, ⟨ct, hsource⟩, hnone, account, ct', haccount, hdestination⟩ := h
  refine ⟨raises_configured hsource, ?_, ?_⟩
  · rw [hamount]
    exact (raises_positive hpos).2
  · unfold getDestinationElGamalPubkey
    rw [hnone, haccount]
    exact (raises_configured hdestination).bind fun _ => raises_elGamalPubkeyFromBytes c.zk _

/-- With an amount that fits, building and running the flow fails only after the keys. -/
theorem haltsLate_transferFlow {input : TransferInput F} {flowInput : TransferFlowInput F}
    (hready : FlowReady input flowInput) (hpos : 0 < input.amount)
    (hfits : input.amount ≤ maxTransferAmount) (ctx : SendContext) (actionStep : String) :
    HaltsLate Prod.fst (Effect.onFst (getConfidentialTransferProofFlow c.net c.kit c.zk
        c.transferRandomness flowInput) >>= fun flow =>
      (Effect.onFst (executeProofFlow c.net c.kit ctx flow actionStep) :
        Effect (Session χ F G) Thrown _)) := by
  have hproofs : ∀ random, (transferProofs c.zk random flowInput.toTransferProofInput).Raises
      (Thrown.Coded [.decryptionFailed, .insufficientFunds]) := by
    intro random
    obtain ⟨hsource, hamount, hdestination⟩ := hready.raises c hpos
    refine raises_transferProofs c.zk random hsource hamount ?_ hdestination (by simp)
    rw [assertTransferableAmount, hready.amount, if_neg (not_lt.mpr hfits)]
    exact .ok _
  refine haltsLate_flow c (fun w => ?_) decryption_insufficient ctx actionStep
  refine (getConfidentialTransferProofFlow_wp c.net c.kit c.zk _ flowInput w).mono fun r w' h => ?_
  cases r with
  | ok flow => exact ⟨⟨3, h.1⟩, .ok flow⟩
  | error e =>
    obtain ⟨hgenerated, hfailed | ⟨n, message, _, rfl⟩⟩ := h
    · exact ⟨hgenerated, .error (hproofs _ e hfailed)⟩
    · exact ⟨hgenerated, .error trivial⟩

/-- With one that does not, the attempt fails right after its reads. -/
theorem transferAttempt_tooLarge {input : TransferInput F} (hpos : 0 < input.amount)
    (hlarge : maxTransferAmount < input.amount) {programAddress sourceToken destination : Address}
    {w : World χ (ProofData F G)} {keys : Option (ConfidentialKeypairs F)}
    {flowInput : TransferFlowInput F} {s : Session χ F G}
    (hreads : transferReads c input programAddress sourceToken destination (w, keys) =
      (.ok flowInput, s)) :
    ∃ message, transferAttempt c input programAddress sourceToken destination (w, keys) =
      (.error (.sdk (.new .amountTooLarge message)), s) := by
  obtain ⟨hready, _⟩ := transferReads_ok c hreads
  obtain ⟨ct, hsource⟩ := hready.source
  have hnonneg : assertNonNegativeAmount input.amount = .ok () := if_neg (not_lt.mpr hpos.le)
  obtain ⟨message, htransferable⟩ : ∃ message, assertTransferableAmount input.amount =
      .error (.sdk (.new .amountTooLarge message)) := ⟨_, if_pos hlarge⟩
  refine ⟨message, ?_⟩
  rw [transferAttempt_reads]
  simp only [bind, hreads, Effect.onFst, getConfidentialTransferProofFlow, Effect.get, Effect.ofExcept,
    transferProofs, getRequired_eq hsource, Except.bind, hready.amount, hnonneg, htransferable]

/-- An attempt of a transfer stops as the others do, unless it derives keys for an amount that is too
    large. -/
theorem halted_transferAttempt {input : TransferInput F} (hpos : 0 < input.amount)
    {programAddress sourceToken destination : Address} {w : World χ (ProofData F G)}
    {keys : Option (ConfidentialKeypairs F)}
    (hvain : ¬(keys = none ∧ maxTransferAmount < input.amount ∧ ∃ flowInput s,
      transferReads c input programAddress sourceToken destination (w, none) = (.ok flowInput, s))) :
    (transferAttempt c input programAddress sourceToken destination).wp
      (fun r s' => ∀ e, r = .error e → Halted w e s'.1) (w, keys) := by
  rcases hreads : transferReads c input programAddress sourceToken destination (w, keys) with ⟨r, s⟩
  cases r with
  | error e =>
    have hhalted := (halts_transferReads c input programAddress sourceToken destination (w, keys)).run hreads
    rw [transferAttempt_reads, Effect.wp_bind, Effect.wp_iff_run hreads]
    rintro _ ⟨⟩
    exact hhalted e rfl
  | ok flowInput =>
    obtain ⟨hready, hlog⟩ := transferReads_ok c hreads
    rcases le_or_gt input.amount maxTransferAmount with hfits | hlarge
    · rw [transferAttempt_reads, Effect.wp_bind, Effect.wp_iff_run hreads]
      refine (haltsLate_transferFlow c hready hpos hfits _ _ s).mono fun r s' h => ?_
      intro e he
      have hkeys : AsksForKeys w s.1 := by
        refine ⟨_, hlog, ?_⟩
        cases keys <;> simp [keyPrompt, Event.isKeyRequest]
      exact .late ((h e he).prepend hkeys)
    · obtain ⟨message, hrun⟩ := transferAttempt_tooLarge c hpos hlarge hreads
      rw [Effect.wp_iff_run hrun]
      rintro _ ⟨⟩
      cases keys with
      | none => exact absurd ⟨rfl, hlarge, flowInput, s, hreads⟩ hvain
      | some given =>
        have hevents : s.1.events = w.events ++ [] := hlog
        exact .early (hevents.trans (List.append_nil _)) rfl

end Operations

end Sdk
