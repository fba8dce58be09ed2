-- SUMMARY: Which blockhash an expiry is judged by: the lifetime a signed transaction carries, and the wallets that keep it.
import ConfidentialTransfers.Sdk.MissingSignatures
import ConfidentialTransfers.Sdk.SignedMessages

/-!
# Expiry

kit waits for a transaction by the lifetime that travels next to its bytes. A
wallet may change the bytes and drop the lifetime, and then
`signTransactionMessagesTogether` attaches the one fetched before. The
blockhashes of the cluster are a parameter, and so is kit's wait.
-/

open Solana

namespace Sdk

/-! ## Blockhashes -/

/-- What the cluster knows of blockhashes. -/
structure Blockhashes where
  /-- The blockhash in the bytes of a message. -/
  ofBytes : Bytes → String
  /-- The last block height at which a transaction with this blockhash can land. -/
  lastValidBlockHeight : String → Nat

namespace Blockhashes

variable (blockhashes : Blockhashes)

/-- A blockhash with its own last block height, as `getLatestBlockhash` answers. -/
def Genuine (lifetime : Lifetime) : Prop :=
  lifetime.lastValidBlockHeight = blockhashes.lastValidBlockHeight lifetime.blockhash

/-- The lifetime of the blockhash in these bytes. -/
def BelongsTo (lifetime : Lifetime) (bytes : Bytes) : Prop :=
  lifetime.blockhash = blockhashes.ofBytes bytes ∧ blockhashes.Genuine lifetime

def CarriesOwnLifetime (tx : CompiledTransaction) : Prop :=
  ∃ lifetime, tx.lifetimeConstraint = some lifetime ∧ blockhashes.BelongsTo lifetime tx.messageBytes

/-- At this block height the cluster still takes the transaction. -/
def CanLand (tx : CompiledTransaction) (height : Nat) : Prop :=
  height ≤ blockhashes.lastValidBlockHeight (blockhashes.ofBytes tx.messageBytes)

/-- A transaction as a wallet may leave it: with a lifetime of its own blockhash, or without one and
    with the blockhash that was fetched. -/
def KeepsLifetime (fetched : Lifetime) (tx : CompiledTransaction) : Prop :=
  match tx.lifetimeConstraint with
  | some lifetime => blockhashes.BelongsTo lifetime tx.messageBytes
  | none => blockhashes.ofBytes tx.messageBytes = fetched.blockhash

variable {blockhashes}

/-- What is attached to a transaction is its own lifetime exactly if it was left so. -/
theorem carriesOwnLifetime_withLifetime_iff {fetched : Lifetime} (hgenuine : blockhashes.Genuine fetched)
    {tx : CompiledTransaction} :
    blockhashes.CarriesOwnLifetime (withLifetime fetched tx) ↔ blockhashes.KeepsLifetime fetched tx := by
  unfold CarriesOwnLifetime KeepsLifetime withLifetime
  cases tx.lifetimeConstraint with
  | some lifetime => simp
  | none =>
    simp only [Option.getD_none, Option.some.injEq, exists_eq_left', BelongsTo]
    constructor
    · intro h
      exact h.1.symm
    · intro h
      exact ⟨h.symm, hgenuine⟩

end Blockhashes

/-! ## Sending -/

/-- What `simulateAndSend` takes from the RPC and from kit, for transactions of type `T`. -/
structure Sender (σ T : Type) where
  simulateTransaction : T → Effect σ String (Option (String × List String))
  getSignatureFromTransaction : T → Signature
  sendAndConfirmTransaction : T → Effect σ SendError Unit
  /-- The transaction's log messages. -/
  getTransaction : Signature → Effect σ String (Option (List String))

namespace Sender

variable {σ T χ π : Type} (sender : Sender σ T)

def logsOf (signature : Signature) : Effect σ Thrown (Option (List String)) := do
  match ← Effect.attempt (sender.getTransaction signature) with
  | .ok logs => pure logs
  | .error _ => pure none

/-- Simulate, then send and wait for confirmation. -/
def simulateAndSend (ctx : SendContext) (tx : T) (step : String) : Effect σ Thrown Signature := do
  let simulation ← Effect.mapError .other (sender.simulateTransaction tx)
  match simulation with
  | some (err, logs) =>
    Effect.throw (.sdk (.new .transactionFailed
      (ctx.operation ++ " " ++
        (if step = ctx.operation then "transaction" else "step \"" ++ step ++ "\"") ++
        " failed simulation: " ++ err ++ "\n--- program logs ---\n" ++ "\n".intercalate logs)
      { operation := some ctx.operation, step := some step, logs := some logs }))
  | none =>
    let signature := sender.getSignatureFromTransaction tx
    match ← Effect.attempt (sender.sendAndConfirmTransaction tx) with
    | .ok () => pure signature
    | .error .blockHeightExceeded =>
      Effect.throw (.sdk (.new .transactionExpired
        (ctx.operation ++ ": a transaction was not confirmed before its blockhash expired (the network may be busy; a priority fee helps). Nothing from it landed; it is safe to run again.")
        { operation := some ctx.operation, step := some step }))
    | .error e =>
      let logs ← sender.logsOf signature
      let reason := match e with
        | .interrupted message => message
        | _ => "transaction failed"
      Effect.throw (.sdk (.new .transactionFailed
        (ctx.operation ++ ": transaction " ++ signature ++ " failed: " ++ reason)
        { operation := some ctx.operation, step := some step, logs := logs }))

/-- A network sends the transactions of the operations. -/
def ofNetwork (net : Network χ π) : Sender (World χ π) (Transaction π) where
  simulateTransaction := net.simulate
  getSignatureFromTransaction tx := tx.signature
  sendAndConfirmTransaction := net.sendAndConfirm
  getTransaction signature := net.request (.getTransaction signature) fun n _ => net.logMessages n signature

/-- The operations send with the same function. -/
theorem simulateAndSend_ofNetwork (net : Network χ π) (ctx : SendContext) (tx : Transaction π)
    (step : String) :
    (ofNetwork net).simulateAndSend ctx tx step = Sdk.simulateAndSend net ctx tx step := rfl

theorem logsOf_returns (signature : Signature) (s : σ) :
    (sender.logsOf signature).wp (fun r _ => ∃ logs, r = .ok logs) s := by
  unfold logsOf
  rcases hread : sender.getTransaction signature s with ⟨reply, s'⟩
  simp only [Effect.wp_bind, Effect.wp_attempt, Effect.wp_iff_run hread]
  cases reply with
  | ok logs => exact ⟨logs, rfl⟩
  | error message => exact ⟨none, rfl⟩

/-- A transaction is reported expired only where kit reported its block height exceeded. -/
theorem simulateAndSend_expired (ctx : SendContext) (tx : T) (step : String) (s : σ) :
    (sender.simulateAndSend ctx tx step).wp (fun r s' => ∀ e, r = .error (.sdk e) →
      e.code = .transactionExpired →
        ∃ s₁, sender.sendAndConfirmTransaction tx s₁ = (.error .blockHeightExceeded, s')) s := by
  unfold simulateAndSend
  rcases hsimulated : sender.simulateTransaction tx s with ⟨simulation, s₁⟩
  rcases hsent : sender.sendAndConfirmTransaction tx s₁ with ⟨sent, s₂⟩
  simp only [Effect.wp_bind, Effect.wp_mapError, Effect.wp_iff_run hsimulated]
  cases simulation with
  | error message =>
    intro e he
    cases he
  | ok simulation =>
    cases simulation with
    | some failure =>
      rintro e he hcode
      cases he
      cases hcode
    | none =>
      simp only [Except.mapError, Effect.wp_bind, Effect.wp_attempt, Effect.wp_iff_run hsent]
      cases sent with
      | ok _ =>
        intro e he
        cases he
      | error reason =>
        -- Any other reason ends in an error of another code, once the logs are read.
        have hfailed : ∀ message : Option (List String) → ConfidentialTransfersError,
            (∀ logs, (message logs).code = .transactionFailed) →
            (sender.logsOf (sender.getSignatureFromTransaction tx) >>= fun logs =>
              Effect.throw (.sdk (message logs)) : Effect σ Thrown Signature).wp
              (fun r s' => ∀ e, r = .error (.sdk e) → e.code = .transactionExpired →
                ∃ s₁, sender.sendAndConfirmTransaction tx s₁ = (.error .blockHeightExceeded, s')) s₂ := by
          intro message hmessage
          apply (sender.logsOf_returns _ s₂).bind
          · intro logs s' _ e he hcode
            cases he
            rw [hmessage] at hcode
            cases hcode
          · rintro e s' ⟨logs, hlogs⟩
            cases hlogs
        cases reason with
        | blockHeightExceeded =>
          intro e _ _
          exact ⟨s₁, hsent⟩
        | transactionFailed =>
          apply hfailed
          intro logs
          rfl
        | interrupted message =>
          apply hfailed
          intro logs
          rfl

/-- kit reports the block height exceeded only after the last one of the lifetime it was given. -/
def WaitsFor (sender : Sender σ CompiledTransaction) (height : σ → Nat) : Prop :=
  ∀ tx lifetime s s', tx.lifetimeConstraint = some lifetime →
    sender.sendAndConfirmTransaction tx s = (.error .blockHeightExceeded, s') →
      lifetime.lastValidBlockHeight < height s'

end Sender

/-- Whoever sends it, the transaction is never reported expired while it can still land. -/
def Blockhashes.ExpiresInTime (blockhashes : Blockhashes) (tx : CompiledTransaction) : Prop :=
  ∀ (σ : Type) (height : σ → Nat) (sender : Sender σ CompiledTransaction), sender.WaitsFor height →
    ∀ ctx step s e s', sender.simulateAndSend ctx tx step s = (.error (.sdk e), s') →
      e.code = .transactionExpired → ¬blockhashes.CanLand tx (height s')

/-- A transaction with its own lifetime expires in time. -/
theorem Blockhashes.expiresInTime_of_carriesOwnLifetime {blockhashes : Blockhashes}
    {tx : CompiledTransaction} (h : blockhashes.CarriesOwnLifetime tx) : blockhashes.ExpiresInTime tx := by
  intro σ height sender hwaits ctx step s e s' hrun hcode hland
  obtain ⟨lifetime, hlifetime, hblockhash, hgenuine⟩ := h
  obtain ⟨s₁, hexceeded⟩ := (sender.simulateAndSend_expired ctx tx step s).run hrun e rfl hcode
  have hafter : lifetime.lastValidBlockHeight < height s' := hwaits tx lifetime s₁ s' hlifetime hexceeded
  unfold CanLand at hland
  rw [← hblockhash, ← hgenuine] at hland
  exact absurd hafter (Nat.not_lt.mpr hland)

/-! ## Signing -/

/-- Whether a lifetime is kept does not depend on the signatures. -/
theorem Blockhashes.forall_keepsLifetime_iff {blockhashes : Blockhashes} {fetched : Lifetime}
    {txs txs' : List CompiledTransaction}
    (h : txs'.map CompiledTransaction.unsigned = txs.map CompiledTransaction.unsigned) :
    (∀ tx ∈ txs', blockhashes.KeepsLifetime fetched tx) ↔
      ∀ tx ∈ txs, blockhashes.KeepsLifetime fetched tx := by
  have hunsigned : ∀ txs : List CompiledTransaction,
      (∀ tx ∈ txs, blockhashes.KeepsLifetime fetched tx) ↔
        ∀ unsigned ∈ txs.map CompiledTransaction.unsigned,
          blockhashes.KeepsLifetime fetched ⟨unsigned.1, ∅, unsigned.2⟩ := by
    intro txs
    rw [List.forall_mem_map]
    exact Iff.rfl
  rw [hunsigned, hunsigned, h]

section Wallets

variable {signersByTx : List (List TransactionSigner)}

/-! ### Wallets that keep the blockhash -/

variable (blockhashes : Blockhashes)

/-- A transaction with the blockhash that was fetched, and its lifetime or none. -/
def Blockhashes.IsFetched (fetched : Lifetime) (tx : CompiledTransaction) : Prop :=
  blockhashes.ofBytes tx.messageBytes = fetched.blockhash ∧
    (tx.lifetimeConstraint = some fetched ∨ tx.lifetimeConstraint = none)

/-- A signer that leaves the blockhashes as they are. It may drop the lifetimes. -/
def KeepsBlockhashes (signer : TransactionSigner) : Prop :=
  ∀ modify, signer.modifyAndSignTransactions = some modify → ∀ txs signed, modify txs = .ok signed →
    List.Forall₂ (fun tx tx' : CompiledTransaction =>
      blockhashes.ofBytes tx'.messageBytes = blockhashes.ofBytes tx.messageBytes ∧
        (tx'.lifetimeConstraint = tx.lifetimeConstraint ∨ tx'.lifetimeConstraint = none)) txs signed

variable {blockhashes}

theorem Blockhashes.IsFetched.keepsLifetime {fetched : Lifetime} (hgenuine : blockhashes.Genuine fetched)
    {tx : CompiledTransaction} (h : blockhashes.IsFetched fetched tx) :
    blockhashes.KeepsLifetime fetched tx := by
  obtain ⟨hblockhash, hlifetime | hlifetime⟩ := h
  · simp only [KeepsLifetime, hlifetime]
    exact ⟨hblockhash.symm, hgenuine⟩
  · simp only [KeepsLifetime, hlifetime]
    exact hblockhash

theorem KeepsBlockhashes.answersAlike {fetched : Lifetime} {signer : TransactionSigner}
    (h : KeepsBlockhashes blockhashes signer) : AnswersAlike (blockhashes.IsFetched fetched) signer := by
  intro modify hmodify txs signed hsigned hfetched
  have hanswers := h modify hmodify txs signed hsigned
  clear hsigned
  induction hanswers with
  | nil => exact hfetched
  | cons hkept _ ih =>
    obtain ⟨hfirst, hrest⟩ := List.forall_mem_cons.mp hfetched
    refine List.forall_mem_cons.mpr ⟨⟨hkept.1.trans hfirst.1, ?_⟩, ih hrest⟩
    rcases hkept.2 with hlifetime | hlifetime
    · rw [hlifetime]
      exact hfirst.2
    · exact .inr hlifetime

end Wallets

section Together

variable {M : Type} {compileTransaction : M → CompiledTransaction}
  {getSignersFromTransactionMessage : M → List TransactionSigner}
  {assertIsFullySignedTransaction : CompiledTransaction → Except String Unit}

variable (blockhashes : Blockhashes)

/-- However the modifying signers answer, every transaction they leave keeps its lifetime. -/
def WalletsKeepLifetimes (compileTransaction : M → CompiledTransaction)
    (getSignersFromTransactionMessage : M → List TransactionSigner) (messages : List M)
    (lifetime : Lifetime) : Prop :=
  ∀ asked left, ModifiedInTurn (messages.map getSignersFromTransactionMessage)
      (modifyingSigners (messages.map getSignersFromTransactionMessage))
      (messages.map compileTransaction) asked left →
    ∀ tx ∈ left, blockhashes.KeepsLifetime lifetime tx

/-- So it is when all messages have the fetched lifetime and no wallet changes a blockhash. -/
theorem walletsKeepLifetimes_of_keepsBlockhashes {blockhashes : Blockhashes} {messages : List M}
    {lifetime : Lifetime} (hgenuine : blockhashes.Genuine lifetime)
    (hcompiled : ∀ m ∈ messages, blockhashes.IsFetched lifetime (compileTransaction m))
    (hkeeps : ∀ m ∈ messages, ∀ s ∈ getSignersFromTransactionMessage m,
      KeepsBlockhashes blockhashes s) :
    WalletsKeepLifetimes blockhashes compileTransaction getSignersFromTransactionMessage messages
      lifetime := by
  intro asked left hasked tx htx
  refine (hasked.forall_mem (fun s hs => ?_) (List.forall_mem_map.mpr hcompiled) tx htx).keepsLifetime
    hgenuine
  obtain ⟨signers, hsigners, hmem⟩ :=
    List.mem_flatten.mp (modifyingSigners_subset hs)
  obtain ⟨m, hm, rfl⟩ := List.mem_map.mp hsigners
  exact (hkeeps m hm s hmem).answersAlike

/-- Expiry is judged by the right blockhash exactly if the wallets keep the lifetimes: each
    transaction returned then carries the lifetime of the blockhash in its bytes, and is never
    reported expired while it can still land. -/
theorem expiry_judged_by_own_blockhash_iff {blockhashes : Blockhashes} {settling : SettlingOrder}
    {messages : List M} {lifetime : Lifetime} (hgenuine : blockhashes.Genuine lifetime)
    {calls calls' : List SignerCall} {txs : List CompiledTransaction}
    (hrun : signTransactionMessagesTogether assertIsFullySignedTransaction compileTransaction
      getSignersFromTransactionMessage settling messages lifetime calls = (.ok txs, calls')) :
    (∀ tx ∈ txs, blockhashes.CarriesOwnLifetime tx ∧ blockhashes.ExpiresInTime tx) ↔
      WalletsKeepLifetimes blockhashes compileTransaction getSignersFromTransactionMessage messages
        lifetime := by
  obtain ⟨asked, left, settled, hasked, hunsigned, rfl⟩ := signTransactionMessagesTogether_returns hrun
  have hcarries : (∀ tx ∈ settled.map (withLifetime lifetime), blockhashes.CarriesOwnLifetime tx) ↔
      ∀ tx ∈ left, blockhashes.KeepsLifetime lifetime tx := by
    rw [List.forall_mem_map]
    simp only [Blockhashes.carriesOwnLifetime_withLifetime_iff hgenuine]
    exact Blockhashes.forall_keepsLifetime_iff hunsigned
  constructor
  · intro h asked' left' hasked'
    rw [← hasked.unique hasked']
    exact hcarries.mp fun tx htx => (h tx htx).1
  · intro h tx htx
    have hcarry := hcarries.mpr (h asked left hasked) tx htx
    exact ⟨hcarry, Blockhashes.expiresInTime_of_carriesOwnLifetime hcarry⟩

end Together

/-! ### A wallet that drops the lifetime -/

namespace DroppedLifetime

/-- Signs what `rewrite` makes of the bytes, and returns no lifetime. -/
def wallet (rewrite : Bytes → Bytes) : TransactionSigner where
  address := "wallet"
  modifyAndSignTransactions := some fun txs => .ok (txs.map fun tx =>
    { messageBytes := rewrite tx.messageBytes
      signatures := Finmap.singleton "wallet" (some "signed by wallet") })
  length_modified := by
    rintro _ ⟨⟩ txs signed h
    obtain rfl := Except.ok.inj h
    exact List.length_map _

def fetched : Lifetime := ⟨"fetched", 100⟩

/-- A newer blockhash lives a hundred blocks longer. -/
def blockhashes : Blockhashes where
  ofBytes bytes := if bytes = [1] then "newer" else "fetched"
  lastValidBlockHeight blockhash := if blockhash = "newer" then 200 else 100

def compileTransaction (_ : Unit) : CompiledTransaction where
  messageBytes := [0]
  signatures := Finmap.singleton "wallet" none
  lifetimeConstraint := some fetched

def signed (rewrite : Bytes → Bytes) : CompiledTransaction where
  messageBytes := rewrite [0]
  signatures := Finmap.singleton "wallet" (some "signed by wallet")
  lifetimeConstraint := some fetched

/-- Waits for nothing, until the block after the last one. The state is the block height. -/
def sender : Sender Nat CompiledTransaction where
  simulateTransaction _ := pure none
  getSignatureFromTransaction _ := "signature"
  sendAndConfirmTransaction tx _ :=
    (.error .blockHeightExceeded, (tx.lifetimeConstraint.getD fetched).lastValidBlockHeight + 1)
  getTransaction _ := pure none

theorem signs (rewrite : Bytes → Bytes) :
    signTransactionMessagesTogether CoSigned.assertIsFullySignedTransaction compileTransaction
        (fun _ => [wallet rewrite]) CoSigned.inOrder [()] fetched [] =
      (.ok [signed rewrite], [.modifyAndSignTransactions "wallet" [compileTransaction ()]]) := by
  rfl

theorem genuine_fetched : blockhashes.Genuine fetched := rfl

theorem waitsFor_sender : sender.WaitsFor id := by
  intro tx lifetime s s' hlifetime hexceeded
  obtain rfl : (tx.lifetimeConstraint.getD fetched).lastValidBlockHeight + 1 = s' :=
    (Prod.mk.inj hexceeded).2
  simp [hlifetime]

theorem keepsBlockhashes_wallet : KeepsBlockhashes blockhashes (wallet id) := by
  rintro _ ⟨⟩ txs signed h
  obtain rfl := Except.ok.inj h
  rw [List.forall₂_map_right_iff, List.forall₂_same]
  intro tx _
  exact ⟨rfl, .inr rfl⟩

end DroppedLifetime

open DroppedLifetime in
/-- The wallet takes a newer blockhash. Its transaction is reported expired, and safe to run again,
    ninety-nine blocks before it can no longer land. -/
theorem newer_blockhash_expires_early :
    let tx := signed fun _ => [1]
    signTransactionMessagesTogether CoSigned.assertIsFullySignedTransaction compileTransaction
        (fun _ => [wallet fun _ => [1]]) CoSigned.inOrder [()] fetched [] = (.ok [tx], [.modifyAndSignTransactions "wallet" [compileTransaction ()]]) ∧
      blockhashes.Genuine fetched ∧ ¬blockhashes.CarriesOwnLifetime tx ∧ sender.WaitsFor id ∧
      ∃ e : ConfidentialTransfersError,
        sender.simulateAndSend { payer := "wallet", operation := "deposit" } tx "deposit" 0 =
          (.error (.sdk e), 101) ∧
        e.code = .transactionExpired ∧ e.retryable = true ∧ blockhashes.CanLand tx 101 := by
  refine ⟨signs _, genuine_fetched, ?_, waitsFor_sender, _, rfl, rfl, rfl, ?_⟩
  · rintro ⟨lifetime, hlifetime, hblockhash, _⟩
    obtain rfl : fetched = lifetime := Option.some.inj hlifetime
    exact absurd hblockhash (by decide)
  · exact (by decide : 101 ≤ 200)

open DroppedLifetime in
/-- One that only drops the lifetime does no harm. -/
theorem same_blockhash_expires_in_time :
    blockhashes.CarriesOwnLifetime (signed id) ∧ blockhashes.ExpiresInTime (signed id) := by
  have hkept : WalletsKeepLifetimes blockhashes compileTransaction (fun _ => [wallet id]) [()] fetched := by
    apply walletsKeepLifetimes_of_keepsBlockhashes genuine_fetched
    · intro m _
      exact ⟨rfl, .inl rfl⟩
    · intro m _ s hs
      obtain rfl := List.mem_singleton.mp hs
      exact keepsBlockhashes_wallet
  have hown := (expiry_judged_by_own_blockhash_iff genuine_fetched (signs id)).mpr hkept
  exact hown (signed id) List.mem_cons_self

end Sdk
