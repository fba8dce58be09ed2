-- SUMMARY: The Rust crate's sending layer: build, sign, simulate, send, and send again what expired.
import ConfidentialTransfers.Rust.Errors
import ConfidentialTransfers.Solana.ProofProgram
import Mathlib.Data.List.Infix

/-!
# The crate's sender

`send.rs`. What it takes from the Solana crates is a `Kit`. A transaction may
land although its sending returns an error, and every retry sends a new one, so
`Sent` says of each landing whether its sender got to know of it.
-/

open Solana

namespace Rust

variable {χ π : Type}

/-- The parts of the Solana crates the sending layer uses. -/
structure Kit (π : Type) where
  /-- The accounts of `Message::new(instructions, payer)` that have to sign. -/
  requiredSigners : Address → List (Instruction π) → List Address
  /-- The length of the serialized message. -/
  messageLength : Address → List (Instruction π) → Nat
  /-- `Transaction::try_sign` with these signers, at the given request count. -/
  trySign : Nat → List (Instruction π) → List Address → Lifetime → Except String (Transaction π)
  trySign_instructions : ∀ {n is signers l tx}, trySign n is signers l = .ok tx →
    tx.message.instructions = is
  /-- The error of a transaction that failed on chain, submitted as the given request. -/
  transactionError : Nat → Transaction π → String
  /-- `ClientError::get_transaction_error`, of an error with this text. -/
  getTransactionError : String → Option String
  /-- The address of the `n`-th `Keypair::new`. -/
  newKeypair : Nat → Address
  newKeypair_injective : Function.Injective newKeypair

/-- The letter `k`, `n` times. -/
def repeatedLetter (n : Nat) : Address := String.ofList (List.replicate n 'k')

theorem repeatedLetter_injective : Function.Injective repeatedLetter := by
  intro m n h
  simpa [repeatedLetter] using congrArg String.length h

/-- The plainest kit: only the payer and the accounts created sign. -/
def Kit.plain : Kit π where
  requiredSigners payer is := payer :: createdAccounts [is]
  messageLength _ is := is.length
  trySign n is _ lifetime := .ok ⟨⟨is, some lifetime⟩, toString n⟩
  trySign_instructions h := by rw [← Except.ok.inj h]
  transactionError _ _ := "InstructionError"
  getTransactionError _ := none
  newKeypair := repeatedLetter
  newKeypair_injective := repeatedLetter_injective

structure Sender where
  payer : Address
  computeUnitPrice : Option Nat := none
  maxRetries : Nat := 0
  operation : String

/-- Largest transaction on the wire. -/
def packetDataSize : Nat := 1232

/-- The text of the error `send_and_confirm_transaction` gives up with. -/
def unconfirmedText : String :=
  "unable to confirm transaction. This can happen in situations such as transaction expiration and insufficient fee-payer funds"

/-- `text.contains(part)`, of a text's characters. -/
def contains (text : List Char) (part : String) : Bool := decide (part.toList <:+: text)

def isExpiry (text : String) : Bool :=
  let text := text.toList.map Char.toLower
  contains text "blockhash not found" || contains text "blockhashnotfound" ||
    contains text "unable to confirm transaction"

namespace Sender

variable (s : Sender) (net : Network χ π) (kit : Kit π)

def rpcError (e : String) : Error :=
  .new .rpc s.operation ("RPC request failed: " ++ e)

def what (step : String) : String :=
  if step = s.operation then "the transaction" else "step \"" ++ step ++ "\""

/-- Errors of transactions go by their RPC names. -/
def transactionError (err step verb : String) : Error :=
  let code : ErrorCode := if err = "BlockhashNotFound" then .transactionExpired else .transactionFailed
  (Error.new code s.operation (s.what step ++ " " ++ verb ++ ": " ++ err)).withStep step

/-- The crate's error for one of `send_and_confirm_transaction`. -/
def sendError (n : Nat) (tx : Transaction π) (step : String) (e : SendError) : Error :=
  let ofText := fun text =>
    match kit.getTransactionError text with
    | some err => s.transactionError err step "failed"
    | none =>
      if isExpiry text then
        (Error.new .transactionExpired s.operation
          (s.what step ++ " was not confirmed before its blockhash expired: " ++ text)).withStep step
      else (s.rpcError text).withStep step
  match e with
  | .transactionFailed => s.transactionError (kit.transactionError n tx) step "failed"
  | .blockHeightExceeded => ofText unconfirmedText
  | .interrupted message => ofText message

def wireSize (instructions : List (Instruction π)) (signatures : Nat) : Nat :=
  1 + 64 * signatures + kit.messageLength s.payer instructions

/-- The instructions fit in one transaction with these signers. -/
def fits (instructions : List (Instruction π)) (signerCount : Nat) : Bool :=
  decide (s.wireSize kit instructions
    (max signerCount (kit.requiredSigners s.payer instructions).length) ≤ packetDataSize)

/-- The payer and those of `signers` that have to sign, each once. -/
def chosen (instructions : List (Instruction π)) (signers : List Address) : List Address :=
  (s.payer :: signers).foldl (fun chosen key =>
    if (kit.requiredSigners s.payer instructions).contains key && !chosen.contains key then
      chosen ++ [key] else chosen) []

def sign (n : Nat) (instructions : List (Instruction π)) (signers : List Address)
    (blockhash : Lifetime) : Except Error (Transaction π) :=
  (kit.trySign n instructions (s.chosen kit instructions signers) blockhash).mapError fun e =>
    .new .invalidInput s.operation ("cannot sign the transaction: " ++ e)

/-- Sign the instructions, with a priority fee when there is one and it fits. -/
def build (n : Nat) (instructions : List (Instruction π)) (signers : List Address)
    (blockhash : Lifetime) : Except Error (Transaction π) :=
  match s.computeUnitPrice.filter (· > 0) with
  | some price =>
    let priced := .setComputeUnitPrice price :: instructions
    if s.fits kit priced 0 then s.sign kit n priced signers blockhash
    else s.sign kit n instructions signers blockhash
  | none => s.sign kit n instructions signers blockhash

def sendOnce (instructions : List (Instruction π)) (signers : List Address) (step : String) :
    Effect (World χ π) Error Signature := do
  let blockhash ← Effect.mapError s.rpcError
    (net.request .getLatestBlockhash fun n _ => net.blockhash n)
  let w ← Effect.get
  let transaction ← Effect.ofExcept (s.build kit w.clock instructions signers blockhash)
  let simulation ← Effect.mapError s.rpcError (net.simulate transaction)
  match simulation with
  | some (err, logs) =>
    Effect.throw ((s.transactionError err step "failed simulation").withLogs logs)
  | none => do
    let w ← Effect.get
    Effect.mapError (s.sendError kit w.clock transaction step) (net.sendAndConfirm transaction)
    pure transaction.signature

/-- The loop of `send`, with this many retries left. -/
def sendUpTo (instructions : List (Instruction π)) (signers : List Address) (step : String) :
    Nat → Effect (World χ π) Error Signature
  | 0 => s.sendOnce net kit instructions signers step
  | retries + 1 => do
    match ← Effect.attempt (s.sendOnce net kit instructions signers step) with
    | .ok signature => pure signature
    | .error e =>
      if e.code = .transactionExpired then sendUpTo instructions signers step retries
      else Effect.throw e

/-- Send one transaction of `instructions`, signed by the payer and those of `signers` the instructions
    need. -/
def send (instructions : List (Instruction π)) (signers : List Address) (step : String) :
    Effect (World χ π) Error Signature :=
  s.sendUpTo net kit instructions signers step s.maxRetries

end Sender

/-! ## Landings -/

/-- A transaction that landed, and what its sender was told if it did not get to know. -/
structure Landing (π : Type) where
  tx : Transaction π
  interrupted : Option String

def Landing.instructions (l : Landing π) : List (Instruction π) := l.tx.message.instructions

/-- The landing was confirmed to the sender. -/
def Landing.isConfirmed (l : Landing π) : Bool := l.interrupted.isNone

/-- The landing an event is, if it is one. -/
def landing : Event π → Option (Landing π)
  | .submitted tx .landed interrupted => some ⟨tx, interrupted⟩
  | _ => none

def landings (es : List (Event π)) : List (Landing π) := es.filterMap landing

@[simp] theorem landings_append (es fs : List (Event π)) :
    landings (es ++ fs) = landings es ++ landings fs :=
  List.filterMap_append

theorem landedTransactions_eq (es : List (Event π)) :
    landedTransactions es = (landings es).map Landing.instructions := by
  rw [landedTransactions, landings, List.map_filterMap]
  congr 1
  funext e
  cases e with
  | submitted tx fate interrupted =>
    cases fate with
    | landed => rfl
    | failed => rfl
    | dropped => rfl
  | simulated => rfl
  | signRequest => rfl
  | keyRequest => rfl

/-- From `w` to `w'` these transactions landed, and no key pair was generated. -/
structure Lands (net : Network χ π) (w : World χ π) (landed : List (Landing π)) (w' : World χ π) :
    Prop where
  logged : landings w'.events = landings w.events ++ landed
  executed : Steps net.Executes w.chain (landed.map Landing.instructions) w'.chain
  keyPairs : w'.keyPairs = w.keyPairs

namespace Lands

variable {net : Network χ π} {w w' w'' : World χ π} {landed landed' : List (Landing π)}

theorem refl (w : World χ π) : Lands net w [] w := ⟨by simp, .nil _, rfl⟩

theorem tick (w : World χ π) : Lands net w [] w.tick := ⟨by simp, .nil _, rfl⟩

theorem record {e : Event π} (he : landing e = none) (w : World χ π) :
    Lands net w [] (w.record e) :=
  ⟨by simp [landings, he], .nil _, rfl⟩

theorem trans (h : Lands net w landed w') (h' : Lands net w' landed' w'') :
    Lands net w (landed ++ landed') w'' where
  logged := by rw [h'.logged, h.logged, List.append_assoc]
  executed := by
    rw [List.map_append]
    exact h.executed.append h'.executed
  keyPairs := h'.keyPairs.trans h.keyPairs

end Lands

/-! ## What sending does -/

/-- The instructions as they are sent, with or without a priority fee in front. -/
def Priced (is js : List (Instruction π)) : Prop :=
  js = is ∨ ∃ price, js = .setComputeUnitPrice price :: is

theorem Priced.about {is js : List (Instruction π)} (h : Priced is js) (a : Address) :
    js.filterMap (·.about a) = is.filterMap (·.about a) := by
  rcases h with rfl | ⟨price, rfl⟩
  · rfl
  · exact List.filterMap_cons_none rfl

/-- How sending these instructions ends: the sender is told of the last landing, or fails and was told
    of none. -/
structure Sent (net : Network χ π) (is : List (Instruction π)) (w : World χ π)
    (landed : List (Landing π)) (r : Except Error Signature) (w' : World χ π) : Prop where
  lands : Lands net w landed w'
  priced : ∀ l ∈ landed, Priced is l.instructions
  outcome : match r with
    | .ok signature => ∃ untold tx, landed = untold ++ [⟨tx, none⟩] ∧ tx.signature = signature ∧
        ∀ l ∈ untold, l.isConfirmed = false
    | .error e => (∀ l ∈ landed, l.isConfirmed = false) ∧ e.proofAccounts = none

/-- What landed about an account is among what was sent. -/
theorem Sent.about {net : Network χ π} {is : List (Instruction π)} {w w' : World χ π}
    {landed : List (Landing π)} {r : Except Error Signature} (h : Sent net is w landed r w')
    {a : Address} {i : ProofInstruction π}
    (hi : i ∈ (landed.map Landing.instructions).flatten.filterMap (·.about a)) :
    i ∈ is.filterMap (·.about a) := by
  obtain ⟨hmem, ha⟩ := mem_filterMap_about.mp hi
  obtain ⟨js, hjs, hmem⟩ := List.mem_flatten.mp hmem
  obtain ⟨l, hl, rfl⟩ := List.mem_map.mp hjs
  rw [← (h.priced l hl).about]
  exact mem_filterMap_about.mpr ⟨hmem, ha⟩

/-- What landed before without the sender knowing belongs to the same sending. -/
theorem Sent.after {net : Network χ π} {is : List (Instruction π)} {w w₁ w' : World χ π}
    {landed landed' : List (Landing π)} {e : Error} {r : Except Error Signature}
    (h : Sent net is w landed (.error e) w₁) (h' : Sent net is w₁ landed' r w') :
    Sent net is w (landed ++ landed') r w' where
  lands := h.lands.trans h'.lands
  priced l hl := (List.mem_append.mp hl).elim (h.priced l) (h'.priced l)
  outcome := by
    have huntold := h.outcome.1
    cases r with
    | ok signature =>
      obtain ⟨untold, tx, rfl, hsignature, huntold'⟩ := h'.outcome
      refine ⟨landed ++ untold, tx, (List.append_assoc _ _ _).symm, hsignature, fun l hl => ?_⟩
      exact (List.mem_append.mp hl).elim (huntold l) (huntold' l)
    | error e' =>
      exact ⟨fun l hl => (List.mem_append.mp hl).elim (huntold l) (h'.outcome.1 l), h'.outcome.2⟩

namespace Sender

variable (s : Sender) (net : Network χ π) (kit : Kit π)

theorem build_priced {n : Nat} {is : List (Instruction π)} {signers : List Address}
    {blockhash : Lifetime} {tx : Transaction π} (h : s.build kit n is signers blockhash = .ok tx) :
    Priced is tx.message.instructions := by
  have hsign : ∀ {js}, s.sign kit n js signers blockhash = .ok tx → tx.message.instructions = js := by
    intro js hjs
    unfold sign at hjs
    cases hsigned : kit.trySign n js (s.chosen kit js signers) blockhash with
    | error e => simp [hsigned, Except.mapError] at hjs
    | ok tx' =>
      obtain rfl : tx' = tx := by simpa [hsigned, Except.mapError] using hjs
      exact kit.trySign_instructions hsigned
  unfold build at h
  dsimp only at h
  split at h
  · split at h
    · exact .inr ⟨_, hsign h⟩
    · exact .inl (hsign h)
  · exact .inl (hsign h)

theorem build_proofAccounts {n : Nat} {is : List (Instruction π)} {signers : List Address}
    {blockhash : Lifetime} : (s.build kit n is signers blockhash).Raises (·.proofAccounts = none) := by
  have hsign : ∀ js, (s.sign kit n js signers blockhash).Raises (·.proofAccounts = none) := by
    intro js
    refine Except.Raises.mapError (fun e => ?_) _
    rfl
  unfold build
  dsimp only
  split
  · split
    · exact hsign _
    · exact hsign _
  · exact hsign _

theorem sendError_proofAccounts (n : Nat) (tx : Transaction π) (step : String) (e : SendError) :
    (s.sendError kit n tx step e).proofAccounts = none := by
  have hofText : ∀ text, (match kit.getTransactionError text with
      | some err => s.transactionError err step "failed"
      | none =>
        if isExpiry text then
          (Error.new .transactionExpired s.operation
            (s.what step ++ " was not confirmed before its blockhash expired: " ++ text)).withStep step
        else (s.rpcError text).withStep step).proofAccounts = none := by
    intro text
    split
    · rfl
    · split
      · rfl
      · rfl
  cases e with
  | transactionFailed => rfl
  | blockHeightExceeded => exact hofText _
  | interrupted message => exact hofText message

/-- Submitting a transaction: it has landed if its sender is told so, and may have if not. -/
theorem sendAndConfirm_wp (tx : Transaction π) {w : World χ π}
    {Q : Except SendError Unit → World χ π → Prop}
    (hok : ∀ w', Lands net w [⟨tx, none⟩] w' → Q (.ok ()) w')
    (herror : ∀ e landed w', Lands net w landed w' →
      (landed = [] ∨ ∃ message, landed = [⟨tx, some message⟩]) → Q (.error e) w') :
    (net.sendAndConfirm tx).wp Q w := by
  unfold Effect.wp Network.sendAndConfirm Network.settle
  cases hdelivered : net.delivered w.clock tx with
  | false =>
    have hnone : ∀ interrupted, Lands net w []
        (World.record (.submitted tx .dropped interrupted) { w.tick with chain := w.chain }) :=
      fun _ => ⟨by simp [landings, landing], .nil _, rfl⟩
    cases hawaited : net.interrupted w.clock tx with
    | none => exact herror _ _ _ (hnone _) (.inl rfl)
    | some message => exact herror _ _ _ (hnone _) (.inl rfl)
  | true =>
    cases hexecute : net.execute w.clock w.chain tx.message.instructions with
    | none =>
      have hnone : ∀ interrupted, Lands net w []
          (World.record (.submitted tx .failed interrupted) { w.tick with chain := w.chain }) :=
        fun _ => ⟨by simp [landings, landing], .nil _, rfl⟩
      cases hawaited : net.interrupted w.clock tx with
      | none => exact herror _ _ _ (hnone _) (.inl rfl)
      | some message => exact herror _ _ _ (hnone _) (.inl rfl)
    | some chain =>
      have hlands : ∀ interrupted, Lands net w [⟨tx, interrupted⟩]
          (World.record (.submitted tx .landed interrupted) { w.tick with chain := chain }) :=
        fun _ => ⟨by simp [landings, landing], .single ⟨_, hexecute⟩, rfl⟩
      cases hawaited : net.interrupted w.clock tx with
      | none => exact hok _ (hlands none)
      | some message => exact herror _ _ _ (hlands (some message)) (.inr ⟨message, rfl⟩)

theorem sendOnce_wp (is : List (Instruction π)) (signers : List Address) (step : String)
    (w : World χ π) :
    (s.sendOnce net kit is signers step).wp (fun r w' => ∃ landed, Sent net is w landed r w') w := by
  have hnothing : ∀ {e : Error} {w'}, e.proofAccounts = none → Lands net w [] w' →
      ∃ landed, Sent net is w landed (.error e) w' :=
    fun he hlands => ⟨[], hlands, by simp, by simp, he⟩
  unfold sendOnce
  rw [Effect.wp_bind, Effect.wp_mapError]
  refine net.request_wp (fun message _ => hnothing rfl (.tick w)) ?_
  simp only [Except.mapError]
  rw [Effect.wp_bind, Effect.wp_get]
  simp only
  rw [Effect.wp_bind, Effect.wp_ofExcept]
  cases hbuild : s.build kit w.tick.clock is signers (net.blockhash w.clock) with
  | error e => exact hnothing (s.build_proofAccounts kit e hbuild) (.tick w)
  | ok tx =>
    simp only
    rw [Effect.wp_bind, Effect.wp_mapError]
    have hsimulated : (net.simulate tx).wp (fun _ w' => Lands net w [] w') w.tick := by
      unfold Effect.wp Network.simulate
      have hrecord : ∀ reply, Lands net w [] (w.tick.tick.record (.simulated tx reply)) := fun reply =>
        ((Lands.tick w).trans (.tick _)).trans (.record rfl _)
      split
      · exact hrecord _
      · split
        · exact hrecord _
        · exact hrecord _
    refine hsimulated.mono fun simulation w₁ hlands₁ => ?_
    cases simulation with
    | error message => exact hnothing rfl hlands₁
    | ok simulation =>
      cases simulation with
      | some failure => exact hnothing rfl hlands₁
      | none =>
        simp only [Except.mapError]
        rw [Effect.wp_bind, Effect.wp_get]
        simp only
        rw [Effect.wp_bind, Effect.wp_mapError]
        refine sendAndConfirm_wp net tx (fun w' hlands => ?_) fun e landed w' hlands hlanded => ?_
        · refine ⟨_, hlands₁.trans hlands, ?_, [], tx, rfl, rfl, by simp⟩
          simp only [List.nil_append, List.mem_singleton]
          rintro l rfl
          exact s.build_priced kit hbuild
        · refine ⟨_, hlands₁.trans hlands, ?_, ?_, s.sendError_proofAccounts kit _ _ _ _⟩
          · rcases hlanded with rfl | ⟨message, rfl⟩
            · simp
            · simp only [List.nil_append, List.mem_singleton]
              rintro l rfl
              exact s.build_priced kit hbuild
          · rcases hlanded with rfl | ⟨message, rfl⟩
            · simp
            · simp [Landing.isConfirmed]

theorem send_wp (is : List (Instruction π)) (signers : List Address) (step : String)
    (w : World χ π) :
    (s.send net kit is signers step).wp (fun r w' => ∃ landed, Sent net is w landed r w') w := by
  have hupTo : ∀ retries w, (s.sendUpTo net kit is signers step retries).wp
      (fun r w' => ∃ landed, Sent net is w landed r w') w := by
    intro retries
    induction retries with
    | zero => exact s.sendOnce_wp net kit is signers step
    | succ retries ih =>
      intro w
      unfold sendUpTo
      rw [Effect.wp_bind, Effect.wp_attempt]
      refine (s.sendOnce_wp net kit is signers step w).mono fun r w₁ h => ?_
      obtain ⟨landed, h⟩ := h
      cases r with
      | ok signature => exact ⟨landed, h⟩
      | error e =>
        simp only
        split
        · refine (ih w₁).mono fun r w' h' => ?_
          obtain ⟨landed', h'⟩ := h'
          exact ⟨_, h.after h'⟩
        · exact ⟨landed, h⟩
  exact hupTo _ w

end Sender

end Rust
