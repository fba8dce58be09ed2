-- SUMMARY: The auditor's report lists exactly the mint's movements, in order.
import ConfidentialTransfers.Sdk.Concurrency
import ConfidentialTransfers.Sdk.Signatures
import ConfidentialTransfers.Solana.History
import Mathlib.Data.List.TakeWhile

/-!
# The report is complete

For an RPC that serves a mint's history, `listConfidentialActivity` returns one
entry for each movement of the mint in a transaction that succeeded, oldest
first, and nothing else.
-/

open Solana

namespace Sdk

/-! ## How an RPC describes a transaction -/

/-- `data` is instruction data of this movement. -/
def EncodedAs (codec : InstructionCodec) (data : Bytes) : TokenMovement → Prop
  | .deposit _ amount =>
    data[1]? = some confidentialDepositDiscriminator ∧ codec.decodeConfidentialDeposit data = .ok amount
  | .withdraw _ amount =>
    data[1]? = some confidentialWithdrawDiscriminator ∧ codec.decodeConfidentialWithdraw data = .ok amount
  | .transfer _ _ auditorLo auditorHi =>
    data[1]? = some confidentialTransferInnerDiscriminator ∧
      codec.decodeConfidentialTransfer data = .ok (auditorLo, auditorHi)
  | .transferWithFee _ _ => data[1]? = some confidentialTransferWithFeeDiscriminator

/-- The inner discriminators of movements. -/
def movementDiscriminators : List UInt8 :=
  [confidentialDepositDiscriminator, confidentialWithdrawDiscriminator,
    confidentialTransferInnerDiscriminator, confidentialTransferWithFeeDiscriminator]

/-- `data` is data of an instruction of the confidential-transfer extension with inner discriminator
    `inner`. -/
def HasDiscriminators (data : Bytes) (inner : UInt8) : Prop :=
  data[0]? = some confidentialTransferDiscriminator ∧ data[1]? = some inner

/-- `raw` refers to this program and these accounts. -/
structure RefersTo (keys : List Address) (raw : RawInstruction) (program : Address)
    (accounts : List Address) : Prop where
  program : keys[raw.programIdIndex]? = some program
  accounts : raw.accounts.map (fun k => keys[k]?) = accounts.map some

/-- `raw` describes the instruction, where `program` is the token program. -/
def RendersInstruction (codec : InstructionCodec) (program : Address) (keys : List Address)
    (raw : RawInstruction) : ChainInstruction → Prop
  | .movement m mint others =>
    RefersTo keys raw program (m.accounts mint ++ others) ∧
      (codec.base58Encode raw.data)[0]? = some confidentialTransferDiscriminator ∧
      EncodedAs codec (codec.base58Encode raw.data) m
  | .applyPendingBalance token others =>
    RefersTo keys raw program (token :: others) ∧ HasDiscriminators (codec.base58Encode raw.data) 8
  | .other p accounts data =>
    RefersTo keys raw p accounts ∧ codec.base58Encode raw.data = data ∧
      ∀ inner ∈ movementDiscriminators, ¬ (p = program ∧ HasDiscriminators data inner)

/-- `raw`, with this metadata, describes a transaction that succeeded. -/
structure RendersSuccess (codec : InstructionCodec) (program : Address) (raw : RawTransaction)
    (txMeta : RawMeta) (tx : ExecutedTransaction) : Prop where
  keys : accountKeysOf raw txMeta = tx.keys
  owners : ∀ i a, tx.keys[i]? = some a →
    ownerAt (txMeta.preTokenBalances.getD []) i = tx.ownersBefore a
  topLevel : List.Forall₂ (fun ix invocation =>
      RendersInstruction codec program tx.keys ix (Invocation.root invocation))
    raw.instructions tx.invocations
  inner : ∀ i invocation, tx.invocations[i]? = some invocation →
    List.Forall₂ (RendersInstruction codec program tx.keys)
      (innerAt (txMeta.innerInstructions.getD []) i) invocation.descendants

/-- `raw` describes the transaction. Of one that failed only the error matters. -/
structure Renders (codec : InstructionCodec) (program : Address) (raw : RawTransaction)
    (tx : ExecutedTransaction) : Prop where
  slot : raw.slot = tx.slot
  blockTime : raw.blockTime = tx.blockTime
  txMeta : ∃ txMeta, raw.meta = some txMeta ∧ txMeta.err = tx.err ∧
    (tx.err = none → RendersSuccess codec program raw txMeta tx)

/-- The entry of `getSignaturesForAddress` for a transaction. -/
def signatureInfo (tx : ExecutedTransaction) : SignatureInfo where
  signature := tx.signature
  err := tx.err
  blockTime := tx.blockTime

/-- The part of a history, newest first, that is older than `before`. -/
def olderThan (before : Option Signature) (history : List ExecutedTransaction) :
    List ExecutedTransaction :=
  match before with
  | none => history
  | some s => (history.dropWhile fun tx => tx.signature ≠ s).drop 1

/-- The RPC serves the mint's history, given oldest first. -/
structure Serves (codec : InstructionCodec) (program mint : Address) (rpc : HistoryRpc)
    (history : List ExecutedTransaction) : Prop where
  unique : (history.map (·.signature)).Nodup
  signatures : ∀ before limit, rpc.getSignaturesForAddress mint before limit =
    .ok (((olderThan before history.reverse).take limit).map signatureInfo)
  transactions : ∀ tx ∈ history, ∃ raw,
    rpc.getTransaction tx.signature = .ok (some raw) ∧ Renders codec program raw tx

/-! ## What the report should say -/

variable {F G : Type} [CommRing F] [AddCommGroup G] [Module F G]

/-- The entry of a movement: its kind, accounts and their owners, and the amount if it is public or
    can be read with the auditor's key. -/
def reportedMovement (zk : ZkSdk F G) (secret : Fˣ) (owner : TokenAccount → Option Address)
    (m : TokenMovement) : Movement :=
  let base : Movement :=
    { kind := .deposit, fromToken := some m.source.address, fromOwner := owner m.source,
      toToken := some m.destination.address, toOwner := owner m.destination, amount := none,
      decrypted := false }
  match m with
  | .deposit _ amount => { base with kind := .deposit, amount := some amount }
  | .withdraw _ amount => { base with kind := .withdraw, amount := some amount }
  | .transfer _ _ auditorLo auditorHi =>
    match decryptHalves zk secret auditorLo auditorHi with
    | .ok amount => { base with kind := .transfer, amount := some amount, decrypted := true }
    | .error _ => { base with kind := .transfer, note := some "not encrypted to this auditor key" }
  | .transferWithFee _ _ =>
    { base with
      kind := .transferWithFee
      note := some "transfer with fee: amount not decrypted by this version" }

/-- The movement of this mint an instruction is, if it is one. -/
def movementOf (mint : Address) : ChainInstruction → Option TokenMovement
  | .movement m mint' _ => if mint' = mint then some m else none
  | .applyPendingBalance _ _ => none
  | .other _ _ _ => none

/-- The movements of this mint in a transaction, in instruction order. -/
def movementsOf (mint : Address) (tx : ExecutedTransaction) : List TokenMovement :=
  tx.instructions.filterMap (movementOf mint)

/-- The entries of a transaction that succeeded, in instruction order. -/
def transactionReport (zk : ZkSdk F G) (secret : Fˣ) (mint : Address)
    (owner : ExecutedTransaction → TokenAccount → Option Address) (tx : ExecutedTransaction) :
    List ConfidentialActivity :=
  (movementsOf mint tx).map fun m =>
    { reportedMovement zk secret (owner tx) m with
      signature := tx.signature
      slot := tx.slot
      blockTime := tx.blockTime.map (· * 1000) }

/-- The report of a history given oldest first. -/
def historyReport (zk : ZkSdk F G) (secret : Fˣ) (mint : Address)
    (owner : ExecutedTransaction → TokenAccount → Option Address)
    (history : List ExecutedTransaction) : List ConfidentialActivity :=
  (history.filter ExecutedTransaction.succeeded).flatMap (transactionReport zk secret mint owner)

/-- The owner an account has when the movement is executed. -/
def ownerThen (_ : ExecutedTransaction) (account : TokenAccount) : Option Address :=
  some account.owner

/-- The owner an account had before the transaction, if it existed. -/
def ownerBefore (tx : ExecutedTransaction) (account : TokenAccount) : Option Address :=
  tx.ownersBefore account.address

/-! ## One instruction -/

section Instruction

variable {codec : InstructionCodec} {program : Address} {keys : List Address} {raw : RawInstruction}
  {accounts : List Address}

theorem RefersTo.length (h : RefersTo keys raw program accounts) :
    raw.accounts.length = accounts.length := by
  simpa using congrArg List.length h.accounts

/-- Account `i` of the instruction. -/
theorem RefersTo.account (h : RefersTo keys raw program accounts) (i : Nat) :
    raw.accounts[i]?.bind (fun k => keys[k]?) = accounts[i]? := by
  have hi := congrArg (fun l => l[i]?) h.accounts
  simp only [List.getElem?_map] at hi
  cases hraw : raw.accounts[i]? with
  | none =>
    cases hacc : accounts[i]? with
    | none => rfl
    | some a => simp [hraw, hacc] at hi
  | some k =>
    cases hacc : accounts[i]? with
    | none => simp [hraw, hacc] at hi
    | some a => simpa [hraw, hacc] using hi

/-- The owner of account `i` of the instruction. -/
theorem RefersTo.owner (h : RefersTo keys raw program accounts) {owners : Nat → Option Address}
    {owners' : Address → Option Address} (howners : ∀ i a, keys[i]? = some a → owners i = owners' a)
    (i : Nat) : raw.accounts[i]?.bind owners = accounts[i]?.bind owners' := by
  rw [← h.account i]
  cases hraw : raw.accounts[i]? with
  | none => rfl
  | some k =>
    have hmem := congrArg (fun l => l[i]?) h.accounts
    simp only [List.getElem?_map, hraw, Option.map_some] at hmem
    cases hkey : keys[k]? with
    | none => cases hacc : accounts[i]? <;> simp [hkey, hacc] at hmem
    | some a => simpa [hkey] using howners k a hkey

variable (zk : ZkSdk F G) {input : ListConfidentialActivityInput F} {owners : Nat → Option Address}
  {owners' : Address → Option Address}

/-- The decoded entry of a movement is the one reported. -/
theorem toActivity_of_encodedAs {m : TokenMovement} {mint : Address} {others : List Address}
    {data : Bytes} (hrefers : RefersTo keys raw program (m.accounts mint ++ others))
    (howners : ∀ i a, keys[i]? = some a → owners i = owners' a) (hdata : EncodedAs codec data m)
    (secret : Fˣ) :
    toActivity codec zk data raw keys owners secret =
      .ok (some (reportedMovement zk secret (fun account => owners' account.address) m)) := by
  have haccount := hrefers.account
  have howner := hrefers.owner howners
  cases m with
  | deposit token amount =>
    obtain ⟨hkind, hamount⟩ := hdata
    simp [toActivity, hkind, hamount, haccount, howner, TokenMovement.accounts,
      TokenMovement.source, TokenMovement.destination, reportedMovement,
      bind, Except.bind, pure, Except.pure]
  | withdraw token amount =>
    obtain ⟨hkind, hamount⟩ := hdata
    simp [toActivity, hkind, hamount, haccount, howner, TokenMovement.accounts,
      TokenMovement.source, TokenMovement.destination, reportedMovement,
      confidentialWithdrawDiscriminator, confidentialDepositDiscriminator, bind, Except.bind, pure,
      Except.pure]
  | transfer source destination auditorLo auditorHi =>
    obtain ⟨hkind, hhalves⟩ := hdata
    simp only [toActivity, hkind, hhalves, haccount, howner, TokenMovement.accounts,
      TokenMovement.source, TokenMovement.destination, reportedMovement]
    cases hd : decryptHalves zk secret auditorLo auditorHi <;>
      simp [confidentialTransferInnerDiscriminator, confidentialWithdrawDiscriminator,
        confidentialDepositDiscriminator, hd, bind, Except.bind, pure, Except.pure]
  | transferWithFee source destination =>
    have hkind : data[1]? = some confidentialTransferWithFeeDiscriminator := hdata
    simp [toActivity, hkind, haccount, howner, TokenMovement.accounts,
      TokenMovement.source, TokenMovement.destination, reportedMovement,
      confidentialTransferInnerDiscriminator, confidentialWithdrawDiscriminator,
      confidentialDepositDiscriminator, confidentialTransferWithFeeDiscriminator, pure, Except.pure]

/-- An instruction of no movement's kind adds nothing. -/
theorem toActivity_of_not_movement {data : Bytes}
    (hdata : ∀ inner ∈ movementDiscriminators, data[1]? ≠ some inner) (secret : Fˣ) :
    toActivity codec zk data raw keys owners secret = .ok none := by
  simp only [movementDiscriminators, List.mem_cons, List.not_mem_nil, or_false, forall_eq_or_imp,
    forall_eq] at hdata
  obtain ⟨hdeposit, hwithdraw, htransfer, hwithFee⟩ := hdata
  simp only [toActivity, hdeposit, hwithdraw, htransfer, hwithFee, if_false]
  rfl

/-- An instruction of the token program on this mint adds what its data says. -/
theorem instructionMovement_eq (hprogram : keys[raw.programIdIndex]? =
      some (input.programAddress.getD token2022ProgramAddress))
    (hext : (codec.base58Encode raw.data)[0]? = some confidentialTransferDiscriminator)
    (hmint : raw.accounts[1]?.bind (fun k => keys[k]?) = some input.mint) :
    instructionMovement codec zk input keys owners raw =
      (toActivity codec zk (codec.base58Encode raw.data) raw keys owners
        input.auditorSecret).mapError .other := by
  have hlength : ¬ raw.accounts.length < 2 := by
    intro hlt
    have hnone : raw.accounts[1]? = none := List.getElem?_eq_none (by omega)
    simp [hnone] at hmint
  simp only [instructionMovement, hprogram, hext, hmint, hlength, ne_eq, not_true_eq_false, or_self,
    if_false]

/-- An instruction on another mint adds nothing. -/
theorem instructionMovement_other_mint
    (hmint : raw.accounts[1]?.bind (fun k => keys[k]?) ≠ some input.mint) :
    instructionMovement codec zk input keys owners raw = .ok none := by
  simp only [instructionMovement, hmint, ne_eq, not_false_eq_true, if_true, ite_self]
  rfl

variable (input) in
/-- Of a rendered instruction the report gets exactly its movement of the mint. -/
theorem instructionMovement_of_renders {ix : ChainInstruction}
    (hix : RendersInstruction codec (input.programAddress.getD token2022ProgramAddress) keys raw ix)
    (howners : ∀ i a, keys[i]? = some a → owners i = owners' a) :
    instructionMovement codec zk input keys owners raw =
      .ok ((movementOf input.mint ix).map
        (reportedMovement zk input.auditorSecret fun account => owners' account.address)) := by
  cases ix with
  | movement m mint others =>
    obtain ⟨hrefers, hext, hdata⟩ := hix
    have hmint : raw.accounts[1]?.bind (fun k => keys[k]?) = some mint := by
      rw [hrefers.account]
      cases m <;> rfl
    by_cases h : mint = input.mint
    · subst h
      rw [instructionMovement_eq zk hrefers.program hext hmint,
        toActivity_of_encodedAs zk hrefers howners hdata]
      simp [movementOf, Except.mapError]
    · rw [instructionMovement_other_mint zk (by simpa [hmint] using h)]
      simp [movementOf, h]
  | applyPendingBalance token others =>
    obtain ⟨hrefers, hext, hkind⟩ := hix
    by_cases hmint : raw.accounts[1]?.bind (fun k => keys[k]?) = some input.mint
    · rw [instructionMovement_eq zk hrefers.program hext hmint, toActivity_of_not_movement]
      · rfl
      · rw [hkind]
        decide +kernel
    · exact instructionMovement_other_mint zk hmint
  | other p accounts data =>
    obtain ⟨hrefers, rfl, hnot⟩ := hix
    by_cases hp : p = input.programAddress.getD token2022ProgramAddress
    · subst hp
      by_cases hext : (codec.base58Encode raw.data)[0]? = some confidentialTransferDiscriminator
      · by_cases hmint : raw.accounts[1]?.bind (fun k => keys[k]?) = some input.mint
        · rw [instructionMovement_eq zk hrefers.program hext hmint, toActivity_of_not_movement]
          · rfl
          · exact fun inner hinner hkind => hnot inner hinner ⟨rfl, hext, hkind⟩
        · exact instructionMovement_other_mint zk hmint
      · simp only [instructionMovement, hext, ne_eq, not_false_eq_true, true_or, if_true, ite_self]
        rfl
    · have hprogram : keys[raw.programIdIndex]? ≠
          some (input.programAddress.getD token2022ProgramAddress) := by
        simpa [hrefers.program] using hp
      simp only [instructionMovement, hprogram, ne_eq, not_false_eq_true, if_true]
      rfl

end Instruction

/-! ## One transaction -/

/-- Top-level instructions with the inner ones of their index are the instructions with everything
    they invoked. -/
theorem forall₂_flatten {R : RawInstruction → ChainInstruction → Prop}
    {inner : Nat → List RawInstruction} {ixs : List RawInstruction} {invocations : List Invocation}
    (htop : List.Forall₂ (fun ix invocation => R ix (Invocation.root invocation)) ixs invocations)
    (k : Nat) (hinner : ∀ i invocation, invocations[i]? = some invocation →
      List.Forall₂ R (inner (k + i)) invocation.descendants) :
    List.Forall₂ R ((ixs.zipIdx k).flatMap fun ix => ix.1 :: inner ix.2)
      (invocations.flatMap Invocation.flatten) := by
  induction htop generalizing k with
  | nil => exact List.Forall₂.nil
  | @cons ix invocation ixs invocations hix _ ih =>
    have hrest := ih (k + 1) fun i invocation hi => by
      have hi' := hinner (i + 1) invocation (by simpa using hi)
      rwa [← Nat.add_assoc, Nat.add_right_comm] at hi'
    have hfirst : List.Forall₂ R (inner k) invocation.descendants := hinner 0 invocation rfl
    rw [List.zipIdx_cons, List.flatMap_cons, List.flatMap_cons, Invocation.flatten_eq]
    exact List.rel_append (List.Forall₂.cons hix hfirst) hrest

section Report

variable {codec : InstructionCodec} {zk : ZkSdk F G} {input : ListConfidentialActivityInput F}

/-- A rendered transaction gives the report of the transaction, or nothing when it failed. -/
theorem transactionEntries_of_renders {raw : RawTransaction} {tx : ExecutedTransaction}
    (h : Renders codec (input.programAddress.getD token2022ProgramAddress) raw tx)
    (hsucceeded : tx.succeeded = true) :
    transactionEntries codec zk input tx.signature (some raw) =
      .ok (transactionReport zk input.auditorSecret input.mint ownerBefore tx) := by
  obtain ⟨txMeta, hmeta, herr, hrenders⟩ := h.txMeta
  have hnone : tx.err = none := by simpa [ExecutedTransaction.succeeded] using hsucceeded
  have hsuccess := hrenders hnone
  have hall : List.Forall₂ (RendersInstruction codec
      (input.programAddress.getD token2022ProgramAddress) (accountKeysOf raw txMeta))
      (allInstructions raw txMeta) tx.instructions := by
    rw [hsuccess.keys]
    exact forall₂_flatten hsuccess.topLevel 0 (by simpa using hsuccess.inner)
  have howners : ∀ i a, (accountKeysOf raw txMeta)[i]? = some a →
      ownerAt (txMeta.preTokenBalances.getD []) i = tx.ownersBefore a := by
    rw [hsuccess.keys]
    exact hsuccess.owners
  have hmovements := Except.mapM_eq_ok_iff.mpr (List.forall₂_map_right_iff.mpr
    (hall.imp fun _ _ hix => instructionMovement_of_renders zk input hix howners))
  simp only [transactionEntries, hmeta, herr, hnone, Option.isSome_none, Bool.false_eq_true, if_false,
    hmovements, h.slot, h.blockTime]
  simp only [bind, Except.bind, pure, Except.pure, List.filterMap_map, Function.comp_def, id_eq]
  rw [transactionReport, movementsOf, List.map_filterMap, List.map_filterMap]
  simp only [Option.map_map]
  rfl

/-! ## Signatures -/

/-- The transaction is known to be from before the period. -/
def ListConfidentialActivityInput.isBefore (input : ListConfidentialActivityInput F)
    (tx : ExecutedTransaction) : Bool :=
  (input.since.bind fun since => tx.blockTime.map fun time => decide (time < since / 1000)).getD false

/-- The transaction is known to be from after the period. -/
def ListConfidentialActivityInput.isAfter (input : ListConfidentialActivityInput F)
    (tx : ExecutedTransaction) : Bool :=
  (input.untilTime.bind fun untilTime =>
    tx.blockTime.map fun time => decide (time ≥ untilTime / 1000)).getD false

/-- Of transactions given newest first, those whose signatures are kept: up to the first from before the
    period, without those from after it and those that failed. -/
def ListConfidentialActivityInput.kept (input : ListConfidentialActivityInput F)
    (txs : List ExecutedTransaction) : List ExecutedTransaction :=
  (txs.takeWhile fun tx => !input.isBefore tx).filter fun tx => !input.isAfter tx && tx.succeeded

/-- The RPC that serves a history serves its signatures. -/
theorem Serves.servesSignatures {rpc : HistoryRpc} {history : List ExecutedTransaction}
    {program mint : Address} (h : Serves codec program mint rpc history) :
    ServesSignatures mint rpc (history.reverse.map signatureInfo) where
  unique := by
    rw [List.map_map, List.map_reverse, List.nodup_reverse]
    exact h.unique
  pages before limit := by
    have holder : olderSignatures before (history.reverse.map signatureInfo) =
        (olderThan before history.reverse).map signatureInfo := by
      cases before with
      | none => rfl
      | some s =>
        rw [olderSignatures, olderThan, List.dropWhile_map, List.map_drop]
        rfl
    rw [h.signatures, holder, List.map_take]

/-- Without a limit the signatures selected are those that are kept. -/
theorem select_eq_kept (hmax : input.maxTransactions = none) (txs : List ExecutedTransaction) :
    input.select [] (txs.map signatureInfo) = (input.kept txs).map (·.signature) := by
  have hold : input.tooOld ∘ signatureInfo = input.isBefore := by
    funext tx
    unfold ListConfidentialActivityInput.tooOld ListConfidentialActivityInput.isBefore Window.isBefore
    cases input.since <;> cases htime : tx.blockTime <;> simp [signatureInfo, htime]
  have hkeeps : input.keeps ∘ signatureInfo = fun tx => !input.isAfter tx && tx.succeeded := by
    funext tx
    unfold Function.comp ListConfidentialActivityInput.keeps ListConfidentialActivityInput.tooNew
      ListConfidentialActivityInput.isAfter Window.isAfter
    cases input.untilTime <;> cases htime : tx.blockTime <;>
      simp [signatureInfo, htime, ExecutedTransaction.succeeded]
  have hlimit : input.limit = none := by
    simp [ListConfidentialActivityInput.limit, hmax]
  have hreached : (fun s => !input.tooOld s) ∘ signatureInfo = fun tx => !input.isBefore tx := by
    rw [← hold]
    rfl
  rw [ListConfidentialActivityInput.select, hlimit, ListConfidentialActivityInput.reached,
    List.takeWhile_map, List.filter_map, hreached, hkeeps]
  simp only [Option.map_none, Window.upTo, List.nil_append, List.map_map]
  rfl

/-- All pages together give the signatures that are kept of the whole history. -/
theorem signaturesOf_eq {rpc : HistoryRpc} {history : List ExecutedTransaction} {program : Address}
    (hserves : Serves codec program input.mint rpc history) (hmax : input.maxTransactions = none)
    {fuel : Nat} (hfuel : history.length / pageLimit < fuel) :
    signaturesOf rpc input fuel =
      some (.ok ((input.kept history.reverse).map (·.signature))) := by
  rw [signaturesOf_select hserves.servesSignatures (by simpa using hfuel), select_eq_kept hmax]

/-- Without a period those that succeeded are kept. -/
theorem kept_of_no_period (hsince : input.since = none) (huntil : input.untilTime = none)
    (txs : List ExecutedTransaction) : input.kept txs = txs.filter ExecutedTransaction.succeeded := by
  have hbefore : input.isBefore = fun _ => false := by
    funext tx
    simp [ListConfidentialActivityInput.isBefore, hsince]
  have hafter : input.isAfter = fun _ => false := by
    funext tx
    simp [ListConfidentialActivityInput.isAfter, huntil]
  have htake : txs.takeWhile (fun _ => true) = txs := List.takeWhile_eq_self_iff.mpr fun _ _ => rfl
  simp only [ListConfidentialActivityInput.kept, hbefore, hafter, Bool.not_false, htake, Bool.true_and]

/-! ## The whole report -/

/-- The caller asks for the whole history, a positive number of transactions at a time. -/
structure ListConfidentialActivityInput.ReadsAll (input : ListConfidentialActivityInput F) : Prop where
  since : input.since = none
  untilTime : input.untilTime = none
  maxTransactions : input.maxTransactions = none
  concurrency : ∀ c, input.concurrency = some c → ∃ n, 0 < n ∧ c = .ofNat n

/-- A positive number of transactions at a time is a number. -/
theorem concurrency_ne_nan
    (h : ∀ c, input.concurrency = some c → ∃ n, 0 < n ∧ c = JsNumber.ofNat n) :
    input.concurrency.getD (.ofNat 4) ≠ .nan := by
  cases hc : input.concurrency with
  | none => simp [JsNumber.ofNat]
  | some c =>
    obtain ⟨n, -, rfl⟩ := h c hc
    simp [JsNumber.ofNat]

/-- The report of a served history has the entries of the transactions that are kept, oldest first,
    whatever the batch size. The owners are those from before each transaction. -/
theorem listConfidentialActivity_kept {rpc : HistoryRpc} {history : List ExecutedTransaction}
    (hserves : Serves codec (input.programAddress.getD token2022ProgramAddress) input.mint rpc history)
    (hmax : input.maxTransactions = none)
    (hconcurrency : ∀ c, input.concurrency = some c → ∃ n, 0 < n ∧ c = JsNumber.ofNat n)
    (hkey : KeyAccepted zk rpc input) {fuel : Nat} (hfuel : history.length / pageLimit < fuel) :
    listConfidentialActivity codec zk rpc input fuel =
      some (.ok ((input.kept history.reverse).reverse.flatMap
        (transactionReport zk input.auditorSecret input.mint ownerBefore))) := by
  have hmem : ∀ tx ∈ input.kept history.reverse, tx ∈ history ∧ tx.succeeded = true := by
    intro tx htx
    obtain ⟨hreached, hkeep⟩ := List.mem_filter.mp htx
    exact ⟨List.mem_reverse.mp ((List.takeWhile_sublist _).subset hreached), by simp_all⟩
  have hreads : ∀ tx ∈ input.kept history.reverse, Reads codec zk rpc input tx.signature
      (transactionReport zk input.auditorSecret input.mint ownerBefore tx) := by
    intro tx htx
    obtain ⟨hhistory, hsucceeded⟩ := hmem tx htx
    obtain ⟨raw, hraw, hrenders⟩ := hserves.transactions tx hhistory
    exact ⟨some raw, hraw, transactionEntries_of_renders hrenders hsucceeded⟩
  have hreports : listConfidentialActivity codec zk rpc (input.fetching input.concurrency) fuel =
      some (.ok ((input.kept history.reverse).reverse.flatMap
        (transactionReport zk input.auditorSecret input.mint ownerBefore))) := by
    apply (reportsAll_iff (concurrency_ne_nan hconcurrency)).mpr
    refine ⟨checkAuditorKey_eq_ok_iff.mpr hkey, _, signaturesOf_eq hserves hmax hfuel,
      (input.kept history.reverse).map
        (transactionReport zk input.auditorSecret input.mint ownerBefore), ?_, ?_⟩
    · rw [List.forall₂_map_left_iff, List.forall₂_map_right_iff, List.forall₂_same]
      exact hreads
    · rw [← List.map_reverse, List.flatMap_def]
  exact hreports

/-- The report of the whole of a served history. -/
theorem listConfidentialActivity_eq {rpc : HistoryRpc} {history : List ExecutedTransaction}
    (hserves : Serves codec (input.programAddress.getD token2022ProgramAddress) input.mint rpc history)
    (hall : input.ReadsAll) (hkey : KeyAccepted zk rpc input) {fuel : Nat}
    (hfuel : history.length / pageLimit < fuel) :
    listConfidentialActivity codec zk rpc input fuel =
      some (.ok (historyReport zk input.auditorSecret input.mint ownerBefore history)) := by
  rw [listConfidentialActivity_kept hserves hall.maxTransactions hall.concurrency hkey hfuel,
    kept_of_no_period hall.since hall.untilTime, List.filter_reverse, List.reverse_reverse]
  rfl

/-! ## Owners -/

/-- The accounts the mint's movements name have, when they are executed, the owners from before the
    transaction. -/
def OwnersKept (mint : Address) (tx : ExecutedTransaction) : Prop :=
  ∀ m ∈ movementsOf mint tx, tx.ownersBefore m.source.address = some m.source.owner ∧
    tx.ownersBefore m.destination.address = some m.destination.owner

/-- Two entries of a movement differ only in the owners. -/
theorem reportedMovement_eq_iff (zk : ZkSdk F G) (secret : Fˣ)
    {owner owner' : TokenAccount → Option Address} (m : TokenMovement) :
    reportedMovement zk secret owner m = reportedMovement zk secret owner' m ↔
      owner m.source = owner' m.source ∧ owner m.destination = owner' m.destination := by
  cases m with
  | deposit token amount => simp [reportedMovement]
  | withdraw token amount => simp [reportedMovement]
  | transfer source destination auditorLo auditorHi =>
    simp only [reportedMovement]
    cases decryptHalves zk secret auditorLo auditorHi <;> simp
  | transferWithFee source destination => simp [reportedMovement]

/-- A transaction is reported with the right owners exactly if it keeps them. -/
theorem transactionReport_eq_iff (zk : ZkSdk F G) (secret : Fˣ) (mint : Address) (tx : ExecutedTransaction) :
    transactionReport zk secret mint ownerBefore tx = transactionReport zk secret mint ownerThen tx ↔
      OwnersKept mint tx := by
  simp only [transactionReport, List.map_inj_left, ConfidentialActivity.mk.injEq, and_true,
    reportedMovement_eq_iff]
  exact Iff.rfl

theorem flatMap_eq_iff {α β : Type} {f g : α → List β} (hlength : ∀ x, (f x).length = (g x).length)
    (xs : List α) : xs.flatMap f = xs.flatMap g ↔ ∀ x ∈ xs, f x = g x := by
  induction xs with
  | nil => simp
  | cons x xs ih =>
    rw [List.flatMap_cons, List.flatMap_cons, List.forall_mem_cons, ← ih]
    constructor
    · exact fun h => List.append_inj h (hlength x)
    · rintro ⟨hx, hxs⟩
      rw [hx, hxs]

/-- The report has the right owners exactly if every transaction that succeeded keeps them. -/
theorem historyReport_eq_iff (zk : ZkSdk F G) (secret : Fˣ) (mint : Address) (history : List ExecutedTransaction) :
    historyReport zk secret mint ownerBefore history = historyReport zk secret mint ownerThen history ↔
      ∀ tx ∈ history, tx.succeeded = true → OwnersKept mint tx := by
  rw [historyReport, historyReport, flatMap_eq_iff fun tx => by simp [transactionReport]]
  simp only [transactionReport_eq_iff, List.mem_filter, and_imp]

/-- The report lists exactly the movements of the mint, oldest first, each with its signature, slot,
    accounts and the owners they had, whatever the number of transactions fetched at a time, if and
    only if every movement finds its accounts with the owners from before its transaction. -/
theorem reports_movements_iff_ownersKept {rpc : HistoryRpc} {history : List ExecutedTransaction}
    (hserves : Serves codec (input.programAddress.getD token2022ProgramAddress) input.mint rpc history)
    (hall : input.ReadsAll) (hkey : KeyAccepted zk rpc input) {fuel : Nat}
    (hfuel : history.length / pageLimit < fuel) :
    listConfidentialActivity codec zk rpc input fuel =
        some (.ok (historyReport zk input.auditorSecret input.mint ownerThen history)) ↔
      ∀ tx ∈ history, tx.succeeded = true → OwnersKept input.mint tx := by
  rw [listConfidentialActivity_eq hserves hall hkey hfuel]
  refine Iff.trans ?_ (historyReport_eq_iff zk input.auditorSecret input.mint history)
  simp only [Option.some.injEq, Except.ok.injEq]

end Report

/-! ## An RPC that keeps a history -/

section Served

variable {program mint : Address}

/-- Answers with these transactions, oldest first, each as it is described. -/
def servedRpc (history : List (ExecutedTransaction × RawTransaction)) : HistoryRpc where
  getSignaturesForAddress _ before limit :=
    .ok (((olderThan before (history.map (·.1)).reverse).take limit).map signatureInfo)
  getTransaction s := .ok ((history.find? fun x => x.1.signature = s).map (·.2))
  fetchMint _ := .error "not needed"

theorem find?_signature {history : List (ExecutedTransaction × RawTransaction)}
    (hunique : (history.map (·.1.signature)).Nodup) {x : ExecutedTransaction × RawTransaction}
    (hx : x ∈ history) : history.find? (fun y => y.1.signature = x.1.signature) = some x := by
  induction history with
  | nil => cases hx
  | cons y history ih =>
    obtain ⟨hy, hunique⟩ := List.nodup_cons.mp hunique
    rcases List.mem_cons.mp hx with rfl | hx
    · simp
    · have hne : y.1.signature ≠ x.1.signature := by
        intro heq
        exact hy (List.mem_map.mpr ⟨x, hx, heq.symm⟩)
      rw [List.find?_cons_of_neg (by simpa using hne)]
      exact ih hunique hx

theorem serves_servedRpc {codec : InstructionCodec}
    {history : List (ExecutedTransaction × RawTransaction)}
    (hunique : (history.map (·.1.signature)).Nodup)
    (hrenders : ∀ x ∈ history, Renders codec program x.2 x.1) :
    Serves codec program mint (servedRpc history) (history.map (·.1)) where
  unique := by
    rw [List.map_map]
    exact hunique
  signatures _ _ := rfl
  transactions := by
    intro tx htx
    obtain ⟨x, hx, rfl⟩ := List.mem_map.mp htx
    refine ⟨x.2, ?_, hrenders x hx⟩
    simp only [servedRpc, find?_signature hunique hx, Option.map_some]

end Served

/-! ### Four transactions -/

namespace Statement

def depositData : Bytes := [27, 5] ++ LittleEndian.encode 8 5 ++ [2]
def applyData : Bytes := [27, 8] ++ LittleEndian.encode 8 1 ++ LittleEndian.encode 36 5
def transferData : Bytes :=
  [27, 7] ++ LittleEndian.encode 36 2 ++ ZkSdk.modular.ciphertextToBytes (3, 0) ++
    ZkSdk.modular.ciphertextToBytes (0, 0) ++ [0, 0, 0]
def withdrawData : Bytes := [27, 6] ++ LittleEndian.encode 8 1 ++ [2] ++ LittleEndian.encode 36 1 ++ [0, 0]

def depositText : String := "7hcRTFKzmqdsiS5"
def applyText : String := "3xDpgMUz8W5J7VEDgG7jDQreGccai4xKSgXbpe9wUnz5fr919aeQT6Be2EAQhFm"
def transferText : String :=
    "3gH5Gs2RSanifb3d4D5TLAh1h6mrtpgVSkYN6Emp4JPLDux5s61dWThFmtD3Ki3LNQU2K3QirxSCjRti" ++
    "2mZtfmmA9rDmZZFcYEnyo4Lv6746jayGksc4boCs8qZ4usPBzZGFKVfHKdvSghVFPyakfD1m3HHBZPCG" ++
    "zEAW8gnhNoBfxa9rqQ7HzcMBi5m2AXCW4DSCe3zAWvMNW8LdTAiXcyq2GnG2gkqo8RpDtnK"
def withdrawText : String := "5NmdvioUNJUNyHEdmDtZ3pyCLoucaJwrzUR2KYHX9ms9tsZYceMR4kvZguHyCD6cjqq"

/-- Base58 on the instruction data of this example, and the decoders by their layout. -/
def codec : InstructionCodec where
  base58Encode text :=
    (([(depositText, depositData), (applyText, applyData), (transferText, transferData),
      (withdrawText, withdrawData)] : List (String × Bytes)).lookup text).getD [1]
  decodeConfidentialDeposit data := .ok (LittleEndian.decode ((data.drop 2).take 8))
  decodeConfidentialWithdraw data := .ok (LittleEndian.decode ((data.drop 2).take 8))
  decodeConfidentialTransfer data := .ok ((data.drop 38).take 64, (data.drop 102).take 64)

def keys : List Address :=
  ["alice", "alice token", "bob token", "mint", token2022ProgramAddress, "shop", "proof"]

def alice : TokenAccount := ⟨"alice token", "alice"⟩
def bob : TokenAccount := ⟨"bob token", "bob"⟩

def ownersBefore (a : Address) : Option Address :=
  if a = "alice token" then some "alice" else if a = "bob token" then some "bob" else none

def deposit : ChainInstruction := .movement (.deposit alice 5) "mint" ["alice"]
def applyPending : ChainInstruction := .applyPendingBalance "alice token" ["alice"]
def buy : ChainInstruction := .other "shop" ["alice"] [1]
def transfer : ChainInstruction :=
  .movement (.transfer alice bob (ZkSdk.modular.ciphertextToBytes (3, 0))
    (ZkSdk.modular.ciphertextToBytes (0, 0))) "mint" ["proof", "proof", "proof", "alice"]
def withdraw : ChainInstruction := .movement (.withdraw alice 1) "mint" ["proof", "proof", "alice"]

def depositing : RawInstruction := { programIdIndex := 4, accounts := [1, 3, 0], data := depositText }
def applying : RawInstruction := { programIdIndex := 4, accounts := [1, 0], data := applyText }
def buying : RawInstruction := { programIdIndex := 5, accounts := [0], data := "2" }
def transferring : RawInstruction :=
  { programIdIndex := 4, accounts := [1, 3, 2, 6, 6, 6, 0], data := transferText }
def withdrawing : RawInstruction :=
  { programIdIndex := 4, accounts := [1, 3, 6, 6, 0], data := withdrawText }

theorem encode_depositing : codec.base58Encode depositing.data = depositData := by decide +kernel
theorem encode_applying : codec.base58Encode applying.data = applyData := by decide +kernel
theorem encode_transferring : codec.base58Encode transferring.data = transferData := by decide +kernel
theorem encode_withdrawing : codec.base58Encode withdrawing.data = withdrawData := by decide +kernel

def Shows (raw : RawInstruction) (ix : ChainInstruction) : Prop :=
  RendersInstruction codec token2022ProgramAddress keys raw ix

theorem shows_deposit : Shows depositing deposit := by
  refine ⟨⟨rfl, rfl⟩, ?_⟩
  rw [encode_depositing]
  exact ⟨rfl, rfl, rfl⟩

theorem shows_applyPending : Shows applying applyPending := by
  refine ⟨⟨rfl, rfl⟩, ?_⟩
  rw [encode_applying]
  exact ⟨rfl, rfl⟩

theorem shows_buy : Shows buying buy := by
  refine ⟨⟨rfl, rfl⟩, by decide +kernel, ?_⟩
  rintro inner _ ⟨hprogram, _⟩
  exact absurd hprogram (by decide)

theorem shows_transfer : Shows transferring transfer := by
  refine ⟨⟨rfl, rfl⟩, ?_⟩
  rw [encode_transferring]
  exact ⟨rfl, rfl, rfl⟩

theorem shows_withdraw : Shows withdrawing withdraw := by
  refine ⟨⟨rfl, rfl⟩, ?_⟩
  rw [encode_withdrawing]
  exact ⟨rfl, rfl, rfl⟩

def balances : List TokenBalance := [⟨1, some "alice"⟩, ⟨2, some "bob"⟩]

theorem ownerAt_balances {i : Nat} {a : Address} (hi : keys[i]? = some a) :
    ownerAt balances i = ownersBefore a := by
  have hall : ∀ x ∈ keys.zipIdx, ownerAt balances x.2 = ownersBefore x.1 := by decide +kernel
  exact hall (a, i) (List.mk_mem_zipIdx_iff_getElem?.mpr hi)

section

variable (signature : Signature) (slot : Nat) (blockTime : Int) (err : Option String)

def executed (invocations : List Invocation)
    (h : ∀ ix ∈ invocations.flatMap Invocation.flatten, ix.accounts ⊆ keys := by decide) :
    ExecutedTransaction where
  signature := signature
  slot := slot
  blockTime := some blockTime
  err := err
  keys := keys
  ownersBefore := ownersBefore
  invocations := invocations
  accounts_subset := h

def described (instructions : List RawInstruction) (inner : List InnerInstructions) : RawTransaction where
  slot := slot
  blockTime := some blockTime
  accountKeys := keys
  instructions := instructions
  «meta» := some { err := err, innerInstructions := some inner, loadedAddresses := none,
                   preTokenBalances := some balances }

theorem renders {invocations : List Invocation}
    (h : ∀ ix ∈ invocations.flatMap Invocation.flatten, ix.accounts ⊆ keys)
    {instructions : List RawInstruction} {inner : List InnerInstructions}
    (htop : List.Forall₂ (fun raw invocation => Shows raw (Invocation.root invocation))
      instructions invocations)
    (hinner : ∀ i invocation, invocations[i]? = some invocation →
      List.Forall₂ Shows (innerAt inner i) invocation.descendants) :
    Renders codec token2022ProgramAddress (described slot blockTime err instructions inner)
      (executed signature slot blockTime err invocations h) where
  slot := rfl
  blockTime := rfl
  txMeta := by
    exact ⟨_, rfl, rfl, fun _ => ⟨List.append_nil _, fun i a hi => ownerAt_balances hi, htop, hinner⟩⟩

end

/-- Alice deposits 5 and applies it, pays 3 to bob in a shop, fails to withdraw once, and withdraws 1. -/
def history : List (ExecutedTransaction × RawTransaction) :=
  [(executed "s1" 1 1768000000 none [.call deposit [], .call applyPending []],
      described 1 1768000000 none [depositing, applying] []),
    (executed "s2" 2 1768860000 none [.call buy [.call transfer []]],
      described 2 1768860000 none [buying] [⟨0, [transferring]⟩]),
    (executed "s3" 3 1770000000 (some "InsufficientFundsForFee") [.call withdraw []],
      described 3 1770000000 (some "InsufficientFundsForFee") [withdrawing] []),
    (executed "s4" 4 1770700000 none [.call withdraw []],
      described 4 1770700000 none [withdrawing] [])]

def transactions : List ExecutedTransaction := history.map (·.1)

theorem serves : Serves codec token2022ProgramAddress "mint" (servedRpc history) transactions := by
  apply serves_servedRpc (by decide)
  have hnone : ∀ {invocations : List Invocation} {inner : List InnerInstructions},
      (∀ invocation ∈ invocations, invocation.descendants = []) → inner = [] →
      ∀ (i : Nat) (invocation : Invocation), invocations[i]? = some invocation →
        List.Forall₂ Shows (innerAt inner i) invocation.descendants := by
    rintro invocations _ hleaf rfl i invocation hi
    rw [hleaf invocation (List.mem_of_getElem? hi)]
    exact .nil
  intro x hx
  simp only [history, List.mem_cons, List.not_mem_nil, or_false] at hx
  rcases hx with rfl | rfl | rfl | rfl
  · exact renders _ _ _ _ _ (.cons shows_deposit (.cons shows_applyPending .nil)) (hnone (by decide) rfl)
  · refine renders _ _ _ _ _ (.cons shows_buy .nil) fun i invocation hi => ?_
    cases i with
    | zero =>
      obtain rfl := Option.some.inj hi
      exact .cons shows_transfer .nil
    | succ i => cases hi
  · exact renders _ _ _ _ _ (.cons shows_withdraw .nil) (hnone (by decide) rfl)
  · exact renders _ _ _ _ _ (.cons shows_withdraw .nil) (hnone (by decide) rfl)

theorem ownersKept : ∀ tx ∈ transactions, OwnersKept "mint" tx := by
  unfold OwnersKept
  decide +kernel

def input : ListConfidentialActivityInput (ZMod (2 ^ 128)) :=
  { mint := "mint", auditorSecret := 1, skipAuditorKeyCheck := true, concurrency := some (.ofNat 2) }

theorem readsAll : input.ReadsAll where
  since := rfl
  untilTime := rfl
  maxTransactions := rfl
  concurrency := by
    rintro _ ⟨⟩
    exact ⟨2, by decide, rfl⟩

end Statement

open Statement in
/-- The report of four transactions, one of them failed, fetched two at a time. -/
theorem reports_movements_of_known_account :
    listConfidentialActivity codec ZkSdk.modular (servedRpc history) input 1 =
      some (.ok (historyReport ZkSdk.modular 1 "mint" ownerThen transactions)) :=
  (reports_movements_iff_ownersKept serves readsAll (.inl rfl) (by decide)).mpr fun tx htx _ =>
    ownersKept tx htx

/-! ### An account created and used in one transaction -/

namespace NewAccount

/-- Base58 and the decoder on the instruction data of this example. -/
def codec : InstructionCodec where
  base58Encode s := if s = "7hcRTFKzmqdsiS5" then [27, 5, 5, 0, 0, 0, 0, 0, 0, 0, 2] else [1]
  decodeConfidentialDeposit data := .ok (LittleEndian.decode ((data.drop 2).take 8))
  decodeConfidentialWithdraw data := .ok (LittleEndian.decode ((data.drop 2).take 8))
  decodeConfidentialTransfer _ := .error "not a confidential transfer"

def creation : RawInstruction := { programIdIndex := 4, accounts := [0, 1, 0, 2], data := "2" }
def depositing : RawInstruction :=
  { programIdIndex := 3, accounts := [1, 2, 0], data := "7hcRTFKzmqdsiS5" }

def depositOfFive : ChainInstruction := .movement (.deposit ⟨"token", "alice"⟩ 5) "mint" ["alice"]

/-- The transaction, where `"token"` is in no pre-transaction balance. -/
def raw : RawTransaction where
  slot := 1
  blockTime := none
  accountKeys := ["alice", "token", "mint", token2022ProgramAddress, "associated"]
  instructions := [creation, depositing]
  «meta» := some { err := none, innerInstructions := none, loadedAddresses := none,
                   preTokenBalances := some [] }

def tx : ExecutedTransaction where
  signature := "signature"
  slot := 1
  blockTime := none
  err := none
  keys := ["alice", "token", "mint", token2022ProgramAddress, "associated"]
  ownersBefore _ := none
  invocations :=
    [.call (.other "associated" ["alice", "token", "alice", "mint"] [1]) [], .call depositOfFive []]
  accounts_subset := by decide

def rpc (t : ExecutedTransaction) (r : RawTransaction) : HistoryRpc := servedRpc [(t, r)]

def input : ListConfidentialActivityInput (ZMod (2 ^ 128)) :=
  { mint := "mint", auditorSecret := 1, skipAuditorKeyCheck := true }

theorem input_readsAll : input.ReadsAll :=
  ⟨rfl, rfl, rfl, fun _ h => by cases h⟩

/-- The example's transaction with these owners before it. -/
theorem renders (ownersBefore : Address → Option Address) (balances : List TokenBalance)
    (howners : ∀ i a, tx.keys[i]? = some a → ownerAt balances i = ownersBefore a) :
    Renders codec token2022ProgramAddress
      { raw with «meta» := some { err := none, innerInstructions := none, loadedAddresses := none,
                                  preTokenBalances := some balances } }
      { tx with ownersBefore := ownersBefore } where
  slot := rfl
  blockTime := rfl
  txMeta := by
    refine ⟨_, rfl, rfl, fun _ => ⟨rfl, howners, ?_, ?_⟩⟩
    · refine .cons ⟨⟨rfl, rfl⟩, rfl, ?_⟩ (.cons ⟨⟨rfl, rfl⟩, rfl, rfl, rfl⟩ .nil)
      intro inner _ h
      exact absurd h.1 (by decide)
    · intro i invocation hi
      rcases i with _ | _ | i
      · obtain rfl := Option.some.inj hi
        exact .nil
      · obtain rfl := Option.some.inj hi
        exact .nil
      · simp [tx] at hi

theorem serves {t : ExecutedTransaction} {r : RawTransaction}
    (hrenders : Renders codec token2022ProgramAddress r t) :
    Serves codec token2022ProgramAddress "mint" (rpc t r) [t] := by
  apply serves_servedRpc (by simp)
  intro x hx
  obtain rfl := List.mem_singleton.mp hx
  exact hrenders

/-- The same transaction after an earlier one created the account. -/
def known : ExecutedTransaction :=
  { tx with ownersBefore := fun a => if a = "token" then some "alice" else none }

def rawKnown : RawTransaction :=
  { raw with «meta» := some { err := none, innerInstructions := none, loadedAddresses := none,
                              preTokenBalances := some [⟨1, some "alice"⟩] } }

theorem renders_known : Renders codec token2022ProgramAddress rawKnown known := by
  refine renders _ _ fun i a hi => ?_
  rcases i with _ | _ | _ | _ | _ | i
  all_goals simp [tx] at hi
  all_goals subst hi
  all_goals decide

end NewAccount

/-- The deposit is reported without an owner, although alice owns the account. -/
theorem newAccount_misses_owner : ¬ ∀ (rpc : HistoryRpc) (history : List ExecutedTransaction),
    Serves NewAccount.codec token2022ProgramAddress "mint" rpc history →
    listConfidentialActivity NewAccount.codec ZkSdk.modular rpc NewAccount.input (history.length + 1) =
      some (.ok (historyReport ZkSdk.modular 1 "mint" ownerThen history)) := by
  intro hclaim
  have hrenders : Renders NewAccount.codec token2022ProgramAddress NewAccount.raw NewAccount.tx :=
    NewAccount.renders (fun _ => none) [] fun _ _ _ => rfl
  have hserves := NewAccount.serves hrenders
  have hreport := hclaim _ _ hserves
  rw [listConfidentialActivity_eq hserves NewAccount.input_readsAll (.inl rfl) (by decide)] at hreport
  have hkept := (historyReport_eq_iff ZkSdk.modular 1 "mint" [NewAccount.tx]).mp
    (Except.ok.inj (Option.some.inj hreport)) NewAccount.tx (by simp) rfl
  have hdeposit : TokenMovement.deposit ⟨"token", "alice"⟩ 5 ∈ movementsOf "mint" NewAccount.tx := by
    decide
  exact absurd (hkept _ hdeposit).1 (by decide)

end Sdk
