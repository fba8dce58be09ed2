-- SUMMARY: What signing together returns are the messages as the wallets left them, signed: a kit to send with.
import ConfidentialTransfers.Sdk.Send
import ConfidentialTransfers.Sdk.SigningTogether

/-!
# Signed messages

The sending layer takes `signTransactionMessagesTogether` as a function of its
kit, with the one fact it needs: transaction `i` holds the instructions of
message `i`. Here the modelled function is put in its place, and the fact is
proved of every call in which no wallet changes the instructions. It signs every
message if the wallets answer.
-/

open Solana

namespace Sdk

/-! ## What changes and what does not -/

/-- A transaction without its signatures. -/
def CompiledTransaction.unsigned (tx : CompiledTransaction) : Bytes × Option Lifetime :=
  (tx.messageBytes, tx.lifetimeConstraint)

/-- Merging signatures changes nothing else, whatever the dictionaries hold. -/
theorem unsigned_mergeSignatures (indexes : List Nat) (dictionaries : List SignaturesMap)
    (txs : List CompiledTransaction) :
    (mergeSignatures indexes dictionaries txs).map CompiledTransaction.unsigned =
      txs.map CompiledTransaction.unsigned := by
  unfold mergeSignatures
  induction indexes.zip dictionaries generalizing txs with
  | nil => rfl
  | cons x xs ih =>
    have hfirst : (txs.modify x.1 (·.withSignatures x.2)).map CompiledTransaction.unsigned =
        txs.map CompiledTransaction.unsigned := by
      apply List.ext_getElem
      · simp
      · intro i hi hi'
        simp only [List.getElem_map, List.getElem_modify]
        split
        · rfl
        · rfl
    exact (ih _).trans hfirst

/-- So do the answers of the partial signers. -/
theorem unsigned_settleAll {pending : List PendingSignatures} {txs txs' : List CompiledTransaction}
    (h : settleAll txs pending = .ok txs') :
    txs'.map CompiledTransaction.unsigned = txs.map CompiledTransaction.unsigned := by
  induction pending generalizing txs with
  | nil =>
    cases h
    rfl
  | cons p pending ih =>
    obtain ⟨dictionaries, _, hrest⟩ := Except.bind_eq_ok_iff.mp h
    exact (ih hrest).trans (unsigned_mergeSignatures p.indexes dictionaries txs)

section Wallets

variable {signersByTx : List (List TransactionSigner)}

/-- When no modifying signer throws, they are all asked in turn. -/
theorem modifyInTurn_returns {signers : List TransactionSigner} (hsigners : signers ⊆ signersByTx.flatten)
    (hmodifying : ∀ s ∈ signers, isTransactionModifyingSigner s = true)
    {txs left : List CompiledTransaction} (htxs : txs.length = signersByTx.length)
    {calls calls' : List SignerCall}
    (hrun : modifyInTurn signersByTx signers txs calls = (.ok left, calls')) :
    ∃ asked, ModifiedInTurn signersByTx signers txs asked left := by
  induction signers generalizing txs calls with
  | nil =>
    cases hrun
    exact ⟨[], .nil⟩
  | cons signer signers ih =>
    obtain ⟨modify, hmodify⟩ := Option.isSome_iff_exists.mp (hmodifying signer (by simp))
    have hrange : ∀ i ∈ needs signersByTx signer, i < txs.length := by
      intro i hi
      rw [htxs]
      exact lt_of_mem_needs hi
    unfold modifyInTurn at hrun
    simp only [hmodify, needs_ne_nil (hsigners List.mem_cons_self), if_false] at hrun
    cases hsigned : modify (pick (needs signersByTx signer) txs) with
    | error e =>
      rw [hsigned] at hrun
      cases hrun
    | ok signed =>
      rw [hsigned] at hrun
      have hlength : signed.length = (needs signersByTx signer).length :=
        (signer.length_modified modify hmodify hsigned).trans (length_pick hrange)
      have hreplaced := replaces_writeBack (nodup_needs signer) hrange hlength
      obtain ⟨asked, hrest⟩ := ih (fun s hs => hsigners (List.mem_cons_of_mem _ hs))
        (fun s hs => hmodifying s (List.mem_cons_of_mem _ hs)) (hreplaced.length.trans htxs) hrun
      exact ⟨_, .cons hmodify hsigned hreplaced hrest⟩

/-- A signer that answers with transactions that have the same `f`, in the order it was shown them. -/
def AnswersWithSame {β : Type} (f : CompiledTransaction → β) (signer : TransactionSigner) : Prop :=
  ∀ modify, signer.modifyAndSignTransactions = some modify →
    ∀ txs signed, modify txs = .ok signed → signed.map f = txs.map f

/-- The `k`-th transaction picked is the one at the `k`-th index. -/
theorem getElem?_pick {indexes : List Nat} {txs : List CompiledTransaction}
    (hrange : ∀ i ∈ indexes, i < txs.length) {k i : Nat} (hk : indexes[k]? = some i) :
    (pick indexes txs)[k]? = txs[i]? := by
  induction indexes generalizing k with
  | nil => cases hk
  | cons j indexes ih =>
    have hj := List.getElem?_eq_getElem (hrange j List.mem_cons_self)
    have hpick : pick (j :: indexes) txs =
        txs.get ⟨j, hrange j List.mem_cons_self⟩ :: pick indexes txs := by
      simp [pick, hj]
    rw [hpick]
    cases k with
    | zero =>
      obtain rfl : j = i := Option.some.inj hk
      exact hj.symm
    | succ k =>
      exact ih (fun i hi => hrange i (List.mem_cons_of_mem _ hi)) hk

theorem Replaces.map_eq {β : Type} {f : CompiledTransaction → β} {indexes : List Nat}
    {signed txs txs' : List CompiledTransaction} (h : Replaces indexes signed txs txs')
    (hrange : ∀ i ∈ indexes, i < txs.length) (hsigned : signed.map f = (pick indexes txs).map f) :
    txs'.map f = txs.map f := by
  apply List.ext_getElem?
  intro i
  rw [List.getElem?_map, List.getElem?_map]
  by_cases hi : i ∈ indexes
  · obtain ⟨k, hk⟩ := List.getElem?_of_mem hi
    have hsame := congrArg (·[k]?) hsigned
    simp only [List.getElem?_map] at hsame
    rw [h.replaced k i hk, hsame, getElem?_pick hrange hk]
  · rw [h.others i hi]

/-- What all the answers keep is as it was compiled. -/
theorem ModifiedInTurn.map_eq {β : Type} {f : CompiledTransaction → β}
    {signers : List TransactionSigner} {txs left : List CompiledTransaction} {calls : List SignerCall}
    (h : ModifiedInTurn signersByTx signers txs calls left) (htxs : txs.length = signersByTx.length)
    (hsame : ∀ s ∈ signers, AnswersWithSame f s) : left.map f = txs.map f := by
  induction h with
  | nil => rfl
  | cons hmodify hsigned hreplaced hrest ih =>
    have hfirst := hreplaced.map_eq (fun i hi => htxs ▸ lt_of_mem_needs hi)
      (hsame _ List.mem_cons_self _ hmodify _ _ hsigned)
    exact (ih (hreplaced.length.trans htxs) fun s hs => hsame s (List.mem_cons_of_mem _ hs)).trans hfirst

end Wallets

section Together

variable {M : Type} {compileTransaction : M → CompiledTransaction}
  {getSignersFromTransactionMessage : M → List TransactionSigner}
  {assertIsFullySignedTransaction : CompiledTransaction → Except String Unit}

/-- The transactions returned are those the modifying signers left, signed, each with a lifetime. -/
theorem signTransactionMessagesTogether_returns {settling : SettlingOrder} {messages : List M}
    {lifetime : Lifetime} {calls calls' : List SignerCall} {txs : List CompiledTransaction}
    (hrun : signTransactionMessagesTogether assertIsFullySignedTransaction compileTransaction
      getSignersFromTransactionMessage settling messages lifetime calls = (.ok txs, calls')) :
    ∃ asked left, ∃ settled : List CompiledTransaction,
      ModifiedInTurn (messages.map getSignersFromTransactionMessage)
        (modifyingSigners (messages.map getSignersFromTransactionMessage))
        (messages.map compileTransaction) asked left ∧
      settled.map CompiledTransaction.unsigned = left.map CompiledTransaction.unsigned ∧
      txs = settled.map (withLifetime lifetime) := by
  obtain ⟨left, calls₁, hmodified, hrun⟩ := Effect.run_bind_ok_iff.mp hrun
  obtain ⟨pending, calls₂, _, hrun⟩ := Effect.run_bind_ok_iff.mp hrun
  obtain ⟨settled, calls₃, hsettled, hrun⟩ := Effect.run_bind_ok_iff.mp hrun
  have hsettled : settleAll left (settling.settle pending) = .ok settled := (Prod.mk.inj hsettled).1
  obtain ⟨_, rfl⟩ := mapM_finish_eq_ok_iff.mp (Prod.mk.inj hrun).1
  obtain ⟨asked, hasked⟩ := modifyInTurn_returns
    modifyingSigners_subset
    (fun s hs => isTransactionModifyingSigner_of_mem hs) (by simp) hmodified
  exact ⟨asked, left, settled, hasked, unsigned_settleAll hsettled, rfl⟩

end Together

/-! ## A kit to send with -/

/-- The signers of the messages and what signing them takes from kit. The wallets may answer
    differently at each request count. -/
structure Wallets (π : Type) where
  compileTransaction : Message π → CompiledTransaction
  getSignersFromTransactionMessage : Nat → Message π → List TransactionSigner
  assertIsFullySignedTransaction : CompiledTransaction → Except String Unit
  getSignatureFromTransaction : CompiledTransaction → Signature
  settling : SettlingOrder
  /-- The instructions in the bytes of a message. -/
  instructionsOf : Bytes → List (Instruction π)
  instructionsOf_compileTransaction : ∀ m,
    instructionsOf (compileTransaction m).messageBytes = m.instructions
  /-- No wallet changes the instructions. -/
  keep_instructions : ∀ n m, ∀ s ∈ getSignersFromTransactionMessage n m,
    AnswersWithSame (fun tx => instructionsOf tx.messageBytes) s

namespace Wallets

variable {π : Type} (wallets : Wallets π)

/-- A signed transaction as the sending layer sees it. -/
def transaction (tx : CompiledTransaction) : Transaction π where
  message := { instructions := wallets.instructionsOf tx.messageBytes, lifetime := tx.lifetimeConstraint }
  signature := wallets.getSignatureFromTransaction tx

def signTransactionMessagesTogether (n : Nat) (messages : List (Message π)) (lifetime : Lifetime) :
    Except String (List (Transaction π)) :=
  (Sdk.signTransactionMessagesTogether wallets.assertIsFullySignedTransaction wallets.compileTransaction
    (wallets.getSignersFromTransactionMessage n) wallets.settling messages lifetime []).1.map
      (·.map wallets.transaction)

/-- Transaction `i` holds the instructions of message `i`. -/
theorem sign_instructions {n : Nat} {messages : List (Message π)} {lifetime : Lifetime}
    {txs : List (Transaction π)}
    (h : wallets.signTransactionMessagesTogether n messages lifetime = .ok txs) :
    txs.map (·.message.instructions) = messages.map (·.instructions) := by
  unfold signTransactionMessagesTogether at h
  rcases hrun : Sdk.signTransactionMessagesTogether wallets.assertIsFullySignedTransaction
    wallets.compileTransaction (wallets.getSignersFromTransactionMessage n) wallets.settling messages
    lifetime [] with ⟨outcome, calls⟩
  rw [hrun] at h
  cases outcome with
  | error message => cases h
  | ok signed =>
    obtain rfl := Except.ok.inj h
    obtain ⟨asked, left, settled, hasked, hunsigned, rfl⟩ := signTransactionMessagesTogether_returns hrun
    have hsettled : settled.map (fun tx => wallets.instructionsOf tx.messageBytes) =
        left.map fun tx => wallets.instructionsOf tx.messageBytes := by
      have hmap := congrArg (List.map fun unsigned => wallets.instructionsOf unsigned.1) hunsigned
      rw [List.map_map, List.map_map] at hmap
      exact hmap
    have hleft : left.map (fun tx => wallets.instructionsOf tx.messageBytes) =
        (messages.map wallets.compileTransaction).map fun tx => wallets.instructionsOf tx.messageBytes := by
      apply hasked.map_eq (by simp)
      intro s hs
      obtain ⟨signers, hsigners, hmem⟩ := List.mem_flatten.mp (modifyingSigners_subset hs)
      obtain ⟨m, _, rfl⟩ := List.mem_map.mp hsigners
      exact wallets.keep_instructions n m s hmem
    have hcompiled : (messages.map wallets.compileTransaction).map
        (fun tx => wallets.instructionsOf tx.messageBytes) = messages.map (·.instructions) := by
      rw [List.map_map]
      apply List.map_congr_left
      intro m _
      exact wallets.instructionsOf_compileTransaction m
    rw [← hcompiled, ← hleft, ← hsettled, List.map_map, List.map_map]
    rfl

/-- A kit whose signing is the modelled one. -/
def kit (planner : Kit π) : Kit π :=
  { planner with
    signTransactionMessagesTogether := wallets.signTransactionMessagesTogether
    sign_instructions := wallets.sign_instructions }

/-- The modifying signers answer, the partial signers give their signatures, and no other entry is left
    `null`. -/
structure Answer (own : Nat → Address → CompiledTransaction → Signature) : Prop where
  interface : ∀ n m, ∀ s ∈ wallets.getSignersFromTransactionMessage n m,
    isTransactionModifyingSigner s = true ∨ isTransactionPartialSigner s = true
  modify : ∀ n m, ∀ s ∈ wallets.getSignersFromTransactionMessage n m, ∀ modify,
    s.modifyAndSignTransactions = some modify → ∀ txs, ∃ signed, modify txs = .ok signed
  own : ∀ n m, ∀ s ∈ wallets.getSignersFromTransactionMessage n m, AnswersWith (own n) s
  entries : ∀ n (messages : List (Message π)) asked left,
    ModifiedInTurn (messages.map (wallets.getSignersFromTransactionMessage n))
      (modifyingSigners (messages.map (wallets.getSignersFromTransactionMessage n)))
      (messages.map wallets.compileTransaction) asked left →
    ∀ (i : Nat) tx, left[i]? = some tx → ∀ a,
      ¬StaysNull (messages.map (wallets.getSignersFromTransactionMessage n)) i tx a

/-- With such wallets every message gets signed. -/
theorem signs_kit {own : Nat → Address → CompiledTransaction → Signature} (hanswer : wallets.Answer own)
    (hnotices : NoticesNulls wallets.assertIsFullySignedTransaction) (planner : Kit π) :
    (wallets.kit planner).Signs := by
  intro n messages lifetime
  obtain ⟨left, asked, outcome, calls, hrun, hasked, -, -, hresolves⟩ :=
    signTransactionMessagesTogether_merges wallets.compileTransaction hnotices messages lifetime
      (fun m _ => hanswer.interface n m) (fun m _ => hanswer.modify n m) (fun m _ => hanswer.own n m)
  obtain ⟨txs, rfl⟩ := hresolves.mpr (hanswer.entries n messages asked left hasked)
  refine ⟨txs.map wallets.transaction, ?_⟩
  have hsigned := congrArg (fun r => r.1.map (·.map wallets.transaction)) (hrun wallets.settling)
  exact hsigned

end Wallets

end Sdk
