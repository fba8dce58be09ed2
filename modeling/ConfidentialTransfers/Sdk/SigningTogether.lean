-- SUMMARY: Signing together asks every signer once and loses no signature, in whatever order they answer.
import ConfidentialTransfers.Sdk.Signers

/-!
# Signing together loses nothing

Partial signers rewrite a shared list of transactions as they answer. Each adds
a signature under its own address, so the answers commute, and what comes out
does not depend on the order.
-/

open Solana

namespace Sdk

/-! ## Asking to modify -/

variable (signersByTx : List (List TransactionSigner))

/-- `txs'` is `txs` with the transactions at `indexes` replaced by the ones in `signed`. -/
structure Replaces (indexes : List Nat) (signed txs txs' : List CompiledTransaction) : Prop where
  length : txs'.length = txs.length
  replaced : ∀ k i : Nat, indexes[k]? = some i → txs'[i]? = signed[k]?
  others : ∀ i : Nat, i ∉ indexes → txs'[i]? = txs[i]?

theorem replaces_writeBack {indexes : List Nat} {signed txs : List CompiledTransaction}
    (hnodup : indexes.Nodup) (hrange : ∀ i ∈ indexes, i < txs.length)
    (hlength : signed.length = indexes.length) :
    Replaces indexes signed txs (writeBack indexes signed txs) := by
  induction indexes generalizing signed txs with
  | nil => exact ⟨rfl, by simp, fun _ _ => rfl⟩
  | cons j indexes ih =>
    cases signed with
    | nil => simp at hlength
    | cons tx signed =>
      obtain ⟨hj, hnodup⟩ := List.nodup_cons.mp hnodup
      have hrest : Replaces indexes signed (txs.set j tx) (writeBack indexes signed (txs.set j tx)) :=
        ih hnodup (fun i hi => by simpa using hrange i (by simp [hi])) (by simpa using hlength)
      have hstep : writeBack (j :: indexes) (tx :: signed) txs =
          writeBack indexes signed (txs.set j tx) := rfl
      rw [hstep]
      refine ⟨by simpa using hrest.length, fun k i hk => ?_, fun i hi => ?_⟩
      · cases k with
        | zero =>
          obtain rfl : j = i := by simpa using hk
          rw [hrest.others j hj, List.getElem?_set_self (hrange j (by simp))]
          rfl
        | succ k => exact hrest.replaced k i (by simpa using hk)
      · rw [hrest.others i (fun h => hi (by simp [h])), List.getElem?_set_ne]
        rintro rfl
        exact hi (by simp)

/-- The modifying signers are called in turn; each answers for the transactions that need it, as the
    ones before it left them. -/
inductive ModifiedInTurn : List TransactionSigner → List CompiledTransaction → List SignerCall →
    List CompiledTransaction → Prop
  | nil {txs : List CompiledTransaction} : ModifiedInTurn [] txs [] txs
  | cons {signer : TransactionSigner} {signers : List TransactionSigner}
    {modify : List CompiledTransaction → Except String (List CompiledTransaction)}
    {txs signed txs' txs'' : List CompiledTransaction} {calls : List SignerCall}
    (hmodify : signer.modifyAndSignTransactions = some modify)
    (hsigned : modify (pick (needs signersByTx signer) txs) = .ok signed)
    (hreplaced : Replaces (needs signersByTx signer) signed txs txs')
    (hrest : ModifiedInTurn signers txs' calls txs'') :
    ModifiedInTurn (signer :: signers) txs
      (.modifyAndSignTransactions signer.address (pick (needs signersByTx signer) txs) :: calls) txs''

variable {signersByTx}

theorem ModifiedInTurn.signers {signers : List TransactionSigner} {txs txs' : List CompiledTransaction}
    {calls : List SignerCall} (h : ModifiedInTurn signersByTx signers txs calls txs') :
    calls.map (·.signer) = signers.map (·.address) := by
  induction h with
  | nil => rfl
  | cons hmodify hsigned hreplaced hrest ih =>
    rw [List.map_cons, List.map_cons, ih]
    rfl

theorem ModifiedInTurn.length {signers : List TransactionSigner} {txs txs' : List CompiledTransaction}
    {calls : List SignerCall} (h : ModifiedInTurn signersByTx signers txs calls txs') :
    txs'.length = txs.length := by
  induction h with
  | nil => rfl
  | cons hmodify hsigned hreplaced hrest ih => exact ih.trans hreplaced.length

/-- What is replaced by what determines the result. -/
theorem Replaces.unique {indexes : List Nat} {signed txs txs' txs'' : List CompiledTransaction}
    (h : Replaces indexes signed txs txs') (h' : Replaces indexes signed txs txs'') : txs' = txs'' := by
  apply List.ext_getElem?
  intro i
  by_cases hi : i ∈ indexes
  · obtain ⟨k, hk⟩ := List.getElem?_of_mem hi
    rw [h.replaced k i hk, h'.replaced k i hk]
  · rw [h.others i hi, h'.others i hi]

/-- The wallets' answers leave one list of transactions. -/
theorem ModifiedInTurn.unique {signers : List TransactionSigner}
    {txs left left' : List CompiledTransaction} {calls calls' : List SignerCall}
    (h : ModifiedInTurn signersByTx signers txs calls left)
    (h' : ModifiedInTurn signersByTx signers txs calls' left') : left = left' := by
  induction h generalizing calls' left' with
  | nil =>
    cases h'
    rfl
  | cons hmodify hsigned hreplaced hrest ih =>
    cases h' with
    | cons hmodify' hsigned' hreplaced' hrest' =>
      obtain rfl := Option.some.inj (hmodify.symm.trans hmodify')
      obtain rfl := Except.ok.inj (hsigned.symm.trans hsigned')
      obtain rfl := hreplaced.unique hreplaced'
      exact ih hrest'

/-- A signer that answers only with transactions such as it is shown. -/
def AnswersAlike (P : CompiledTransaction → Prop) (signer : TransactionSigner) : Prop :=
  ∀ modify, signer.modifyAndSignTransactions = some modify → ∀ txs signed, modify txs = .ok signed →
    (∀ tx ∈ txs, P tx) → ∀ tx ∈ signed, P tx

theorem Replaces.forall_mem {P : CompiledTransaction → Prop} {indexes : List Nat}
    {signed txs txs' : List CompiledTransaction} (h : Replaces indexes signed txs txs')
    (hsigned : ∀ tx ∈ signed, P tx) (htxs : ∀ tx ∈ txs, P tx) : ∀ tx ∈ txs', P tx := by
  intro tx htx
  obtain ⟨i, hi⟩ := List.getElem?_of_mem htx
  by_cases hindex : i ∈ indexes
  · obtain ⟨k, hk⟩ := List.getElem?_of_mem hindex
    rw [h.replaced k i hk] at hi
    exact hsigned tx (List.mem_of_getElem? hi)
  · rw [h.others i hindex] at hi
    exact htxs tx (List.mem_of_getElem? hi)

theorem pick_subset (indexes : List Nat) (txs : List CompiledTransaction) : pick indexes txs ⊆ txs := by
  intro tx htx
  obtain ⟨i, _, hi⟩ := List.mem_filterMap.mp htx
  exact List.mem_of_getElem? hi

/-- What all the answers keep holds of every transaction that is left. -/
theorem ModifiedInTurn.forall_mem {P : CompiledTransaction → Prop} {signers : List TransactionSigner}
    {txs left : List CompiledTransaction} {calls : List SignerCall}
    (h : ModifiedInTurn signersByTx signers txs calls left) (hkeeps : ∀ s ∈ signers, AnswersAlike P s)
    (htxs : ∀ tx ∈ txs, P tx) : ∀ tx ∈ left, P tx := by
  induction h with
  | nil => exact htxs
  | cons hmodify hsigned hreplaced hrest ih =>
    apply ih
    · intro s hs
      exact hkeeps s (List.mem_cons_of_mem _ hs)
    · apply hreplaced.forall_mem _ htxs
      apply hkeeps _ List.mem_cons_self _ hmodify _ _ hsigned
      intro tx htx
      exact htxs tx (pick_subset _ _ htx)

/-- Picking transactions that are there picks one for each index. -/
theorem length_pick {indexes : List Nat} {txs : List CompiledTransaction}
    (hrange : ∀ i ∈ indexes, i < txs.length) : (pick indexes txs).length = indexes.length := by
  induction indexes with
  | nil => rfl
  | cons i indexes ih =>
    have hi := List.getElem?_eq_getElem (hrange i (by simp))
    have hrest := ih fun j hj => hrange j (by simp [hj])
    simpa [pick, hi] using hrest

theorem modifyInTurn_wp {signers : List TransactionSigner} (hsigners : signers ⊆ signersByTx.flatten)
    (hmodifying : ∀ s ∈ signers, isTransactionModifyingSigner s = true)
    (hanswers : ∀ s ∈ signers, ∀ modify, s.modifyAndSignTransactions = some modify →
      ∀ txs, ∃ signed, modify txs = .ok signed)
    {txs : List CompiledTransaction} (htxs : txs.length = signersByTx.length) (calls : List SignerCall) :
    (modifyInTurn signersByTx signers txs).wp (fun r calls' => ∃ txs' asked, r = .ok txs' ∧
      calls' = calls ++ asked ∧ ModifiedInTurn signersByTx signers txs asked txs') calls := by
  induction signers generalizing txs calls with
  | nil => exact ⟨txs, [], rfl, (List.append_nil calls).symm, .nil⟩
  | cons signer signers ih =>
    obtain ⟨modify, hmodify⟩ := Option.isSome_iff_exists.mp (hmodifying signer (by simp))
    have hrange : ∀ i ∈ needs signersByTx signer, i < txs.length :=
      fun i hi => htxs ▸ lt_of_mem_needs hi
    obtain ⟨signed, hsigned⟩ := hanswers signer (by simp) modify hmodify
      (pick (needs signersByTx signer) txs)
    have hlength : signed.length = (needs signersByTx signer).length :=
      (signer.length_modified modify hmodify hsigned).trans (length_pick hrange)
    have hreplaced := replaces_writeBack (nodup_needs signer) hrange hlength
    unfold modifyInTurn
    simp only [hmodify, needs_ne_nil (hsigners List.mem_cons_self), if_false, hsigned, Effect.wp_bind,
      Effect.wp_modify, Effect.wp_ofExcept]
    refine (ih (fun s hs => hsigners (List.mem_cons_of_mem _ hs))
      (fun s hs => hmodifying s (List.mem_cons_of_mem _ hs))
      (fun s hs => hanswers s (List.mem_cons_of_mem _ hs)) (hreplaced.length.trans htxs) _).mono
      fun r calls' h => ?_
    obtain ⟨txs', asked, rfl, rfl, hrest⟩ := h
    exact ⟨txs', _, rfl, by simp, .cons hmodify hsigned hreplaced hrest⟩

/-! ## Asking for signatures -/

/-- Partial signers answer each transaction with their own signature. -/
def AnswersWith (own : Address → CompiledTransaction → Signature) (s : TransactionSigner) : Prop :=
  ∀ sign, s.signTransactions = some sign → ∀ txs, sign txs =
    .ok (txs.map fun tx => Finmap.singleton s.address (some (own s.address tx)))

variable {own : Address → CompiledTransaction → Signature}

/-- What a partial signer that answers so will answer. -/
def pendingOf (signersByTx : List (List TransactionSigner))
    (own : Address → CompiledTransaction → Signature) (txs : List CompiledTransaction)
    (s : TransactionSigner) : PendingSignatures where
  indexes := needs signersByTx s
  answer := .ok ((pick (needs signersByTx s) txs).map fun tx =>
    Finmap.singleton s.address (some (own s.address tx)))

theorem askPartialSigners_wp {signers : List TransactionSigner}
    (hsigners : signers ⊆ signersByTx.flatten)
    (hpart : ∀ s ∈ signers, isTransactionPartialSigner s = true)
    (hown : ∀ s ∈ signers, AnswersWith own s) (txs : List CompiledTransaction)
    (calls : List SignerCall) :
    (askPartialSigners signersByTx txs signers).wp (fun r calls' =>
      r = .ok (signers.map (pendingOf signersByTx own txs)) ∧
      calls' = calls ++ signers.map fun s =>
        .signTransactions s.address (pick (needs signersByTx s) txs)) calls := by
  induction signers generalizing calls with
  | nil => exact ⟨rfl, (List.append_nil calls).symm⟩
  | cons signer signers ih =>
    obtain ⟨sign, hsign⟩ := Option.isSome_iff_exists.mp (hpart signer (by simp))
    have hanswer := hown signer (by simp) sign hsign (pick (needs signersByTx signer) txs)
    unfold askPartialSigners
    simp only [hsign, needs_ne_nil (hsigners List.mem_cons_self), if_false, Effect.wp_bind,
      Effect.wp_modify]
    refine (ih (fun s hs => hsigners (List.mem_cons_of_mem _ hs))
      (fun s hs => hpart s (List.mem_cons_of_mem _ hs))
      (fun s hs => hown s (List.mem_cons_of_mem _ hs)) _).mono fun r calls' h => ?_
    obtain ⟨rfl, rfl⟩ := h
    refine ⟨?_, List.append_assoc _ _ _⟩
    simp only [hanswer]
    rfl

/-! ## Merging -/

/-- One signer's signature for transaction `i`, if it has to sign it. `tx` is the transaction it was
    shown. -/
def addSignature (signersByTx : List (List TransactionSigner))
    (own : Address → CompiledTransaction → Signature) (i : Nat) (tx : CompiledTransaction)
    (merged : CompiledTransaction) (s : TransactionSigner) : CompiledTransaction :=
  if i ∈ needs signersByTx s then
    merged.withSignatures (Finmap.singleton s.address (some (own s.address tx)))
  else merged

/-- Transaction `i` with the signatures of all these signers. -/
def signedBy (signersByTx : List (List TransactionSigner))
    (own : Address → CompiledTransaction → Signature) (signers : List TransactionSigner) (i : Nat)
    (tx : CompiledTransaction) : CompiledTransaction :=
  signers.foldl (addSignature signersByTx own i tx) tx

theorem length_mergeSignatures (indexes : List Nat) (dictionaries : List SignaturesMap)
    (txs : List CompiledTransaction) :
    (mergeSignatures indexes dictionaries txs).length = txs.length := by
  unfold mergeSignatures
  induction indexes.zip dictionaries generalizing txs with
  | nil => rfl
  | cons x xs ih => simpa using ih (txs.modify x.1 (·.withSignatures x.2))

/-- Merging one dictionary for each index. -/
theorem getElem?_mergeSignatures {indexes : List Nat} (hnodup : indexes.Nodup)
    (f : Nat → SignaturesMap) (txs : List CompiledTransaction) (i : Nat) :
    (mergeSignatures indexes (indexes.map f) txs)[i]? =
      if i ∈ indexes then (txs[i]?).map (·.withSignatures (f i)) else txs[i]? := by
  induction indexes generalizing txs with
  | nil => rfl
  | cons j indexes ih =>
    obtain ⟨hj, hnodup⟩ := List.nodup_cons.mp hnodup
    have hstep : mergeSignatures (j :: indexes) ((j :: indexes).map f) txs =
        mergeSignatures indexes (indexes.map f) (txs.modify j (·.withSignatures (f j))) := rfl
    rw [hstep, ih hnodup]
    by_cases hij : i = j
    · subst hij
      simp [hj]
    · have hji : j ≠ i := fun h => hij h.symm
      simp [hij, List.getElem?_modify_ne _ _ hji]

/-- A dictionary for each picked transaction is a dictionary for each index. -/
theorem map_pick {indexes : List Nat} {txs : List CompiledTransaction}
    (hrange : ∀ i ∈ indexes, i < txs.length) (f : CompiledTransaction → SignaturesMap) :
    (pick indexes txs).map f = indexes.map fun i => ((txs[i]?).map f).getD ∅ := by
  induction indexes with
  | nil => rfl
  | cons i indexes ih =>
    have hi := List.getElem?_eq_getElem (hrange i (by simp))
    have hrest := ih fun j hj => hrange j (by simp [hj])
    simp only [pick] at hrest ⊢
    simp [hi, hrest]

/-- The answers of `signers`, arriving in this order, add their signatures to each transaction. -/
theorem settleAll_eq {modified : List CompiledTransaction}
    (hmodified : modified.length = signersByTx.length) (signers : List TransactionSigner)
    (txs : List CompiledTransaction) :
    ∃ txs', settleAll txs (signers.map (pendingOf signersByTx own modified)) = .ok txs' ∧
      txs'.length = txs.length ∧ ∀ (i : Nat) tx, modified[i]? = some tx →
        txs'[i]? = (txs[i]?).map fun merged =>
          signers.foldl (addSignature signersByTx own i tx) merged := by
  induction signers generalizing txs with
  | nil => exact ⟨txs, rfl, rfl, fun i tx _ => by simp⟩
  | cons s signers ih =>
    have hrange : ∀ i ∈ needs signersByTx s, i < modified.length :=
      fun i hi => hmodified ▸ lt_of_mem_needs hi
    obtain ⟨txs', hrun, hlength, htxs'⟩ := ih (mergeSignatures (needs signersByTx s)
      ((pick (needs signersByTx s) modified).map fun tx =>
        Finmap.singleton s.address (some (own s.address tx))) txs)
    refine ⟨txs', hrun, hlength.trans (length_mergeSignatures _ _ _), fun i tx hi => ?_⟩
    rw [htxs' i tx hi, map_pick hrange, getElem?_mergeSignatures (nodup_needs s)]
    by_cases hneeds : i ∈ needs signersByTx s
    · simp [hneeds, hi, addSignature, Function.comp_def]
    · simp [hneeds, addSignature]

/-- Signatures under different addresses can be added in either order. -/
theorem addSignature_comm {i : Nat} {tx merged : CompiledTransaction} {s t : TransactionSigner}
    (hst : s.address ≠ t.address) :
    addSignature signersByTx own i tx (addSignature signersByTx own i tx merged s) t =
      addSignature signersByTx own i tx (addSignature signersByTx own i tx merged t) s := by
  unfold addSignature
  by_cases hs : i ∈ needs signersByTx s
  · by_cases ht : i ∈ needs signersByTx t
    · simp only [hs, ht, if_true, CompiledTransaction.withSignatures, CompiledTransaction.mk.injEq,
        true_and, and_true]
      have hdisjoint : Finmap.Disjoint
          (Finmap.singleton t.address (some (own t.address tx)) : SignaturesMap)
          (Finmap.singleton s.address (some (own s.address tx))) := by
        intro a ha hb
        rw [Finmap.mem_singleton] at ha hb
        exact hst (hb.symm.trans ha)
      rw [← Finmap.union_assoc, Finmap.union_comm_of_disjoint hdisjoint, Finmap.union_assoc]
    · simp [hs, ht]
  · simp [hs]

/-- So the order in which the signers answer does not matter. -/
theorem signedBy_perm {signers signers' : List TransactionSigner} (hperm : signers.Perm signers')
    (hnodup : (signers.map (·.address)).Nodup) (i : Nat) (tx : CompiledTransaction) :
    signedBy signersByTx own signers i tx = signedBy signersByTx own signers' i tx := by
  refine hperm.foldl_eq' (fun s hs t ht merged => ?_) tx
  by_cases hst : s.address = t.address
  · rw [List.inj_on_of_nodup_map hnodup hs ht hst]
  · exact addSignature_comm hst

/-- `merged'` is `merged` with the signature of every signer that has to sign transaction `i`, shown to
    them as `tx`, and nothing else changed. -/
structure SignedByAll (signersByTx : List (List TransactionSigner))
    (own : Address → CompiledTransaction → Signature) (signers : List TransactionSigner) (i : Nat)
    (tx merged merged' : CompiledTransaction) : Prop where
  messageBytes : merged'.messageBytes = merged.messageBytes
  lifetimeConstraint : merged'.lifetimeConstraint = merged.lifetimeConstraint
  signed : ∀ s ∈ signers, i ∈ needs signersByTx s →
    merged'.signatures.lookup s.address = some (some (own s.address tx))
  others : ∀ a, (∀ s ∈ signers, i ∈ needs signersByTx s → s.address ≠ a) →
    merged'.signatures.lookup a = merged.signatures.lookup a

theorem signedByAll_addSignature (s : TransactionSigner) (i : Nat) (tx merged : CompiledTransaction) :
    SignedByAll signersByTx own [s] i tx merged (addSignature signersByTx own i tx merged s) := by
  unfold addSignature
  by_cases hneeds : i ∈ needs signersByTx s
  · rw [if_pos hneeds]
    refine ⟨rfl, rfl, fun t ht _ => ?_, fun a ha => ?_⟩
    · obtain rfl := List.mem_singleton.mp ht
      have hmem : t.address ∈ (Finmap.singleton t.address (some (own t.address tx)) : SignaturesMap) :=
        (Finmap.mem_singleton _ _ _).mpr rfl
      exact (Finmap.lookup_union_left hmem).trans Finmap.lookup_singleton_eq
    · refine Finmap.lookup_union_right fun hmem => ?_
      exact ha s (by simp) hneeds ((Finmap.mem_singleton _ _ _).mp hmem).symm
  · rw [if_neg hneeds]
    refine ⟨rfl, rfl, fun t ht hi => ?_, fun _ _ => rfl⟩
    obtain rfl := List.mem_singleton.mp ht
    exact absurd hi hneeds

theorem signedByAll_foldl {signers : List TransactionSigner}
    (hnodup : (signers.map (·.address)).Nodup) (i : Nat) (tx merged : CompiledTransaction) :
    SignedByAll signersByTx own signers i tx merged
      (signers.foldl (addSignature signersByTx own i tx) merged) := by
  induction signers generalizing merged with
  | nil => exact ⟨rfl, rfl, by simp, fun _ _ => rfl⟩
  | cons s signers ih =>
    obtain ⟨hs, hnodup⟩ := List.nodup_cons.mp hnodup
    have hfirst : SignedByAll signersByTx own [s] i tx merged
        (addSignature signersByTx own i tx merged s) := signedByAll_addSignature s i tx merged
    have hrest := ih hnodup (addSignature signersByTx own i tx merged s)
    refine ⟨hrest.messageBytes.trans hfirst.messageBytes,
      hrest.lifetimeConstraint.trans hfirst.lifetimeConstraint, fun t ht hi => ?_, fun a ha => ?_⟩
    · rcases List.mem_cons.mp ht with rfl | ht
      · -- no later signer has this address
        have hkept := hrest.others t.address fun u hu _ heq =>
          hs (List.mem_map.mpr ⟨u, hu, heq⟩)
        exact hkept.trans (hfirst.signed t (by simp) hi)
      · exact hrest.signed t ht hi
    · have hkept := hrest.others a fun t ht => ha t (by simp [ht])
      exact hkept.trans (hfirst.others a fun t ht => ha t (by simp [List.mem_singleton.mp ht]))

/-! ## The result -/

/-- kit's assert throws when an entry of the signatures is `null`, and only then. -/
def NoticesNulls (assertIsFullySignedTransaction : CompiledTransaction → Except String Unit) : Prop :=
  ∀ tx, (∃ message, assertIsFullySignedTransaction tx = .error message) ↔
    ∃ a, tx.signatures.lookup a = some none

theorem finish_eq_ok_iff {assertIsFullySignedTransaction : CompiledTransaction → Except String Unit}
    {lifetime : Lifetime} {tx tx' : CompiledTransaction} :
    finish assertIsFullySignedTransaction lifetime tx = .ok tx' ↔
      (¬∃ message, assertIsFullySignedTransaction tx = .error message) ∧ withLifetime lifetime tx = tx' := by
  unfold finish
  cases hchecked : assertIsFullySignedTransaction tx with
  | error message => simp [bind, Except.bind]
  | ok checked => simp [bind, Except.bind, pure, Except.pure]

/-- Every transaction is checked; one that misses a signature makes the call reject. -/
theorem mapM_finish_eq_ok_iff
    {assertIsFullySignedTransaction : CompiledTransaction → Except String Unit} {lifetime : Lifetime}
    {txs txs' : List CompiledTransaction} :
    txs.mapM (finish assertIsFullySignedTransaction lifetime) = .ok txs' ↔
      (∀ tx ∈ txs, ¬∃ message, assertIsFullySignedTransaction tx = .error message) ∧
        txs.map (withLifetime lifetime) = txs' := by
  rw [Except.mapM_eq_ok_iff, ← List.forall₂_eq_eq_eq, List.forall₂_map_left_iff]
  simp only [finish_eq_ok_iff]
  exact List.forall₂_and_left _ _

/-- Every signer got one call, the modifying ones before the others, each partial signer with the
    transactions it has to sign. -/
structure AskedOnce (signersByTx : List (List TransactionSigner)) (modified : List CompiledTransaction)
    (modifyCalls calls : List SignerCall) : Prop where
  calls_eq : calls = modifyCalls ++ (partialSigners signersByTx).map fun s =>
    .signTransactions s.address (pick (needs signersByTx s) modified)
  once : (calls.map (·.signer)).Nodup
  needed : ∀ a, a ∈ calls.map (·.signer) ↔ ∃ s ∈ signersByTx.flatten, s.address = a

section Signatures

variable (signersByTx : List (List TransactionSigner)) (i : Nat) (tx : CompiledTransaction) (a : Address)

/-- No partial signer signs transaction `i` as `a`. -/
def LeftToWallets : Prop :=
  ∀ s ∈ partialSigners signersByTx, i ∈ needs signersByTx s → s.address ≠ a

/-- An entry that is still `null` when everybody has answered. -/
def StaysNull : Prop :=
  LeftToWallets signersByTx i a ∧ tx.signatures.lookup a = some none

/-- What comes out for a transaction the modifying signers left as `tx`: the same bytes, the
    signatures of the partial signers, the other entries as they were, and a lifetime. -/
structure Returned (own : Address → CompiledTransaction → Signature) (lifetime : Lifetime)
    (tx' : CompiledTransaction) : Prop where
  messageBytes : tx'.messageBytes = tx.messageBytes
  signed : ∀ s ∈ partialSigners signersByTx, i ∈ needs signersByTx s →
    tx'.signatures.lookup s.address = some (some (own s.address tx))
  others : ∀ a, LeftToWallets signersByTx i a → tx'.signatures.lookup a = tx.signatures.lookup a
  lifetimeConstraint : tx'.lifetimeConstraint = some (tx.lifetimeConstraint.getD lifetime)

end Signatures

/-- Transaction `i` of the result is the modified transaction with all the signatures. There is a
    result unless an entry stays `null`. -/
structure MergedAll (signersByTx : List (List TransactionSigner))
    (own : Address → CompiledTransaction → Signature) (lifetime : Lifetime)
    (modified : List CompiledTransaction) (outcome : Except String (List CompiledTransaction)) :
    Prop where
  returns : ∀ txs, outcome = .ok txs → txs.length = signersByTx.length ∧
    ∀ (i : Nat) tx, modified[i]? = some tx → ∃ tx', txs[i]? = some tx' ∧
      Returned signersByTx i tx own lifetime tx'
  resolves : (∀ (i : Nat) tx, modified[i]? = some tx → ∀ a, ¬StaysNull signersByTx i tx a) →
    ∃ txs, outcome = .ok txs

/-- After the modifying signers each partial signer is asked, so every signer was asked once. -/
theorem askedOnce_of_modified {txs modified : List CompiledTransaction} {modifyCalls : List SignerCall}
    (h : ModifiedInTurn signersByTx (modifyingSigners signersByTx) txs modifyCalls modified)
    (hinterfaces : ∀ s ∈ signersByTx.flatten,
      isTransactionModifyingSigner s = true ∨ isTransactionPartialSigner s = true) :
    AskedOnce signersByTx modified modifyCalls
      (modifyCalls ++ (partialSigners signersByTx).map fun s =>
        .signTransactions s.address (pick (needs signersByTx s) modified)) := by
  have haddresses : (modifyCalls ++ (partialSigners signersByTx).map fun s =>
      SignerCall.signTransactions s.address (pick (needs signersByTx s) modified)).map (·.signer) =
      (modifyingSigners signersByTx ++ partialSigners signersByTx).map (·.address) := by
    rw [List.map_append, List.map_append, h.signers, List.map_map]
    rfl
  refine ⟨rfl, haddresses ▸ nodup_asked, fun a => ?_⟩
  rw [haddresses]
  constructor
  · intro ha
    obtain ⟨s, hs, rfl⟩ := List.mem_map.mp ha
    rcases List.mem_append.mp hs with hs | hs
    · exact ⟨s, modifyingSigners_subset hs, rfl⟩
    · exact ⟨s, partialSigners_subset hs, rfl⟩
  · rintro ⟨s, hs, rfl⟩
    -- the signer that stands for this address among the unique ones has an interface
    obtain ⟨t, ht, haddress⟩ := List.mem_map.mp (address_mem_uniqueSigners hs)
    have hinterface := hinterfaces t (uniqueSigners_subset ht)
    rw [← haddress]
    exact mem_asked (List.mem_filter.mpr ⟨ht, by simpa using hinterface⟩)

theorem SignedByAll.lookup_eq_null_iff {i : Nat} {tx tx' : CompiledTransaction}
    (h : SignedByAll signersByTx own (partialSigners signersByTx) i tx tx tx') {a : Address} :
    tx'.signatures.lookup a = some none ↔ StaysNull signersByTx i tx a := by
  by_cases hleft : LeftToWallets signersByTx i a
  · rw [h.others a hleft]
    exact (and_iff_right hleft).symm
  · constructor
    · intro hnull
      apply absurd _ hleft
      intro s hs hi haddress
      have hsigned := h.signed s hs hi
      rw [haddress, hnull] at hsigned
      cases hsigned
    · intro hstays
      exact absurd hstays.1 hleft

theorem SignedByAll.returned {i : Nat} {tx tx' : CompiledTransaction} (lifetime : Lifetime)
    (h : SignedByAll signersByTx own (partialSigners signersByTx) i tx tx tx') :
    Returned signersByTx i tx own lifetime (withLifetime lifetime tx') where
  messageBytes := h.messageBytes
  signed := h.signed
  others := h.others
  lifetimeConstraint := by
    unfold withLifetime
    rw [h.lifetimeConstraint]

/-- The modified transactions with every signature merged in. -/
def signedByEach (signersByTx : List (List TransactionSigner))
    (own : Address → CompiledTransaction → Signature) (modified : List CompiledTransaction) :
    List CompiledTransaction :=
  modified.zipIdx.map fun x => signedBy signersByTx own (partialSigners signersByTx) x.2 x.1

theorem getElem?_signedByEach {modified : List CompiledTransaction} {i : Nat} :
    (signedByEach signersByTx own modified)[i]? =
      (modified[i]?).map (signedBy signersByTx own (partialSigners signersByTx) i) := by
  simp [signedByEach, List.getElem?_map, List.getElem?_zipIdx, Function.comp_def]

theorem signedByAll_signedBy (i : Nat) (tx : CompiledTransaction) :
    SignedByAll signersByTx own (partialSigners signersByTx) i tx tx
      (signedBy signersByTx own (partialSigners signersByTx) i tx) :=
  signedByAll_foldl nodup_partialSigners i tx tx

section Finished

variable {assertIsFullySignedTransaction : CompiledTransaction → Except String Unit}
  (hnotices : NoticesNulls assertIsFullySignedTransaction)

include hnotices

/-- The call resolves exactly if no entry stays `null`. -/
theorem mapM_finish_resolves_iff (lifetime : Lifetime) (modified : List CompiledTransaction) :
    (∃ txs, (signedByEach signersByTx own modified).mapM
      (finish assertIsFullySignedTransaction lifetime) = .ok txs) ↔
      ∀ (i : Nat) tx, modified[i]? = some tx → ∀ a, ¬StaysNull signersByTx i tx a := by
  simp only [mapM_finish_eq_ok_iff, hnotices _, exists_and_left, exists_eq', and_true, not_exists]
  constructor
  · intro hall i tx hi a hstays
    have hmem : signedBy signersByTx own (partialSigners signersByTx) i tx ∈
        signedByEach signersByTx own modified := by
      apply List.mem_of_getElem?
      rw [getElem?_signedByEach, hi]
      rfl
    exact hall _ hmem a ((signedByAll_signedBy i tx).lookup_eq_null_iff.mpr hstays)
  · intro hall tx' htx' a hnull
    obtain ⟨i, hi⟩ := List.getElem?_of_mem htx'
    rw [getElem?_signedByEach] at hi
    obtain ⟨tx, htx, rfl⟩ := Option.map_eq_some_iff.mp hi
    exact hall i tx htx a ((signedByAll_signedBy i tx).lookup_eq_null_iff.mp hnull)

theorem mergedAll_signedByEach (lifetime : Lifetime) {modified : List CompiledTransaction}
    (hmodified : modified.length = signersByTx.length) :
    MergedAll signersByTx own lifetime modified
      ((signedByEach signersByTx own modified).mapM
        (finish assertIsFullySignedTransaction lifetime)) where
  returns := by
    intro txs hresolved
    obtain ⟨_, rfl⟩ := mapM_finish_eq_ok_iff.mp hresolved
    refine ⟨by simp [signedByEach, hmodified], fun i tx hi => ?_⟩
    refine ⟨withLifetime lifetime (signedBy signersByTx own (partialSigners signersByTx) i tx), ?_, ?_⟩
    · rw [List.getElem?_map, getElem?_signedByEach, hi]
      rfl
    · exact (signedByAll_signedBy i tx).returned lifetime
  resolves hall := (mapM_finish_resolves_iff hnotices lifetime modified).mpr hall

end Finished

section Together

variable {M : Type} {compileTransaction : M → CompiledTransaction}
  {getSignersFromTransactionMessage : M → List TransactionSigner}

/-- The answers in any order give the same transactions. -/
theorem settleAll_settle (settling : SettlingOrder) {modified : List CompiledTransaction}
    (hmodified : modified.length = signersByTx.length) :
    settleAll modified (settling.settle
        ((partialSigners signersByTx).map (pendingOf signersByTx own modified))) =
      .ok (signedByEach signersByTx own modified) := by
  obtain ⟨signers, hsettled, hperm⟩ :=
    (congrFun₂ (List.eq_map_comp_perm (pendingOf signersByTx own modified)) _ _).mpr
      (settling.perm ((partialSigners signersByTx).map (pendingOf signersByTx own modified)))
  obtain ⟨txs', hrun, hlength, htxs'⟩ := @settleAll_eq signersByTx own modified hmodified signers modified
  rw [hsettled, hrun]
  congr 1
  refine List.ext_getElem? fun i => ?_
  rw [getElem?_signedByEach]
  cases hi : modified[i]? with
  | none =>
    have hrange : txs'.length ≤ i := by
      rw [hlength]
      exact List.getElem?_eq_none_iff.mp hi
    simp [List.getElem?_eq_none_iff.mpr hrange]
  | some tx =>
    have hnodup : (signers.map (·.address)).Nodup :=
      (hperm.map _).nodup_iff.mpr nodup_partialSigners
    have horder : signedBy signersByTx own signers i tx =
        signedBy signersByTx own (partialSigners signersByTx) i tx := signedBy_perm hperm hnodup i tx
    rw [htxs' i tx hi, hi]
    simpa [signedBy] using horder

variable {assertIsFullySignedTransaction : CompiledTransaction → Except String Unit}

variable (compileTransaction) in
/-- What signing together does, but for a missing signature. -/
theorem signTransactionMessagesTogether_merges
    (hnotices : NoticesNulls assertIsFullySignedTransaction) (messages : List M) (lifetime : Lifetime)
    (hinterface : ∀ m ∈ messages, ∀ s ∈ getSignersFromTransactionMessage m,
      isTransactionModifyingSigner s = true ∨ isTransactionPartialSigner s = true)
    (hmodify : ∀ m ∈ messages, ∀ s ∈ getSignersFromTransactionMessage m, ∀ modify,
      s.modifyAndSignTransactions = some modify → ∀ txs, ∃ signed, modify txs = .ok signed)
    (hown : ∀ m ∈ messages, ∀ s ∈ getSignersFromTransactionMessage m, AnswersWith own s) :
    ∃ modified modifyCalls outcome calls,
      (∀ settling, signTransactionMessagesTogether assertIsFullySignedTransaction compileTransaction
        getSignersFromTransactionMessage settling messages lifetime [] = (outcome, calls)) ∧
      ModifiedInTurn (messages.map getSignersFromTransactionMessage)
        (modifyingSigners (messages.map getSignersFromTransactionMessage))
        (messages.map compileTransaction) modifyCalls modified ∧
      AskedOnce (messages.map getSignersFromTransactionMessage) modified modifyCalls calls ∧
      MergedAll (messages.map getSignersFromTransactionMessage) own lifetime modified outcome ∧
      ((∃ txs, outcome = .ok txs) ↔ ∀ (i : Nat) tx, modified[i]? = some tx →
        ∀ a, ¬StaysNull (messages.map getSignersFromTransactionMessage) i tx a) := by
  set signersByTx := messages.map getSignersFromTransactionMessage with hsigners
  have hmem : ∀ s ∈ signersByTx.flatten, ∃ m ∈ messages, s ∈ getSignersFromTransactionMessage m := by
    intro s hs
    obtain ⟨signers, hsigners, hmem⟩ := List.mem_flatten.mp hs
    obtain ⟨m, hm, rfl⟩ := List.mem_map.mp hsigners
    exact ⟨m, hm, hmem⟩
  have hturn := modifyInTurn_wp modifyingSigners_subset
    (fun s hs => isTransactionModifyingSigner_of_mem hs)
    (fun s hs => by
      obtain ⟨m, hm, hs'⟩ := hmem s (modifyingSigners_subset hs)
      exact hmodify m hm s hs')
    (show (messages.map compileTransaction).length = signersByTx.length by simp [hsigners]) []
  rcases hrun : modifyInTurn signersByTx (modifyingSigners signersByTx)
    (messages.map compileTransaction) [] with ⟨r, modifyCalls⟩
  obtain ⟨modified, _, rfl, rfl, hinTurn⟩ := hturn.run hrun
  have hmodified : modified.length = signersByTx.length :=
    hinTurn.length.trans (by simp [hsigners])
  have hinterfaces : ∀ s ∈ signersByTx.flatten,
      isTransactionModifyingSigner s = true ∨ isTransactionPartialSigner s = true := by
    intro s hs
    obtain ⟨m, hm, hs'⟩ := hmem s hs
    exact hinterface m hm s hs'
  refine ⟨modified, modifyCalls, _, _, ?_, hinTurn, askedOnce_of_modified hinTurn hinterfaces,
    mergedAll_signedByEach hnotices lifetime hmodified,
    mapM_finish_resolves_iff hnotices lifetime modified⟩
  intro settling
  have hasks := @askPartialSigners_wp signersByTx own _ partialSigners_subset
    (fun s hs => isTransactionPartialSigner_of_mem hs)
    (fun s hs => by
      obtain ⟨m, hm, hs'⟩ := hmem s (partialSigners_subset hs)
      exact hown m hm s hs') modified modifyCalls
  rcases hask : askPartialSigners signersByTx modified (partialSigners signersByTx) modifyCalls
    with ⟨r, calls'⟩
  obtain ⟨rfl, rfl⟩ := hasks.run hask
  unfold signTransactionMessagesTogether
  simp only [bind, ← hsigners, hrun, hask]
  simp only [Effect.ofExcept, settleAll_settle settling hmodified]

end Together

end Sdk
