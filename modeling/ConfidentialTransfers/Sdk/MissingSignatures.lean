-- SUMMARY: A required signature that is missing is noticed exactly if the wallets keep its entry.
import ConfidentialTransfers.Sdk.SigningTogether

/-!
# Missing signatures

kit's assert looks for `null` among a transaction's signatures. A wallet that
modifies a transaction answers with the signatures too, and may leave an entry
out. Which addresses a message requires the signatures of is a parameter.
-/

open Solana

namespace Sdk

/-- The modifying signers left `tx` as transaction `i`: it requires the signature of `a`, and nobody
    gave it. -/
def Missing (signersByTx : List (List TransactionSigner)) (i : Nat) (tx : CompiledTransaction)
    (a : Address) (requiredSigners : Bytes → List Address) : Prop :=
  a ∈ requiredSigners tx.messageBytes ∧ LeftToWallets signersByTx i a ∧
    ∀ signature, tx.signatures.lookup a ≠ some (some signature)

/-- Without a required signature the call rejects. -/
def MissingRejects (requiredSigners : Bytes → List Address)
    (signersByTx : List (List TransactionSigner)) (modified : List CompiledTransaction)
    (outcome : Except String (List CompiledTransaction)) : Prop :=
  (∃ (i : Nat) (tx : CompiledTransaction) (a : Address), modified[i]? = some tx ∧
    Missing signersByTx i tx a requiredSigners) → ∃ message, outcome = .error message

section Together

variable {own : Address → CompiledTransaction → Signature}

variable {M : Type} {compileTransaction : M → CompiledTransaction}
  {getSignersFromTransactionMessage : M → List TransactionSigner}
variable {assertIsFullySignedTransaction : CompiledTransaction → Except String Unit}
  (requiredSigners : Bytes → List Address)

/-- Signing together asks every signer once, with exactly the transactions it has to sign, loses no
    signature in whatever order the partial signers answer, and rejects when one is missing. -/
def SignsTogether (compileTransaction : M → CompiledTransaction)
    (getSignersFromTransactionMessage : M → List TransactionSigner)
    (assertIsFullySignedTransaction : CompiledTransaction → Except String Unit)
    (own : Address → CompiledTransaction → Signature) (messages : List M) (lifetime : Lifetime) : Prop :=
  let signersByTx := messages.map getSignersFromTransactionMessage
  ∃ modified modifyCalls outcome calls,
    (∀ settling, signTransactionMessagesTogether assertIsFullySignedTransaction compileTransaction
      getSignersFromTransactionMessage settling messages lifetime [] = (outcome, calls)) ∧
    ModifiedInTurn signersByTx (modifyingSigners signersByTx) (messages.map compileTransaction)
      modifyCalls modified ∧
    AskedOnce signersByTx modified modifyCalls calls ∧
    MergedAll signersByTx own lifetime modified outcome ∧
    MissingRejects requiredSigners signersByTx modified outcome

/-- Where the modifying signers' answers leave a required signature missing, they leave an entry that
    stays `null`. -/
def WalletsKeepEntries (compileTransaction : M → CompiledTransaction)
    (getSignersFromTransactionMessage : M → List TransactionSigner) (messages : List M) : Prop :=
  let signersByTx := messages.map getSignersFromTransactionMessage
  ∀ asked left, ModifiedInTurn signersByTx (modifyingSigners signersByTx)
      (messages.map compileTransaction) asked left →
    (∃ (i : Nat) (tx : CompiledTransaction) (a : Address), left[i]? = some tx ∧
      Missing signersByTx i tx a requiredSigners) →
    ∃ (i : Nat) (tx : CompiledTransaction) (a : Address), left[i]? = some tx ∧
      StaysNull signersByTx i tx a

/-- An entry, `null` or not, for each required signer. -/
def HasEntries (tx : CompiledTransaction) : Prop :=
  ∀ a ∈ requiredSigners tx.messageBytes, a ∈ tx.signatures

/-- So it is when messages are compiled with an entry for each required signer, and no wallet drops one. -/
theorem walletsKeepEntries_of_answersAlike {messages : List M}
    (hcompiled : ∀ m ∈ messages, HasEntries requiredSigners (compileTransaction m))
    (hkeeps : ∀ m ∈ messages, ∀ s ∈ getSignersFromTransactionMessage m,
      AnswersAlike (HasEntries requiredSigners) s) :
    WalletsKeepEntries requiredSigners compileTransaction getSignersFromTransactionMessage messages := by
  rintro asked left hasked ⟨i, tx, a, hi, hrequired, hleft, hmissing⟩
  have hentries : ∀ tx ∈ left, HasEntries requiredSigners tx := by
    refine hasked.forall_mem (fun s hs => ?_) (List.forall_mem_map.mpr hcompiled)
    obtain ⟨signers, hsigners, hmem⟩ := List.mem_flatten.mp (modifyingSigners_subset hs)
    obtain ⟨m, hm, rfl⟩ := List.mem_map.mp hsigners
    exact hkeeps m hm s hmem
  obtain ⟨entry, hentry⟩ := Finmap.mem_iff.mp (hentries tx (List.mem_of_getElem? hi) a hrequired)
  refine ⟨i, tx, a, hi, hleft, ?_⟩
  cases entry with
  | none => exact hentry
  | some signature => exact absurd hentry (hmissing signature)

/-- Signing together does all this exactly if the wallets keep the entries: a required signer whose
    entry a wallet dropped is not missed by kit's assert. -/
theorem signTransactionMessagesTogether_signs_iff
    (hnotices : NoticesNulls assertIsFullySignedTransaction) (messages : List M) (lifetime : Lifetime)
    (hinterface : ∀ m ∈ messages, ∀ s ∈ getSignersFromTransactionMessage m,
      isTransactionModifyingSigner s = true ∨ isTransactionPartialSigner s = true)
    (hmodify : ∀ m ∈ messages, ∀ s ∈ getSignersFromTransactionMessage m, ∀ modify,
      s.modifyAndSignTransactions = some modify → ∀ txs, ∃ signed, modify txs = .ok signed)
    (hown : ∀ m ∈ messages, ∀ s ∈ getSignersFromTransactionMessage m, AnswersWith own s) :
    SignsTogether requiredSigners compileTransaction getSignersFromTransactionMessage
        assertIsFullySignedTransaction own messages lifetime ↔
      WalletsKeepEntries requiredSigners compileTransaction getSignersFromTransactionMessage
        messages := by
  obtain ⟨modified, modifyCalls, outcome, calls, hrun, hinTurn, hasked, hmerged, hresolves⟩ :=
    signTransactionMessagesTogether_merges compileTransaction hnotices messages lifetime hinterface hmodify
      hown
  have herror : (∃ message, outcome = .error message) ↔ ∃ (i : Nat) (tx : CompiledTransaction) (a : Address),
      modified[i]? = some tx ∧ StaysNull (messages.map getSignersFromTransactionMessage) i tx a := by
    have hnot : (∃ message, outcome = .error message) ↔ ¬∃ txs, outcome = .ok txs := by
      cases outcome with
      | ok txs => simp
      | error message => simp
    rw [hnot, hresolves]
    push Not
    simp only [exists_and_left]
  constructor
  · rintro ⟨modified', _, outcome', _, hrun', hinTurn', _, _, hrejects⟩ asked left hleft hmissing
    obtain rfl := hinTurn.unique hleft
    obtain rfl := hinTurn.unique hinTurn'
    have hinOrder : SettlingOrder := ⟨id, fun ps => .refl ps⟩
    obtain rfl : outcome = outcome' :=
      congrArg Prod.fst ((hrun hinOrder).symm.trans (hrun' hinOrder))
    exact herror.mp (hrejects hmissing)
  · intro hkeep
    refine ⟨modified, modifyCalls, outcome, calls, hrun, hinTurn, hasked, hmerged, fun hmissing => ?_⟩
    exact herror.mpr (hkeep modifyCalls modified hinTurn hmissing)

end Together

/-! ### A wallet and a co-signer -/

namespace CoSigned

/-- kit's assert. -/
def assertIsFullySignedTransaction (tx : CompiledTransaction) : Except String Unit :=
  if ∀ a ∈ tx.signatures.keys, tx.signatures.lookup a ≠ some none then .ok ()
  else .error "Transaction is missing signatures"

theorem noticesNulls : NoticesNulls assertIsFullySignedTransaction := by
  intro tx
  unfold assertIsFullySignedTransaction
  constructor
  · rintro ⟨message, h⟩
    split at h
    · cases h
    · rename_i hall
      push Not at hall
      obtain ⟨a, _, hnull⟩ := hall
      exact ⟨a, hnull⟩
  · rintro ⟨a, hnull⟩
    rw [if_neg]
    · exact ⟨_, rfl⟩
    · intro hall
      exact hall a (Finmap.mem_keys.mpr (Finmap.mem_of_lookup_eq_some hnull)) hnull

def wallet : TransactionSigner where
  address := "wallet"
  modifyAndSignTransactions := some fun txs =>
    .ok (txs.map (·.withSignatures (Finmap.singleton "wallet" (some "signed by wallet"))))
  length_modified := by
    rintro _ ⟨⟩ txs signed h
    obtain rfl := Except.ok.inj h
    exact List.length_map _

def cosigner : TransactionSigner where
  address := "cosigner"
  signTransactions := some fun txs =>
    .ok (txs.map fun _ => Finmap.singleton "cosigner" (some "signed by cosigner"))

/-- A second wallet, which returns the bytes with its own signature only. -/
def treasury : TransactionSigner where
  address := "treasury"
  modifyAndSignTransactions := some fun txs =>
    .ok (txs.map fun tx =>
      { tx with signatures := Finmap.singleton "treasury" (some "signed by treasury") })
  length_modified := by
    rintro _ ⟨⟩ txs signed h
    obtain rfl := Except.ok.inj h
    exact List.length_map _

/-- The bytes of a message name its signers. -/
def requiredSigners (bytes : Bytes) : List Address :=
  bytes.map fun byte => if byte = 0 then "wallet" else if byte = 1 then "cosigner" else "treasury"

/-- A message is its signers here; no signature is there yet. -/
def compileTransaction (signers : List TransactionSigner) : CompiledTransaction where
  messageBytes := signers.map fun s =>
    if s.address = "wallet" then 0 else if s.address = "cosigner" then 1 else 2
  signatures := signers.foldr (fun s signatures => signatures.insert s.address none) ∅

/-- An order to settle in. -/
def inOrder : SettlingOrder := ⟨id, fun ps => .refl ps⟩

theorem hasInterface {s : TransactionSigner} (hs : s = wallet ∨ s = cosigner) :
    isTransactionModifyingSigner s = true ∨ isTransactionPartialSigner s = true := by
  rcases hs with rfl | rfl
  · exact .inl rfl
  · exact .inr rfl

theorem modifies {s : TransactionSigner} (hs : s = wallet ∨ s = cosigner) :
    ∀ modify, s.modifyAndSignTransactions = some modify → ∀ txs, ∃ signed, modify txs = .ok signed := by
  rcases hs with rfl | rfl
  · rintro _ ⟨⟩ txs
    exact ⟨_, rfl⟩
  · rintro _ ⟨⟩

theorem answersWith {s : TransactionSigner} (hs : s = wallet ∨ s = cosigner) :
    AnswersWith (fun _ _ => "signed by cosigner") s := by
  rcases hs with rfl | rfl
  · rintro _ ⟨⟩
  · rintro _ ⟨⟩ txs
    rfl

theorem hasEntries_compileTransaction {signers : List TransactionSigner}
    (hsigners : ∀ s ∈ signers, s = wallet ∨ s = cosigner) :
    HasEntries requiredSigners (compileTransaction signers) := by
  have hrequired : requiredSigners (compileTransaction signers).messageBytes =
      signers.map (·.address) := by
    unfold requiredSigners compileTransaction
    rw [List.map_map]
    apply List.map_congr_left
    intro s hs
    rcases hsigners s hs with rfl | rfl
    · rfl
    · rfl
  intro a ha
  rw [hrequired] at ha
  clear hrequired hsigners
  induction signers with
  | nil => cases ha
  | cons s signers ih =>
    rcases List.mem_cons.mp ha with rfl | ha
    · exact Finmap.mem_insert.mpr (.inl rfl)
    · exact Finmap.mem_insert.mpr (.inr (ih ha))

theorem answersAlike_wallet : AnswersAlike (HasEntries requiredSigners) wallet := by
  rintro _ ⟨⟩ txs signed h hentries
  obtain rfl := Except.ok.inj h
  rw [List.forall_mem_map]
  intro tx htx a ha
  exact Finmap.mem_union.mpr (.inr (hentries tx htx a ha))

end CoSigned

open CoSigned in
/-- Two transactions, both signed by the wallet, one of them also by the co-signer. -/
theorem signs_with_cosigner :
    SignsTogether requiredSigners compileTransaction id assertIsFullySignedTransaction
      (fun _ _ => "signed by cosigner") [[wallet], [wallet, cosigner]] ⟨"blockhash", 1⟩ := by
  have hcases : ∀ m ∈ [[wallet], [wallet, cosigner]], ∀ s ∈ m, s = wallet ∨ s = cosigner := by
    simp
  apply (signTransactionMessagesTogether_signs_iff requiredSigners noticesNulls
    [[wallet], [wallet, cosigner]] ⟨"blockhash", 1⟩ (fun m hm s hs => hasInterface (hcases m hm s hs))
    (fun m hm s hs => modifies (hcases m hm s hs))
    (fun m hm s hs => answersWith (hcases m hm s hs))).mpr
  apply walletsKeepEntries_of_answersAlike
  · intro m hm
    exact hasEntries_compileTransaction (hcases m hm)
  · intro m hm s hs
    rcases hcases m hm s hs with rfl | rfl
    · exact answersAlike_wallet
    · rintro _ ⟨⟩

open CoSigned in
/-- The second wallet returns its own signature only. The co-signer's is merged in, the first wallet's
    is lost, and the call resolves. -/
theorem treasury_drops_signature :
    ¬SignsTogether requiredSigners compileTransaction id assertIsFullySignedTransaction
      (fun _ _ => "signed by cosigner") [[wallet, treasury, cosigner]] ⟨"blockhash", 1⟩ := by
  rintro ⟨modified, modifyCalls, outcome, calls, hrun, hinTurn, _, _, hrejects⟩
  have hresolved : ∃ txs, outcome = .ok txs := ⟨_, congrArg Prod.fst (hrun inOrder).symm⟩
  -- the two wallets' answers
  have hanswers : ∃ asked, ModifiedInTurn [[wallet, treasury, cosigner]] [wallet, treasury]
      [compileTransaction [wallet, treasury, cosigner]] asked
      [{ compileTransaction [wallet, treasury, cosigner] with
        signatures := Finmap.singleton "treasury" (some "signed by treasury") }] :=
    ⟨_, .cons rfl rfl (replaces_writeBack (nodup_needs wallet) (by decide) rfl)
      (.cons rfl rfl (replaces_writeBack (nodup_needs treasury) (by decide) rfl) .nil)⟩
  obtain ⟨asked, hanswers⟩ := hanswers
  obtain rfl := hinTurn.unique hanswers
  obtain ⟨message, hrejected⟩ := hrejects ⟨0, _, "wallet", rfl, by decide, by
    intro s hs _
    obtain rfl := List.mem_singleton.mp (show s ∈ [cosigner] from hs)
    decide, by
    intro signature h
    cases h⟩
  obtain ⟨txs, hresolved⟩ := hresolved
  cases hresolved.symm.trans hrejected

end Sdk
