-- SUMMARY: The auditor's report adds up to every account's confidential balance.
import ConfidentialTransfers.Lib.Steps
import ConfidentialTransfers.Sdk.ReportComplete

/-!
# Books

The confidential balances of a mint, as the token program keeps them while
transactions are executed, and the balances an auditor computes from the report.
They agree for every run of the chain.
-/

open Solana TwistedElGamal

namespace Sdk

/-! ## The balances of a mint -/

/-- The plaintexts of an account's confidential balance. -/
structure ConfidentialBalance where
  available : Nat
  pending : Nat
deriving DecidableEq, Repr

def ConfidentialBalance.total (b : ConfidentialBalance) : Nat := b.available + b.pending

/-- The confidential balances of a mint's accounts. -/
abbrev Ledger := Address → ConfidentialBalance

namespace Ledger

/-- Nothing is configured yet. -/
def empty : Ledger := fun _ => ⟨0, 0⟩

/-- Add to the pending balance. -/
def credit (ledger : Ledger) (token : Address) (amount : Nat) : Ledger :=
  Function.update ledger token ⟨(ledger token).available, (ledger token).pending + amount⟩

/-- Take from the available balance. -/
def debit (ledger : Ledger) (token : Address) (amount : Nat) : Ledger :=
  Function.update ledger token ⟨(ledger token).available - amount, (ledger token).pending⟩

/-- Add the pending balance to the available one. -/
def applyPending (ledger : Ledger) (token : Address) : Ledger :=
  Function.update ledger token ⟨(ledger token).available + (ledger token).pending, 0⟩

/-- The whole balance of an account. -/
def total (ledger : Ledger) (token : Address) : Int := (ledger token).total

theorem total_credit (ledger : Ledger) (token : Address) (amount : Nat) (t : Address) :
    (ledger.credit token amount).total t = ledger.total t + if token = t then (amount : Int) else 0 := by
  by_cases h : token = t
  · subst h
    simp [total, credit, ConfidentialBalance.total]
    omega
  · simp [total, credit, Function.update_of_ne (Ne.symm h), h]

theorem total_debit (ledger : Ledger) {token : Address} {amount : Nat}
    (hle : amount ≤ (ledger token).available) (t : Address) :
    (ledger.debit token amount).total t = ledger.total t - if token = t then (amount : Int) else 0 := by
  by_cases h : token = t
  · subst h
    simp [total, debit, ConfidentialBalance.total]
    omega
  · simp [total, debit, Function.update_of_ne (Ne.symm h), h]

theorem total_applyPending (ledger : Ledger) (token t : Address) :
    (ledger.applyPending token).total t = ledger.total t := by
  by_cases h : token = t
  · subst h
    simp [total, applyPending, ConfidentialBalance.total]
  · simp [total, applyPending, Function.update_of_ne (Ne.symm h)]

end Ledger

variable {F G : Type} [CommRing F] [AddCommGroup G] [Module F G]

/-- The halves, as the auditor can read them, are those of the amount. -/
def AuditorHalves (zk : ZkSdk F G) (secret : Fˣ) (auditorLo auditorHi : Bytes) (amount : Nat) : Prop :=
  ∃ lo hi, zk.ciphertextFromBytes auditorLo = some lo ∧ zk.ciphertextFromBytes auditorHi = some hi ∧
    Holds zk.toPedersenBasis secret lo (amount % 2 ^ 16) ∧
    Holds zk.toPedersenBasis secret hi (amount / 2 ^ 16)

/-- What an instruction does to the balances of a mint whose auditor has this key. There is no rule for
    a transfer with fee: the mint has no transfer fee. -/
inductive LedgerStep (zk : ZkSdk F G) (secret : Fˣ) (mint : Address) :
    Ledger → ChainInstruction → Ledger → Prop
  | deposit (ledger token amount others) :
    LedgerStep zk secret mint ledger (.movement (.deposit token amount) mint others)
      (ledger.credit token.address amount)
  | withdraw (ledger token amount others) (hle : amount ≤ (ledger token.address).available) :
    LedgerStep zk secret mint ledger (.movement (.withdraw token amount) mint others)
      (ledger.debit token.address amount)
  | transfer (ledger source destination auditorLo auditorHi others) (amount : Nat)
    (hamount : amount < 2 ^ 48) (hhalves : AuditorHalves zk secret auditorLo auditorHi amount)
    (hle : amount ≤ (ledger source.address).available) :
    LedgerStep zk secret mint ledger
      (.movement (.transfer source destination auditorLo auditorHi) mint others)
      ((ledger.debit source.address amount).credit destination.address amount)
  | applyPendingBalance (ledger token others) :
    LedgerStep zk secret mint ledger (.applyPendingBalance token others) (ledger.applyPending token)
  | otherMint (ledger m mint' others) (hmint : mint' ≠ mint) :
    LedgerStep zk secret mint ledger (.movement m mint' others) ledger
  | other (ledger program accounts data) :
    LedgerStep zk secret mint ledger (.other program accounts data) ledger

/-- A transaction that succeeds runs its instructions in the order they are invoked; one that fails
    changes nothing. -/
def TransactionStep (zk : ZkSdk F G) (secret : Fˣ) (mint : Address) (ledger : Ledger)
    (tx : ExecutedTransaction) (ledger' : Ledger) : Prop :=
  if tx.succeeded then Steps (LedgerStep zk secret mint) ledger tx.instructions ledger'
  else ledger' = ledger

/-! ## The balances in the report -/

/-- What an entry adds to the balance of an account. -/
def Movement.effectOn (token : Address) (entry : Movement) : Int :=
  let amount : Int := entry.amount.getD 0
  let incoming := if entry.toToken = some token then amount else 0
  let outgoing := if entry.fromToken = some token then amount else 0
  match entry.kind with
  | .deposit => incoming
  | .withdraw => -outgoing
  | .transfer => incoming - outgoing
  | .transferWithFee => incoming - outgoing

/-- An account's deposits and incoming transfers minus its outgoing transfers and withdraws. -/
def bookBalance (entries : List ConfidentialActivity) (token : Address) : Int :=
  (entries.map fun entry => entry.toMovement.effectOn token).sum

/-! ## One instruction -/

variable {zk : ZkSdk F G} {secret : Fˣ} {mint : Address}

/-- A transfer whose halves the auditor can read is reported with its amount. -/
theorem reportedMovement_transfer {owner : TokenAccount → Option Address}
    {source destination : TokenAccount} {auditorLo auditorHi : Bytes} {amount : Nat}
    (hhalves : AuditorHalves zk secret auditorLo auditorHi amount) (hamount : amount < 2 ^ 48) :
    reportedMovement zk secret owner (.transfer source destination auditorLo auditorHi) =
      { kind := .transfer, fromToken := some source.address, fromOwner := owner source,
        toToken := some destination.address, toOwner := owner destination, amount := some amount,
        decrypted := true } := by
  obtain ⟨lo, hi, hlo, hhi, hholdsLo, hholdsHi⟩ := hhalves
  have hdecrypt := decryptHalves_of_holds zk hlo hhi hholdsLo hholdsHi hamount
  simp [reportedMovement, hdecrypt, TokenMovement.source, TokenMovement.destination]

/-- What an instruction contributes to the books of an account. -/
def instructionEffect (zk : ZkSdk F G) (secret : Fˣ) (mint : Address)
    (owner : TokenAccount → Option Address) (token : Address) (ix : ChainInstruction) : Int :=
  ((movementOf mint ix).map fun m => (reportedMovement zk secret owner m).effectOn token).getD 0

/-- An instruction changes a balance by what it contributes to the books. -/
theorem ledgerStep_total (owner : TokenAccount → Option Address) (token : Address) {ledger : Ledger}
    {ix : ChainInstruction} {ledger' : Ledger} (h : LedgerStep zk secret mint ledger ix ledger') :
    ledger'.total token =
      ledger.total token + instructionEffect zk secret mint owner token ix := by
  cases h with
  | deposit account amount others =>
    rw [Ledger.total_credit]
    simp [instructionEffect, movementOf, reportedMovement, Movement.effectOn,
      TokenMovement.destination]
  | withdraw account amount others hle =>
    rw [Ledger.total_debit ledger hle]
    simp [instructionEffect, movementOf, reportedMovement, Movement.effectOn, TokenMovement.source,
      sub_eq_add_neg]
  | transfer source destination auditorLo auditorHi others amount hamount hhalves hle =>
    rw [Ledger.total_credit, Ledger.total_debit ledger hle]
    simp only [instructionEffect, movementOf, reportedMovement_transfer hhalves hamount,
      Movement.effectOn, if_true, Option.map_some, Option.getD_some, Option.some.injEq]
    omega
  | applyPendingBalance account others =>
    rw [Ledger.total_applyPending]
    simp [instructionEffect, movementOf]
  | otherMint m mint' others hmint => simp [instructionEffect, movementOf, hmint]
  | other program accounts data => simp [instructionEffect, movementOf]

/-- Every executed movement is reported with an amount. -/
theorem ledgerStep_amount (owner : TokenAccount → Option Address) {ledger : Ledger}
    {ix : ChainInstruction} {ledger' : Ledger} (h : LedgerStep zk secret mint ledger ix ledger') :
    ∀ m ∈ movementOf mint ix, (reportedMovement zk secret owner m).amount ≠ none := by
  intro m hm
  cases h with
  | deposit account amount others =>
    obtain rfl : TokenMovement.deposit account amount = m := by simpa [movementOf] using hm
    simp [reportedMovement]
  | withdraw account amount others hle =>
    obtain rfl : TokenMovement.withdraw account amount = m := by simpa [movementOf] using hm
    simp [reportedMovement]
  | transfer source destination auditorLo auditorHi others amount hamount hhalves hle =>
    obtain rfl : TokenMovement.transfer source destination auditorLo auditorHi = m := by
      simpa [movementOf] using hm
    simp [reportedMovement_transfer hhalves hamount]
  | applyPendingBalance account others => simp [movementOf] at hm
  | otherMint m' mint' others hmint => simp [movementOf, hmint] at hm
  | other program accounts data => simp [movementOf] at hm

/-! ## Transactions and runs -/

theorem sum_filterMap {α β : Type} (f : α → Option β) (g : β → Int) (xs : List α) :
    ((xs.filterMap f).map g).sum = (xs.map fun x => ((f x).map g).getD 0).sum := by
  induction xs with
  | nil => rfl
  | cons x xs ih => cases hx : f x <;> simp [hx, ih]

@[simp] theorem bookBalance_nil (token : Address) : bookBalance [] token = 0 := rfl

theorem bookBalance_append (entries entries' : List ConfidentialActivity) (token : Address) :
    bookBalance (entries ++ entries') token = bookBalance entries token + bookBalance entries' token := by
  simp [bookBalance]

/-- The books of one transaction. -/
theorem bookBalance_transactionReport (owner : ExecutedTransaction → TokenAccount → Option Address)
    (tx : ExecutedTransaction) (token : Address) :
    bookBalance (transactionReport zk secret mint owner tx) token =
      (tx.instructions.map (instructionEffect zk secret mint (owner tx) token)).sum := by
  simp only [bookBalance, transactionReport, movementsOf, List.map_map, Function.comp_def]
  exact sum_filterMap _ _ _

/-- What a transaction has in the report. -/
def entriesOf (zk : ZkSdk F G) (secret : Fˣ) (mint : Address)
    (owner : ExecutedTransaction → TokenAccount → Option Address) (tx : ExecutedTransaction) :
    List ConfidentialActivity :=
  if tx.succeeded then transactionReport zk secret mint owner tx else []

theorem historyReport_eq_flatMap (owner : ExecutedTransaction → TokenAccount → Option Address)
    (chain : List ExecutedTransaction) :
    historyReport zk secret mint owner chain = chain.flatMap (entriesOf zk secret mint owner) := by
  induction chain with
  | nil => rfl
  | cons tx chain ih =>
    rw [historyReport] at ih
    cases h : tx.succeeded <;> simp [historyReport, entriesOf, h, ih]

/-- A transaction changes a balance by what it has in the report. -/
theorem transactionStep_total (owner : ExecutedTransaction → TokenAccount → Option Address)
    (token : Address) {ledger ledger' : Ledger} {tx : ExecutedTransaction}
    (h : TransactionStep zk secret mint ledger tx ledger') :
    ledger'.total token =
      ledger.total token + bookBalance (entriesOf zk secret mint owner tx) token := by
  unfold TransactionStep at h
  unfold entriesOf
  cases hsucceeded : tx.succeeded with
  | true =>
    rw [hsucceeded, if_pos rfl] at h
    rw [if_pos rfl, bookBalance_transactionReport]
    exact h.sum (m := fun l => Ledger.total l token) fun _ _ _ => ledgerStep_total (owner tx) token
  | false =>
    rw [hsucceeded, if_neg Bool.false_ne_true] at h
    simp [h]

theorem transactionStep_amount (owner : ExecutedTransaction → TokenAccount → Option Address)
    {ledger ledger' : Ledger} {tx : ExecutedTransaction}
    (h : TransactionStep zk secret mint ledger tx ledger') :
    ∀ entry ∈ entriesOf zk secret mint owner tx, entry.amount ≠ none := by
  intro entry hentry
  unfold TransactionStep at h
  unfold entriesOf at hentry
  split at hentry
  · rename_i hsucceeded
    rw [if_pos hsucceeded] at h
    obtain ⟨m, hm, rfl⟩ := List.mem_map.mp hentry
    obtain ⟨ix, hix, hmix⟩ := List.mem_filterMap.mp hm
    have hamounts := h.forall_mem (p := fun ix => ∀ m ∈ movementOf mint ix,
      (reportedMovement zk secret (owner tx) m).amount ≠ none)
      fun _ _ _ hstep => ledgerStep_amount (owner tx) hstep
    exact hamounts ix hix m hmix
  · simp at hentry

/-- A transaction that does not mention the mint has no movements of it. -/
theorem movementsOf_of_not_mentions {tx : ExecutedTransaction} (h : tx.mentions mint = false) :
    movementsOf mint tx = [] := by
  rw [movementsOf, List.filterMap_eq_nil_iff]
  intro ix hix
  have hkeys := tx.accounts_subset ix hix
  cases ix with
  | movement m mint' others =>
    have hmint : mint' ∈ (ChainInstruction.movement m mint' others).accounts := by
      cases m <;> simp [ChainInstruction.accounts, TokenMovement.accounts]
    have hne : mint' ≠ mint := by
      rintro rfl
      simp [ExecutedTransaction.mentions, hkeys hmint] at h
    simp [movementOf, hne]
  | applyPendingBalance token others => rfl
  | other program accounts data => rfl

/-- The mint's own history reports as much as the whole chain. -/
theorem historyReport_mentions (owner : ExecutedTransaction → TokenAccount → Option Address)
    (chain : List ExecutedTransaction) :
    historyReport zk secret mint owner (chain.filter (·.mentions mint)) =
      historyReport zk secret mint owner chain := by
  simp only [historyReport_eq_flatMap]
  induction chain with
  | nil => rfl
  | cons tx chain ih =>
    cases h : tx.mentions mint with
    | true => simp [h, ih]
    | false =>
      have hnone : entriesOf zk secret mint owner tx = [] := by
        simp [entriesOf, transactionReport, movementsOf_of_not_mentions h]
      simp [h, ih, hnone]

/-- In every run of the chain from unconfigured accounts, the balances computed from the report of the
    mint's full history are the confidential balances, and every entry has its amount. -/
theorem report_reconciles {codec : InstructionCodec} {input : ListConfidentialActivityInput F}
    {rpc : HistoryRpc} {chain : List ExecutedTransaction} {ledger : Ledger}
    (hrun : Steps (TransactionStep zk input.auditorSecret input.mint) Ledger.empty chain ledger)
    (hserves : Serves codec (input.programAddress.getD token2022ProgramAddress) input.mint rpc
      (chain.filter (·.mentions input.mint)))
    (hall : input.ReadsAll) (hkey : KeyAccepted zk rpc input) {fuel : Nat}
    (hfuel : (chain.filter (·.mentions input.mint)).length / pageLimit < fuel) :
    ∃ entries, listConfidentialActivity codec zk rpc input fuel = some (.ok entries) ∧
      (∀ entry ∈ entries, entry.amount ≠ none) ∧
      ∀ token, bookBalance entries token = (ledger token).available + (ledger token).pending := by
  refine ⟨_, listConfidentialActivity_eq hserves hall hkey hfuel, ?_, ?_⟩
  · rw [historyReport_mentions, historyReport_eq_flatMap]
    intro entry hentry
    obtain ⟨tx, htx, hentry⟩ := List.mem_flatMap.mp hentry
    have hamounts := hrun.forall_mem (p := fun tx =>
      ∀ entry ∈ entriesOf zk input.auditorSecret input.mint ownerBefore tx, entry.amount ≠ none)
      fun _ _ _ hstep => transactionStep_amount ownerBefore hstep
    exact hamounts tx htx entry hentry
  · intro token
    have htotal := hrun.sum (m := fun l => Ledger.total l token)
      (d := fun tx => bookBalance (entriesOf zk input.auditorSecret input.mint ownerBefore tx) token)
      fun _ _ _ hstep => transactionStep_total ownerBefore token hstep
    have hbooks : bookBalance (chain.flatMap (entriesOf zk input.auditorSecret input.mint ownerBefore))
        token = (chain.map fun tx =>
          bookBalance (entriesOf zk input.auditorSecret input.mint ownerBefore tx) token).sum := by
      clear htotal hrun hserves hfuel
      induction chain with
      | nil => rfl
      | cons tx chain ih => rw [List.flatMap_cons, bookBalance_append, ih, List.map_cons, List.sum_cons]
    rw [historyReport_mentions, historyReport_eq_flatMap, hbooks]
    have hempty : Ledger.empty.total token = 0 := rfl
    rw [hempty, zero_add] at htotal
    rw [← htotal, Ledger.total, ConfidentialBalance.total, Nat.cast_add]

namespace Statement

/-- The balances after the statement: alice has 1 left, bob 3 to come. -/
def ledger : Ledger :=
  ((((Ledger.empty.credit "alice token" 5).applyPending "alice token").debit "alice token" 3).credit
    "bob token" 3).debit "alice token" 1

/-- The auditor can read the 3 that alice pays. -/
theorem auditorHalves : AuditorHalves ZkSdk.modular 1 (ZkSdk.modular.ciphertextToBytes (3, 0))
    (ZkSdk.modular.ciphertextToBytes (0, 0)) 3 := by
  refine ⟨_, _, ZkSdk.modular.ciphertextFromBytes_toBytes _, ZkSdk.modular.ciphertextFromBytes_toBytes _,
    ?_, ?_⟩
  · simp [Holds, decryptPoint, ZkSdk.modular]
  · simp [Holds, decryptPoint, ZkSdk.modular]

theorem steps : Steps (TransactionStep ZkSdk.modular 1 "mint") Ledger.empty transactions ledger := by
  refine .cons (.cons (.deposit _ alice 5 _) (.single (.applyPendingBalance _ "alice token" _)))
    (.cons (.cons (.other _ _ _ _) (.single (.transfer _ alice bob _ _ _ 3 (by decide) auditorHalves ?_)))
      (.cons rfl (.single (.single (.withdraw _ alice 1 _ ?_)))))
  · decide
  · decide

end Statement

open Statement in
/-- The books of the statement. -/
theorem report_reconciles_known_account :
    ∃ entries, listConfidentialActivity codec ZkSdk.modular (servedRpc history) input 1 =
        some (.ok entries) ∧
      (∀ entry ∈ entries, entry.amount ≠ none) ∧
      ∀ token, bookBalance entries token = (ledger token).available + (ledger token).pending := by
  have hmentions : transactions.filter (·.mentions input.mint) = transactions :=
    List.filter_eq_self.mpr (by decide)
  apply report_reconciles steps _ readsAll (.inl rfl)
  · rw [hmentions]
    decide
  · rw [hmentions]
    exact serves

end Sdk
