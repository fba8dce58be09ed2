-- SUMMARY: How many transactions a report fetches at a time, and when that shows in the report.
import ConfidentialTransfers.Lib.Effect
import ConfidentialTransfers.Sdk.Signatures

/-!
# Fetching at a time

`listConfidentialActivity` slices its signatures by a JavaScript number. Every
such number of at least one cuts them into consecutive pieces; only `NaN`, which
`Math.max` lets through, gives a single empty slice.
-/

open Solana

namespace Sdk

/-! ## Slices by a JavaScript number -/

section Slices

variable {α : Type} (xs : List α)

theorem max_one_cases {x : JsNumber} (hx : x ≠ .nan) :
    (∃ q, 1 ≤ q ∧ JsNumber.max (.ofNat 1) x = .finite q) ∨ JsNumber.max (.ofNat 1) x = .infinity := by
  cases x with
  | nan => exact absurd rfl hx
  | infinity => exact .inr rfl
  | negInfinity => exact .inl ⟨1, le_refl 1, rfl⟩
  | finite q =>
    refine .inl ⟨if q ≤ 1 then 1 else q, ?_, ?_⟩
    · split
      · exact le_refl 1
      · rename_i h
        exact le_of_not_ge h
    · simp only [JsNumber.max, JsNumber.ofNat, JsNumber.ge, Nat.cast_one, decide_eq_true_eq]
      split <;> rfl

/-- Each step goes on by one position at least, or to the end. -/
theorem nextPosition_cases {length : Nat} {p q : ℚ} (hp : 0 ≤ p) (hlt : ⌊p⌋₊ < length) (hq : 1 ≤ q) :
    nextPosition length (.finite p) (.finite q) = .infinity ∨
      ∃ r : ℚ, nextPosition length (.finite p) (.finite q) = .finite r ∧ ((⌊p⌋₊ + 1 : Nat) : ℚ) ≤ r := by
  have hsum : ((⌊p⌋₊ + 1 : Nat) : ℚ) ≤ p + q := by
    have hfloor : (⌊p⌋₊ : ℚ) ≤ p := Nat.floor_le hp
    push_cast
    linarith
  unfold nextPosition
  split
  · rename_i harray
    have hdouble : ⌊p⌋₊ + 1 ≤ 2 ^ 53 := by
      unfold arrayLimit at harray
      omega
    exact JsNumber.ofRat_cases hdouble hsum
  · exact .inr ⟨p + q, rfl, hsum⟩

theorem slices_infinity (concurrency : JsNumber) (fuel : Nat) : slices xs concurrency fuel .infinity = [] := by
  cases fuel <;> simp [slices, JsNumber.lt, JsNumber.ge, JsNumber.ofNat]

/-- From position `p` on, the slices are what is left. -/
theorem flatten_slices_finite {q : ℚ} (hq : 1 ≤ q) (fuel : Nat) {p : ℚ} (hp : 0 ≤ p)
    (hfuel : xs.length ≤ ⌊p⌋₊ + fuel) :
    (slices xs (.finite q) fuel (.finite p)).flatten = xs.drop ⌊p⌋₊ := by
  induction fuel generalizing p with
  | zero => simp [slices, List.drop_eq_nil_of_le (by omega : xs.length ≤ ⌊p⌋₊)]
  | succ fuel ih =>
    by_cases hlt : p < (xs.length : ℚ)
    · have hlt' : JsNumber.lt (.finite p) (.ofNat xs.length) = true := by
        simp [JsNumber.lt, JsNumber.ofNat, JsNumber.ge, hlt]
      rw [slices, if_pos hlt', List.flatten_cons]
      rcases nextPosition_cases hp ((Nat.floor_lt hp).mpr hlt) hq with hnext | ⟨r, hnext, hr⟩
      · rw [hnext, slices_infinity, JsNumber.slice_infinity xs hp]
        simp
      · have hr0 : 0 ≤ r := (Nat.cast_nonneg _).trans hr
        have hstep : ⌊p⌋₊ + 1 ≤ ⌊r⌋₊ := Nat.le_floor hr
        rw [hnext, ih hr0 (by omega), JsNumber.slice_finite xs hp hr0, List.drop_take]
        conv_rhs => rw [← List.take_append_drop (⌊r⌋₊ - ⌊p⌋₊) (xs.drop ⌊p⌋₊), List.drop_drop]
        congr 2
        omega
    · have hge : JsNumber.lt (.finite p) (.ofNat xs.length) = false := by
        simp [JsNumber.lt, JsNumber.ofNat, JsNumber.ge, not_lt.mp hlt]
      have hlength : xs.length ≤ ⌊p⌋₊ := Nat.le_floor (not_lt.mp hlt)
      simp [slices, hge, List.drop_eq_nil_of_le hlength]

/-- Cut by any number but `NaN`, the signatures are the pieces in their order. -/
theorem flatten_slices {c : JsNumber} (hc : c ≠ .nan) :
    (slices xs (JsNumber.max (.ofNat 1) c) xs.length (.ofNat 0)).flatten = xs := by
  have hzero : JsNumber.ofNat 0 = .finite 0 := by simp [JsNumber.ofNat]
  rcases max_one_cases hc with ⟨q, hq, hmax⟩ | hmax
  · rw [hmax, hzero, flatten_slices_finite xs hq xs.length (le_refl 0) (by simp)]
    simp
  · rw [hmax]
    cases xs with
    | nil => rfl
    | cons x xs =>
      have hlt : JsNumber.lt (.ofNat 0) (.ofNat (x :: xs).length) = true := by
        simp
      have hnext : nextPosition (x :: xs).length (.ofNat 0) .infinity = .infinity := by
        unfold nextPosition
        split <;> rfl
      rw [List.length_cons, slices, if_pos hlt, hnext, slices_infinity, hzero,
        JsNumber.slice_infinity _ (le_refl 0)]
      simp

/-- Steps of 1.1 add up to a little less than 11, so the last piece has two. -/
example : slices (List.range 12) (.ofRat 1.1) 12 (.ofNat 0) =
    [[0], [1], [2], [3], [4], [5], [6], [7], [8], [9], [10, 11]] := by
  decide +kernel

/-- Cut by `NaN`, none of them is in a piece. -/
theorem flatten_slices_nan :
    (slices xs (JsNumber.max (.ofNat 1) .nan) xs.length (.ofNat 0)).flatten = [] := by
  have hend : ∀ fuel, slices xs .nan fuel .nan = [] := by
    intro fuel
    cases fuel <;> simp [slices, JsNumber.lt]
  have hmax : JsNumber.max (.ofNat 1) .nan = .nan := rfl
  rw [hmax]
  cases xs with
  | nil => rfl
  | cons x xs =>
    have hnext : nextPosition (x :: xs).length (.ofNat 0) .nan = .nan := by
      unfold nextPosition
      split <;> rfl
    have hnone : JsNumber.slice (x :: xs) (.ofNat 0) .nan = [] := by
      simp [JsNumber.slice, JsNumber.sliceIndex]
    rw [List.length_cons, slices, hnext, hnone, hend]
    split <;> rfl

end Slices

/-! ## Batches -/

variable {F G : Type} [CommRing F] [AddCommGroup G] [Module F G]
  (codec : InstructionCodec) (zk : ZkSdk F G) (rpc : HistoryRpc) (input : ListConfidentialActivityInput F)

/-- The transaction can be fetched, and these are its entries. -/
def Reads (signature : Signature) (entries : List ConfidentialActivity) : Prop :=
  ∃ tx, rpc.getTransaction signature = .ok tx ∧
    transactionEntries codec zk input signature tx = .ok entries

variable {codec zk rpc input}

/-- A batch gives the entries of each of its transactions. -/
theorem batchEntries_eq_ok_iff {batch : List Signature} {entries : List (List ConfidentialActivity)} :
    batchEntries codec zk rpc input batch = .ok entries ↔
      List.Forall₂ (Reads codec zk rpc input) batch entries := by
  unfold batchEntries Reads
  simp only [Except.bind_eq_ok_iff, Except.mapM_eq_ok_iff, Except.mapError_eq_ok_iff]
  constructor
  · rintro ⟨txs, hfetched, hentries⟩
    induction hfetched generalizing entries with
    | nil =>
      cases hentries
      exact .nil
    | cons hfetch _ ih =>
      cases hentries with
      | cons hfirst hrest => exact .cons ⟨_, hfetch, hfirst⟩ (ih hrest)
  · intro h
    induction h with
    | nil => exact ⟨[], .nil, .nil⟩
    | cons hreads _ ih =>
      obtain ⟨tx, hfetch, hfirst⟩ := hreads
      obtain ⟨txs, hfetched, hrest⟩ := ih
      exact ⟨tx :: txs, .cons hfetch hfetched, .cons hfirst hrest⟩

/-- However they are cut into batches, the transactions are read one by one. -/
theorem mapM_batchEntries_iff {batches : List (List Signature)} {entries : List (List ConfidentialActivity)} :
    (∃ perBatch, batches.mapM (batchEntries codec zk rpc input) = .ok perBatch ∧
      perBatch.flatten = entries) ↔
      List.Forall₂ (Reads codec zk rpc input) batches.flatten entries := by
  simp only [Except.mapM_eq_ok_iff, batchEntries_eq_ok_iff]
  constructor
  · rintro ⟨perBatch, hread, rfl⟩
    exact List.rel_flatten hread
  · intro h
    induction batches generalizing entries with
    | nil =>
      cases h
      exact ⟨[], .nil, rfl⟩
    | cons batch batches ih =>
      rw [List.flatten_cons] at h
      have hfirst := (List.forall₂_take_append _ _ _ h.flip).flip
      obtain ⟨perBatch, hread, hrest⟩ := ih (List.forall₂_drop_append _ _ _ h.flip).flip
      refine ⟨entries.take batch.length :: perBatch, .cons hfirst hread, ?_⟩
      rw [List.flatten_cons, hrest, List.take_append_drop]

/-! ## The report -/

/-- The same report, fetching so many transactions at a time. -/
def ListConfidentialActivityInput.fetching (input : ListConfidentialActivityInput F)
    (concurrency : Option JsNumber) : ListConfidentialActivityInput F :=
  { input with concurrency }

theorem takePage_fetching (concurrency : Option JsNumber) (page : List SignatureInfo) (out : List Signature) :
    takePage (input.fetching concurrency) page out = takePage input page out := by
  induction page generalizing out with
  | nil => rfl
  | cons s page ih =>
    simp only [takePage, ih]
    rfl

theorem signaturesFrom_fetching (concurrency : Option JsNumber) (fuel : Nat) (before : Option Signature)
    (out : List Signature) :
    signaturesFrom rpc (input.fetching concurrency) fuel before out =
      signaturesFrom rpc input fuel before out := by
  induction fuel generalizing before out with
  | zero => rfl
  | succ fuel ih =>
    simp only [signaturesFrom, takePage_fetching, ih]
    rfl

/-- The activity is what every selected transaction, read one by one, says, oldest first. -/
def ReportsAll (codec : InstructionCodec) (zk : ZkSdk F G) (rpc : HistoryRpc)
    (input : ListConfidentialActivityInput F) (fuel : Nat) (activity : List ConfidentialActivity) : Prop :=
  checkAuditorKey zk rpc input = .ok () ∧
    ∃ signatures, signaturesOf rpc input fuel = some (.ok signatures) ∧
      ∃ entries, List.Forall₂ (Reads codec zk rpc input) signatures entries ∧
        activity = entries.reverse.flatten

theorem listConfidentialActivity_eq_ok_iff {fuel : Nat} {activity : List ConfidentialActivity}
    {concurrency : Option JsNumber} :
    listConfidentialActivity codec zk rpc (input.fetching concurrency) fuel = some (.ok activity) ↔
      checkAuditorKey zk rpc input = .ok () ∧
        ∃ signatures, signaturesOf rpc input fuel = some (.ok signatures) ∧
          ∃ entries, List.Forall₂ (Reads codec zk rpc input)
              (slices signatures (JsNumber.max (.ofNat 1) (concurrency.getD (.ofNat 4))) signatures.length
                (.ofNat 0)).flatten entries ∧
            activity = entries.reverse.flatten := by
  have hkey : checkAuditorKey zk rpc (input.fetching concurrency) = checkAuditorKey zk rpc input := rfl
  have hsignatures : signaturesOf rpc (input.fetching concurrency) fuel = signaturesOf rpc input fuel :=
    signaturesFrom_fetching concurrency fuel none []
  have hbatch : batchEntries codec zk rpc (input.fetching concurrency) = batchEntries codec zk rpc input := rfl
  unfold listConfidentialActivity
  rw [hkey]
  cases checkAuditorKey zk rpc input with
  | error e => simp
  | ok _ =>
    simp only [hsignatures, hbatch, Option.map_eq_some_iff, true_and, Except.bind_eq_ok_iff,
      ← mapM_batchEntries_iff]
    constructor
    · rintro ⟨_, hrun, signatures, rfl, perBatch, hread, hactivity⟩
      exact ⟨signatures, hrun, perBatch.flatten, ⟨perBatch, hread, rfl⟩, (Except.ok.inj hactivity).symm⟩
    · rintro ⟨signatures, hrun, _, ⟨perBatch, hread, rfl⟩, rfl⟩
      exact ⟨_, hrun, signatures, rfl, perBatch, hread, rfl⟩

/-- Fetching any number of transactions at a time but `NaN` reports them all. -/
theorem reportsAll_iff {fuel : Nat} {activity : List ConfidentialActivity} {concurrency : Option JsNumber}
    (hnumber : concurrency.getD (.ofNat 4) ≠ .nan) :
    listConfidentialActivity codec zk rpc (input.fetching concurrency) fuel = some (.ok activity) ↔
      ReportsAll codec zk rpc input fuel activity := by
  simp only [listConfidentialActivity_eq_ok_iff, flatten_slices _ hnumber, ReportsAll]

/-- Fetching `NaN` transactions at a time reports nothing, without reading any. -/
theorem reportsNothing_iff {fuel : Nat} {activity : List ConfidentialActivity} :
    listConfidentialActivity codec zk rpc (input.fetching (some .nan)) fuel = some (.ok activity) ↔
      activity = [] ∧ checkAuditorKey zk rpc input = .ok () ∧
        ∃ signatures, signaturesOf rpc input fuel = some (.ok signatures) := by
  rw [listConfidentialActivity_eq_ok_iff]
  simp only [Option.getD_some, flatten_slices_nan, List.forall₂_nil_left_iff]
  constructor
  · rintro ⟨hkey, signatures, hrun, entries, rfl, rfl⟩
    exact ⟨rfl, hkey, signatures, hrun⟩
  · rintro ⟨rfl, hkey, signatures, hrun⟩
    exact ⟨hkey, signatures, hrun, [], rfl, rfl⟩

/-- The auditor's key is the mint's, unless the caller skips the check. -/
def KeyAccepted (zk : ZkSdk F G) (rpc : HistoryRpc) (input : ListConfidentialActivityInput F) : Prop :=
  input.skipAuditorKeyCheck = true ∨
    ∃ mint, rpc.fetchMint input.mint = .ok mint ∧
      confidentialTransferMintAuditor mint = some (getAuditorElgamalPubkey zk input.auditorSecret)

theorem checkAuditorKey_eq_ok_iff : checkAuditorKey zk rpc input = .ok () ↔ KeyAccepted zk rpc input := by
  unfold checkAuditorKey KeyAccepted
  cases hskip : input.skipAuditorKeyCheck with
  | true => simp [pure, Except.pure]
  | false =>
    simp only [Bool.false_eq_true, if_false, false_or, Except.bind_eq_ok_iff]
    constructor
    · intro h
      obtain ⟨mint, hmint, hcheck⟩ := h
      refine ⟨mint, readMint_eq_ok_iff.mp hmint, ?_⟩
      by_contra hauditor
      simp [hauditor, throw, throwThe, MonadExceptOf.throw] at hcheck
    · intro h
      obtain ⟨mint, hmint, hauditor⟩ := h
      refine ⟨mint, readMint_eq_ok_iff.mpr hmint, ?_⟩
      simp [hauditor, pure, Except.pure]

/-- The key is accepted only where every transaction of the history that the period and the limit select
    can be read and moves nothing of the mint. -/
def NothingToReport (codec : InstructionCodec) (zk : ZkSdk F G) (rpc : HistoryRpc)
    (input : ListConfidentialActivityInput F) (history : List SignatureInfo) : Prop :=
  KeyAccepted zk rpc input → ∀ s ∈ input.select [] history, Reads codec zk rpc input s []

section History

variable {history : List SignatureInfo} {fuel : Nat}

/-- An empty report is all there is exactly when there is nothing to report. -/
theorem reportsAll_nil_iff (hserves : ServesSignatures input.mint rpc history)
    (hfuel : history.length / pageLimit < fuel) (hkey : KeyAccepted zk rpc input) :
    ReportsAll codec zk rpc input fuel [] ↔ NothingToReport codec zk rpc input history := by
  have hrun := signaturesOf_select hserves hfuel
  constructor
  · intro h _ s hs
    obtain ⟨-, signatures, hrun', entries, hread, hnil⟩ := h
    obtain rfl : signatures = input.select [] history := by simpa [hrun] using hrun'.symm
    have hempty : ∀ es ∈ entries, es = [] := by
      intro es hes
      exact List.flatten_eq_nil_iff.mp hnil.symm es (List.mem_reverse.mpr hes)
    clear hnil hrun' hrun
    generalize input.select [] history = signatures at hread hs
    induction hread with
    | nil => cases hs
    | cons hfirst _ ih =>
      have hhead := hempty _ List.mem_cons_self
      rcases List.mem_cons.mp hs with rfl | hs
      · exact hhead ▸ hfirst
      · exact ih (fun es hes => hempty es (List.mem_cons_of_mem _ hes)) hs
  · intro hnothing
    have hreads := hnothing hkey
    refine ⟨checkAuditorKey_eq_ok_iff.mpr hkey, _, hrun, (input.select [] history).map fun _ => [], ?_, ?_⟩
    · rw [List.forall₂_map_right_iff, List.forall₂_same]
      exact hreads
    · rw [eq_comm, List.flatten_eq_nil_iff]
      simp

/-- Fetching `NaN` transactions at a time reports nothing, without reading any. -/
theorem reportsNothing_of_history (hserves : ServesSignatures input.mint rpc history)
    (hfuel : history.length / pageLimit < fuel) {activity : List ConfidentialActivity} :
    listConfidentialActivity codec zk rpc (input.fetching (some .nan)) fuel = some (.ok activity) ↔
      activity = [] ∧ KeyAccepted zk rpc input := by
  have hrun : ∃ signatures, signaturesOf rpc input fuel = some (.ok signatures) :=
    ⟨_, signaturesOf_select hserves hfuel⟩
  rw [reportsNothing_iff, checkAuditorKey_eq_ok_iff, and_iff_left hrun]

end History

/-- What is reported with this many transactions at a time is reported with one at a time. -/
def SameAsOne (codec : InstructionCodec) (zk : ZkSdk F G) (rpc : HistoryRpc)
    (input : ListConfidentialActivityInput F) (fuel : Nat) (concurrency : JsNumber) : Prop :=
  ∀ activity, listConfidentialActivity codec zk rpc (input.fetching (some concurrency)) fuel =
      some (.ok activity) →
    listConfidentialActivity codec zk rpc (input.fetching (some (.ofNat 1))) fuel = some (.ok activity)

/-- Only `NaN` can make a difference, and it does where there is something to report. -/
theorem sameAsOne_iff_number {history : List SignatureInfo} (hserves : ServesSignatures input.mint rpc history)
    {fuel : Nat} (hfuel : history.length / pageLimit < fuel) {concurrency : JsNumber} :
    SameAsOne codec zk rpc input fuel concurrency ↔
      concurrency ≠ .nan ∨ NothingToReport codec zk rpc input history := by
  have hone : (some (JsNumber.ofNat 1)).getD (.ofNat 4) ≠ .nan := by simp [JsNumber.ofNat]
  constructor
  · intro h
    by_cases hnan : concurrency = .nan
    · refine .inr fun hkey => ?_
      subst hnan
      have hempty := h [] ((reportsNothing_of_history hserves hfuel).mpr ⟨rfl, hkey⟩)
      exact (reportsAll_nil_iff hserves hfuel hkey).mp ((reportsAll_iff hone).mp hempty) hkey
    · exact .inl hnan
  · intro h activity hlist
    rw [reportsAll_iff hone]
    by_cases hnan : concurrency = .nan
    · subst hnan
      obtain ⟨rfl, hkey⟩ := (reportsNothing_of_history hserves hfuel).mp hlist
      exact (reportsAll_nil_iff hserves hfuel hkey).mpr (h.resolve_left (fun hne => hne rfl))
    · have hnumber : (some concurrency).getD (.ofNat 4) ≠ .nan := hnan
      exact (reportsAll_iff hnumber).mp hlist

end Sdk
