-- SUMMARY: Reports for adjacent periods, put together.
import ConfidentialTransfers.Lib.Window
import ConfidentialTransfers.Sdk.ReportComplete

/-!
# Adjacent periods

An auditor adds up the reports of consecutive periods. They are the report of
the whole time exactly if nothing of unknown time is reached before the seam:
such a transaction is listed on both sides.
-/

open Solana

namespace Sdk

variable {F G : Type} [CommRing F] [AddCommGroup G] [Module F G]

/-- The same report for a period, whose ends are in milliseconds. -/
def ListConfidentialActivityInput.between (input : ListConfidentialActivityInput F)
    (since untilTime : Int) : ListConfidentialActivityInput F :=
  { input with since := some since, untilTime := some untilTime }

/-- The known block times of a history, oldest first, do not decrease. -/
def TimesInOrder (history : List ExecutedTransaction) : Prop :=
  (history.filterMap (·.blockTime)).Pairwise (· ≤ ·)

/-- What is reached before the seam, from the newest transaction down to the first that is known to be
    from before it, in whole seconds. -/
def reachedBeforeSeam (seam : Int) (history : List ExecutedTransaction) : List ExecutedTransaction :=
  Window.reached (·.blockTime) (seam / 1000) history.reverse

/-- No transaction of unknown time that is reached before the seam moves anything of the mint. -/
def NothingUnknown (mint : Address) (seam : Int) (history : List ExecutedTransaction) : Prop :=
  ∀ tx ∈ reachedBeforeSeam seam history, tx.succeeded = true → tx.blockTime = none →
    movementsOf mint tx = []

/-- Where every time is known. -/
theorem NothingUnknown.of_known {mint : Address} {seam : Int} {history : List ExecutedTransaction}
    (h : ∀ tx ∈ history, tx.blockTime ≠ none) : NothingUnknown mint seam history := by
  intro tx htx _ hunknown
  have hmem : tx ∈ history := by
    simpa using Window.reached_subset htx
  exact absurd hunknown (h tx hmem)

/-! ## What the three reports list -/

section Kept

variable {input : ListConfidentialActivityInput F} {a b c : Int} {history : List ExecutedTransaction}

theorem TimesInOrder.reverse (h : TimesInOrder history) :
    Window.InOrder (·.blockTime) history.reverse := by
  rw [Window.InOrder, List.filterMap_reverse, List.pairwise_reverse]
  exact h

theorem kept_between (txs : List ExecutedTransaction) : (input.between a b).kept txs =
    (Window.read (·.blockTime) (a / 1000) (b / 1000) txs).filter ExecutedTransaction.succeeded := by
  have hbefore : (input.between a b).isBefore = Window.isBefore (·.blockTime) (a / 1000) := by
    funext tx
    cases ht : tx.blockTime <;>
      simp [ListConfidentialActivityInput.isBefore, ListConfidentialActivityInput.between,
        Window.isBefore, ht]
  have hafter : (input.between a b).isAfter = Window.isAfter (·.blockTime) (b / 1000) := by
    funext tx
    cases ht : tx.blockTime <;>
      simp [ListConfidentialActivityInput.isAfter, ListConfidentialActivityInput.between,
        Window.isAfter, ht]
  rw [ListConfidentialActivityInput.kept, Window.read, Window.reached, List.filter_filter, hbefore,
    hafter]
  simp only [Bool.and_comm]

/-- The entries of transactions given newest first. -/
def newestFirstReport (zk : ZkSdk F G) (input : ListConfidentialActivityInput F)
    (txs : List ExecutedTransaction) : List ConfidentialActivity :=
  (txs.filter ExecutedTransaction.succeeded).reverse.flatMap
    (transactionReport zk input.auditorSecret input.mint ownerBefore)

variable {zk : ZkSdk F G}

theorem newestFirstReport_append (xs ys : List ExecutedTransaction) :
    newestFirstReport zk input (xs ++ ys) = newestFirstReport zk input ys ++ newestFirstReport zk input xs := by
  simp [newestFirstReport]

/-- Nothing is listed of transactions without movements of the mint. -/
theorem newestFirstReport_eq_nil_iff (xs : List ExecutedTransaction) : newestFirstReport zk input xs = [] ↔
    ∀ tx ∈ xs, tx.succeeded = true → movementsOf input.mint tx = [] := by
  simp only [newestFirstReport, transactionReport, List.flatMap_eq_nil_iff, List.mem_reverse, List.mem_filter,
    List.map_eq_nil_iff, and_imp]

/-- What both sides of the seam list is what is of unknown time. -/
theorem unknown_unlisted_iff (seam : Int) :
    newestFirstReport zk input ((Window.reached (·.blockTime) (seam / 1000) history.reverse).filter
        fun tx => tx.blockTime.isNone) = [] ↔ NothingUnknown input.mint seam history := by
  rw [newestFirstReport_eq_nil_iff]
  simp only [List.mem_filter, Option.isNone_iff_eq_none, NothingUnknown, reachedBeforeSeam]
  constructor
  · exact fun h tx htx hsucceeded hnone => h tx ⟨htx, hnone⟩ hsucceeded
  · exact fun h tx htx hsucceeded => h tx htx.1 hsucceeded htx.2

theorem mem_signatures_newestFirstReport {xs : List ExecutedTransaction} {s : Signature}
    (hs : s ∈ (newestFirstReport zk input xs).map (·.signature)) : s ∈ xs.map (·.signature) := by
  obtain ⟨entry, hentry, rfl⟩ := List.mem_map.mp hs
  obtain ⟨tx, htx, hentry⟩ := List.mem_flatMap.mp hentry
  obtain ⟨m, -, rfl⟩ := List.mem_map.mp hentry
  exact List.mem_map_of_mem (List.mem_filter.mp (List.mem_reverse.mp htx)).1

/-- Entries from before the seam and entries from after it are of different transactions. -/
theorem signatures_disjoint (hunique : (history.map (·.signature)).Nodup) {bound : Int}
    {older newer : List ExecutedTransaction}
    (holder : older ⊆ Window.beyond (·.blockTime) bound history.reverse)
    (hnewer : newer ⊆ Window.reached (·.blockTime) bound history.reverse) :
    ((newestFirstReport zk input older).map (·.signature)).Disjoint
      ((newestFirstReport zk input newer).map (·.signature)) := by
  have hnodup : (history.reverse.map (·.signature)).Nodup := by
    rw [List.map_reverse]
    exact List.nodup_reverse.mpr hunique
  rw [← Window.reached_append_beyond (·.blockTime) bound history.reverse, List.map_append] at hnodup
  intro s holderS hnewerS
  exact List.disjoint_of_nodup_append hnodup
    (List.map_subset _ hnewer (mem_signatures_newestFirstReport hnewerS))
    (List.map_subset _ holder (mem_signatures_newestFirstReport holderS))

end Kept

/-! ## The seam -/

section Report

variable {codec : InstructionCodec} {zk : ZkSdk F G} {input : ListConfidentialActivityInput F}

theorem listConfidentialActivity_between {rpc : HistoryRpc} {history : List ExecutedTransaction}
    (hserves : Serves codec (input.programAddress.getD token2022ProgramAddress) input.mint rpc history)
    (hall : input.ReadsAll) (hkey : KeyAccepted zk rpc input) {fuel : Nat}
    (hfuel : history.length / pageLimit < fuel) (a b : Int) :
    listConfidentialActivity codec zk rpc (input.between a b) fuel =
      some (.ok (newestFirstReport zk input
        (Window.read (·.blockTime) (a / 1000) (b / 1000) history.reverse))) := by
  have hserves' : Serves codec ((input.between a b).programAddress.getD token2022ProgramAddress)
      (input.between a b).mint rpc history := hserves
  have hreport := listConfidentialActivity_kept hserves' hall.maxTransactions hall.concurrency hkey hfuel
  rw [kept_between] at hreport
  exact hreport

/-- The reports for `[a, b)` and `[b, c)`, one after the other, are the report for `[a, c)`, and no
    transaction is in both, exactly if nothing of unknown time is reached before `b`. -/
theorem adjacent_periods_iff {rpc : HistoryRpc} {history : List ExecutedTransaction}
    (hserves : Serves codec (input.programAddress.getD token2022ProgramAddress) input.mint rpc history)
    (hall : input.ReadsAll) (hkey : KeyAccepted zk rpc input) {fuel : Nat}
    (hfuel : history.length / pageLimit < fuel) (horder : TimesInOrder history) {a b c : Int}
    (hab : a ≤ b) (hbc : b ≤ c) :
    ∃ first second whole,
      listConfidentialActivity codec zk rpc (input.between a b) fuel = some (.ok first) ∧
      listConfidentialActivity codec zk rpc (input.between b c) fuel = some (.ok second) ∧
      listConfidentialActivity codec zk rpc (input.between a c) fuel = some (.ok whole) ∧
      ((first ++ second = whole ∧
          (first.map (·.signature)).Disjoint (second.map (·.signature))) ↔
        NothingUnknown input.mint b history) := by
  refine ⟨_, _, _, listConfidentialActivity_between hserves hall hkey hfuel a b,
    listConfidentialActivity_between hserves hall hkey hfuel b c,
    listConfidentialActivity_between hserves hall hkey hfuel a c, ?_⟩
  have habSeconds : a / 1000 ≤ b / 1000 := Int.ediv_le_ediv (by decide) hab
  have hbcSeconds : b / 1000 ≤ c / 1000 := Int.ediv_le_ediv (by decide) hbc
  rw [Window.read_earlier horder.reverse habSeconds,
    Window.read_both horder.reverse habSeconds hbcSeconds, newestFirstReport_append, newestFirstReport_append,
    List.append_assoc, List.append_right_inj, List.append_left_eq_self, unknown_unlisted_iff]
  refine ⟨fun h => h.1, fun h => ⟨h, ?_⟩⟩
  rw [(unknown_unlisted_iff b).mpr h, List.append_nil]
  exact signatures_disjoint hserves.unique Window.reached_subset
    (List.filter_sublist).subset

end Report

/-! ## Two months -/

namespace TwoMonths

/-- The first of January, February and March 2026. -/
def january : Int := 1767225600000
def february : Int := 1769904000000
def march : Int := 1772323200000

/-- The entry of the deposit of unknown time. -/
def unknownDeposit : ConfidentialActivity where
  kind := .deposit
  fromToken := some "token"
  fromOwner := some "alice"
  toToken := some "token"
  toOwner := some "alice"
  amount := some 5
  decrypted := false
  signature := "signature"
  slot := 1
  blockTime := none

/-- Whatever the period, it is in the report. -/
theorem unknownDeposit_listed (since untilTime : Int) :
    listConfidentialActivity NewAccount.codec ZkSdk.modular
        (NewAccount.rpc NewAccount.known NewAccount.rawKnown)
        (NewAccount.input.between since untilTime) 1 = some (.ok [unknownDeposit]) := by
  refine (listConfidentialActivity_between (NewAccount.serves NewAccount.renders_known)
    NewAccount.input_readsAll (.inl rfl) (by decide) since untilTime).trans ?_
  rfl

end TwoMonths

open TwoMonths Statement in
/-- A deposit and a transfer of January are in January's report, a withdrawal of February in
    February's. -/
theorem dated_deposit_counted_once : ∃ first second whole,
    listConfidentialActivity codec ZkSdk.modular (servedRpc history) (input.between january february) 1 =
      some (.ok first) ∧
    listConfidentialActivity codec ZkSdk.modular (servedRpc history) (input.between february march) 1 =
      some (.ok second) ∧
    listConfidentialActivity codec ZkSdk.modular (servedRpc history) (input.between january march) 1 =
      some (.ok whole) ∧
    first ++ second = whole ∧
    first.map (·.signature) = ["s1", "s2"] ∧ second.map (·.signature) = ["s4"] := by
  have hkey : KeyAccepted ZkSdk.modular (servedRpc history) input := .inl rfl
  have horder : TimesInOrder transactions := by
    unfold TimesInOrder
    decide
  have hfuel : transactions.length / pageLimit < 1 := by decide
  obtain ⟨first, second, whole, hfirst, hsecond, hwhole, hiff⟩ :=
    adjacent_periods_iff serves readsAll hkey hfuel horder
      (show january ≤ february by decide) (show february ≤ march by decide)
  have hknown : NothingUnknown input.mint february transactions := by
    apply NothingUnknown.of_known
    decide
  have hfirstSignatures := listConfidentialActivity_between serves readsAll hkey hfuel january february
  have hsecondSignatures := listConfidentialActivity_between serves readsAll hkey hfuel february march
  rw [hfirst] at hfirstSignatures
  rw [hsecond] at hsecondSignatures
  cases hfirstSignatures
  cases hsecondSignatures
  exact ⟨_, _, whole, hfirst, hsecond, hwhole, (hiff.mpr hknown).1, by decide +kernel, by decide +kernel⟩

open TwoMonths in
/-- A deposit of unknown time is in both months' reports, and once in the report of both months. -/
theorem unknown_deposit_counted_twice :
    listConfidentialActivity NewAccount.codec ZkSdk.modular
        (NewAccount.rpc NewAccount.known NewAccount.rawKnown)
        (NewAccount.input.between january february) 1 = some (.ok [unknownDeposit]) ∧
    listConfidentialActivity NewAccount.codec ZkSdk.modular
        (NewAccount.rpc NewAccount.known NewAccount.rawKnown)
        (NewAccount.input.between february march) 1 = some (.ok [unknownDeposit]) ∧
    listConfidentialActivity NewAccount.codec ZkSdk.modular
        (NewAccount.rpc NewAccount.known NewAccount.rawKnown)
        (NewAccount.input.between january march) 1 = some (.ok [unknownDeposit]) ∧
    [unknownDeposit] ++ [unknownDeposit] ≠ [unknownDeposit] :=
  ⟨unknownDeposit_listed january february, unknownDeposit_listed february march,
    unknownDeposit_listed january march, by decide⟩

end Sdk
