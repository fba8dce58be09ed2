-- SUMMARY: Which transactions the two readers of an auditor agree on.
import ConfidentialTransfers.Lib.Effect
import ConfidentialTransfers.Sdk.Auditor
import ConfidentialTransfers.Sdk.ReportComplete

/-!
# The two readers of an auditor

`decryptTransferAmountAsAuditor` reads the first confidential transfer at the top
level of a transaction. The report goes through every instruction of one that
succeeded. `ReadersAgree` is when both find the same amount.
-/

open Solana TwistedElGamal

namespace Sdk

variable {F G : Type} [CommRing F] [AddCommGroup G] [Module F G]

/-! ## Ciphertexts an auditor reads -/

/-- The bytes are two ciphertexts for the key, of halves that give `amount`. -/
def HalvesHold (zk : ZkSdk F G) (secret : Fˣ) (loBytes hiBytes : Bytes) (amount : Nat) : Prop :=
  ∃ lo hi amountLo amountHi,
    zk.ciphertextFromBytes loBytes = some lo ∧ zk.ciphertextFromBytes hiBytes = some hi ∧
    Holds zk.toPedersenBasis secret lo amountLo ∧ amountLo < 2 ^ 32 ∧
    Holds zk.toPedersenBasis secret hi amountHi ∧ amountHi < 2 ^ 32 ∧
    amount = amountLo + 2 ^ 16 * amountHi

theorem decryptHalves_eq_ok_iff {zk : ZkSdk F G} {secret : Fˣ} {loBytes hiBytes : Bytes}
    {amount : Nat} :
    decryptHalves zk secret loBytes hiBytes = .ok amount ↔
      HalvesHold zk secret loBytes hiBytes amount := by
  unfold decryptHalves HalvesHold
  constructor
  · intro h
    cases hlo : zk.ciphertextFromBytes loBytes with
    | none => simp [hlo] at h
    | some lo =>
      cases hhi : zk.ciphertextFromBytes hiBytes with
      | none => simp [hlo, hhi] at h
      | some hi =>
        simp only [hlo, hhi] at h
        obtain ⟨amountLo, hamountLo, h⟩ := Except.bind_eq_ok_iff.mp h
        obtain ⟨amountHi, hamountHi, h⟩ := Except.bind_eq_ok_iff.mp h
        obtain ⟨hltLo, hholdsLo⟩ := zk.decrypt_eq_ok_iff.mp hamountLo
        obtain ⟨hltHi, hholdsHi⟩ := zk.decrypt_eq_ok_iff.mp hamountHi
        refine ⟨lo, hi, amountLo, amountHi, rfl, rfl, hholdsLo, hltLo, hholdsHi, hltHi, ?_⟩
        have hsum : amountLo + (amountHi <<< transferAmountLoBits) = amount := Except.ok.inj h
        rw [← hsum, transferAmountLoBits, Nat.shiftLeft_eq, Nat.mul_comm]
  · rintro ⟨lo, hi, amountLo, amountHi, hlo, hhi, hholdsLo, hltLo, hholdsHi, hltHi, rfl⟩
    simp only [hlo, hhi, zk.decrypt_of_lt hholdsLo hltLo, zk.decrypt_of_lt hholdsHi hltHi]
    rw [Nat.mul_comm, ← Nat.shiftLeft_eq]
    rfl

/-- The data of a confidential transfer carries `amount` to the key. -/
def Carries (codec : InstructionCodec) (zk : ZkSdk F G) (secret : Fˣ) (ix : RawInstruction)
    (amount : Nat) : Prop :=
  ∃ halves, codec.decodeConfidentialTransfer (codec.base58Encode ix.data) = .ok halves ∧
    HalvesHold zk secret halves.1 halves.2 amount

/-- The key decrypts the transfer. -/
def Readable (codec : InstructionCodec) (zk : ZkSdk F G) (secret : Fˣ) (ix : RawInstruction) : Prop :=
  ∃ amount, Carries codec zk secret ix amount

/-! ## Instructions the report can decode -/

/-- The token client decodes the data, if it is of a movement. -/
structure Decodes (codec : InstructionCodec) (data : Bytes) : Prop where
  deposit : data[1]? = some confidentialDepositDiscriminator →
    ∃ amount, codec.decodeConfidentialDeposit data = .ok amount
  withdraw : data[1]? = some confidentialWithdrawDiscriminator →
    ∃ amount, codec.decodeConfidentialWithdraw data = .ok amount
  transfer : data[1]? = some confidentialTransferInnerDiscriminator →
    ∃ halves, codec.decodeConfidentialTransfer data = .ok halves

section Instruction

variable {codec : InstructionCodec} {zk : ZkSdk F G} {data : Bytes} {ix : RawInstruction}
  {keys : List Address} {owners : Nat → Option Address} {secret : Fˣ}

variable (zk ix keys owners secret) in
theorem toActivity_ok_iff :
    (∃ m, toActivity codec zk data ix keys owners secret = .ok m) ↔ Decodes codec data := by
  constructor
  · rintro ⟨m, hm⟩
    refine ⟨fun hkind => ?_, fun hkind => ?_, fun hkind => ?_⟩
    · simp only [toActivity, hkind, if_true] at hm
      obtain ⟨amount, hamount, -⟩ := Except.bind_eq_ok_iff.mp hm
      exact ⟨amount, hamount⟩
    · simp only [toActivity, hkind] at hm
      rw [if_neg (by decide), if_pos trivial] at hm
      obtain ⟨amount, hamount, -⟩ := Except.bind_eq_ok_iff.mp hm
      exact ⟨amount, hamount⟩
    · simp only [toActivity, hkind] at hm
      rw [if_neg (by decide), if_neg (by decide), if_pos trivial] at hm
      obtain ⟨halves, hhalves, -⟩ := Except.bind_eq_ok_iff.mp hm
      exact ⟨halves, hhalves⟩
  · intro h
    unfold toActivity
    simp only
    split
    · rename_i hkind
      obtain ⟨amount, hamount⟩ := h.deposit hkind
      exact ⟨_, by rw [hamount]; rfl⟩
    · split
      · rename_i hkind
        obtain ⟨amount, hamount⟩ := h.withdraw hkind
        exact ⟨_, by rw [hamount]; rfl⟩
      · split
        · rename_i hkind
          obtain ⟨halves, hhalves⟩ := h.transfer hkind
          rw [hhalves]
          cases hd : decryptHalves zk secret halves.1 halves.2 with
          | ok amount => exact ⟨_, by simp only [bind, Except.bind, hd]; rfl⟩
          | error e => exact ⟨_, by simp only [bind, Except.bind, hd]; rfl⟩
        · split
          · exact ⟨_, rfl⟩
          · exact ⟨_, rfl⟩

/-- An entry of a transfer that was decrypted. -/
def Movement.readAmount (m : Movement) : Option Nat :=
  if m.kind = .transfer ∧ m.decrypted then m.amount else none

/-- The report decrypts exactly the transfers that carry an amount to the key. -/
theorem toActivity_readAmount {amount : Nat} :
    (∃ m, toActivity codec zk (codec.base58Encode ix.data) ix keys owners secret = .ok (some m) ∧
        m.readAmount = some amount) ↔
      (codec.base58Encode ix.data)[1]? = some confidentialTransferInnerDiscriminator ∧
        Carries codec zk secret ix amount := by
  constructor
  · rintro ⟨m, hm, hread⟩
    unfold toActivity at hm
    simp only at hm
    split at hm
    · obtain ⟨_, -, h⟩ := Except.bind_eq_ok_iff.mp hm
      obtain rfl := Option.some.inj (Except.ok.inj h)
      simp [Movement.readAmount] at hread
    · split at hm
      · obtain ⟨_, -, h⟩ := Except.bind_eq_ok_iff.mp hm
        obtain rfl := Option.some.inj (Except.ok.inj h)
        simp [Movement.readAmount] at hread
      · split at hm
        · rename_i hkind
          obtain ⟨halves, hhalves, h⟩ := Except.bind_eq_ok_iff.mp hm
          cases hd : decryptHalves zk secret halves.1 halves.2 with
          | error e =>
            simp only [hd] at h
            obtain rfl := Option.some.inj (Except.ok.inj h)
            simp [Movement.readAmount] at hread
          | ok v =>
            simp only [hd] at h
            obtain rfl := Option.some.inj (Except.ok.inj h)
            obtain rfl : v = amount := by simpa [Movement.readAmount] using hread
            exact ⟨hkind, halves, hhalves, decryptHalves_eq_ok_iff.mp hd⟩
        · split at hm
          · obtain rfl := Option.some.inj (Except.ok.inj hm)
            simp [Movement.readAmount] at hread
          · cases hm
  · rintro ⟨hkind, halves, hhalves, hholds⟩
    have hd := decryptHalves_eq_ok_iff.mpr hholds
    simp only [toActivity, hkind, hhalves, bind, Except.bind, hd]
    rw [if_neg (by decide), if_neg (by decide), if_pos trivial]
    exact ⟨_, rfl, by simp [Movement.readAmount]⟩

end Instruction

/-- When a list can be read, each of its elements can. -/
theorem exists_ok_of_mapM {ε α β : Type} {f : α → Except ε β} {xs : List α} {ys : List β}
    (h : xs.mapM f = .ok ys) {x : α} (hx : x ∈ xs) : ∃ y, f x = .ok y := by
  have hread := Except.mapM_eq_ok_iff.mp h
  have hall : List.Forall₂ (fun x y => (∃ y, f x = .ok y) ∧ f x = .ok y) xs ys :=
    hread.imp fun x y hy => ⟨⟨y, hy⟩, hy⟩
  exact ((List.forall₂_and_left xs ys).mp hall).1 x hx

/-! ## One transaction under audit -/

/-- A confirmed transaction and the key it is read with. -/
structure Audit (F : Type) [CommRing F] where
  signature : Signature
  transaction : RawTransaction
  auditorSecret : Fˣ
  programAddress : Option Address := none

namespace Audit

variable (codec : InstructionCodec) (zk : ZkSdk F G) (a : Audit F)

def program : Address := a.programAddress.getD token2022ProgramAddress

def message : FetchedTransactionMessage where
  accountKeys := some a.transaction.accountKeys
  staticAccountKeys := none
  instructions := a.transaction.instructions

/-- What `decryptTransferAmountAsAuditor` makes of the transaction. -/
def single : Except Thrown Nat :=
  decryptTransferAmountAsAuditor codec zk a.signature a.auditorSecret a.programAddress (some a.message)

def reportInput (mint : Address) : ListConfidentialActivityInput F where
  mint := mint
  auditorSecret := a.auditorSecret
  programAddress := a.programAddress

/-- What `listConfidentialActivity` over a mint makes of the transaction. -/
def reportOver (mint : Address) : Except Thrown (List ConfidentialActivity) :=
  transactionEntries codec zk (a.reportInput mint) a.signature (some a.transaction)

/-- The instructions a report goes through: none of a transaction that failed. -/
def listing : List RawInstruction :=
  match a.transaction.meta with
  | none => []
  | some txMeta => if txMeta.err.isSome then [] else allInstructions a.transaction txMeta

/-- The keys a report looks accounts up in. -/
def keys : List Address :=
  match a.transaction.meta with
  | none => a.transaction.accountKeys
  | some txMeta => accountKeysOf a.transaction txMeta

def owners : Nat → Option Address :=
  ownerAt ((a.transaction.meta.bind (·.preTokenBalances)).getD [])

def movementOver (mint : Address) (ix : RawInstruction) : Except Thrown (Option Movement) :=
  instructionMovement codec zk (a.reportInput mint) a.keys a.owners ix

def entryOf (movement : Movement) : ConfidentialActivity :=
  { movement with
    signature := a.signature
    slot := a.transaction.slot
    blockTime := a.transaction.blockTime.map (· * 1000) }

/-- The mint of an instruction of the extension: its second account. -/
def mintOf (ix : RawInstruction) : Option Address := ix.accounts[1]?.bind (fun k => a.keys[k]?)

/-- The entry of an instruction in the report over its mint, unless that report throws. -/
def entryOverItsMint (ix : RawInstruction) : Option (Address × ConfidentialActivity) :=
  (a.mintOf ix).bind fun mint => (a.reportOver codec zk mint).toOption.bind fun _ =>
    (a.movementOver codec zk mint ix).toOption.join.map fun movement => (mint, a.entryOf movement)

/-- The entries of the reports over all mints, in instruction order. -/
def allEntries : List (Address × ConfidentialActivity) :=
  a.listing.filterMap (a.entryOverItsMint codec zk)

/-- The amount of the first listed transfer that the key reads. -/
def firstAmount : Option Nat := (a.allEntries codec zk).findSome? fun entry => entry.2.readAmount

/-! ## Reports over any mint -/

theorem reportOver_eq (mint : Address) : a.reportOver codec zk mint =
    (a.listing.mapM (a.movementOver codec zk mint)).map
      (fun movements => (movements.filterMap id).map a.entryOf) := by
  unfold reportOver transactionEntries listing movementOver keys owners entryOf
  cases hmeta : a.transaction.meta with
  | none =>
    simp only [hmeta, List.mapM_nil]
    rfl
  | some txMeta =>
    simp only [hmeta, Option.bind_some]
    split
    · rfl
    · cases (allInstructions a.transaction txMeta).mapM (instructionMovement codec zk
        (a.reportInput mint) (accountKeysOf a.transaction txMeta)
        (ownerAt (txMeta.preTokenBalances.getD []))) <;> rfl

/-- An instruction of the confidential-transfer extension. -/
def OfExtension (ix : RawInstruction) : Prop :=
  a.keys[ix.programIdIndex]? = some a.program ∧
    (codec.base58Encode ix.data)[0]? = some confidentialTransferDiscriminator

/-- The report over the mint decodes every instruction of the extension on it. -/
def ReportsOver (mint : Address) : Prop :=
  ∀ ix ∈ a.listing, a.OfExtension codec ix → a.mintOf ix = some mint →
    Decodes codec (codec.base58Encode ix.data)

variable {codec zk} {mint : Address} {ix : RawInstruction}

theorem movementOver_eq (hext : a.OfExtension codec ix) (hmint : a.mintOf ix = some mint) :
    a.movementOver codec zk mint ix = (toActivity codec zk (codec.base58Encode ix.data) ix a.keys
      a.owners a.auditorSecret).mapError .other :=
  instructionMovement_eq zk hext.1 hext.2 hmint

/-- Every other instruction adds nothing. -/
theorem movementOver_skipped (h : ¬ (a.OfExtension codec ix ∧ a.mintOf ix = some mint)) :
    a.movementOver codec zk mint ix = .ok none := by
  by_cases hmint : a.mintOf ix = some mint
  · have hext : ¬ a.OfExtension codec ix := fun hext => h ⟨hext, hmint⟩
    unfold movementOver instructionMovement
    by_cases hprogram : a.keys[ix.programIdIndex]? = some a.program
    · have hdata : (codec.base58Encode ix.data)[0]? ≠ some confidentialTransferDiscriminator :=
        fun hdata => hext ⟨hprogram, hdata⟩
      simp only [hdata, ne_eq, not_false_eq_true, true_or, if_true, ite_self]
      rfl
    · exact if_pos hprogram
  · exact instructionMovement_other_mint zk hmint

variable (zk) in
theorem movementOver_ok_iff : (∃ m, a.movementOver codec zk mint ix = .ok m) ↔
    (a.OfExtension codec ix → a.mintOf ix = some mint → Decodes codec (codec.base58Encode ix.data)) := by
  by_cases h : a.OfExtension codec ix ∧ a.mintOf ix = some mint
  · rw [a.movementOver_eq h.1 h.2]
    have hdecodes : (∃ m, (toActivity codec zk (codec.base58Encode ix.data) ix a.keys a.owners
        a.auditorSecret).mapError Thrown.other = .ok m) ↔ Decodes codec (codec.base58Encode ix.data) := by
      rw [← toActivity_ok_iff zk ix a.keys a.owners a.auditorSecret]
      cases toActivity codec zk (codec.base58Encode ix.data) ix a.keys a.owners a.auditorSecret <;>
        simp [Except.mapError]
    exact hdecodes.trans ⟨fun hd _ _ => hd, fun hd => hd h.1 h.2⟩
  · rw [a.movementOver_skipped h]
    exact ⟨fun _ hext hmint => absurd ⟨hext, hmint⟩ h, fun _ => ⟨none, rfl⟩⟩

theorem movementOver_readAmount {amount : Nat} (hext : a.OfExtension codec ix)
    (hmint : a.mintOf ix = some mint) :
    ((a.movementOver codec zk mint ix).toOption.join.bind Movement.readAmount = some amount) ↔
      (codec.base58Encode ix.data)[1]? = some confidentialTransferInnerDiscriminator ∧
        Carries codec zk a.auditorSecret ix amount := by
  rw [a.movementOver_eq hext hmint, ← toActivity_readAmount]
  rcases toActivity codec zk (codec.base58Encode ix.data) ix a.keys a.owners a.auditorSecret with
    e | (_ | m) <;> simp [Except.mapError, Except.toOption]

variable (zk) in
/-- A report returns when it decodes everything. -/
theorem reportOver_toOption (mint : Address) : (a.ReportsOver codec mint →
      (a.reportOver codec zk mint).toOption = some ((a.listing.filterMap fun ix =>
        (a.movementOver codec zk mint ix).toOption.join).map a.entryOf)) ∧
    (¬ a.ReportsOver codec mint → (a.reportOver codec zk mint).toOption = none) := by
  rw [reportOver_eq]
  constructor
  · intro hreports
    have hok : ∀ ix ∈ a.listing, a.movementOver codec zk mint ix =
        .ok (a.movementOver codec zk mint ix).toOption.join := by
      intro ix hix
      obtain ⟨m, hm⟩ := (a.movementOver_ok_iff zk).mpr (hreports ix hix)
      rw [hm]
      rfl
    rw [Except.mapM_eq_ok_iff.mpr (List.forall₂_map_right_iff.mpr (List.forall₂_same.mpr hok))]
    simp [Except.map, Except.toOption, List.filterMap_map, Function.comp_def]
  · intro hnot
    cases hmap : a.listing.mapM (a.movementOver codec zk mint) with
    | error e => rfl
    | ok movements =>
      refine absurd (fun ix hix => ?_) hnot
      exact (a.movementOver_ok_iff zk).mp (exists_ok_of_mapM hmap hix)

/-- The entry of an instruction, as the report over any mint has it. -/
theorem entryOverItsMint_over (mint : Address) (ix : RawInstruction) :
    ((a.entryOverItsMint codec zk ix).filter fun entry => entry.1 = mint).map (·.2) =
      (a.reportOver codec zk mint).toOption.bind fun _ =>
        (a.movementOver codec zk mint ix).toOption.join.map a.entryOf := by
  unfold entryOverItsMint
  by_cases hmint : a.mintOf ix = some mint
  · rw [hmint, Option.bind_some]
    cases hreport : (a.reportOver codec zk mint).toOption with
    | none => simp
    | some entries =>
      cases hmovement : (a.movementOver codec zk mint ix).toOption.join <;> simp
  · have hskipped : a.movementOver codec zk mint ix = .ok none :=
      a.movementOver_skipped fun h => hmint h.2
    have hnone : (a.reportOver codec zk mint).toOption.bind (fun _ =>
        (a.movementOver codec zk mint ix).toOption.join.map a.entryOf) = none := by
      rw [hskipped]
      cases (a.reportOver codec zk mint).toOption <;> rfl
    rw [hnone]
    cases hother : a.mintOf ix with
    | none => rfl
    | some other =>
      have hne : other ≠ mint := fun heq => hmint (by rw [hother, heq])
      rw [Option.bind_some]
      cases (a.reportOver codec zk other).toOption with
      | none => rfl
      | some entries =>
        cases (a.movementOver codec zk other ix).toOption.join <;> simp [hne]

/-- The entries over all mints, restricted to one of them, are the report over it. -/
theorem allEntries_over (mint : Address) :
    ((a.allEntries codec zk).filter fun entry => entry.1 = mint).map (·.2) =
      (a.reportOver codec zk mint).toOption.getD [] := by
  have hentries : ((a.allEntries codec zk).filter fun entry => entry.1 = mint).map (·.2) =
      a.listing.filterMap fun ix => (a.reportOver codec zk mint).toOption.bind fun _ =>
        (a.movementOver codec zk mint ix).toOption.join.map a.entryOf := by
    rw [allEntries, List.filter_filterMap, List.map_filterMap]
    simp only [entryOverItsMint_over]
  rw [hentries]
  by_cases hreports : a.ReportsOver codec mint
  · rw [(a.reportOver_toOption zk mint).1 hreports]
    simp [List.map_filterMap]
  · rw [(a.reportOver_toOption zk mint).2 hreports]
    simp

/-! ## Agreement -/

variable (codec) in
/-- The report over some mint lists the instruction as a transfer. -/
structure Lists (ix : RawInstruction) : Prop where
  extension : a.OfExtension codec ix
  transfer : (codec.base58Encode ix.data)[1]? = some confidentialTransferInnerDiscriminator
  mint : ∃ mint, a.mintOf ix = some mint ∧ a.ReportsOver codec mint

theorem entryOverItsMint_readAmount {amount : Nat} :
    ((a.entryOverItsMint codec zk ix).bind fun entry => entry.2.readAmount) = some amount ↔
      a.Lists codec ix ∧ Carries codec zk a.auditorSecret ix amount := by
  unfold entryOverItsMint
  cases hmint : a.mintOf ix with
  | none =>
    simp only [Option.bind_none, reduceCtorEq, false_iff]
    rintro ⟨hlists, -⟩
    obtain ⟨mint, hmint', -⟩ := hlists.mint
    cases hmint.symm.trans hmint'
  | some mint =>
    rw [Option.bind_some]
    by_cases hreports : a.ReportsOver codec mint
    · rw [(a.reportOver_toOption zk mint).1 hreports, Option.bind_some]
      have hread : (((a.movementOver codec zk mint ix).toOption.join.map fun movement =>
          (mint, a.entryOf movement)).bind fun entry => entry.2.readAmount) =
            (a.movementOver codec zk mint ix).toOption.join.bind Movement.readAmount := by
        cases (a.movementOver codec zk mint ix).toOption.join <;> rfl
      rw [hread]
      by_cases hext : a.OfExtension codec ix
      · rw [a.movementOver_readAmount hext hmint]
        exact ⟨fun h => ⟨⟨hext, h.1, mint, hmint, hreports⟩, h.2⟩, fun h => ⟨h.1.transfer, h.2⟩⟩
      · rw [a.movementOver_skipped fun h => hext h.1]
        exact ⟨fun h => (by cases h), fun h => absurd h.1.extension hext⟩
    · rw [(a.reportOver_toOption zk mint).2 hreports]
      simp only [Option.bind_none, reduceCtorEq, false_iff]
      rintro ⟨hlists, -⟩
      obtain ⟨mint', hmint', hreports'⟩ := hlists.mint
      rw [Option.some.inj (hmint.symm.trans hmint')] at hreports
      exact hreports hreports'

/-- The first listed transfer that the key reads carries `amount`. -/
def ReadsFirst (codec : InstructionCodec) (zk : ZkSdk F G) (amount : Nat) : Prop :=
  ∃ before ix after, a.listing = before ++ ix :: after ∧ a.Lists codec ix ∧
    Carries codec zk a.auditorSecret ix amount ∧
    ∀ other ∈ before, a.Lists codec other → ¬ Readable codec zk a.auditorSecret other

theorem firstAmount_eq : a.firstAmount codec zk = a.listing.findSome? fun ix =>
    (a.entryOverItsMint codec zk ix).bind fun entry => entry.2.readAmount := by
  rw [firstAmount, allEntries, ← List.head?_filterMap, List.filterMap_filterMap,
    List.head?_filterMap]

theorem entryOverItsMint_unread :
    ((a.entryOverItsMint codec zk ix).bind fun entry => entry.2.readAmount) = none ↔
      (a.Lists codec ix → ¬ Readable codec zk a.auditorSecret ix) := by
  rw [Option.eq_none_iff_forall_ne_some]
  constructor
  · rintro hnone hlists ⟨v, hv⟩
    exact hnone v (a.entryOverItsMint_readAmount.mpr ⟨hlists, hv⟩)
  · intro hnot v hv
    obtain ⟨hlists, hcarries⟩ := a.entryOverItsMint_readAmount.mp hv
    exact hnot hlists ⟨v, hcarries⟩

theorem firstAmount_eq_some_iff {amount : Nat} :
    a.firstAmount codec zk = some amount ↔ a.ReadsFirst codec zk amount := by
  rw [firstAmount_eq, List.findSome?_eq_some_iff]
  simp only [entryOverItsMint_unread, entryOverItsMint_readAmount, and_assoc, ReadsFirst]

theorem firstAmount_eq_none_iff : a.firstAmount codec zk = none ↔
    ∀ ix ∈ a.listing, a.Lists codec ix → ¬ Readable codec zk a.auditorSecret ix := by
  rw [firstAmount_eq, List.findSome?_eq_none_iff]
  simp only [entryOverItsMint_unread]

/-- The first confidential transfer at the top level of the transaction. -/
def topLevelTransfer (codec : InstructionCodec) : Option RawInstruction :=
  a.transaction.instructions.find?
    (isConfidentialTransfer codec a.program a.transaction.accountKeys)

theorem single_eq_ok_iff {amount : Nat} : a.single codec zk = .ok amount ↔
    ∃ ix, a.topLevelTransfer codec = some ix ∧ Carries codec zk a.auditorSecret ix amount := by
  constructor
  · intro h
    have htop : a.message.instructions.find? (isConfidentialTransfer codec
        (a.programAddress.getD token2022ProgramAddress)
        ((a.message.accountKeys <|> a.message.staticAccountKeys).getD [])) =
          a.topLevelTransfer codec := rfl
    simp only [single, decryptTransferAmountAsAuditor, htop] at h
    cases hix : a.topLevelTransfer codec with
    | none =>
      rw [hix] at h
      cases h
    | some ix =>
      rw [hix] at h
      simp only at h
      cases hhalves : codec.decodeConfidentialTransfer (codec.base58Encode ix.data) with
      | error e =>
        rw [hhalves] at h
        cases h
      | ok halves =>
        refine ⟨ix, rfl, halves, hhalves, decryptHalves_eq_ok_iff.mp ?_⟩
        rw [hhalves] at h
        simp only at h
        unfold decryptHalves
        cases hlo : zk.ciphertextFromBytes halves.1 with
        | none => simp [hlo] at h
        | some lo =>
          cases hhi : zk.ciphertextFromBytes halves.2 with
          | none => simp [hlo, hhi] at h
          | some hi =>
            simp only [hlo, hhi] at h ⊢
            exact Except.mapError_eq_ok_iff.mp h
  · rintro ⟨ix, htop, halves, hhalves, hholds⟩
    exact decryptTransferAmountAsAuditor_of_decryptHalves htop hhalves
      (decryptHalves_eq_ok_iff.mpr hholds)

/-- What the single reader reads at the top level is the amount of the first listed transfer that
    the key reads, and where it reads nothing no such transfer is listed. -/
structure ReadersAgree (codec : InstructionCodec) (zk : ZkSdk F G) : Prop where
  /-- Of the first transfer at the top level: the transaction succeeded, and the first of the listed
      transfers that the key reads, at any level, is this one or carries the same amount. -/
  read : ∀ ix amount, a.topLevelTransfer codec = some ix →
    Carries codec zk a.auditorSecret ix amount → a.ReadsFirst codec zk amount
  /-- No transfer that the key reads was made by a call or after one that it does not read. -/
  unread : (∀ ix, a.topLevelTransfer codec = some ix → ¬ Readable codec zk a.auditorSecret ix) →
    ∀ ix ∈ a.listing, a.Lists codec ix → ¬ Readable codec zk a.auditorSecret ix

/-- The two readers find the same amounts exactly when `ReadersAgree`. -/
theorem readers_agree_iff (codec : InstructionCodec) (zk : ZkSdk F G) (a : Audit F) :
    (∀ amount, a.single codec zk = .ok amount ↔ a.firstAmount codec zk = some amount) ↔
      a.ReadersAgree codec zk := by
  constructor
  · intro hsame
    refine ⟨fun ix amount htop hcarries => ?_, fun hunread => ?_⟩
    · exact a.firstAmount_eq_some_iff.mp
        ((hsame amount).mp (a.single_eq_ok_iff.mpr ⟨ix, htop, hcarries⟩))
    · rw [← firstAmount_eq_none_iff, Option.eq_none_iff_forall_ne_some]
      intro amount hfirst
      obtain ⟨ix, htop, hcarries⟩ := a.single_eq_ok_iff.mp ((hsame amount).mpr hfirst)
      exact hunread ix htop ⟨amount, hcarries⟩
  · intro hagree amount
    constructor
    · intro hsingle
      obtain ⟨ix, htop, hcarries⟩ := a.single_eq_ok_iff.mp hsingle
      exact a.firstAmount_eq_some_iff.mpr (hagree.read ix amount htop hcarries)
    · intro hfirst
      -- Something is listed, so the single reader reads an amount, and it is the one listed first.
      have hread : ∃ ix, a.topLevelTransfer codec = some ix ∧
          Readable codec zk a.auditorSecret ix := by
        by_contra hnot
        have hnone := a.firstAmount_eq_none_iff.mpr
          (hagree.unread fun ix htop hreadable => hnot ⟨ix, htop, hreadable⟩)
        rw [hnone] at hfirst
        cases hfirst
      obtain ⟨ix, htop, amount', hcarries⟩ := hread
      have hsame := a.firstAmount_eq_some_iff.mpr (hagree.read ix amount' htop hcarries)
      obtain rfl : amount = amount' := Option.some.inj (hfirst.symm.trans hsame)
      exact a.single_eq_ok_iff.mpr ⟨ix, htop, hcarries⟩

/-- Of a transaction that failed the single reader reads what no report lists. -/
theorem failed_transaction_differs {ix : RawInstruction} {amount : Nat} (hfailed : a.listing = [])
    (htop : a.topLevelTransfer codec = some ix)
    (hcarries : Carries codec zk a.auditorSecret ix amount) :
    a.single codec zk = .ok amount ∧ a.firstAmount codec zk = none := by
  refine ⟨a.single_eq_ok_iff.mpr ⟨ix, htop, hcarries⟩, a.firstAmount_eq_none_iff.mpr ?_⟩
  simp [hfailed]

/-- A transfer made through another program's call is listed, but the single reader does not find
    it. -/
theorem inner_transfer_differs {ix : RawInstruction} (htop : a.topLevelTransfer codec = none)
    (hix : ix ∈ a.listing) (hlists : a.Lists codec ix)
    (hread : Readable codec zk a.auditorSecret ix) :
    (∀ amount, a.single codec zk ≠ .ok amount) ∧ ∃ amount, a.firstAmount codec zk = some amount := by
  constructor
  · intro amount hsingle
    obtain ⟨_, htop', -⟩ := a.single_eq_ok_iff.mp hsingle
    cases htop.symm.trans htop'
  · rw [← Option.ne_none_iff_exists']
    intro hnone
    exact a.firstAmount_eq_none_iff.mp hnone ix hix hlists hread

end Audit

/-! ## A failed transfer -/

namespace FailedTransfer

/-- The instruction data in base58. -/
def encoded : String :=
  "3gH4ytmQtpKCoG8ZH7roGBFCVzA6FCcro99oqoeFRthrL3wvXU77T3ETd8uvewWNJkchvArYrk3kVww1" ++
    "FAXPTSFinru4BFsWGPbygytzJZhxu6CcH4iQbCS2vvnSahMeX8BgvJANKCDYCTHocSzKuQqJhmABYCL6" ++
    "XaYP9zNX8UG6PGBV1TW2RZ1JNbWBfYXDPZ7THCAVrPN3LB8nKHMEvd3bXPnzkJ128oQAZxs"

/-- A confidential transfer whose auditor ciphertexts are of 5 and of 0. -/
def data : Bytes :=
  [27, 7] ++ (List.range 36).map (fun i => UInt8.ofNat (i + 1)) ++
    (LittleEndian.encode 32 5 ++ List.replicate 32 0) ++ List.replicate 64 0 ++ [0, 0, 0]

/-- Base58 and the decoder on the instruction data of this example. -/
def codec : InstructionCodec where
  base58Encode s := if s = encoded then data else []
  decodeConfidentialDeposit _ := .error "not a deposit"
  decodeConfidentialWithdraw _ := .error "not a withdraw"
  decodeConfidentialTransfer data := .ok ((data.drop 38).take 64, (data.drop 102).take 64)

def transferring : RawInstruction :=
  { programIdIndex := 4, accounts := [1, 2, 3, 5, 6, 7, 0], data := encoded }

/-- A transfer that the token program refused, for instance because the source's balance changed. -/
def audit : Audit (ZMod (2 ^ 128)) where
  signature := "signature"
  transaction :=
    { slot := 1
      blockTime := some 1700000000
      accountKeys := ["alice", "source", "mint", "destination", token2022ProgramAddress, "equality",
        "validity", "range"]
      instructions := [transferring]
      «meta» := some { err := some "InstructionError", innerInstructions := some [],
                       loadedAddresses := none, preTokenBalances := some [⟨1, some "alice"⟩] } }
  auditorSecret := 1

theorem carries : Carries codec ZkSdk.modular audit.auditorSecret transferring 5 := by
  have hdata : codec.base58Encode transferring.data = data := by
    simp only [codec, transferring, if_true]
  have hlo : (data.drop 38).take 64 = ZkSdk.modular.ciphertextToBytes (5, 0) := by decide +kernel
  have hhi : (data.drop 102).take 64 = ZkSdk.modular.ciphertextToBytes (0, 0) := by decide +kernel
  refine ⟨_, rfl, (5, 0), (0, 0), 5, 0, ?_, ?_, ?_, by decide, ?_, by decide, rfl⟩
  · rw [hdata, hlo]
    exact ZkSdk.modular.ciphertextFromBytes_toBytes _
  · rw [hdata, hhi]
    exact ZkSdk.modular.ciphertextFromBytes_toBytes _
  · simp [audit, Holds, decryptPoint, ZkSdk.modular]
  · simp [audit, Holds, decryptPoint, ZkSdk.modular]

theorem readers_differ : ¬ ∀ amount, audit.single codec ZkSdk.modular = .ok amount ↔
    audit.firstAmount codec ZkSdk.modular = some amount := by
  intro hsame
  have htop : audit.topLevelTransfer codec = some transferring := by decide +kernel
  obtain ⟨hsingle, hnone⟩ := audit.failed_transaction_differs rfl htop carries
  have hfirst := (hsame 5).mp hsingle
  rw [hnone] at hfirst
  cases hfirst

end FailedTransfer

end Sdk
