-- SUMMARY: The report as CSV, and that it says what the list of activity says.
import ConfidentialTransfers.Lib.Csv
import ConfidentialTransfers.Lib.Decimal
import ConfidentialTransfers.Lib.Effect
import ConfidentialTransfers.Lib.JsDate
import ConfidentialTransfers.Sdk.AuditorReport

/-!
# The report as CSV

`confidentialActivityToCsv` of `auditorReport.ts`. A date out of range makes it
throw, as `toISOString` does; otherwise its text is read back, field by field,
as the entries it was made from.
-/

open Solana

namespace Sdk

/-! ## Writing -/

/-- `s.padStart(targetLength, c)`. -/
def padStart (s : String) (targetLength : Nat) (c : Char) : String :=
  String.ofList (List.replicate (targetLength - s.length) c) ++ s

/-- `s.slice(0, -n)`, for a positive `n`. -/
def sliceBeforeLast (s : String) (n : Nat) : String := String.ofList (s.toList.take (s.length - n))

/-- `s.slice(-n)`, for a positive `n`. -/
def sliceLast (s : String) (n : Nat) : String := String.ofList (s.toList.drop (s.length - n))

def formatUnits (amount decimals : Nat) : String :=
  if decimals = 0 then toString amount
  else
    let s := padStart (toString amount) (decimals + 1) '0'
    sliceBeforeLast s decimals ++ "." ++ sliceLast s decimals

def csvField (value : String) : String :=
  if value.toList.any Csv.isSpecial then
    "\"" ++ String.ofList (Csv.doubleQuotes value.toList) ++ "\""
  else value

def ConfidentialActivityKind.name : ConfidentialActivityKind → String
  | .deposit => "deposit"
  | .transfer => "transfer"
  | .withdraw => "withdraw"
  | .transferWithFee => "transfer-with-fee"

/-- The names of the columns; `decimals` adds one. -/
def csvHeader (decimals : Option Nat) : List String :=
  ["time_utc", "slot", "signature", "kind", "from_owner", "from_account", "to_owner", "to_account",
    "amount_base_units"] ++ (if decimals.isSome then ["amount"] else []) ++ ["decrypted", "note"]

/-- The amount in tokens, nothing when it is not known. -/
def amountField (amount : Option Nat) (decimals : Nat) : String :=
  match amount with
  | none => ""
  | some amount => formatUnits amount decimals

/-- The time of a block, nothing when it is not known. -/
def timeField (blockTime : Option Int) : Except String String :=
  match blockTime with
  | some time => JsDate.toISOString time
  | none => .ok ""

/-- The fields of an entry, before they are quoted. -/
def csvRow (decimals : Option Nat) (a : ConfidentialActivity) : Except String (List String) := do
  let time ← timeField a.blockTime
  pure ([time, toString a.slot, a.signature, a.kind.name, a.fromOwner.getD "", a.fromToken.getD "",
    a.toOwner.getD "", a.toToken.getD "", (a.amount.map toString).getD ""] ++
    (decimals.map (amountField a.amount)).toList ++
    [if a.decrypted then "yes" else "no", a.note.getD ""])

def confidentialActivityToCsv (activity : List ConfidentialActivity) (decimals : Option Nat) :
    Except String String := do
  let rows ← activity.mapM fun a => do
    let row ← csvRow decimals a
    pure (",".intercalate (row.map csvField))
  pure ("\r\n".intercalate (",".intercalate (csvHeader decimals) :: rows) ++ "\r\n")

/-! ## Fields and records -/

theorem csvField_writes (value : String) : Csv.Writes value (csvField value) := by
  unfold csvField
  split
  · have htext : "\"" ++ String.ofList (Csv.doubleQuotes value.toList) ++ "\"" =
        String.ofList ('"' :: (Csv.doubleQuotes value.toList ++ ['"'])) := by
      apply String.toList_inj.mp
      simp
    rw [htext]
    exact .quoted
  · rename_i hplain
    refine .plain fun c hc => ?_
    simp only [List.any_eq_true, not_exists, not_and, Bool.not_eq_true] at hplain
    exact hplain c hc

/-- The names of the columns need no quotes. -/
theorem csvHeader_writes (decimals : Option Nat) :
    List.Forall₂ Csv.Writes (csvHeader decimals) (csvHeader decimals) := by
  have hplain : ∀ name ∈ csvHeader decimals, ∀ c ∈ name.toList, Csv.isSpecial c = false := by
    cases decimals with
    | none => simp [csvHeader, Csv.isSpecial]
    | some d => simp [csvHeader, Csv.isSpecial]
  exact List.forall₂_same.mpr fun name hname => .plain (hplain name hname)

theorem toList_intercalate_comma (texts : List String) :
    (",".intercalate texts).toList = Csv.joinFields texts := by
  rw [String.toList_intercalate]
  rfl

/-- Lines joined by CR LF, with one at the end, are lines each with a CR LF at its end. -/
theorem toList_lines (line : String) (lines : List String) :
    ("\r\n".intercalate (line :: lines) ++ "\r\n").toList =
      (line :: lines).flatMap fun line => line.toList ++ ['\r', '\n'] := by
  induction lines generalizing line with
  | nil => simp
  | cons next lines ih =>
    rw [String.intercalate_cons_cons, String.append_assoc, String.append_assoc, String.toList_append,
      String.toList_append, ih next]
    simp

/-- The text of the report, record by record. -/
theorem csvText_eq (header : List String) (rows : List (List String)) :
    "\r\n".intercalate (",".intercalate header :: rows.map fun row => ",".intercalate (row.map csvField)) ++
        "\r\n" =
      String.ofList (Csv.joinRecords (header :: rows.map (·.map csvField))) := by
  apply String.toList_inj.mp
  rw [toList_lines, String.toList_ofList, Csv.joinRecords]
  simp only [List.flatMap_cons, List.flatMap_map, toList_intercalate_comma]

/-- Every row has a field for each column. -/
theorem length_csvRow {decimals : Option Nat} {a : ConfidentialActivity} {row : List String}
    (h : csvRow decimals a = .ok row) : row.length = (csvHeader decimals).length := by
  obtain ⟨time, -, hrow⟩ := Except.bind_eq_ok_iff.mp h
  obtain rfl := Except.ok.inj hrow
  cases decimals <;> simp [csvHeader]

theorem length_csvRows {decimals : Option Nat} {activity : List ConfidentialActivity}
    {rows : List (List String)} (h : List.Forall₂ (fun a row => csvRow decimals a = .ok row) activity rows) :
    ∀ row ∈ rows, row.length = (csvHeader decimals).length := by
  induction h with
  | nil => simp
  | cons hrow _ ih => exact List.forall_mem_cons.mpr ⟨length_csvRow hrow, ih⟩

/-- A report that is written is read back as its header and the rows of its entries. -/
theorem parse_confidentialActivityToCsv {activity : List ConfidentialActivity} {decimals : Option Nat}
    {text : String} (h : confidentialActivityToCsv activity decimals = .ok text) :
    ∃ rows, List.Forall₂ (fun a row => csvRow decimals a = .ok row) activity rows ∧
      Csv.parse text = some (csvHeader decimals :: rows) := by
  obtain ⟨lines, hlines, htext⟩ := Except.bind_eq_ok_iff.mp h
  obtain rfl := Except.ok.inj htext
  have hrows : ∃ rows, List.Forall₂ (fun a row => csvRow decimals a = .ok row) activity rows ∧
      lines = rows.map fun row => ",".intercalate (row.map csvField) := by
    have hread := Except.mapM_eq_ok_iff.mp hlines
    clear h hlines htext
    induction hread with
    | nil => exact ⟨[], .nil, rfl⟩
    | @cons a line activity lines hline _ ih =>
      obtain ⟨row, hrow, hline⟩ := Except.bind_eq_ok_iff.mp hline
      obtain ⟨rows, hrows, rfl⟩ := ih
      exact ⟨row :: rows, .cons hrow hrows, by rw [List.map_cons, Except.ok.inj hline]⟩
  obtain ⟨rows, hrows, rfl⟩ := hrows
  refine ⟨rows, hrows, ?_⟩
  rw [csvText_eq]
  refine Csv.parse_joinRecords (.cons (csvHeader_writes decimals) ?_) ?_
  · rw [List.forall₂_map_right_iff, List.forall₂_same]
    intro row _
    rw [List.forall₂_map_right_iff, List.forall₂_same]
    exact fun value _ => csvField_writes value
  · intro row hrow
    rcases List.mem_cons.mp hrow with rfl | hrow
    · simp [csvHeader]
    · intro hnil
      have hlength := length_csvRows hrows row hrow
      simp [hnil, csvHeader] at hlength

/-- Only a date out of range keeps a report from being written. -/
theorem confidentialActivityToCsv_error {activity : List ConfidentialActivity} {decimals : Option Nat}
    {message : String} (h : confidentialActivityToCsv activity decimals = .error message) :
    ∃ a ∈ activity, ∃ time, a.blockTime = some time ∧ ¬JsDate.IsValid time := by
  unfold confidentialActivityToCsv at h
  cases hrows : activity.mapM (fun a => do
      let row ← csvRow decimals a
      pure (",".intercalate (row.map csvField))) with
  | ok rows =>
    rw [hrows] at h
    cases h
  | error e =>
    obtain ⟨a, ha, hrow⟩ := Except.exists_error_of_mapM hrows
    refine ⟨a, ha, ?_⟩
    unfold csvRow timeField at hrow
    cases htime : a.blockTime with
    | none => simp [htime, bind, Except.bind, pure, Except.pure] at hrow
    | some time =>
      refine ⟨time, rfl, ?_⟩
      cases hiso : JsDate.toISOString time with
      | ok text => simp [htime, hiso, bind, Except.bind, pure, Except.pure] at hrow
      | error e' => exact JsDate.toISOString_eq_error hiso

/-! ## Amounts -/

/-- The digits of an amount, with zeros in front so that one is left of the point. -/
theorem padStart_digits (amount decimals : Nat) :
    let digits := (padStart (toString amount) (decimals + 1) '0').toList
    (∀ c ∈ digits, c.isDigit = true) ∧ decimals < digits.length ∧
      Nat.ofDigitChars 10 digits 0 = amount := by
  have htext : (toString amount).toList = Nat.toDigits 10 amount := by
    rw [Nat.toString_eq_ofList_toDigits, String.toList_ofList]
  have hpadded : (padStart (toString amount) (decimals + 1) '0').toList =
      List.replicate (decimals + 1 - (toString amount).length) '0' ++ Nat.toDigits 10 amount := by
    rw [padStart, String.toList_append, String.toList_ofList, htext]
  simp only [hpadded]
  refine ⟨fun c hc => ?_, ?_, ?_⟩
  · rcases List.mem_append.mp hc with hc | hc
    · rw [List.eq_of_mem_replicate hc]
      decide
    · exact Nat.isDigit_of_mem_toDigits (by decide) (by decide) hc
  · rw [List.length_append, List.length_replicate, ← htext, String.length_toList]
    omega
  · rw [Nat.ofDigitChars_append, Nat.ofDigitChars_replicate_zero, Nat.mul_zero,
      Nat.ofDigitChars_ten_toDigits]

/-- An amount in tokens is the amount in base units with the point put before the last `decimals`
    digits. -/
theorem read_formatUnits (amount decimals : Nat) :
    Decimal.read (formatUnits amount decimals) = some ⟨amount, decimals⟩ := by
  unfold formatUnits
  by_cases hzero : decimals = 0
  · rw [if_pos hzero, hzero, Decimal.read_toString]
  · obtain ⟨hdigits, hlength, hvalue⟩ := padStart_digits amount decimals
    have hread := Decimal.read_insertPoint hdigits (Nat.pos_of_ne_zero hzero) hlength
    rw [if_neg hzero]
    simp only
    have hsplit : ∀ s : String, sliceBeforeLast s decimals ++ "." ++ sliceLast s decimals =
        String.ofList (s.toList.take (s.toList.length - decimals) ++ '.' ::
          s.toList.drop (s.toList.length - decimals)) := by
      intro s
      apply String.toList_inj.mp
      simp [sliceBeforeLast, sliceLast, String.length_toList]
    rw [hsplit, hread, hvalue]

/-! ## What a report says -/

/-- The field of a record under a name of the header. -/
def column (header record : List String) (name : String) : Option String :=
  (header.zip record).lookup name

/-- The record says what the entry says, column by column. -/
structure RecordSays (decimals : Option Nat) (a : ConfidentialActivity) (record : List String) : Prop where
  length : record.length = (csvHeader decimals).length
  /-- The time in ISO 8601, or nothing where it is unknown. -/
  time_utc : ∃ text, column (csvHeader decimals) record "time_utc" = some text ∧
    (a.blockTime = none → text = "") ∧
    ∀ time, a.blockTime = some time → JsDate.toISOString time = .ok text
  slot : column (csvHeader decimals) record "slot" = some (toString a.slot)
  signature : column (csvHeader decimals) record "signature" = some a.signature
  kind : column (csvHeader decimals) record "kind" = some a.kind.name
  from_owner : column (csvHeader decimals) record "from_owner" = some (a.fromOwner.getD "")
  from_account : column (csvHeader decimals) record "from_account" = some (a.fromToken.getD "")
  to_owner : column (csvHeader decimals) record "to_owner" = some (a.toOwner.getD "")
  to_account : column (csvHeader decimals) record "to_account" = some (a.toToken.getD "")
  amount_base_units : column (csvHeader decimals) record "amount_base_units" =
    some ((a.amount.map toString).getD "")
  /-- The amount in tokens, with `decimals` digits after the point. -/
  amount : ∀ d, decimals = some d → ∃ text, column (csvHeader decimals) record "amount" = some text ∧
    (a.amount = none → text = "") ∧
    ∀ n, a.amount = some n → ∃ reading, Decimal.read text = some reading ∧
      reading.value = n / 10 ^ d ∧ reading.fractionDigits = d
  decrypted : column (csvHeader decimals) record "decrypted" = some (if a.decrypted then "yes" else "no")
  note : column (csvHeader decimals) record "note" = some (a.note.getD "")

/-- The time's field is its ISO text, or empty. -/
theorem timeField_eq_ok {blockTime : Option Int} {text : String} (h : timeField blockTime = .ok text) :
    (blockTime = none → text = "") ∧ ∀ time, blockTime = some time → JsDate.toISOString time = .ok text := by
  cases blockTime with
  | none =>
    refine ⟨fun _ => (Except.ok.inj h).symm, ?_⟩
    intro time htime
    cases htime
  | some time =>
    constructor
    · intro hnone
      cases hnone
    · intro time' htime
      obtain rfl := Option.some.inj htime
      exact h

theorem recordSays_csvRow {decimals : Option Nat} {a : ConfidentialActivity} {row : List String}
    (h : csvRow decimals a = .ok row) : RecordSays decimals a row := by
  have hlength := length_csvRow h
  obtain ⟨time, htime, hrow⟩ := Except.bind_eq_ok_iff.mp h
  obtain rfl := Except.ok.inj hrow
  cases decimals with
  | none =>
    exact ⟨hlength, ⟨time, rfl, timeField_eq_ok htime⟩, rfl, rfl, rfl, rfl, rfl, rfl, rfl, rfl, by simp, rfl, rfl⟩
  | some d =>
    refine ⟨hlength, ⟨time, rfl, timeField_eq_ok htime⟩, rfl, rfl, rfl, rfl, rfl, rfl, rfl, rfl, ?_, rfl, rfl⟩
    rintro _ ⟨⟩
    refine ⟨amountField a.amount d, rfl, fun hnone => by rw [hnone]; rfl, fun n hn => ?_⟩
    rw [hn]
    exact ⟨⟨n, d⟩, read_formatUnits n d, rfl, rfl⟩

/-- The report of any activity is read back as a header and a record for each entry, in order, that say
    what the entries say; only a date out of range keeps it from being written. -/
theorem csv_says_activity (activity : List ConfidentialActivity) (decimals : Option Nat) :
    (∀ message, confidentialActivityToCsv activity decimals = .error message →
      ∃ a ∈ activity, ∃ time, a.blockTime = some time ∧ ¬JsDate.IsValid time) ∧
    ∀ text, confidentialActivityToCsv activity decimals = .ok text →
      ∃ records, Csv.parse text = some (csvHeader decimals :: records) ∧
        List.Forall₂ (RecordSays decimals) activity records := by
  refine ⟨fun message => confidentialActivityToCsv_error, fun text htext => ?_⟩
  obtain ⟨rows, hrows, hparse⟩ := parse_confidentialActivityToCsv htext
  exact ⟨rows, hparse, hrows.imp fun _ _ => recordSays_csvRow⟩

example : confidentialActivityToCsv
    [{ kind := .transfer, fromToken := some "a", fromOwner := none, toToken := some "b", toOwner := none,
       amount := none, decrypted := false, note := some "not encrypted, to \"this\" key",
       signature := "sig2", slot := 6, blockTime := none },
     { kind := .deposit, fromToken := some "a", fromOwner := some "a", toToken := some "a",
       toOwner := some "a", amount := some 5, decrypted := false, signature := "sig3", slot := 7,
       blockTime := some 1791799200000 }] (some 2) =
    .ok ("time_utc,slot,signature,kind,from_owner,from_account,to_owner,to_account,amount_base_units," ++
      "amount,decrypted,note\r\n" ++
      ",6,sig2,transfer,,a,,b,,,no,\"not encrypted, to \"\"this\"\" key\"\r\n" ++
      "2026-10-12T10:00:00.000Z,7,sig3,deposit,a,a,a,a,5,0.05,no,\r\n") := by
  decide +kernel

end Sdk
