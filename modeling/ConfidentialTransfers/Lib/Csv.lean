-- SUMMARY: RFC 4180: which texts stand for a field, and a parser that reads them back.
import Mathlib.Data.List.Forall2
import Mathlib.Tactic.Common

/-!
# Comma-separated values

A file is a sequence of records, each ended by CR LF, whose fields are separated
by commas. A field stands for itself when it has no comma, quote, CR or LF, and
any field may be written between quotes, its own quotes doubled. As in most
readers, every other character may stand outside of quotes.
-/

namespace Csv

/-! ## The format -/

/-- The characters a field may hold only between quotes. -/
def isSpecial (c : Char) : Bool := c == '"' || c == ',' || c == '\r' || c == '\n'

/-- Every quote doubled. -/
def doubleQuotes (field : List Char) : List Char :=
  field.flatMap fun c => if c = '"' then ['"', '"'] else [c]

/-- The text stands for the field. -/
inductive Writes (field : String) : String → Prop
  | plain (h : ∀ c ∈ field.toList, isSpecial c = false) : Writes field field
  | quoted : Writes field (String.ofList ('"' :: (doubleQuotes field.toList ++ ['"'])))

/-! ## Reading -/

/-- Where in a record the reader is. -/
inductive Mode
  /-- At the beginning of a field. -/
  | start
  /-- In a field without quotes. -/
  | plain
  /-- Between quotes. -/
  | quoted
  /-- After a quote between quotes: the closing one, or the first of two. -/
  | quote
  /-- After the CR that ends a record. -/
  | newline
deriving DecidableEq, Repr

/-- The records read so far, the fields of the current one, and the characters of the current field. -/
structure Reader where
  records : List (List String) := []
  fields : List String := []
  field : List Char := []
  mode : Mode := .start
deriving DecidableEq, Repr

namespace Reader

def endField (r : Reader) (mode : Mode) : Reader :=
  { r with fields := r.fields ++ [String.ofList r.field], field := [], mode }

def addChar (r : Reader) (c : Char) (mode : Mode) : Reader := { r with field := r.field ++ [c], mode }

def step (r : Reader) (c : Char) : Option Reader :=
  match r.mode, c with
  | .start, '"' => some { r with mode := .quoted }
  | .quoted, '"' => some { r with mode := .quote }
  | .quoted, c => some (r.addChar c .quoted)
  | .quote, '"' => some (r.addChar '"' .quoted)
  | .newline, '\n' => some { records := r.records ++ [r.fields] }
  | .newline, _ => none
  | _, ',' => some (r.endField .start)
  | _, '\r' => some (r.endField .newline)
  | .start, c => if c = '\n' then none else some (r.addChar c .plain)
  | .plain, c => if c = '"' ∨ c = '\n' then none else some (r.addChar c .plain)
  | .quote, _ => none

def run (r : Reader) : List Char → Option Reader
  | [] => some r
  | c :: cs => (r.step c).bind fun r => run r cs

/-- At the end of the text; the last record need not be ended. -/
def finish (r : Reader) : Option (List (List String)) :=
  match r.mode with
  | .quoted | .newline => none
  | .start => if r.fields = [] then some r.records else some (r.records ++ [r.fields ++ [""]])
  | .plain | .quote => some (r.records ++ [r.fields ++ [String.ofList r.field]])

end Reader

/-- The records of a file, or `none` when it is not one. -/
def parse (text : String) : Option (List (List String)) := (Reader.run {} text.toList).bind Reader.finish

/-! ## What is written is read back -/

namespace Reader

theorem run_append (r : Reader) (cs ds : List Char) : r.run (cs ++ ds) = (r.run cs).bind fun r => r.run ds := by
  induction cs generalizing r with
  | nil => rfl
  | cons c cs ih =>
    simp only [List.cons_append, run, Option.bind_assoc]
    cases r.step c with
    | none => rfl
    | some r' => exact ih r'

/-- The reader may be at the end of a field. -/
def AtEnd (r : Reader) : Prop := r.mode = .start ∨ r.mode = .plain ∨ r.mode = .quote

theorem step_comma {r : Reader} (h : r.AtEnd) : r.step ',' = some (r.endField .start) := by
  rcases h with h | h | h <;> simp [step, h]

theorem step_cr {r : Reader} (h : r.AtEnd) : r.step '\r' = some (r.endField .newline) := by
  rcases h with h | h | h <;> simp [step, h]

theorem step_plain {r : Reader} {c : Char} (hmode : r.mode = .start ∨ r.mode = .plain)
    (hc : isSpecial c = false) : r.step c = some (r.addChar c .plain) := by
  simp only [isSpecial, Bool.or_eq_false_iff, beq_eq_false_iff_ne, ne_eq] at hc
  obtain ⟨⟨⟨hquote, hcomma⟩, hcr⟩, hlf⟩ := hc
  rcases hmode with h | h <;> simp [step, h, hquote, hlf]

/-- A field outside of quotes. -/
theorem run_plain {r : Reader} (hmode : r.mode = .start ∨ r.mode = .plain) {cs : List Char}
    (hcs : ∀ c ∈ cs, isSpecial c = false) :
    ∃ mode, r.run cs = some { r with field := r.field ++ cs, mode } ∧
      (mode = .start ∨ mode = .plain) := by
  induction cs generalizing r with
  | nil => exact ⟨r.mode, by simp [run], hmode⟩
  | cons c cs ih =>
    have hstep := step_plain hmode (hcs c List.mem_cons_self)
    obtain ⟨mode, hrun, hends⟩ := ih (r := r.addChar c .plain) (.inr rfl)
      fun d hd => hcs d (List.mem_cons_of_mem c hd)
    refine ⟨mode, ?_, hends⟩
    rw [run, hstep, Option.bind_some, hrun]
    simp [addChar]

/-- What is between quotes, up to the closing one. -/
theorem run_quoted {r : Reader} (hmode : r.mode = .quoted) (cs : List Char) :
    r.run (doubleQuotes cs ++ ['"']) = some { r with field := r.field ++ cs, mode := .quote } := by
  induction cs generalizing r with
  | nil => simp [doubleQuotes, run, step, hmode]
  | cons c cs ih =>
    have hrest := ih (r := r.addChar c .quoted) rfl
    have hsplit : doubleQuotes (c :: cs) ++ ['"'] =
        (if c = '"' then ['"', '"'] else [c]) ++ (doubleQuotes cs ++ ['"']) := by
      simp [doubleQuotes]
    have hchar : r.run (if c = '"' then ['"', '"'] else [c]) = some (r.addChar c .quoted) := by
      by_cases hc : c = '"'
      · subst hc
        simp [run, step, hmode, addChar]
      · simp [hc, run, step, hmode]
    rw [hsplit, run_append, hchar, Option.bind_some, hrest]
    simp [addChar]

/-- Whatever text stands for a field, it is read as the field. -/
theorem run_field {r : Reader} (hmode : r.mode = .start) (hfield : r.field = []) {field text : String}
    (h : Writes field text) :
    ∃ mode, r.run text.toList = some { r with field := field.toList, mode } ∧
      (mode = .start ∨ mode = .plain ∨ mode = .quote) := by
  cases h with
  | plain hplain =>
    obtain ⟨mode, hrun, hends⟩ := run_plain (.inl hmode) hplain
    refine ⟨mode, ?_, ?_⟩
    · simpa [hfield] using hrun
    · exact hends.elim .inl fun h => .inr (.inl h)
  | quoted =>
    refine ⟨.quote, ?_, .inr (.inr rfl)⟩
    have hopen : r.step '"' = some { r with mode := .quoted } := by simp [step, hmode]
    have hrest := run_quoted (r := { r with mode := .quoted }) rfl field.toList
    rw [String.toList_ofList, run, hopen, Option.bind_some, hrest]
    simp [hfield]

end Reader

/-- The text of a record, without the end of the line. -/
def joinFields (texts : List String) : List Char := [','].intercalate (texts.map String.toList)

/-- The text of a file. -/
def joinRecords (rows : List (List String)) : List Char :=
  rows.flatMap fun texts => joinFields texts ++ ['\r', '\n']

namespace Reader

/-- A record is read field by field. -/
theorem run_record {fields texts : List String} (h : List.Forall₂ Writes fields texts)
    (hne : fields ≠ []) (records : List (List String)) (done : List String) :
    run { records, fields := done } (joinFields texts ++ ['\r', '\n']) =
      some { records := records ++ [done ++ fields] } := by
  induction h generalizing done with
  | nil => exact absurd rfl hne
  | @cons field text fields texts hfield hrest ih =>
    obtain ⟨mode, hrun, hends⟩ := run_field (r := { records, fields := done }) rfl rfl hfield
    cases hrest with
    | nil =>
      have hcr := step_cr (r := { records, fields := done, field := field.toList, mode }) hends
      have hsplit : joinFields [text] = text.toList := by simp [joinFields]
      rw [hsplit, run_append, hrun, Option.bind_some, run, hcr, Option.bind_some]
      simp [run, step, endField]
    | @cons field' text' fields' texts' hfield' hrest' =>
      have hcomma := step_comma (r := { records, fields := done, field := field.toList, mode }) hends
      have hnext := ih (by simp) (done ++ [field])
      have hsplit : joinFields (text :: text' :: texts') ++ ['\r', '\n'] =
          text.toList ++ ',' :: (joinFields (text' :: texts') ++ ['\r', '\n']) := by
        simp [joinFields, List.intercalate]
      rw [hsplit, run_append, hrun, Option.bind_some, run, hcomma, Option.bind_some]
      simpa [endField] using hnext

theorem run_records {rows texts : List (List String)} (h : List.Forall₂ (List.Forall₂ Writes) rows texts)
    (hne : ∀ row ∈ rows, row ≠ []) (done : List (List String)) :
    run { records := done } (joinRecords texts) = some { records := done ++ rows } := by
  induction h generalizing done with
  | nil => simp [joinRecords, run]
  | @cons row text rows texts hrow _ ih =>
    have hfirst := run_record hrow (hne row List.mem_cons_self) done []
    have hrest := ih (fun r hr => hne r (List.mem_cons_of_mem row hr)) (done ++ [row])
    have hsplit : joinRecords (text :: texts) = (joinFields text ++ ['\r', '\n']) ++ joinRecords texts := by
      simp [joinRecords]
    rw [hsplit, run_append, hfirst, Option.bind_some]
    simpa using hrest

end Reader

/-- Records with at least a field each, however their fields are written, are read back. -/
theorem parse_joinRecords {rows texts : List (List String)}
    (h : List.Forall₂ (List.Forall₂ Writes) rows texts) (hne : ∀ row ∈ rows, row ≠ []) :
    parse (String.ofList (joinRecords texts)) = some rows := by
  have hrun := Reader.run_records h hne []
  rw [parse, String.toList_ofList]
  have hstart : ({} : Reader) = { records := [] } := rfl
  rw [hstart, hrun]
  simp [Reader.finish]

end Csv
