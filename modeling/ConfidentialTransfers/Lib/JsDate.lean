-- SUMMARY: JavaScript dates as instants in milliseconds, written in ISO 8601.
import Mathlib.Tactic.Common

/-!
# JavaScript dates

A `Date` is its `getTime()`, the milliseconds since 1970. Instants further than
8.64e15 milliseconds from then are no dates: `toISOString` throws.
-/

namespace JsDate

/-- The largest distance from 1970 a date can have. -/
def maxTime : Int := 8640000000000000

def IsValid (time : Int) : Prop := -maxTime ≤ time ∧ time ≤ maxTime

instance (time : Int) : Decidable (IsValid time) := inferInstanceAs (Decidable (_ ∧ _))

/-- Year, month and day of the Gregorian calendar, of a day counted from 1970-01-01. Years are taken to
    start in March, so that a leap day is the last of its year. -/
def civilFromDays (day : Int) : Int × Int × Int :=
  let shifted := day + 719468
  let era := shifted / 146097
  let dayOfEra := shifted % 146097
  let yearOfEra := (dayOfEra - dayOfEra / 1460 + dayOfEra / 36524 - dayOfEra / 146096) / 365
  let dayOfYear := dayOfEra - (365 * yearOfEra + yearOfEra / 4 - yearOfEra / 100)
  let monthFromMarch := (5 * dayOfYear + 2) / 153
  let month := if monthFromMarch < 10 then monthFromMarch + 3 else monthFromMarch - 9
  (yearOfEra + era * 400 + (if month ≤ 2 then 1 else 0), month, dayOfYear - (153 * monthFromMarch + 2) / 5 + 1)

/-- A natural number with zeros in front, `width` digits at least. -/
def pad (width : Nat) (n : Nat) : String :=
  String.ofList (List.replicate (width - (toString n).length) '0') ++ toString n

/-- Four digits, or a sign and six. -/
def yearText (year : Int) : String :=
  if 0 ≤ year ∧ year ≤ 9999 then pad 4 year.toNat
  else (if year < 0 then "-" else "+") ++ pad 6 year.natAbs

def toISOString (time : Int) : Except String String :=
  if IsValid time then
    let (year, month, day) := civilFromDays (time / 86400000)
    let inDay := (time % 86400000).toNat
    .ok (yearText year ++ "-" ++ pad 2 month.toNat ++ "-" ++ pad 2 day.toNat ++ "T" ++
      pad 2 (inDay / 3600000) ++ ":" ++ pad 2 (inDay / 60000 % 60) ++ ":" ++ pad 2 (inDay / 1000 % 60) ++
      "." ++ pad 3 (inDay % 1000) ++ "Z")
  else .error "Invalid time value"

theorem toISOString_eq_error {time : Int} {message : String} (h : toISOString time = .error message) :
    ¬IsValid time := by
  intro hvalid
  simp [toISOString, hvalid] at h

example : toISOString 1791799200000 = .ok "2026-10-12T10:00:00.000Z" := by decide +kernel

end JsDate
