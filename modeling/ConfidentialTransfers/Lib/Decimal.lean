-- SUMMARY: Decimal numbers as text: what is read, and how many digits follow the point.
import Mathlib.Data.List.TakeWhile
import Mathlib.Data.Rat.Defs
import Mathlib.Tactic.Common

/-!
# Decimal numbers

A decimal number is a non-empty run of digits, possibly followed by a point and
another non-empty run of digits.
-/

namespace Decimal

/-- The digits without the point, as a number, and how many of them follow it. -/
structure Reading where
  digits : Nat
  fractionDigits : Nat
deriving DecidableEq, Repr

/-- The number itself. -/
def Reading.value (r : Reading) : ℚ := r.digits / 10 ^ r.fractionDigits

def read (text : String) : Option Reading :=
  let integer := text.toList.takeWhile Char.isDigit
  match text.toList.dropWhile Char.isDigit with
  | [] => if integer = [] then none else some ⟨Nat.ofDigitChars 10 integer 0, 0⟩
  | '.' :: fraction =>
    if integer = [] ∨ fraction = [] ∨ fraction.any (!·.isDigit) then none
    else some ⟨Nat.ofDigitChars 10 (integer ++ fraction) 0, fraction.length⟩
  | _ => none

variable {integer fraction : List Char}

theorem read_integer (hne : integer ≠ []) (hdigits : ∀ c ∈ integer, c.isDigit = true) :
    read (String.ofList integer) = some ⟨Nat.ofDigitChars 10 integer 0, 0⟩ := by
  have htake : integer.takeWhile Char.isDigit = integer := List.takeWhile_eq_self_iff.mpr hdigits
  have hdrop : integer.dropWhile Char.isDigit = [] := List.dropWhile_eq_nil_iff.mpr hdigits
  simp [read, htake, hdrop, hne]

theorem read_point (hne : integer ≠ []) (hdigits : ∀ c ∈ integer, c.isDigit = true)
    (hfraction : fraction ≠ []) (hfractionDigits : ∀ c ∈ fraction, c.isDigit = true) :
    read (String.ofList (integer ++ '.' :: fraction)) =
      some ⟨Nat.ofDigitChars 10 (integer ++ fraction) 0, fraction.length⟩ := by
  have hpoint : Char.isDigit '.' = false := by decide
  have htake : (integer ++ '.' :: fraction).takeWhile Char.isDigit = integer := by
    rw [List.takeWhile_append_of_pos hdigits, List.takeWhile_cons_of_neg (by simp [hpoint]), List.append_nil]
  have hdrop : (integer ++ '.' :: fraction).dropWhile Char.isDigit = '.' :: fraction := by
    rw [List.dropWhile_append_of_pos hdigits, List.dropWhile_cons_of_neg (by simp [hpoint])]
  have hall : fraction.any (!·.isDigit) = false := by
    simpa using hfractionDigits
  simp only [read, String.toList_ofList, htake, hdrop, hne, hfraction, hall, Bool.false_eq_true, or_self,
    if_false]

/-- Digits with the point put before the last `n` of them. -/
theorem read_insertPoint {digits : List Char} (hdigits : ∀ c ∈ digits, c.isDigit = true) {n : Nat}
    (hn : 0 < n) (hlength : n < digits.length) :
    read (String.ofList (digits.take (digits.length - n) ++ '.' :: digits.drop (digits.length - n))) =
      some ⟨Nat.ofDigitChars 10 digits 0, n⟩ := by
  have hfraction : (digits.drop (digits.length - n)).length = n := by
    rw [List.length_drop]
    omega
  have hinteger : digits.take (digits.length - n) ≠ [] :=
    List.ne_nil_of_length_pos (by rw [List.length_take]; omega)
  have hpoint : digits.drop (digits.length - n) ≠ [] := List.ne_nil_of_length_pos (by omega)
  rw [read_point hinteger (fun c hc => hdigits c (List.mem_of_mem_take hc)) hpoint
    (fun c hc => hdigits c (List.mem_of_mem_drop hc)), List.take_append_drop, hfraction]

/-- A natural number as JavaScript and Lean write it. -/
theorem read_toString (n : Nat) : read (toString n) = some ⟨n, 0⟩ := by
  rw [Nat.toString_eq_ofList_toDigits, read_integer Nat.toDigits_ne_nil, Nat.ofDigitChars_ten_toDigits]
  exact fun c hc => Nat.isDigit_of_mem_toDigits (by decide) (by decide) hc

end Decimal
