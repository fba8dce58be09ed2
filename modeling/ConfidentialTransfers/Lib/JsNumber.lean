-- SUMMARY: JavaScript numbers, as far as comparing, stepping and slicing with them goes.
import ConfidentialTransfers.Lib.Double

/-!
# JavaScript numbers

A number is a finite value, an infinity or `NaN`. A comparison with `NaN` is
false. What is computed or read is rounded to the nearest double; the sign of
zero is left out.
-/

inductive JsNumber
  | nan
  | finite (q : ℚ)
  | infinity
  | negInfinity
deriving DecidableEq

namespace JsNumber

def ofNat (n : Nat) : JsNumber := .finite n

/-- `a >= b`. -/
def ge : JsNumber → JsNumber → Bool
  | .nan, _ => false
  | _, .nan => false
  | .infinity, _ => true
  | _, .infinity => false
  | _, .negInfinity => true
  | .negInfinity, _ => false
  | .finite a, .finite b => decide (b ≤ a)

/-- `a < b`. -/
def lt : JsNumber → JsNumber → Bool
  | .nan, _ => false
  | _, .nan => false
  | a, b => !ge a b

/-- `Math.max(a, b)`. -/
def max : JsNumber → JsNumber → JsNumber
  | .nan, _ => .nan
  | _, .nan => .nan
  | a, b => if ge a b then a else b

/-- The nearest double, or an infinity where it is too large for one. -/
def ofRat (q : ℚ) : JsNumber :=
  if 2 ^ 1024 ≤ Double.round q then .infinity
  else if Double.round q ≤ -2 ^ 1024 then .negInfinity
  else .finite (Double.round q)

/-- `a + b`, where `sum` makes a number of the exact sum of two finite ones. -/
def addWith (sum : ℚ → JsNumber) : JsNumber → JsNumber → JsNumber
  | .nan, _ => .nan
  | _, .nan => .nan
  | .infinity, .negInfinity => .nan
  | .negInfinity, .infinity => .nan
  | .infinity, _ => .infinity
  | _, .infinity => .infinity
  | .negInfinity, _ => .negInfinity
  | _, .negInfinity => .negInfinity
  | .finite a, .finite b => sum (a + b)

/-- `a + b`. -/
def add : JsNumber → JsNumber → JsNumber := addWith ofRat

/-- The index an argument of `slice` stands for in a list of length `len`. -/
def sliceIndex (len : Nat) : JsNumber → Nat
  | .nan => 0
  | .infinity => len
  | .negInfinity => 0
  | .finite q => if 0 ≤ q then min ⌊q⌋₊ len else len - ⌊-q⌋₊

/-- `xs.slice(start, stop)`. -/
def slice {α : Type} (xs : List α) (start stop : JsNumber) : List α :=
  (xs.take (sliceIndex xs.length stop)).drop (sliceIndex xs.length start)

@[simp] theorem ge_ofNat (m n : Nat) : ge (.ofNat m) (.ofNat n) = decide (n ≤ m) := by
  simp only [ge, ofNat, Nat.cast_le]

@[simp] theorem lt_ofNat (m n : Nat) : lt (.ofNat m) (.ofNat n) = decide (m < n) := by
  have hlt : lt (.ofNat m) (.ofNat n) = !ge (.ofNat m) (.ofNat n) := rfl
  rw [hlt, ge_ofNat]
  by_cases h : n ≤ m
  · simp [h, Nat.not_lt.mpr h]
  · simp [h, Nat.lt_of_not_le h]

@[simp] theorem sliceIndex_ofNat (len n : Nat) : sliceIndex len (.ofNat n) = min n len := by
  simp [sliceIndex, ofNat]

theorem slice_ofNat {α : Type} (xs : List α) (m n : Nat) :
    slice xs (.ofNat m) (.ofNat n) = (xs.take n).drop m := by
  unfold slice
  rw [sliceIndex_ofNat, sliceIndex_ofNat, ← List.take_eq_take_min]
  by_cases h : m ≤ xs.length
  · rw [Nat.min_eq_left h]
  · rw [List.drop_eq_nil_of_le, List.drop_eq_nil_of_le] <;> simp <;> omega

/-- A fraction stands for the index below it. -/
theorem sliceIndex_finite (len : Nat) {q : ℚ} (hq : 0 ≤ q) :
    sliceIndex len (.finite q) = sliceIndex len (.ofNat ⌊q⌋₊) := by
  rw [sliceIndex_ofNat]
  simp [sliceIndex, hq]

theorem slice_finite {α : Type} (xs : List α) {p q : ℚ} (hp : 0 ≤ p) (hq : 0 ≤ q) :
    slice xs (.finite p) (.finite q) = (xs.take ⌊q⌋₊).drop ⌊p⌋₊ := by
  rw [← slice_ofNat, slice, slice, sliceIndex_finite _ hp, sliceIndex_finite _ hq]

/-- Up to an infinity there is everything. -/
theorem slice_infinity {α : Type} (xs : List α) {p : ℚ} (hp : 0 ≤ p) :
    slice xs (.finite p) .infinity = xs.drop ⌊p⌋₊ := by
  have hstop : sliceIndex xs.length .infinity = xs.length := rfl
  rw [slice, hstop, List.take_length, sliceIndex_finite _ hp, sliceIndex_ofNat]
  rcases Nat.le_total ⌊p⌋₊ xs.length with h | h
  · rw [Nat.min_eq_left h]
  · rw [Nat.min_eq_right h, List.drop_length, List.drop_eq_nil_of_le h]

/-- Rounding keeps a number above the natural numbers it is above, as far as these are doubles. -/
theorem ofRat_cases {n : Nat} {q : ℚ} (hn : n ≤ 2 ^ 53) (h : (n : ℚ) ≤ q) :
    ofRat q = .infinity ∨ ∃ r : ℚ, ofRat q = .finite r ∧ (n : ℚ) ≤ r := by
  have hle : (n : ℚ) ≤ Double.round q := Double.natCast_le_round hn h
  have hneg : ¬Double.round q ≤ -2 ^ 1024 := by
    have hbig : -2 ^ 1024 < (0 : ℚ) := neg_neg_of_pos (pow_pos two_pos 1024)
    have hzero : (0 : ℚ) ≤ Double.round q := (Nat.cast_nonneg n).trans hle
    exact not_le.mpr (hbig.trans_le hzero)
  unfold ofRat
  split
  · exact .inl rfl
  · exact .inr ⟨_, rfl, hle⟩

/-- The natural numbers below a finite number, or below minus infinity: how many there are. -/
def countBelow : JsNumber → Option Nat
  | .nan => none
  | .infinity => none
  | .negInfinity => some 0
  | .finite q => some ⌈q⌉₊

/-- A natural number is at least `x` when there are no more numbers below `x`. -/
theorem ge_ofNat_iff {n : Nat} {x : JsNumber} :
    ge (.ofNat n) x = true ↔ ∃ limit, x.countBelow = some limit ∧ limit ≤ n := by
  cases x with
  | nan => simp [ge, ofNat, countBelow]
  | infinity => simp [ge, ofNat, countBelow]
  | negInfinity => simp [ge, ofNat, countBelow]
  | finite q => simp [ge, ofNat, countBelow, Nat.ceil_le]

/-- A natural number that is not at least `x` is one of those below it. -/
theorem lt_of_not_ge {n limit : Nat} {x : JsNumber} (h : ge (.ofNat n) x = false)
    (hx : x.countBelow = some limit) : n < limit := by
  by_contra hle
  have hge : ge (.ofNat n) x = true := ge_ofNat_iff.mpr ⟨limit, hx, Nat.le_of_not_lt hle⟩
  rw [h] at hge
  cases hge

end JsNumber
