-- SUMMARY: `Number(text)`: the JavaScript number a text stands for.
import ConfidentialTransfers.Lib.JsNumber

/-!
# Numbers from text

`Number` of a string, as ECMAScript's `StringToNumber` has it: white space around
the literal is ignored, nothing at all is zero, and what is no literal is `NaN`.
-/

namespace JsNumber

/-- White space and line ends, which `Number` and `trim` ignore at both ends. -/
def isWhiteSpace (c : Char) : Bool :=
  [0x9, 0xA, 0xB, 0xC, 0xD, 0x20, 0xA0, 0x1680, 0x2028, 0x2029, 0x202F, 0x205F, 0x3000, 0xFEFF].contains
    c.toNat || (decide (0x2000 ≤ c.toNat) && decide (c.toNat ≤ 0x200A))

def trim (cs : List Char) : List Char :=
  (((cs.dropWhile isWhiteSpace).reverse).dropWhile isWhiteSpace).reverse

/-- The value of a digit, up to base 16. -/
def digitValue (c : Char) : Option Nat :=
  if c.isDigit then some (c.toNat - 48)
  else if 'a' ≤ c ∧ c ≤ 'f' then some (c.toNat - 87)
  else if 'A' ≤ c ∧ c ≤ 'F' then some (c.toNat - 55)
  else none

/-- A non-empty run of digits of this base. -/
def digits (base : Nat) (cs : List Char) : Option Nat :=
  if cs = [] then none
  else cs.foldlM (fun n c => match digitValue c with
    | some d => if d < base then some (n * base + d) else none
    | none => none) 0

/-- The exponent part after its letter. -/
def exponent : List Char → Option Int
  | '+' :: cs => (digits 10 cs).map Int.ofNat
  | '-' :: cs => (digits 10 cs).map fun n => -Int.ofNat n
  | cs => (digits 10 cs).map Int.ofNat

/-- Digits with at most one point among them, and the rest of the text. -/
def mantissa (cs : List Char) : Option ℚ × List Char :=
  let integer := cs.takeWhile Char.isDigit
  let (fraction, rest) := match cs.dropWhile Char.isDigit with
    | '.' :: rest => (rest.takeWhile Char.isDigit, rest.dropWhile Char.isDigit)
    | rest => ([], rest)
  ((digits 10 (integer ++ fraction)).map fun n => (n : ℚ) / 10 ^ fraction.length, rest)

/-- A decimal literal without a sign. -/
def decimalLiteral (cs : List Char) : Option ℚ :=
  match mantissa cs with
  | (some q, []) => some q
  | (some q, c :: rest) => if c = 'e' ∨ c = 'E' then (exponent rest).map fun n => q * 10 ^ n else none
  | (none, _) => none

/-- A decimal literal without a sign, or `Infinity`. -/
def unsignedLiteral (cs : List Char) : Option JsNumber :=
  if cs = "Infinity".toList then some .infinity else (decimalLiteral cs).map ofRat

def negate : JsNumber → JsNumber
  | .nan => .nan
  | .finite q => .finite (-q)
  | .infinity => .negInfinity
  | .negInfinity => .infinity

def numericLiteral : List Char → Option JsNumber
  | [] => some (.finite 0)
  | '0' :: 'x' :: cs | '0' :: 'X' :: cs => (digits 16 cs).map fun n => ofRat n
  | '0' :: 'o' :: cs | '0' :: 'O' :: cs => (digits 8 cs).map fun n => ofRat n
  | '0' :: 'b' :: cs | '0' :: 'B' :: cs => (digits 2 cs).map fun n => ofRat n
  | '+' :: cs => unsignedLiteral cs
  | '-' :: cs => (unsignedLiteral cs).map negate
  | cs => unsignedLiteral cs

/-- `Number(text)`. -/
def ofText (text : String) : JsNumber := (numericLiteral (trim text.toList)).getD .nan

example : ofText " 0x1F\n" = .finite 31 := by decide +kernel

example : ofText "2.0000000000000000001" = .finite 2 := by decide +kernel

example : ofText "two" = .nan := by decide +kernel

end JsNumber
