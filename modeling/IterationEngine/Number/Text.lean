import IterationEngine.Number.Rounding

/-!
# The text of a number

The text of a number: its value rounded to six significant decimal digits.

The value is rounded from its exact binary expansion, a tie going to the even digit. Trailing zeros are
dropped. Decimal exponents from -4 to 5 are written positionally, all others in scientific form with a sign and
at least two digits in the exponent.
-/

namespace IterationEngine.Number

/-- The number of significant digits in the text of a number. -/
def textPrecision : Nat := 6

/-- The greatest `x` with `10 ^ x ≤ num / den`, for positive `num` and `den`. -/
def decimalExponent (num den : Nat) : Int :=
  if den ≤ num then (decimalLength (num / den) : Int) - 1
  else -(decimalLength ((den - 1) / num) : Int)

/-- A positive decimal `digits * 10 ^ (exponent - 5)` whose `digits` has exactly six decimal digits. -/
structure Significant where
  digits : Nat
  exponent : Int
  deriving DecidableEq, Repr

/-- The positive fraction `num / den` rounded to six significant digits. -/
def significant (num den : Nat) : Significant :=
  let x := decimalExponent num den
  let shift := (textPrecision : Int) - 1 - x
  let d := if 0 ≤ shift then roundHalfEven (num * Nat.pow 10 shift.toNat) den
    else roundHalfEven num (den * Nat.pow 10 (-shift).toNat)
  if d = Nat.pow 10 textPrecision then ⟨d / 10, x + 1⟩ else ⟨d, x⟩

/-- The list without its trailing zeros. -/
def dropTrailingZeros (cs : List Char) : List Char :=
  (cs.reverse.dropWhile (· == '0')).reverse

/-- A fraction part with its point, or nothing if there are no digits left. -/
def fractionPart (cs : List Char) : List Char :=
  match dropTrailingZeros cs with
  | [] => []
  | ds => '.' :: ds

/-- An exponent with its sign and at least two digits. -/
def exponentPart (x : Int) : List Char :=
  let digits := Nat.toDigits 10 x.natAbs
  let padded := if digits.length < 2 then '0' :: digits else digits
  'e' :: (if x < 0 then '-' else '+') :: padded

/-- The written form of a rounded positive decimal. -/
def Significant.chars (s : Significant) : List Char :=
  let digits := Nat.toDigits 10 s.digits
  if s.exponent < -4 || (textPrecision : Int) ≤ s.exponent then
    digits.take 1 ++ fractionPart (digits.drop 1) ++ exponentPart s.exponent
  else if 0 ≤ s.exponent then
    let whole := s.exponent.toNat + 1
    digits.take whole ++ fractionPart (digits.drop whole)
  else
    '0' :: fractionPart (List.replicate ((-s.exponent).toNat - 1) '0' ++ digits)

/-- The magnitude of a finite non-zero number as a fraction of positive integers. -/
def ratio (n : Number) : Nat × Nat :=
  if 0 ≤ n.scale then (n.mantissa * Nat.pow 2 n.scale.toNat, 1)
  else (n.mantissa, Nat.pow 2 (-n.scale).toNat)

/-- The written form of a number. -/
def chars (n : Number) : List Char :=
  if n.isNaN then ['N', 'a', 'N']
  else
    let sign := if n.isNegative then ['-'] else []
    let body :=
      if n.isInfinite then ['I', 'n', 'f', 'i', 'n', 'i', 't', 'y']
      else if n.isZero then ['0']
      else (significant n.ratio.1 n.ratio.2).chars
    sign ++ body

/-- The text of a number. -/
def text (n : Number) : String :=
  String.ofList n.chars

end IterationEngine.Number
