import IterationEngine.Number.Rounding

/-!
# Numerals

Numerals in guest strings.

A numeral is an optional sign, decimal digits with an optional point, of which at least one digit must be
there, and an optional exponent with at least one digit. Blanks may precede it and nothing may follow. A string
that is no numeral, or whose value is out of range, reads as NaN; a value too small for the range reads as the
nearest number, which may be a zero of the numeral's sign.
-/

namespace IterationEngine.Number

/-- The blanks that may precede a numeral. -/
def isBlank (c : Char) : Bool :=
  c == ' ' || ('\t' ≤ c && c ≤ '\r')

/-- A numeral taken apart: its value is `digits * 10 ^ exponent`, with a sign. -/
structure Numeral where
  negative : Bool
  digits : Nat
  exponent : Int
  deriving DecidableEq, Repr

namespace Numeral

/-- The value of a run of decimal digits. -/
def valueOf (cs : List Char) : Nat :=
  cs.foldl (fun acc c => 10 * acc + (c.toNat - '0'.toNat)) 0

/-- Splits off an optional sign. -/
def takeSign : List Char → Bool × List Char
  | '-' :: rest => (true, rest)
  | '+' :: rest => (false, rest)
  | cs => (false, cs)

/-- The digits after a point, if there is one, and the rest. -/
def takeFraction : List Char → List Char × List Char
  | '.' :: rest => (rest.takeWhile Char.isDigit, rest.dropWhile Char.isDigit)
  | cs => ([], cs)

/-- The exponent that makes up the whole of the text; no text is the exponent zero. -/
def exponent? : List Char → Option Int
  | [] => some 0
  | c :: rest =>
    let (negative, ds) := takeSign rest
    if (c == 'e' || c == 'E') && !ds.isEmpty && ds.all Char.isDigit then
      some (if negative then -(valueOf ds : Int) else valueOf ds)
    else none

/-- Reads the whole text as a numeral. -/
def ofChars? (cs : List Char) : Option Numeral :=
  let (negative, unsigned) := takeSign cs
  let whole := unsigned.takeWhile Char.isDigit
  let (fraction, rest) := takeFraction (unsigned.dropWhile Char.isDigit)
  if (whole ++ fraction).isEmpty then none
  else (exponent? rest).map fun e => ⟨negative, valueOf (whole ++ fraction), e - (fraction.length : Nat)⟩

def value (n : Numeral) : Number :=
  ofDecimal n.negative n.digits n.exponent

end Numeral

/-- The number that a string denotes: zero for the empty string, NaN if it is no numeral in range. -/
def ofText (s : String) : Number :=
  if s.isEmpty then zero
  else
    match Numeral.ofChars? (s.toList.dropWhile isBlank) with
    | none => nan
    | some n => if n.value.isInfinite then nan else n.value

end IterationEngine.Number
