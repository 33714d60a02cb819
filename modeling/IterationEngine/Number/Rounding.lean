import IterationEngine.Number.Basic

/-!
# Rounding to the nearest number

The number nearest to an exact fraction, ties to even, and the two readings built on it: integers and
decimal numerals.

A positive fraction lies between two neighbours on the grid of step `2 ^ ulp`, where the step is as fine as 53
bits of mantissa and the exponent range allow. The rounded mantissa may carry into the next power of two; the
layout of the bit fields turns that carry into a correct exponent, and a carry out of the top exponent into
infinity.
-/

namespace IterationEngine

/-- The integer nearest to `num / den`, a half going to the even neighbour. -/
def roundHalfEven (num den : Nat) : Nat :=
  let q := num / den
  let r := num % den
  if 2 * r < den then q
  else if den < 2 * r then q + 1
  else q + q % 2

namespace Number

/-- The greatest `e` with `2 ^ e ≤ num / den`, for positive `num` and `den`. -/
def binaryExponent (num den : Nat) : Int :=
  let e : Int := (num.log2 : Int) - (den.log2 : Int)
  let reaches := if 0 ≤ e then decide (den * Nat.pow 2 e.toNat ≤ num) else decide (den ≤ num * Nat.pow 2 (-e).toNat)
  if reaches then e else e - 1

/-- The exponent of the grid on which `num / den` is rounded. -/
def ulpExponent (num den : Nat) : Int :=
  max (binaryExponent num den - 52) (-1074)

/-- The number nearest to `num / den`, infinite when it is out of range. -/
def ofRatio (negative : Bool) (num den : Nat) : Number :=
  if num = 0 then ofMagnitude negative 0
  else
    let u := ulpExponent num den
    let m := if 0 ≤ u then roundHalfEven num (den * Nat.pow 2 u.toNat)
      else roundHalfEven (num * Nat.pow 2 (-u).toNat) den
    ofMagnitude negative (min ((u + 1074).toNat * hiddenBit + m) infinityMagnitude)

def ofInt (i : Int) : Number :=
  ofRatio (decide (i < 0)) i.natAbs 1

def ofNat (n : Nat) : Number :=
  ofRatio false n 1

/-- The number of decimal digits of `n`, and `1` for `0`. -/
def decimalLength (n : Nat) : Nat :=
  (Nat.toDigits 10 n).length

/--
The number nearest to `digits * 10 ^ exponent`. Beyond `10 ^ 400` it is infinite and below `10 ^ -400` zero,
so those powers need not be computed.
-/
def ofDecimal (negative : Bool) (digits : Nat) (exponent : Int) : Number :=
  let top := (decimalLength digits : Int) + exponent
  if digits = 0 then ofMagnitude negative 0
  else if 400 < top then infinity negative
  else if top < -400 then ofMagnitude negative 0
  else if 0 ≤ exponent then ofRatio negative (digits * Nat.pow 10 exponent.toNat) 1
  else ofRatio negative digits (Nat.pow 10 (-exponent).toNat)

end Number

end IterationEngine
