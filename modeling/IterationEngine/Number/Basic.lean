/-!
# Numbers

Numbers of the guest language: IEEE-754 doubles, held as their 64 bits.

Every question about a number is answered from the bit fields in natural-number arithmetic. The three
equalities of the language differ on numbers only in how they treat NaN and the two zeros: `equals` parts NaN
from itself, `same` parts the zeros, `sameZero` does neither.
-/

namespace IterationEngine

/-- A double, given by its bits. Different NaN payloads are different values of this type. -/
structure Number where
  bits : UInt64
  deriving DecidableEq, Repr, Inhabited

namespace Number

/-! ## Bit fields -/

/-- The weight of the sign bit. -/
def signWeight : Nat := Nat.pow 2 63

/-- The weight of the lowest bit of the exponent field, and the implicit leading bit of a mantissa. -/
def hiddenBit : Nat := Nat.pow 2 52

/-- The bits of positive infinity; larger magnitudes are NaN. -/
def infinityMagnitude : Nat := 2047 * hiddenBit

/-- The bits below the sign. -/
def magnitude (n : Number) : Nat := n.bits.toNat % signWeight

/-- The sign bit is set. This is also a property of zeros and NaNs. -/
def isNegative (n : Number) : Bool := decide (signWeight ≤ n.bits.toNat)

def isNaN (n : Number) : Bool := decide (infinityMagnitude < n.magnitude)

def isInfinite (n : Number) : Bool := n.magnitude == infinityMagnitude

def isZero (n : Number) : Bool := n.magnitude == 0

/-- The mantissa `m` of a finite number, whose magnitude is `m * 2 ^ n.scale`. -/
def mantissa (n : Number) : Nat :=
  if n.magnitude < hiddenBit then n.magnitude else hiddenBit + n.magnitude % hiddenBit

/-- The binary exponent that goes with `mantissa`. -/
def scale (n : Number) : Int :=
  if n.magnitude < hiddenBit then -1074 else (n.magnitude / hiddenBit : Nat) - 1075

/-! ## Construction -/

/-- The number with the given sign and bits below the sign. -/
def ofMagnitude (negative : Bool) (m : Nat) : Number :=
  ⟨UInt64.ofNat (if negative then signWeight + m else m)⟩

def zero : Number := ofMagnitude false 0
def negZero : Number := ofMagnitude true 0
def one : Number := ofMagnitude false (1023 * hiddenBit)
def infinity (negative : Bool) : Number := ofMagnitude negative infinityMagnitude
/-- The quiet NaN with an empty payload. -/
def nan : Number := ofMagnitude false (infinityMagnitude + hiddenBit / 2)

/-! ## Equalities -/

/-- IEEE equality: NaN differs from everything, the zeros are equal. -/
def equals (a b : Number) : Bool :=
  !a.isNaN && (a == b || (a.isZero && b.isZero))

/-- All NaNs are one value, the zeros are two. -/
def same (a b : Number) : Bool :=
  (a.isNaN && b.isNaN) || a == b

/-- All NaNs are one value, and so are the zeros. -/
def sameZero (a b : Number) : Bool :=
  (a.isNaN && b.isNaN) || a.equals b

theorem isNaN_of_isZero {a : Number} (h : a.isZero = true) : a.isNaN = false := by
  simp only [isZero, beq_iff_eq] at h
  simp [isNaN, h]

theorem equals_comm (a b : Number) : a.equals b = b.equals a := by
  by_cases hab : a = b
  · subst hab
    rfl
  · have hl : (a == b) = false := beq_eq_false_iff_ne.mpr hab
    have hr : (b == a) = false := beq_eq_false_iff_ne.mpr (Ne.symm hab)
    cases ha : a.isZero <;> cases hb : b.isZero <;>
      simp [equals, hl, hr, ha, hb, isNaN_of_isZero]

/-! ## Integers -/

/-- The integer that a number denotes exactly, if its absolute value is below `2 ^ 53` and it is not `-0`. -/
def toInt? (n : Number) : Option Int :=
  if n.magnitude = 0 then
    if n.isNegative then none else some 0
  else
    let shift := (-n.scale).toNat
    if n.scale ≤ 0 && n.mantissa % Nat.pow 2 shift == 0 then
      let m : Int := (n.mantissa / Nat.pow 2 shift : Nat)
      some (if n.isNegative then -m else m)
    else none

end Number

end IterationEngine
