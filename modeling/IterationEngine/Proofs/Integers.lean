import IterationEngine.Number.Rounding
import Mathlib.Tactic.Ring

/-!
# Integers that are numbers

The number nearest to an integer, field by field.

An integer of at most 53 bits is held exactly (`Number.holdsNat_ofRatio_one`), so `Number.toInt?` reads it back. Larger
ones are rounded to a number with a positive exponent, which `Number.toInt?` refuses. So the small ones are told apart
from one another and from all larger ones that are finite numbers (`Number.ofInt_inj`).
-/

namespace IterationEngine

/-! ## Rounding to an integer -/

@[simp] theorem roundHalfEven_one (n : Nat) : roundHalfEven n 1 = n := by
  simp [roundHalfEven, Nat.mod_one]

/-- Only the quotient counts. -/
theorem roundHalfEven_mul_right (num den : Nat) {c : Nat} (hc : 0 < c) :
    roundHalfEven (num * c) (den * c) = roundHalfEven num den := by
  have hhalf : 2 * (num % den * c) = 2 * (num % den) * c := (Nat.mul_assoc 2 _ c).symm
  unfold roundHalfEven
  simp only [Nat.mul_div_mul_right num den hc, Nat.mul_mod_mul_right, hhalf, Nat.mul_lt_mul_right hc]

/-- A quotient is rounded to the integer below it or to the next one. -/
theorem roundHalfEven_bounds (num den : Nat) :
    num / den ≤ roundHalfEven num den ∧ roundHalfEven num den ≤ num / den + 1 := by
  unfold roundHalfEven
  dsimp only
  split
  · omega
  · split <;> omega

theorem roundHalfEven_of_dvd {num den : Nat} (hden : 0 < den) (h : den ∣ num) : roundHalfEven num den = num / den := by
  unfold roundHalfEven
  dsimp only
  rw [Nat.mod_eq_zero_of_dvd h, Nat.mul_zero, if_pos hden]

namespace Number

/-! ## The bits of a number that is given by sign and magnitude -/

theorem toNat_bits_ofMagnitude (negative : Bool) {m : Nat} (hm : m < signWeight) :
    (ofMagnitude negative m).bits.toNat = (if negative then signWeight + m else m) := by
  have hsize : UInt64.size = 2 * signWeight := rfl
  refine UInt64.toNat_ofNat_of_lt' ?_
  split <;> omega

theorem magnitude_ofMagnitude (negative : Bool) {m : Nat} (hm : m < signWeight) :
    (ofMagnitude negative m).magnitude = m := by
  rw [magnitude, toNat_bits_ofMagnitude negative hm]
  split
  · rw [Nat.add_mod_left, Nat.mod_eq_of_lt hm]
  · exact Nat.mod_eq_of_lt hm

theorem isNegative_ofMagnitude (negative : Bool) {m : Nat} (hm : m < signWeight) :
    (ofMagnitude negative m).isNegative = negative := by
  unfold isNegative
  simp only [toNat_bits_ofMagnitude negative hm]
  cases negative <;> simp [hm]

/-! ## The number nearest to an integer -/

theorem ulpExponent_one {n : Nat} (hn : n ≠ 0) : ulpExponent n 1 = (n.log2 : Int) - 52 := by
  have hone : Nat.log2 1 = 0 := by decide
  have hreaches := Nat.log2_self_le hn
  have hexponent : binaryExponent n 1 = n.log2 := by simp [binaryExponent, hone, hreaches]
  rw [ulpExponent, hexponent]
  omega

/-- The mantissa to which a positive integer is rounded. -/
def roundedMantissa (n : Nat) : Nat :=
  if n.log2 < 52 then n * 2 ^ (52 - n.log2) else roundHalfEven n (2 ^ (n.log2 - 52))

theorem ofRatio_one (negative : Bool) {n : Nat} (hn : n ≠ 0) :
    ofRatio negative n 1 =
      ofMagnitude negative (min ((n.log2 + 1022) * hiddenBit + roundedMantissa n) infinityMagnitude) := by
  have htop : ((n.log2 : Int) - 52 + 1074).toNat = n.log2 + 1022 := by omega
  rw [ofRatio, if_neg hn, ulpExponent_one hn, roundedMantissa]
  dsimp only
  rw [htop]
  by_cases hlog : n.log2 < 52
  · have hexponent : (-((n.log2 : Int) - 52)).toNat = 52 - n.log2 := by omega
    rw [if_neg (by omega), if_pos hlog, hexponent, roundHalfEven_one, Nat.pow_eq]
  · have hexponent : ((n.log2 : Int) - 52).toNat = n.log2 - 52 := by omega
    rw [if_pos (by omega), if_neg hlog, hexponent, Nat.one_mul, Nat.pow_eq]

/-- The mantissa has 53 bits, or is the least number of 54. -/
theorem roundedMantissa_bounds {n : Nat} (hn : n ≠ 0) :
    hiddenBit ≤ roundedMantissa n ∧ roundedMantissa n ≤ 2 * hiddenBit := by
  have hle := Nat.log2_self_le hn
  have hlt : n < 2 ^ (n.log2 + 1) := Nat.lt_log2_self
  rw [show hiddenBit = 2 ^ 52 from rfl, show 2 * 2 ^ 52 = 2 ^ 53 from rfl, roundedMantissa]
  split
  · next hlog =>
    have hpow : 2 ^ n.log2 * 2 ^ (52 - n.log2) = 2 ^ 52 := by rw [← Nat.pow_add, Nat.add_sub_of_le (Nat.le_of_lt hlog)]
    have hpow' : 2 ^ (n.log2 + 1) * 2 ^ (52 - n.log2) = 2 ^ 53 := by rw [← Nat.pow_add]; congr 1; omega
    exact ⟨hpow ▸ Nat.mul_le_mul_right _ hle, hpow' ▸ Nat.mul_le_mul_right _ (Nat.le_of_lt hlt)⟩
  · next hlog =>
    have hpos : 0 < 2 ^ (n.log2 - 52) := Nat.two_pow_pos _
    have hpow : 2 ^ 52 * 2 ^ (n.log2 - 52) = 2 ^ n.log2 := by rw [← Nat.pow_add]; congr 1; omega
    have hpow' : 2 ^ 53 * 2 ^ (n.log2 - 52) = 2 ^ (n.log2 + 1) := by rw [← Nat.pow_add]; congr 1; omega
    obtain ⟨hlower, hupper⟩ := roundHalfEven_bounds n (2 ^ (n.log2 - 52))
    have hquotient : 2 ^ 52 ≤ n / 2 ^ (n.log2 - 52) := (Nat.le_div_iff_mul_le hpos).mpr (hpow ▸ hle)
    have hbelow : n / 2 ^ (n.log2 - 52) < 2 ^ 53 := (Nat.div_lt_iff_lt_mul hpos).mpr (hpow' ▸ hlt)
    exact ⟨hquotient.trans hlower, hupper.trans hbelow⟩

/-- An integer far below the range of the exponent is not rounded to infinity. -/
theorem magnitude_ofRatio_one (negative : Bool) {n : Nat} (hn : n ≠ 0) (hlog : n.log2 < 1000) :
    (ofRatio negative n 1).magnitude = (n.log2 + 1022) * hiddenBit + roundedMantissa n ∧
      (ofRatio negative n 1).magnitude < infinityMagnitude ∧ (ofRatio negative n 1).isNegative = negative := by
  obtain ⟨-, hupper⟩ := roundedMantissa_bounds hn
  have hfinite : (n.log2 + 1022) * hiddenBit + roundedMantissa n < infinityMagnitude := by
    have hweight : 0 < hiddenBit := by decide
    have hmax := Nat.mul_le_mul_right hiddenBit (show n.log2 + 1024 ≤ 2023 by omega)
    rw [show n.log2 + 1024 = n.log2 + 1022 + 2 from rfl, Nat.add_mul (n.log2 + 1022) 2] at hmax
    unfold infinityMagnitude
    omega
  have hsign : (n.log2 + 1022) * hiddenBit + roundedMantissa n < signWeight := hfinite.trans (by decide)
  rw [ofRatio_one negative hn, Nat.min_eq_left (Nat.le_of_lt hfinite), magnitude_ofMagnitude negative hsign]
  exact ⟨rfl, hfinite, isNegative_ofMagnitude negative hsign⟩

/-! ## Integers that are numbers -/

/-- The bit fields of an integer of at most 53 bits. -/
structure HoldsNat (a : Number) (n : Nat) : Prop where
  finite : a.magnitude < infinityMagnitude
  mantissa : a.mantissa = n * 2 ^ (52 - n.log2)
  scale : a.scale = (n.log2 : Int) - 52
  nonzero : a.magnitude ≠ 0

theorem holdsNat_ofRatio_one (negative : Bool) {n : Nat} (hn : n ≠ 0) (hsmall : n < 2 ^ 53) :
    (ofRatio negative n 1).HoldsNat n := by
  have hlog : n.log2 < 53 := (Nat.log2_lt hn).mpr hsmall
  obtain ⟨hmagnitude, hfinite, -⟩ := magnitude_ofRatio_one negative hn (by omega)
  obtain ⟨hlower, -⟩ := roundedMantissa_bounds hn
  have hmantissa : roundedMantissa n = n * 2 ^ (52 - n.log2) := by
    unfold roundedMantissa
    split
    · rfl
    · next hge =>
      have heq : n.log2 = 52 := by omega
      rw [heq]
      simp
  have hupper : roundedMantissa n < 2 * hiddenBit := by
    have hpow : 2 ^ (n.log2 + 1) * 2 ^ (52 - n.log2) = 2 * hiddenBit := by
      rw [← Nat.pow_add, show n.log2 + 1 + (52 - n.log2) = 53 by omega]
      rfl
    rw [hmantissa, ← hpow]
    exact Nat.mul_lt_mul_of_pos_right Nat.lt_log2_self (Nat.two_pow_pos _)
  obtain ⟨rest, hrest⟩ := Nat.exists_eq_add_of_le hlower
  have hfields : (ofRatio negative n 1).magnitude = rest + hiddenBit * (n.log2 + 1023) := by
    rw [hmagnitude, hrest]
    ring
  have hlt : rest < hiddenBit := by omega
  have hlarge : ¬ rest + hiddenBit * (n.log2 + 1023) < hiddenBit := by
    have := Nat.le_mul_of_pos_right hiddenBit (show 0 < n.log2 + 1023 by omega)
    omega
  refine ⟨hfinite, ?_, ?_, ?_⟩
  · rw [Number.mantissa, hfields, if_neg hlarge, Nat.add_mul_mod_self_left, Nat.mod_eq_of_lt hlt, ← hrest, hmantissa]
  · rw [Number.scale, hfields, if_neg hlarge, Nat.add_mul_div_left _ _ (by decide), Nat.div_eq_of_lt hlt]
    omega
  · rw [hfields]
    omega

/-- An integer of at most 53 bits is a number. -/
theorem toInt?_ofInt {i : Int} (hsmall : i.natAbs < 2 ^ 53) : (ofInt i).toInt? = some i := by
  by_cases hi : i = 0
  · subst hi
    decide
  · have hn : i.natAbs ≠ 0 := Int.natAbs_ne_zero.mpr hi
    have hlog : i.natAbs.log2 < 53 := (Nat.log2_lt hn).mpr hsmall
    obtain ⟨-, hmantissa, hscale, hnonzero⟩ := holdsNat_ofRatio_one (decide (i < 0)) hn hsmall
    obtain ⟨-, -, hsign⟩ := magnitude_ofRatio_one (decide (i < 0)) hn (by omega)
    have hshift : (-((i.natAbs.log2 : Int) - 52)).toNat = 52 - i.natAbs.log2 := by omega
    have hscale' : (i.natAbs.log2 : Int) - 52 ≤ 0 := by omega
    have hpos : 0 < 2 ^ (52 - i.natAbs.log2) := Nat.two_pow_pos _
    unfold ofInt toInt?
    rw [if_neg hnonzero]
    simp only [hscale, hmantissa, hsign, hshift, Nat.pow_eq, Nat.mul_mod_left, Nat.mul_div_cancel _ hpos, hscale',
      decide_true, beq_self_eq_true, Bool.and_self, if_true, decide_eq_true_eq, Option.some.injEq]
    split <;> omega

/-- The numbers next to an integer of more than 53 bits are even, and `toInt?` does not tell them. -/
theorem toInt?_ofInt_of_large {i : Int} (hlarge : 2 ^ 53 ≤ i.natAbs) (hlog : i.natAbs.log2 < 1000) :
    (ofInt i).toInt? = none := by
  have hn : i.natAbs ≠ 0 := by omega
  have hlog' : 53 ≤ i.natAbs.log2 := (Nat.le_log2 hn).mpr hlarge
  obtain ⟨hmagnitude, -, -⟩ := magnitude_ofRatio_one (decide (i < 0)) hn hlog
  obtain ⟨hlower, -⟩ := roundedMantissa_bounds hn
  have hfield : i.natAbs.log2 + 1023 ≤ (ofInt i).magnitude / hiddenBit := by
    rw [ofInt, hmagnitude, Nat.le_div_iff_mul_le (by decide), show i.natAbs.log2 + 1023 = i.natAbs.log2 + 1022 + 1 from rfl,
      Nat.succ_mul]
    exact Nat.add_le_add_left hlower _
  have hfull : ¬ (ofInt i).magnitude < hiddenBit := by
    intro hlt
    rw [Nat.div_eq_of_lt hlt] at hfield
    omega
  have hscale : ¬ (ofInt i).scale ≤ 0 := by
    rw [scale, if_neg hfull]
    omega
  have hnonzero : (ofInt i).magnitude ≠ 0 := by
    intro hzero
    exact hfull (hzero ▸ by decide)
  unfold toInt?
  rw [if_neg hnonzero]
  simp [hscale]

/-- Integers of at most 53 bits are told apart from one another, and from larger ones. -/
theorem ofInt_inj {i j : Int} (hi : i.natAbs < 2 ^ 53) (hj : j.natAbs.log2 < 1000) : ofInt j = ofInt i ↔ j = i := by
  refine ⟨fun heq => ?_, congrArg ofInt⟩
  have hread := toInt?_ofInt hi
  rw [← heq] at hread
  by_cases hsmall : j.natAbs < 2 ^ 53
  · rw [toInt?_ofInt hsmall] at hread
    exact Option.some.inj hread
  · rw [toInt?_ofInt_of_large (Nat.le_of_not_lt hsmall) hj] at hread
    cases hread

end Number

end IterationEngine
