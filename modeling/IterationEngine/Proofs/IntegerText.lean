import IterationEngine.Number.Text
import IterationEngine.Number.Numeral
import IterationEngine.Proofs.Integers
import Mathlib.Data.List.TakeWhile

/-!
# The text of an integer

How integers are written, and how what is written is read.

An integer is written as the six digits of a `Significant`. Its bits give it as a fraction in which some factor stands
on both sides, and the factor does not count: the integer comes out rounded to six digits, exactly if it has no more
(`Number.significant_writes`). The six digits determine what is written and the other way round
(`Number.Significant.Writes.unique`), and as a numeral they are read back as they stand, in either notation
(`Number.Significant.Writes.read`).
-/

namespace IterationEngine.Number

/-! ## Decimal digits -/

theorem decimalLength_pos (n : Nat) : 0 < decimalLength n := Nat.length_toDigits_pos

theorem decimalLength_le_iff {n k : Nat} (hk : 0 < k) : decimalLength n ≤ k ↔ n < 10 ^ k :=
  Nat.length_toDigits_le_iff (by decide) hk

theorem lt_pow_decimalLength (n : Nat) : n < 10 ^ decimalLength n :=
  (decimalLength_le_iff (decimalLength_pos n)).mp (Nat.le_refl _)

theorem pow_le_of_lt_decimalLength {n k : Nat} (hn : n ≠ 0) (hk : k < decimalLength n) : 10 ^ k ≤ n := by
  cases k with
  | zero => exact Nat.pos_of_ne_zero hn
  | succ k => exact Nat.le_of_not_lt fun hlt => Nat.not_le.mpr hk ((decimalLength_le_iff k.succ_pos).mpr hlt)

/-- Powers of ten append zeros. -/
theorem toDigits_mul_pow {n : Nat} (hn : 0 < n) (k : Nat) :
    Nat.toDigits 10 (n * 10 ^ k) = Nat.toDigits 10 n ++ List.replicate k '0' := by
  induction k with
  | zero => simp
  | succ k ih =>
    have hpos : 0 < n * 10 ^ k := Nat.mul_pos hn (Nat.pow_pos (by decide))
    have happend := Nat.toDigits_append_toDigits (b := 10) (d := 0) (by decide) hpos (by decide)
    rw [Nat.toDigits_zero, ih] at happend
    rw [Nat.pow_succ, ← Nat.mul_assoc, Nat.mul_comm _ 10, List.replicate_succ', ← List.append_assoc, happend,
      Nat.add_zero]

/-! ## Six digits -/

/-- How many digits of an integer its text leaves out. -/
def droppedDigits (n : Nat) : Nat := decimalLength n - textPrecision

/-- A natural number rounded to six significant digits, a half going to the even neighbour. -/
def shortenedNat (n : Nat) : Nat := roundHalfEven n (10 ^ droppedDigits n) * 10 ^ droppedDigits n

/-- An integer rounded to six significant digits, a half going to the even neighbour. -/
def shortened (i : Int) : Int := i.sign * shortenedNat i.natAbs

theorem natAbs_shortened (i : Int) : (shortened i).natAbs = shortenedNat i.natAbs := by
  by_cases hi : i = 0
  · subst hi
    decide
  · rw [shortened, Int.natAbs_mul, Int.natAbs_sign_of_ne_zero hi, Nat.one_mul, Int.natAbs_natCast]

namespace Significant

/-- The decimal is the integer `n`. -/
structure Writes (s : Significant) (n : Nat) : Prop where
  lower : 10 ^ 5 ≤ s.digits
  upper : s.digits < 10 ^ 6
  whole : 0 ≤ s.exponent
  value : s.digits * 10 ^ s.exponent.toNat = n * 10 ^ 5

variable {s s' : Significant} {n : Nat}

/-- Of two decimals with six digits the one with the greater exponent is greater. -/
theorem Writes.exponent_le (h : s.Writes n) (h' : s'.Writes n) : s.exponent ≤ s'.exponent := by
  refine Int.le_of_not_gt fun hlt => ?_
  have hexponents : s'.exponent.toNat + 1 ≤ s.exponent.toNat := by
    have := h.whole
    have := h'.whole
    omega
  have hgreater : s'.digits * 10 ^ s'.exponent.toNat < s.digits * 10 ^ s.exponent.toNat :=
    calc s'.digits * 10 ^ s'.exponent.toNat
      _ < 10 ^ 6 * 10 ^ s'.exponent.toNat := Nat.mul_lt_mul_of_pos_right h'.upper (Nat.pow_pos (by decide))
      _ = 10 ^ 5 * 10 ^ (s'.exponent.toNat + 1) := by rw [← Nat.pow_add, ← Nat.pow_add]; congr 1; omega
      _ ≤ s.digits * 10 ^ s.exponent.toNat :=
        Nat.mul_le_mul h.lower (Nat.pow_le_pow_right (by decide) hexponents)
  rw [h.value, h'.value] at hgreater
  exact Nat.lt_irrefl _ hgreater

theorem Writes.unique (h : s.Writes n) (h' : s'.Writes n) : s = s' := by
  have hexponent := Int.le_antisymm (h.exponent_le h') (h'.exponent_le h)
  obtain ⟨digits, exponent⟩ := s
  obtain ⟨digits', exponent'⟩ := s'
  obtain rfl : exponent = exponent' := hexponent
  have hdigits := h.value.trans h'.value.symm
  obtain rfl : digits = digits' := Nat.eq_of_mul_eq_mul_right (Nat.pow_pos (by decide)) hdigits
  rfl

end Significant

section Rounding

variable {n c : Nat}

theorem decimalExponent_mul (hn : n ≠ 0) (hc : 0 < c) : decimalExponent (n * c) c = (decimalLength n : Int) - 1 := by
  rw [decimalExponent, if_pos (Nat.le_mul_of_pos_left c (Nat.pos_of_ne_zero hn)), Nat.mul_div_cancel n hc]

/-- Up to six digits are kept, and filled up with zeros. -/
theorem significant_of_short (hn : n ≠ 0) (hc : 0 < c) (hshort : decimalLength n ≤ 6) :
    significant (n * c) c = ⟨n * 10 ^ (6 - decimalLength n), (decimalLength n : Int) - 1⟩ := by
  have hshift : (textPrecision : Int) - 1 - ((decimalLength n : Int) - 1) = ((6 - decimalLength n : Nat) : Int) := by
    rw [show textPrecision = 6 from rfl]
    omega
  have hkept : roundHalfEven (n * c * 10 ^ (6 - decimalLength n)) c = n * 10 ^ (6 - decimalLength n) := by
    have hcancel := roundHalfEven_mul_right (n * 10 ^ (6 - decimalLength n)) 1 hc
    rwa [Nat.one_mul, roundHalfEven_one, Nat.mul_right_comm] at hcancel
  have hupper : n * 10 ^ (6 - decimalLength n) < 10 ^ textPrecision :=
    calc n * 10 ^ (6 - decimalLength n)
      _ < 10 ^ decimalLength n * 10 ^ (6 - decimalLength n) :=
        Nat.mul_lt_mul_of_pos_right (lt_pow_decimalLength n) (Nat.pow_pos (by decide))
      _ = 10 ^ textPrecision := by rw [← Nat.pow_add, Nat.add_sub_of_le hshort, show textPrecision = 6 from rfl]
  unfold significant
  rw [decimalExponent_mul hn hc]
  dsimp only
  rw [hshift, if_pos (Int.natCast_nonneg _), Int.toNat_natCast, Nat.pow_eq, Nat.pow_eq, hkept,
    if_neg (Nat.ne_of_lt hupper)]

/-- Of more digits the first six are kept, and rounded. -/
theorem significant_of_long (hn : n ≠ 0) (hc : 0 < c) (hlong : 6 < decimalLength n) :
    significant (n * c) c =
      if roundHalfEven n (10 ^ droppedDigits n) = 10 ^ 6 then ⟨10 ^ 5, decimalLength n⟩
      else ⟨roundHalfEven n (10 ^ droppedDigits n), (decimalLength n : Int) - 1⟩ := by
  have hshift : (textPrecision : Int) - 1 - ((decimalLength n : Int) - 1) = -(droppedDigits n : Int) := by
    rw [droppedDigits, show textPrecision = 6 from rfl]
    omega
  have hdropped : ¬ (0 : Int) ≤ -(droppedDigits n : Int) := by
    rw [droppedDigits, show textPrecision = 6 from rfl]
    omega
  unfold significant
  rw [decimalExponent_mul hn hc]
  dsimp only
  rw [hshift, if_neg hdropped, Int.neg_neg, Int.toNat_natCast, Nat.pow_eq, Nat.pow_eq, Nat.mul_comm c,
    roundHalfEven_mul_right n _ hc, show 10 ^ textPrecision = 10 ^ 6 from rfl]
  by_cases hcarry : roundHalfEven n (10 ^ droppedDigits n) = 10 ^ 6
  · rw [if_pos hcarry, if_pos hcarry, hcarry, Int.sub_add_cancel]
    rfl
  · rw [if_neg hcarry, if_neg hcarry]

/-- Writing an integer, however its fraction is given, rounds it to six digits. -/
theorem significant_writes (hn : n ≠ 0) (hc : 0 < c) : (significant (n * c) c).Writes (shortenedNat n) := by
  have hlength := decimalLength_pos n
  have hdropped : droppedDigits n = decimalLength n - 6 := rfl
  by_cases hshort : decimalLength n ≤ 6
  · have hkept : shortenedNat n = n := by
      rw [shortenedNat, hdropped, Nat.sub_eq_zero_of_le hshort, Nat.pow_zero, roundHalfEven_one, Nat.mul_one]
    have hpow : 10 ^ decimalLength n * 10 ^ (6 - decimalLength n) = 10 ^ 6 := by
      rw [← Nat.pow_add, Nat.add_sub_of_le hshort]
    have hpow' : 10 ^ (decimalLength n - 1) * 10 ^ (6 - decimalLength n) = 10 ^ 5 := by
      rw [← Nat.pow_add]
      congr 1
      omega
    rw [significant_of_short hn hc hshort, hkept]
    refine ⟨?_, ?_, Int.sub_nonneg_of_le (Int.ofNat_le.mpr hlength), ?_⟩
    · exact hpow' ▸ Nat.mul_le_mul_right _ (pow_le_of_lt_decimalLength hn (Nat.sub_lt hlength Nat.one_pos))
    · exact hpow ▸ Nat.mul_lt_mul_of_pos_right (lt_pow_decimalLength n) (Nat.pow_pos (by decide))
    · have hexponent : ((decimalLength n : Int) - 1).toNat = decimalLength n - 1 := by omega
      rw [hexponent, Nat.mul_assoc, Nat.mul_comm (10 ^ (6 - _)), hpow']
  · have hpos : 0 < 10 ^ droppedDigits n := Nat.pow_pos (by decide)
    obtain ⟨hfloor, hceil⟩ := roundHalfEven_bounds n (10 ^ droppedDigits n)
    have hupper : n / 10 ^ droppedDigits n < 10 ^ 6 := by
      rw [Nat.div_lt_iff_lt_mul hpos, ← Nat.pow_add, show 6 + droppedDigits n = decimalLength n by omega]
      exact lt_pow_decimalLength n
    have hlower : 10 ^ 5 ≤ n / 10 ^ droppedDigits n := by
      rw [Nat.le_div_iff_mul_le hpos, ← Nat.pow_add]
      exact pow_le_of_lt_decimalLength hn (by omega)
    rw [significant_of_long hn hc (Nat.lt_of_not_le hshort), shortenedNat]
    split
    · -- the carry leaves five zeros and a greater exponent
      next hcarry =>
      refine ⟨Nat.le_refl _, Nat.pow_lt_pow_right (by decide) (by decide), Int.natCast_nonneg _, ?_⟩
      rw [hcarry, Int.toNat_natCast, Nat.mul_comm _ (10 ^ 5), ← Nat.pow_add 10 6]
      congr 2
      omega
    · next hcarry =>
      refine ⟨hlower.trans hfloor, Nat.lt_of_le_of_ne (hceil.trans hupper) hcarry,
        Int.sub_nonneg_of_le (Int.ofNat_le.mpr hlength), ?_⟩
      have hexponent : ((decimalLength n : Int) - 1).toNat = droppedDigits n + 5 := by omega
      rw [hexponent, Nat.pow_add, ← Nat.mul_assoc]

end Rounding

/-! ## Reading digits -/

theorem isDigit_of_mem_toDigits {n : Nat} {c : Char} (hc : c ∈ Nat.toDigits 10 n) : c.isDigit = true :=
  Nat.isDigit_of_mem_toDigits (by decide) (by decide) hc

theorem exists_dropTrailingZeros (cs : List Char) : ∃ k, cs = dropTrailingZeros cs ++ List.replicate k '0' := by
  let zeros := cs.reverse.takeWhile (· == '0')
  have hzeros : zeros = List.replicate zeros.length '0' :=
    List.eq_replicate_of_mem fun c hc => by simpa using List.mem_takeWhile_imp hc
  refine ⟨zeros.length, ?_⟩
  rw [dropTrailingZeros, ← List.reverse_replicate, ← hzeros, ← List.reverse_append,
    List.takeWhile_append_dropWhile, List.reverse_reverse]

theorem dropTrailingZeros_replicate (k : Nat) : dropTrailingZeros (List.replicate k '0') = [] := by
  have hall : (List.replicate k '0').dropWhile (· == '0') = [] :=
    List.dropWhile_eq_nil_iff.mpr fun c hc => beq_iff_eq.mpr (List.eq_of_mem_replicate hc)
  rw [dropTrailingZeros, List.reverse_replicate, hall, List.reverse_nil]

namespace Numeral

theorem valueOf_eq (cs : List Char) : valueOf cs = Nat.ofDigitChars 10 cs 0 := Nat.ofDigitChars_eq_foldl.symm

@[simp] theorem valueOf_toDigits (n : Nat) : valueOf (Nat.toDigits 10 n) = n := by
  rw [valueOf_eq, Nat.ofDigitChars_ten_toDigits]

theorem valueOf_append_zeros (cs : List Char) (k : Nat) :
    valueOf (cs ++ List.replicate k '0') = valueOf cs * 10 ^ k := by
  rw [valueOf_eq, valueOf_eq, Nat.ofDigitChars_append, Nat.ofDigitChars_replicate_zero, Nat.mul_comm]

variable {c : Char} {cs fs : List Char}

theorem takeSign_of_isDigit (hc : c.isDigit = true) (cs : List Char) : takeSign (c :: cs) = (false, c :: cs) := by
  unfold takeSign
  split
  · next heq =>
    obtain ⟨rfl, -⟩ := List.cons.inj heq
    exact absurd hc (by decide)
  · next heq =>
    obtain ⟨rfl, -⟩ := List.cons.inj heq
    exact absurd hc (by decide)
  · rfl

/-- A sign in front of a numeral that has none makes it negative. -/
theorem ofChars?_neg (hcs : takeSign cs = (false, cs)) :
    ofChars? ('-' :: cs) = (ofChars? cs).map fun q => { q with negative := true } := by
  have hminus : takeSign ('-' :: cs) = (true, cs) := rfl
  unfold ofChars?
  rw [hcs, hminus]
  dsimp only
  generalize takeFraction (cs.dropWhile Char.isDigit) = parts
  split
  · rfl
  · rw [Option.map_map]
    rfl

theorem exponent?_exponentPart (x : Nat) : exponent? (exponentPart x) = some (x : Int) := by
  have hdigits : (Nat.toDigits 10 x).all Char.isDigit = true :=
    List.all_eq_true.mpr fun c hc => isDigit_of_mem_toDigits hc
  have hnegative : ¬ (x : Int) < 0 := by omega
  unfold exponentPart exponent?
  dsimp only
  rw [if_neg hnegative, Int.natAbs_natCast]
  split
  · have hvalue : valueOf ('0' :: Nat.toDigits 10 x) = x := by
      have hcons : Nat.ofDigitChars 10 ('0' :: Nat.toDigits 10 x) 0 = Nat.ofDigitChars 10 (Nat.toDigits 10 x) 0 := by
        rw [Nat.ofDigitChars_cons]
        rfl
      rw [valueOf_eq, hcons, Nat.ofDigitChars_ten_toDigits]
    simp [takeSign, hdigits, hvalue]
  · simp [takeSign, hdigits, Nat.toDigits_ne_nil]

/-- Digits alone are read as they stand. -/
theorem ofChars?_digits (hcs : ∀ d ∈ c :: cs, d.isDigit = true) :
    ofChars? (c :: cs) = some ⟨false, valueOf (c :: cs), 0⟩ := by
  have hall : (c :: cs).takeWhile Char.isDigit = c :: cs := List.takeWhile_eq_self_iff.mpr hcs
  have hrest : (c :: cs).dropWhile Char.isDigit = [] := List.dropWhile_eq_nil_iff.mpr hcs
  unfold ofChars?
  rw [takeSign_of_isDigit (hcs c List.mem_cons_self)]
  dsimp only
  rw [hall, hrest]
  simp [takeFraction, exponent?]

/-- After a whole part of digits there is a fraction, if its digits are not all zeros, and then the exponent. -/
theorem takeFraction_fractionPart (hcs : ∀ d ∈ dropTrailingZeros cs, d.isDigit = true) (tail : List Char) :
    takeFraction (fractionPart cs ++ 'e' :: tail) = (dropTrailingZeros cs, 'e' :: tail) := by
  have htake : (dropTrailingZeros cs ++ 'e' :: tail).takeWhile Char.isDigit = dropTrailingZeros cs := by
    rw [List.takeWhile_append_of_pos hcs, List.takeWhile_cons_of_neg (by decide), List.append_nil]
  have hdrop : (dropTrailingZeros cs ++ 'e' :: tail).dropWhile Char.isDigit = 'e' :: tail := by
    rw [List.dropWhile_append_of_pos hcs, List.dropWhile_cons_of_neg (by decide)]
  unfold fractionPart
  cases hds : dropTrailingZeros cs with
  | nil => rfl
  | cons d ds =>
    rw [hds] at htake hdrop
    exact Prod.ext htake hdrop

theorem takeWhile_fractionPart (cs tail : List Char) :
    (fractionPart cs ++ 'e' :: tail).takeWhile Char.isDigit = [] ∧
      (fractionPart cs ++ 'e' :: tail).dropWhile Char.isDigit = fractionPart cs ++ 'e' :: tail := by
  unfold fractionPart
  cases dropTrailingZeros cs <;> exact ⟨List.takeWhile_cons_of_neg (by decide), List.dropWhile_cons_of_neg (by decide)⟩

/-- A digit, a fraction and an exponent. -/
theorem ofChars?_scientific (hc : c.isDigit = true) (hcs : ∀ d ∈ dropTrailingZeros cs, d.isDigit = true) (x : Nat) :
    ofChars? (c :: (fractionPart cs ++ exponentPart x)) =
      some ⟨false, valueOf (c :: dropTrailingZeros cs), (x : Int) - (dropTrailingZeros cs).length⟩ := by
  obtain ⟨tail, htail⟩ : ∃ tail, exponentPart x = 'e' :: tail := ⟨_, rfl⟩
  have hexponent := exponent?_exponentPart x
  obtain ⟨htake, hdrop⟩ := takeWhile_fractionPart cs tail
  rw [htail] at hexponent ⊢
  unfold ofChars?
  rw [takeSign_of_isDigit hc]
  simp [List.takeWhile_cons_of_pos hc, List.dropWhile_cons_of_pos hc, htake, hdrop, takeFraction_fractionPart hcs,
    hexponent]

/-- The numeral is the integer `i`, and zero without a sign. -/
structure Denotes (q : Numeral) (i : Int) : Prop where
  sign : q.negative = decide (i < 0)
  whole : 0 ≤ q.exponent
  value : q.digits * 10 ^ q.exponent.toNat = i.natAbs

theorem Denotes.unique {q : Numeral} {i j : Int} (hi : q.Denotes i) (hj : q.Denotes j) : i = j := by
  have hsigns : decide (i < 0) = decide (j < 0) := hi.sign.symm.trans hj.sign
  have hvalues : i.natAbs = j.natAbs := hi.value.symm.trans hj.value
  rw [decide_eq_decide] at hsigns
  omega

end Numeral

/-! ## Reading a decimal back -/

namespace Significant

variable {s : Significant} {n : Nat}

theorem Writes.decimalLength_digits (h : s.Writes n) : decimalLength s.digits = 6 := by
  have hle := (decimalLength_le_iff (by decide)).mpr h.upper
  have hgt : ¬ decimalLength s.digits ≤ 5 := fun hle =>
    Nat.not_lt.mpr h.lower ((decimalLength_le_iff (by decide)).mp hle)
  omega

/-- Positional notation: the digits of the integer itself. -/
theorem Writes.chars_of_positional (h : s.Writes n) (hx : s.exponent ≤ 5) : s.chars = Nat.toDigits 10 n := by
  obtain ⟨x, hexponent⟩ := Int.eq_ofNat_of_zero_le h.whole
  have hx' : x ≤ 5 := by omega
  have hvalue := h.value
  rw [hexponent, Int.toNat_natCast] at hvalue
  have hdigits : s.digits = n * 10 ^ (5 - x) := by
    refine Nat.eq_of_mul_eq_mul_right (Nat.pow_pos (a := 10) (n := x) (by decide)) ?_
    rw [hvalue, Nat.mul_assoc, ← Nat.pow_add, Nat.sub_add_cancel hx']
  have hn : 0 < n := by
    refine Nat.pos_of_ne_zero fun hzero => ?_
    have := h.lower
    rw [hdigits, hzero, Nat.zero_mul] at this
    exact absurd this (by decide)
  have hlength := h.decimalLength_digits
  have hchars : Nat.toDigits 10 s.digits = Nat.toDigits 10 n ++ List.replicate (5 - x) '0' := by
    rw [hdigits, toDigits_mul_pow hn]
  have hwhole : (Nat.toDigits 10 n).length = x + 1 := by
    rw [decimalLength, hchars, List.length_append, List.length_replicate] at hlength
    omega
  unfold chars
  rw [hexponent, hchars, Int.toNat_natCast, ← hwhole]
  have hpositional : ¬ (((x : Int) < -4 || (textPrecision : Int) ≤ x) = true) := by
    rw [show (textPrecision : Int) = 6 from rfl, Bool.or_eq_true, decide_eq_true_eq, decide_eq_true_eq]
    omega
  dsimp only
  rw [if_neg hpositional, if_pos (Int.natCast_nonneg x), List.take_left, List.drop_left, fractionPart,
    dropTrailingZeros_replicate, List.append_nil]

/-- Scientific notation: the first digit, the others as a fraction, and the exponent. -/
theorem chars_of_scientific (hx : 5 < s.exponent) :
    s.chars = (Nat.toDigits 10 s.digits).take 1 ++ fractionPart ((Nat.toDigits 10 s.digits).drop 1) ++
      exponentPart s.exponent := by
  have hscientific : (s.exponent < -4 || (textPrecision : Int) ≤ s.exponent) = true := by
    rw [show (textPrecision : Int) = 6 from rfl, Bool.or_eq_true, decide_eq_true_eq, decide_eq_true_eq]
    exact .inr hx
  unfold chars
  exact if_pos hscientific

theorem Writes.read_positional (h : s.Writes n) (hx : s.exponent ≤ 5) :
    ∃ q, Numeral.ofChars? s.chars = some q ∧ q.Denotes n := by
  rw [h.chars_of_positional hx]
  cases hchars : Nat.toDigits 10 n with
  | nil => exact absurd hchars Nat.toDigits_ne_nil
  | cons c cs =>
    refine ⟨_, Numeral.ofChars?_digits fun d hd => isDigit_of_mem_toDigits (hchars ▸ hd), by simp, Int.le_refl 0, ?_⟩
    rw [← hchars, Numeral.valueOf_toDigits]
    exact Nat.mul_one n

theorem Writes.read_scientific (h : s.Writes n) (hx : 5 < s.exponent) :
    ∃ q, Numeral.ofChars? s.chars = some q ∧ q.Denotes n := by
  have hlength := h.decimalLength_digits
  have hdigits := Numeral.valueOf_toDigits s.digits
  have hdigit : ∀ d ∈ Nat.toDigits 10 s.digits, d.isDigit = true := fun _ => isDigit_of_mem_toDigits
  have hvalue := h.value
  obtain ⟨x, hexponent⟩ := Int.eq_ofNat_of_zero_le h.whole
  rw [chars_of_scientific hx, hexponent]
  rw [hexponent, Int.toNat_natCast] at hvalue
  rw [decimalLength] at hlength
  cases hchars : Nat.toDigits 10 s.digits with
  | nil => exact absurd hchars Nat.toDigits_ne_nil
  | cons c ds =>
    rw [hchars] at hdigits hdigit hlength
    obtain ⟨k, hzeros⟩ := exists_dropTrailingZeros ds
    have hfraction : ∀ d ∈ dropTrailingZeros ds, d.isDigit = true := by
      intro d hd
      refine hdigit d (List.mem_cons_of_mem c ?_)
      rw [hzeros]
      exact List.mem_append_left _ hd
    have hkept : (dropTrailingZeros ds).length + k = 5 := by
      have hlength' := congrArg List.length hzeros
      rw [List.length_append, List.length_replicate] at hlength'
      rw [List.length_cons] at hlength
      omega
    have hshift : ((x : Int) - (dropTrailingZeros ds).length).toNat = x - (dropTrailingZeros ds).length := by omega
    refine ⟨_, Numeral.ofChars?_scientific (hdigit c List.mem_cons_self) hfraction x, by simp, ?_, ?_⟩
    · dsimp only
      omega
    · -- the zeros that were dropped are in the exponent
      dsimp only
      rw [hzeros, ← List.cons_append, Numeral.valueOf_append_zeros] at hdigits
      rw [hshift, Int.natAbs_natCast]
      refine Nat.eq_of_mul_eq_mul_right (Nat.pow_pos (a := 10) (n := 5) (by decide)) ?_
      rw [← hvalue, ← hdigits, Nat.mul_assoc, Nat.mul_assoc, ← Nat.pow_add, ← Nat.pow_add]
      congr 2
      omega

/-- The six digits of an integer are read back. -/
theorem Writes.read (h : s.Writes n) : ∃ q, Numeral.ofChars? s.chars = some q ∧ q.Denotes n := by
  by_cases hx : s.exponent ≤ 5
  · exact h.read_positional hx
  · exact h.read_scientific (Int.lt_of_not_ge hx)

/-- In any notation a digit comes first. -/
theorem exists_chars_eq_cons (s : Significant) : ∃ c cs, s.chars = c :: cs ∧ c.isDigit = true := by
  unfold chars
  cases hchars : Nat.toDigits 10 s.digits with
  | nil => exact absurd hchars Nat.toDigits_ne_nil
  | cons c ds =>
    have hc : c.isDigit = true := isDigit_of_mem_toDigits (hchars ▸ List.mem_cons_self)
    dsimp only
    split
    · exact ⟨c, _, rfl, hc⟩
    · split
      · exact ⟨c, _, rfl, hc⟩
      · exact ⟨'0', _, rfl, by decide⟩

end Significant

end IterationEngine.Number
