import IterationEngine.Proofs.KeySpace
import IterationEngine.Proofs.IntegerText

/-!
# Integers as keys

What becomes of an integer that is made a key.

The key of a number is its text, and the text has six digits. An integer of more digits is rounded to six of them
(`Number.shortened`), which changes it unless the other digits are zeros (`Number.shortened_eq_self_iff`). So two
integers of at most 53 bits have one key exactly if they agree in this rounding, and what is read back is the rounded
integer: distinct integers have distinct keys, and are read back, only as long as they have no more than six digits or
end in zeros (`Realm.integerKeys`). From seven digits on neighbours share a property (`integer_keys_collide`).
-/

namespace IterationEngine

namespace Number

/-! ## Integers rounded to six digits -/

theorem shortenedNat_ne_zero {n : Nat} (hn : n ≠ 0) : shortenedNat n ≠ 0 := by
  intro hzero
  have hw := significant_writes hn Nat.one_pos
  have hpos := Nat.mul_pos (Nat.lt_of_lt_of_le (by decide) hw.lower)
    (Nat.pow_pos (a := 10) (n := (significant (n * 1) 1).exponent.toNat) (by decide))
  rw [hw.value, hzero, Nat.zero_mul] at hpos
  exact Nat.lt_irrefl 0 hpos

theorem shortenedNat_le (n : Nat) : shortenedNat n ≤ 2 * n := by
  by_cases hn : n = 0
  · subst hn
    decide
  · obtain ⟨-, hceil⟩ := roundHalfEven_bounds n (10 ^ droppedDigits n)
    have hfloor := Nat.div_mul_le_self n (10 ^ droppedDigits n)
    have hpow : 10 ^ droppedDigits n ≤ n :=
      pow_le_of_lt_decimalLength hn (Nat.sub_lt (decimalLength_pos n) (by decide))
    calc shortenedNat n
      _ ≤ (n / 10 ^ droppedDigits n + 1) * 10 ^ droppedDigits n := Nat.mul_le_mul_right _ hceil
      _ = n / 10 ^ droppedDigits n * 10 ^ droppedDigits n + 10 ^ droppedDigits n := Nat.succ_mul _ _
      _ ≤ 2 * n := by omega

theorem shortenedNat_eq_self_iff {n : Nat} : shortenedNat n = n ↔ 10 ^ droppedDigits n ∣ n := by
  have hpos : 0 < 10 ^ droppedDigits n := Nat.pow_pos (by decide)
  constructor
  · intro heq
    exact ⟨_, heq.symm.trans (Nat.mul_comm _ _)⟩
  · intro hdvd
    rw [shortenedNat, roundHalfEven_of_dvd hpos hdvd, Nat.div_mul_cancel hdvd]

theorem sign_shortened (i : Int) : (shortened i).sign = i.sign := by
  by_cases hi : i = 0
  · subst hi
    decide
  · have hn := shortenedNat_ne_zero (Int.natAbs_ne_zero.mpr hi)
    rw [shortened, Int.sign_mul, Int.sign_sign, Int.sign_natCast_of_ne_zero hn, Int.mul_one]

theorem shortened_lt_zero_iff {i : Int} : shortened i < 0 ↔ i < 0 := by
  rw [← Int.sign_eq_neg_one_iff_neg, sign_shortened, Int.sign_eq_neg_one_iff_neg]

/-- Only the integers all of whose digits after the sixth are zeros are kept. -/
theorem shortened_eq_self_iff {i : Int} : shortened i = i ↔ 10 ^ droppedDigits i.natAbs ∣ i.natAbs := by
  rw [← shortenedNat_eq_self_iff, ← natAbs_shortened]
  have hsign := shortened_lt_zero_iff (i := i)
  omega

theorem shortened_of_lt {i : Int} (hi : i.natAbs < 10 ^ 6) : shortened i = i := by
  have hlength : decimalLength i.natAbs ≤ textPrecision := (decimalLength_le_iff (by decide)).mpr hi
  rw [shortened_eq_self_iff, droppedDigits, Nat.sub_eq_zero_of_le hlength]
  exact Nat.one_dvd _

/-! ## The text of an integer -/

/-- The bits of an integer give it as a fraction. -/
theorem HoldsNat.ratio {a : Number} {n : Nat} (h : a.HoldsNat n) (hlog : n.log2 < 53) :
    ∃ c, 0 < c ∧ a.ratio = (n * c, c) := by
  refine ⟨2 ^ (52 - n.log2), Nat.two_pow_pos _, ?_⟩
  rw [Number.ratio, h.scale, h.mantissa]
  by_cases hfull : n.log2 = 52
  · rw [hfull]
    exact congrArg (·, 1) (Nat.mul_one _)
  · have hscale : ¬ (0 : Int) ≤ (n.log2 : Int) - 52 := by omega
    have hshift : (-((n.log2 : Int) - 52)).toNat = 52 - n.log2 := by omega
    rw [if_neg hscale, hshift, Nat.pow_eq]

/-- A sign, if there is one, and the six digits. -/
theorem chars_ofInt {i : Int} (hi : i ≠ 0) (hsmall : i.natAbs < 2 ^ 53) :
    ∃ s : Significant, s.Writes (shortenedNat i.natAbs) ∧
      (ofInt i).chars = (if i < 0 then ['-'] else []) ++ s.chars := by
  have hn : i.natAbs ≠ 0 := Int.natAbs_ne_zero.mpr hi
  have hlog : i.natAbs.log2 < 53 := (Nat.log2_lt hn).mpr hsmall
  have hholds := holdsNat_ofRatio_one (decide (i < 0)) hn hsmall
  obtain ⟨-, -, hsign⟩ := magnitude_ofRatio_one (decide (i < 0)) hn (by omega)
  obtain ⟨c, hc, hratio⟩ := hholds.ratio hlog
  refine ⟨significant (i.natAbs * c) c, significant_writes hn hc, ?_⟩
  have hnan : (ofInt i).isNaN = false := decide_eq_false (Nat.not_lt.mpr (Nat.le_of_lt hholds.finite))
  have hinfinite : (ofInt i).isInfinite = false := beq_eq_false_iff_ne.mpr (Nat.ne_of_lt hholds.finite)
  have hzero : (ofInt i).isZero = false := beq_eq_false_iff_ne.mpr hholds.nonzero
  have hnegative : (ofInt i).isNegative = decide (i < 0) := hsign
  have hratio' : (ofInt i).ratio = (i.natAbs * c, c) := hratio
  simp [chars, hnan, hinfinite, hzero, hnegative, hratio']

/-! ## Reading it back -/

theorem isBlank_of_isDigit {c : Char} (hc : c.isDigit = true) : isBlank c = false := by
  unfold isBlank
  simp only [Char.isDigit, Bool.and_eq_true, decide_eq_true_eq] at hc
  have hspace : (c == ' ') = false := beq_eq_false_iff_ne.mpr (by rintro rfl; exact absurd hc (by decide))
  have hreturn : ¬ c ≤ '\r' := fun hle => absurd (UInt32.le_trans hc.1 hle) (by decide)
  simp [hspace, hreturn]

/-- The text of an integer is a numeral that denotes it rounded to six digits. -/
theorem numeral_ofInt {i : Int} (hsmall : i.natAbs < 2 ^ 53) :
    ∃ q, Numeral.ofChars? (ofInt i).chars = some q ∧ q.Denotes (shortened i) ∧
      (ofInt i).chars.dropWhile isBlank = (ofInt i).chars := by
  by_cases hi : i = 0
  · subst hi
    exact ⟨⟨false, 0, 0⟩, by decide, ⟨by decide, by decide, by decide⟩, by decide⟩
  obtain ⟨s, hs, hchars⟩ := chars_ofInt hi hsmall
  obtain ⟨q, hread, hq⟩ := hs.read
  obtain ⟨c, cs, hcons, hc⟩ := s.exists_chars_eq_cons
  have hnonzero := shortenedNat_ne_zero (Int.natAbs_ne_zero.mpr hi)
  have hsign := shortened_lt_zero_iff (i := i)
  have habs := natAbs_shortened i
  by_cases hnegative : i < 0
  · rw [hchars, if_pos hnegative]
    have hunsigned : Numeral.takeSign s.chars = (false, s.chars) := by rw [hcons, Numeral.takeSign_of_isDigit hc]
    refine ⟨{ q with negative := true }, ?_, ⟨?_, hq.whole, ?_⟩, ?_⟩
    · exact (Numeral.ofChars?_neg hunsigned).trans (by rw [hread]; rfl)
    · exact (decide_eq_true (hsign.mpr hnegative)).symm
    · exact hq.value.trans habs.symm
    · exact List.dropWhile_cons_of_neg (by decide)
  · rw [hchars, if_neg hnegative, List.nil_append]
    have heq : shortened i = shortenedNat i.natAbs := by omega
    refine ⟨q, hread, heq ▸ hq, ?_⟩
    rw [hcons, List.dropWhile_cons_of_neg (by rw [isBlank_of_isDigit hc]; decide)]

/-- A numeral that denotes an integer in range has the value of that integer. -/
theorem Numeral.Denotes.value_eq {q : Numeral} {i : Int} (h : q.Denotes i) (hlog : i.natAbs.log2 < 200) :
    q.value = ofInt i := by
  obtain ⟨negative, digits, exponent⟩ := q
  obtain ⟨hsign, hwhole, hvalue⟩ := h
  obtain ⟨k, rfl⟩ := Int.eq_ofNat_of_zero_le hwhole
  dsimp only [Int.ofNat_eq_natCast, Int.toNat_natCast] at hsign hwhole hvalue
  subst hsign
  rw [Numeral.value, ofInt, ← hvalue]
  unfold ofDecimal
  by_cases hzero : digits = 0
  · subst hzero
    rw [if_pos rfl, Nat.zero_mul, ofRatio, if_pos rfl]
  · have hpos : 0 < digits := Nat.pos_of_ne_zero hzero
    have hlength : decimalLength (digits * 10 ^ k) = decimalLength digits + k := by
      rw [decimalLength, toDigits_mul_pow hpos, List.length_append, List.length_replicate, decimalLength]
    have hrange : decimalLength digits + k ≤ 200 := by
      rw [← hlength, decimalLength_le_iff (by decide), hvalue]
      calc i.natAbs
        _ < 2 ^ (i.natAbs.log2 + 1) := Nat.lt_log2_self
        _ ≤ 2 ^ 200 := Nat.pow_le_pow_right (by decide) hlog
        _ < 10 ^ 200 := Nat.pow_lt_pow_left (by decide) (by decide)
    have htop : ¬ (400 : Int) < decimalLength digits + k := by omega
    have hbottom : ¬ (decimalLength digits : Int) + k < -400 := by omega
    dsimp only
    rw [if_neg hzero, if_neg htop, if_neg hbottom, if_pos hwhole, Int.toNat_natCast, Nat.pow_eq]

theorem log2_natAbs_shortened_lt {i : Int} (hsmall : i.natAbs < 2 ^ 53) : (shortened i).natAbs.log2 < 54 := by
  by_cases hzero : (shortened i).natAbs = 0
  · rw [hzero]
    decide
  · have hle := shortenedNat_le i.natAbs
    refine (Nat.log2_lt hzero).mpr ?_
    rw [natAbs_shortened]
    omega

/-- The text of an integer reads as the integer rounded to six digits. -/
theorem ofText_text_ofInt {i : Int} (hsmall : i.natAbs < 2 ^ 53) : ofText (ofInt i).text = ofInt (shortened i) := by
  obtain ⟨q, hread, hq, hblank⟩ := numeral_ofInt hsmall
  have hlog := log2_natAbs_shortened_lt hsmall
  have hvalue := hq.value_eq (by omega)
  have hfinite : (ofInt (shortened i)).isInfinite = false := by
    by_cases hzero : (shortened i).natAbs = 0
    · rw [Int.natAbs_eq_zero.mp hzero]
      decide
    · obtain ⟨-, hfinite, -⟩ := magnitude_ofRatio_one (decide (shortened i < 0)) hzero (by omega)
      exact beq_eq_false_iff_ne.mpr (Nat.ne_of_lt hfinite)
  have hnonempty : (ofInt i).text.isEmpty = false := by
    rw [text, Bool.eq_false_iff]
    intro hempty
    rw [String.isEmpty_iff, String.ofList_eq_empty_iff] at hempty
    rw [hempty] at hread
    cases hread
  unfold ofText
  rw [hnonempty, text, String.toList_ofList, hblank, hread]
  simp [hvalue, hfinite]

/-- Two integers have one text exactly if they agree when rounded to six digits. -/
theorem text_ofInt_eq_iff {i j : Int} (hi : i.natAbs < 2 ^ 53) (hj : j.natAbs < 2 ^ 53) :
    (ofInt i).text = (ofInt j).text ↔ shortened i = shortened j := by
  constructor
  · intro heq
    obtain ⟨q, hq, hdenotes, -⟩ := numeral_ofInt hi
    obtain ⟨q', hq', hdenotes', -⟩ := numeral_ofInt hj
    rw [String.ofList_injective heq, hq', Option.some.injEq] at hq
    exact hdenotes.unique (hq ▸ hdenotes')
  · intro heq
    have hsign : i.sign = j.sign := by rw [← sign_shortened, heq, sign_shortened]
    have hnegative : i < 0 ↔ j < 0 := by rw [← Int.sign_eq_neg_one_iff_neg, hsign, Int.sign_eq_neg_one_iff_neg]
    have hzero : i = 0 ↔ j = 0 := by rw [← Int.sign_eq_zero_iff_zero, hsign, Int.sign_eq_zero_iff_zero]
    have habs : shortenedNat i.natAbs = shortenedNat j.natAbs := by
      rw [← natAbs_shortened, heq, natAbs_shortened]
    by_cases hi' : i = 0
    · rw [hi', hzero.mp hi']
    · obtain ⟨s, hs, hchars⟩ := chars_ofInt hi' hi
      obtain ⟨s', hs', hchars'⟩ := chars_ofInt (mt hzero.mpr hi') hj
      have hsame : s = s' := hs.unique (habs ▸ hs')
      simp only [text, hchars, hchars', hsame, hnegative]

end Number

/-! ## Integers as keys -/

/-- What becomes of the integers of at most 53 bits as keys of properties. -/
structure Realm.IntegerKeys (r : Realm) : Prop where
  key : ∀ m n : Int, m.natAbs < 2 ^ 53 → n.natAbs < 2 ^ 53 →
    ((Value.number (.ofInt m)).key r.heap.objectText = (Value.number (.ofInt n)).key r.heap.objectText ↔
      Number.shortened m = Number.shortened n)
  readBack : ∀ n : Int, n.natAbs < 2 ^ 53 →
    (Value.string ((Value.number (.ofInt n)).text r.heap.objectText)).toNumber = .ofInt (Number.shortened n)
  /-- Integers of at most six digits are told apart. -/
  apart : ∀ m n : Int, m.natAbs < 10 ^ 6 → n.natAbs < 10 ^ 6 → m ≠ n →
    (Value.number (.ofInt m)).key r.heap.objectText ≠ (Value.number (.ofInt n)).key r.heap.objectText
  /-- The integer itself is read back if its digits after the sixth are zeros. -/
  exact : ∀ n : Int, n.natAbs < 2 ^ 53 →
    ((Value.string ((Value.number (.ofInt n)).text r.heap.objectText)).toNumber = .ofInt n ↔
      10 ^ Number.droppedDigits n.natAbs ∣ n.natAbs)
  /-- A write under one integer is seen, on no object, under an integer that differs from it in six digits. -/
  kept : ∀ m n : Int, m.natAbs < 2 ^ 53 → n.natAbs < 2 ^ 53 → Number.shortened m ≠ Number.shortened n →
    ∀ (d : Definition) (id id' : ObjectId), d.key = (Value.number (.ofInt m)).key r.heap.objectText →
      (d.perform id r).2.heap.ownProperty? ((Value.number (.ofInt n)).key r.heap.objectText) id' =
          r.heap.ownProperty? ((Value.number (.ofInt n)).key r.heap.objectText) id' ∧
        (d.perform id r).2.heap.lookup id' ((Value.number (.ofInt n)).key r.heap.objectText) =
          r.heap.lookup id' ((Value.number (.ofInt n)).key r.heap.objectText)
  /-- A permitted write under one integer is a write under each that agrees with it in six digits. -/
  merged : ∀ m n : Int, m.natAbs < 2 ^ 53 → n.natAbs < 2 ^ 53 → Number.shortened m = Number.shortened n →
    ∀ (d : Definition) (id : ObjectId), d.key = (Value.number (.ofInt m)).key r.heap.objectText →
      (d.perform id r).1 = some true →
        (d.perform id r).2.heap.ownProperty? ((Value.number (.ofInt n)).key r.heap.objectText) id = some d.property

theorem Realm.integerKeys (r : Realm) : r.IntegerKeys where
  key _ _ hm hn := Number.text_ofInt_eq_iff hm hn
  apart m n hm hn hne heq := by
    have hsame := (Number.text_ofInt_eq_iff (by omega) (by omega)).mp heq
    rw [Number.shortened_of_lt hm, Number.shortened_of_lt hn] at hsame
    exact hne hsame
  readBack _ hn := Number.ofText_text_ofInt hn
  exact n hn := by
    have hlog := Number.log2_natAbs_shortened_lt hn
    rw [← Number.shortened_eq_self_iff, ← Number.ofInt_inj hn (by omega)]
    exact Eq.congr_left (Number.ofText_text_ofInt hn)
  kept m n hm hn hne d id id' hd := by
    have hkey : (Value.number (.ofInt n)).key r.heap.objectText ≠ d.key := by
      intro heq
      exact hne ((Number.text_ofInt_eq_iff hm hn).mp (hd.symm.trans heq.symm))
    refine ⟨?_, d.lookup_perform id id' r fun hfirst => hkey hfirst.1⟩
    rcases d.perform_cases id r with ⟨-, hw⟩ | ⟨-, hsame⟩
    · exact hw.other _ id' fun hown => hkey hown.1
    · rw [hsame]
  merged m n hm hn heq d id hd hanswer := by
    have hw := Definition.written_of_permitted hanswer
    rw [hd, show (Value.number (.ofInt m)).key r.heap.objectText = (Value.number (.ofInt n)).key r.heap.objectText from
      (Number.text_ofInt_eq_iff hm hn).mpr heq] at hw
    exact hw.own

/-- A write under 1234567 is one under 1234568, and none under 7, which is read back as it is. -/
theorem Realm.integerKeys_sevenDigits :
    ∃ h : Heap, h = (Realm.setProperty ⟨0⟩ ((Value.number (.ofInt 1234567)).key plainRealm.heap.objectText) .null .all
        plainRealm).2.heap ∧
      h.ownProperty? ((Value.number (.ofInt 1234568)).key plainRealm.heap.objectText) ⟨0⟩ = some (.data .null .all) ∧
      h.ownProperty? ((Value.number (.ofInt 7)).key plainRealm.heap.objectText) ⟨0⟩ =
        plainRealm.heap.ownProperty? ((Value.number (.ofInt 7)).key plainRealm.heap.objectText) ⟨0⟩ ∧
      (Value.string ((Value.number (.ofInt 7)).text plainRealm.heap.objectText)).toNumber = .ofInt 7 := by
  have hkeys := plainRealm.integerKeys
  refine ⟨_, rfl, ?_, ?_, ?_⟩
  · exact hkeys.merged 1234567 1234568 (by decide) (by decide) (by decide +kernel) (.value _ .null .all) ⟨0⟩ rfl
      (by decide +kernel)
  · exact (hkeys.kept 1234567 7 (by decide) (by decide) (by decide +kernel) (.value _ .null .all) ⟨0⟩ ⟨0⟩ rfl).1
  · exact (hkeys.exact 7 (by decide)).mpr (by decide +kernel)

/-- Integers of seven digits are not told apart, not kept apart and not read back. -/
theorem integer_keys_collide :
    (¬∀ m n : Int, m.natAbs < 2 ^ 53 → n.natAbs < 2 ^ 53 → m ≠ n →
        (Value.number (.ofInt m)).key plainRealm.heap.objectText ≠
          (Value.number (.ofInt n)).key plainRealm.heap.objectText) ∧
      (¬∀ (m n : Int) (v w : Value) (id : ObjectId), m.natAbs < 2 ^ 53 → n.natAbs < 2 ^ 53 → m ≠ n →
        ∀ r, r = (Realm.setProperty id ((Value.number (.ofInt n)).key plainRealm.heap.objectText) w .all plainRealm).2 →
          (Realm.setProperty id ((Value.number (.ofInt m)).key r.heap.objectText) v .all r).2.heap.ownProperty?
              ((Value.number (.ofInt n)).key r.heap.objectText) id =
            r.heap.ownProperty? ((Value.number (.ofInt n)).key r.heap.objectText) id) ∧
      ¬∀ n : Int, n.natAbs < 2 ^ 53 →
        (Value.string ((Value.number (.ofInt n)).text plainRealm.heap.objectText)).toNumber = .ofInt n := by
  have htext : (Number.ofInt 1234567).text = "1.23457e+06" ∧ (Number.ofInt 1234568).text = "1.23457e+06" := by
    decide +kernel
  have hkey : ∀ objectText, (Value.number (.ofInt 1234567)).key objectText = "1.23457e+06" ∧
      (Value.number (.ofInt 1234568)).key objectText = "1.23457e+06" := fun _ => htext
  have hsmall : Int.natAbs 1234567 < 2 ^ 53 ∧ Int.natAbs 1234568 < 2 ^ 53 := by decide
  refine ⟨fun hdistinct => ?_, fun hkept => ?_, fun hread => ?_⟩
  · exact hdistinct 1234567 1234568 hsmall.1 hsmall.2 (by decide) ((hkey _).1.trans (hkey _).2.symm)
  · have hoverwritten : ∀ r, r = (Realm.setProperty ⟨0⟩ "1.23457e+06" (.boolean true) .all plainRealm).2 →
        (Realm.setProperty ⟨0⟩ "1.23457e+06" .null .all r).2.heap.ownProperty? "1.23457e+06" ⟨0⟩ ≠
          r.heap.ownProperty? "1.23457e+06" ⟨0⟩ := by
      rintro r rfl
      decide
    refine hoverwritten _ rfl ?_
    have hsame := hkept 1234567 1234568 .null (.boolean true) ⟨0⟩ hsmall.1 hsmall.2 (by decide) _ rfl
    rwa [(hkey _).1, (hkey _).2, (hkey _).2] at hsame
  · exact absurd (hread 1234567 hsmall.1) (by decide +kernel)

end IterationEngine
