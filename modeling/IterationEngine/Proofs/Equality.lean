import IterationEngine.Collection

/-!
# Equality of keys

The equality by which collections compare their keys is an equivalence, and a key and its stored form are the same
for it.
-/

namespace IterationEngine

namespace Number

/-- Numbers are the same key if both are NaN, if both are zeros, or if they are one number. -/
theorem sameZero_iff {a b : Number} :
    a.sameZero b = true ↔ (a.isNaN = true ∧ b.isNaN = true) ∨ (a.isZero = true ∧ b.isZero = true) ∨ a = b := by
  cases ha : a.isNaN with
  | true =>
    have hz : a.isZero = false := by
      cases hz : a.isZero with
      | false => rfl
      | true =>
        rw [isNaN_of_isZero hz] at ha
        cases ha
    simp only [sameZero, equals, ha, hz, Bool.not_true, Bool.true_and, Bool.false_and, Bool.or_false, true_and,
      Bool.false_eq_true, false_and, false_or]
    exact ⟨.inl, fun h => h.elim id fun hab => hab ▸ ha⟩
  | false => simp [sameZero, equals, ha, or_comm]

theorem sameZero_self (a : Number) : a.sameZero a = true := sameZero_iff.mpr (.inr (.inr rfl))

theorem sameZero_comm (a b : Number) : a.sameZero b = b.sameZero a := by
  rw [sameZero, sameZero, equals_comm, Bool.and_comm]

theorem sameZero_trans {a b c : Number} (hab : a.sameZero b = true) (hbc : b.sameZero c = true) :
    a.sameZero c = true := by
  rcases sameZero_iff.mp hab with ⟨ha, hb⟩ | ⟨ha, hb⟩ | rfl
  · rcases sameZero_iff.mp hbc with ⟨-, hc⟩ | ⟨hz, -⟩ | rfl
    · exact sameZero_iff.mpr (.inl ⟨ha, hc⟩)
    · rw [isNaN_of_isZero hz] at hb
      cases hb
    · exact hab
  · rcases sameZero_iff.mp hbc with ⟨hn, -⟩ | ⟨-, hc⟩ | rfl
    · rw [isNaN_of_isZero hb] at hn
      cases hn
    · exact sameZero_iff.mpr (.inr (.inl ⟨ha, hc⟩))
    · exact hab
  · exact hbc

/-- Storing zero for a zero does not change which numbers a number is the same key as. -/
theorem sameZero_stored (a b : Number) : (if a.isZero then zero else a).sameZero b = a.sameZero b := by
  split
  · next ha =>
    have hzero : zero.sameZero a = true := sameZero_iff.mpr (.inr (.inl ⟨rfl, ha⟩))
    rw [Bool.eq_iff_iff]
    exact ⟨sameZero_trans (sameZero_comm a zero ▸ hzero), sameZero_trans hzero⟩
  · rfl

end Number

namespace Value

theorem sameValueZero_self (v : Value) : v.sameValueZero v = true := by
  cases v with
  | number n => exact n.sameZero_self
  | undefined | null => rfl
  | boolean | string | symbol | object => exact beq_self_eq_true _

theorem sameValueZero_comm (v w : Value) : v.sameValueZero w = w.sameValueZero v := by
  cases v with
  | number a =>
    cases w with
    | number b => exact Number.sameZero_comm a b
    | _ => rfl
  | undefined | null | boolean | string | symbol | object =>
    cases w <;> simp [sameValueZero, strictEquals, Bool.beq_comm]

theorem sameValueZero_trans {u v w : Value} (huv : u.sameValueZero v = true) (hvw : v.sameValueZero w = true) :
    u.sameValueZero w = true := by
  cases u with
  | number a =>
    cases v with
    | number b =>
      cases w with
      | number c => exact Number.sameZero_trans huv hvw
      | _ => cases hvw
    | _ => cases huv
  | undefined | null | boolean | string | symbol | object =>
    cases v <;> cases w <;> simp_all [sameValueZero, strictEquals]

/-- The same key has the same equals. -/
theorem sameValueZero_congr {u v : Value} (huv : u.sameValueZero v = true) (w : Value) :
    u.sameValueZero w = v.sameValueZero w := by
  rw [Bool.eq_iff_iff]
  exact ⟨sameValueZero_trans (sameValueZero_comm u v ▸ huv), sameValueZero_trans huv⟩

/-- A key and its stored form are the same key. -/
theorem sameValueZero_normalizeKey (v w : Value) : v.normalizeKey.sameValueZero w = v.sameValueZero w := by
  cases v with
  | number a =>
    cases w with
    | number b => exact Number.sameZero_stored a b
    | _ => rfl
  | _ => rfl

/-- A stored key is no negative zero. -/
theorem normalizeKey_ne_negZero (v : Value) : v.normalizeKey ≠ .number .negZero := by
  cases v with
  | number a =>
    intro h
    have hstored := Value.number.inj h
    split at hstored
    · cases hstored
    · next ha => exact ha (hstored ▸ rfl)
  | _ => exact nofun

end Value

end IterationEngine
