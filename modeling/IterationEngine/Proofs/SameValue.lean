import IterationEngine.Completion
import IterationEngine.Proofs.Equality

/-!
# The three equalities

How the three equalities of values differ, and what kind of relations they are.

`sameValueZero` is the coarsest of the three. `sameValue` takes the two zeros apart and nothing else
(`Value.sameValue_iff`), and `strictEquals` takes NaN apart from itself and nothing else (`Value.strictEquals_iff`). So
the first two are equivalences, the third is one on all values but NaN, and completions are compared by an equivalence
too. All of it is collected in `equalities`.
-/

namespace IterationEngine

/-! ## Numbers -/

namespace Number

/-- Both are zeros, and their signs differ. -/
def OppositeZeros (a b : Number) : Prop := a.isZero = true ∧ b.isZero = true ∧ a.isNegative ≠ b.isNegative

/-- There is one zero of each sign. -/
theorem eq_of_isZero {a b : Number} (ha : a.isZero = true) (hb : b.isZero = true)
    (hsign : a.isNegative = b.isNegative) : a = b := by
  obtain ⟨x⟩ := a
  obtain ⟨y⟩ := b
  have hx := x.toNat_lt
  have hy := y.toNat_lt
  have hx₀ : x.toNat % signWeight = 0 := beq_iff_eq.mp ha
  have hy₀ : y.toNat % signWeight = 0 := beq_iff_eq.mp hb
  have hsigns : signWeight ≤ x.toNat ↔ signWeight ≤ y.toNat := decide_eq_decide.mp hsign
  have hbits : x.toNat = y.toNat := by
    simp only [show signWeight = 9223372036854775808 from rfl] at hx₀ hy₀ hsigns
    omega
  rw [UInt64.toNat_inj.mp hbits]

theorem same_iff_eq {a b : Number} : a.same b = true ↔ (a.isNaN = true ∧ b.isNaN = true) ∨ a = b := by
  rw [same, Bool.or_eq_true, Bool.and_eq_true, beq_iff_eq]

/-- Being the same parts the two zeros and nothing else. -/
theorem same_iff {a b : Number} : a.same b = true ↔ a.sameZero b = true ∧ ¬a.OppositeZeros b := by
  rw [same_iff_eq, sameZero_iff]
  constructor
  · rintro (⟨ha, hb⟩ | rfl)
    · refine ⟨.inl ⟨ha, hb⟩, ?_⟩
      rintro ⟨hzero, -⟩
      rw [isNaN_of_isZero hzero] at ha
      cases ha
    · exact ⟨.inr (.inr rfl), fun hopposite => hopposite.2.2 rfl⟩
  · rintro ⟨hnan | ⟨ha, hb⟩ | hab, hopposite⟩
    · exact .inl hnan
    · refine .inr (eq_of_isZero ha hb ?_)
      exact Classical.byContradiction fun hsign => hopposite ⟨ha, hb, hsign⟩
    · exact .inr hab

/-- IEEE equality parts NaN from itself and nothing else. -/
theorem equals_iff {a b : Number} : a.equals b = true ↔ a.sameZero b = true ∧ a.isNaN = false := by
  cases ha : a.isNaN with
  | true => simp [equals, ha]
  | false => simp [sameZero, ha]

theorem isNaN_eq_of_sameZero {a b : Number} (hab : a.sameZero b = true) : a.isNaN = b.isNaN := by
  rcases sameZero_iff.mp hab with ⟨ha, hb⟩ | ⟨ha, hb⟩ | rfl
  · rw [ha, hb]
  · rw [isNaN_of_isZero ha, isNaN_of_isZero hb]
  · rfl

end Number

/-! ## Values -/

namespace Value

variable {u v w : Value}

/-- Both are zeros, and their signs differ. -/
def OppositeZeros (v w : Value) : Prop := ∃ a b, v = .number a ∧ w = .number b ∧ a.OppositeZeros b

/-- `sameValue` parts the two zeros and nothing else. -/
theorem sameValue_iff (v w : Value) : v.sameValue w = true ↔ v.sameValueZero w = true ∧ ¬v.OppositeZeros w := by
  cases v with
  | number a =>
    cases w with
    | number b =>
      have hopposite : (number a).OppositeZeros (number b) ↔ a.OppositeZeros b :=
        ⟨fun ⟨_, _, ha, hb, h⟩ => Value.number.inj ha ▸ Value.number.inj hb ▸ h, fun h => ⟨a, b, rfl, rfl, h⟩⟩
      rw [hopposite]
      exact Number.same_iff
    | _ =>
      refine (and_iff_left ?_).symm
      rintro ⟨_, _, _, hb, _⟩
      cases hb
  | _ =>
    refine (and_iff_left ?_).symm
    rintro ⟨_, _, ha, _⟩
    cases ha

/-- `strictEquals` parts NaN from itself and nothing else. -/
theorem strictEquals_iff (v w : Value) : v.strictEquals w = true ↔ v.sameValueZero w = true ∧ v.isNaN = false := by
  cases v with
  | number a =>
    cases w with
    | number b => exact Number.equals_iff
    | _ => exact ⟨nofun, nofun⟩
  | _ => exact (and_iff_left rfl).symm

theorem isNaN_eq_of_sameValueZero (hvw : v.sameValueZero w = true) : v.isNaN = w.isNaN := by
  cases v with
  | number a =>
    cases w with
    | number b => exact Number.isNaN_eq_of_sameZero hvw
    | _ => cases hvw
  | _ =>
    cases w with
    | number b => cases hvw
    | _ => rfl

/-- The same value is one value, NaN and the names of symbols apart. -/
theorem sameValue_iff_eq (v w : Value) : v.sameValue w = true ↔
    v = w ∨ (v.isNaN = true ∧ w.isNaN = true) ∨ ∃ s t : Symbol, v = .symbol s ∧ w = .symbol t ∧ s.id = t.id := by
  cases v with
  | number a =>
    cases w with
    | number b =>
      have hsame : (number a).sameValue (number b) = true ↔ _ := Number.same_iff_eq (a := a) (b := b)
      rw [hsame]
      simp [isNaN, or_comm]
    | _ => simp [sameValue, strictEquals, isNaN]
  | symbol s =>
    cases w with
    | symbol t =>
      simp only [sameValue, strictEquals, isNaN, beq_iff_eq, Value.symbol.injEq, Bool.false_eq_true, false_and,
        false_or]
      refine ⟨fun hid => .inr ⟨s, t, rfl, rfl, hid⟩, fun h => ?_⟩
      obtain rfl | ⟨_, _, rfl, rfl, hid⟩ := h
      · rfl
      · exact hid
    | _ => simp [sameValue, strictEquals, isNaN]
  | undefined | null | boolean | string | object => cases w <;> simp [sameValue, strictEquals, isNaN]

theorem sameValue_self (v : Value) : v.sameValue v = true := (sameValue_iff_eq v v).mpr (.inl rfl)

theorem sameValue_symm (hvw : v.sameValue w = true) : w.sameValue v = true := by
  rcases (sameValue_iff_eq v w).mp hvw with rfl | ⟨hv, hw⟩ | ⟨s, t, rfl, rfl, hid⟩
  · exact sameValue_self v
  · exact (sameValue_iff_eq w v).mpr (.inr (.inl ⟨hw, hv⟩))
  · exact (sameValue_iff_eq _ _).mpr (.inr (.inr ⟨t, s, rfl, rfl, hid.symm⟩))

theorem sameValue_trans (huv : u.sameValue v = true) (hvw : v.sameValue w = true) : u.sameValue w = true := by
  rcases (sameValue_iff_eq u v).mp huv with rfl | ⟨hu, hv⟩ | ⟨s, t, rfl, rfl, hid⟩
  · exact hvw
  · have hw := isNaN_eq_of_sameValueZero ((sameValue_iff v w).mp hvw).1
    exact (sameValue_iff_eq u w).mpr (.inr (.inl ⟨hu, hw ▸ hv⟩))
  · rcases (sameValue_iff_eq _ _).mp hvw with rfl | ⟨hnan, -⟩ | ⟨t', t'', ht, rfl, hid'⟩
    · exact huv
    · cases hnan
    · obtain rfl := Value.symbol.inj ht
      exact (sameValue_iff_eq _ _).mpr (.inr (.inr ⟨s, t'', rfl, rfl, hid.trans hid'⟩))

theorem strictEquals_symm (hvw : v.strictEquals w = true) : w.strictEquals v = true := by
  obtain ⟨hzero, hnan⟩ := (strictEquals_iff v w).mp hvw
  rw [isNaN_eq_of_sameValueZero hzero] at hnan
  exact (strictEquals_iff w v).mpr ⟨sameValueZero_comm v w ▸ hzero, hnan⟩

theorem strictEquals_trans (huv : u.strictEquals v = true) (hvw : v.strictEquals w = true) :
    u.strictEquals w = true := by
  obtain ⟨huv, hnan⟩ := (strictEquals_iff u v).mp huv
  obtain ⟨hvw, -⟩ := (strictEquals_iff v w).mp hvw
  exact (strictEquals_iff u w).mpr ⟨sameValueZero_trans huv hvw, hnan⟩

end Value

/-! ## Completions -/

namespace Completion

/-- Completions are equal if they are of one kind and have the same value or label. -/
theorem equals_iff (c d : Completion) :
    c.equals d = true ↔ c.kindName = d.kindName ∧ c.label = d.label ∧ c.value.sameValue d.value = true := by
  cases c <;> cases d <;> simp [equals, kindName, label, value, Value.sameValue_self]

end Completion

/-! ## All equalities -/

/-- The equalities of values and of completions: which of them are equivalences, how they differ, and which values are
the same. -/
structure Equalities : Prop where
  sameValue : Equivalence fun v w : Value => v.sameValue w = true
  sameValueZero : Equivalence fun v w : Value => v.sameValueZero w = true
  strictEquals_symm : ∀ v w : Value, v.strictEquals w = true → w.strictEquals v = true
  strictEquals_trans : ∀ u v w : Value, u.strictEquals v = true → v.strictEquals w = true → u.strictEquals w = true
  sameValue_iff : ∀ v w : Value, v.sameValue w = true ↔ v.sameValueZero w = true ∧ ¬v.OppositeZeros w
  strictEquals_iff : ∀ v w : Value, v.strictEquals w = true ↔ v.sameValueZero w = true ∧ v.isNaN = false
  sameValue_iff_eq : ∀ v w : Value, v.sameValue w = true ↔
    v = w ∨ (v.isNaN = true ∧ w.isNaN = true) ∨ ∃ s t : Symbol, v = .symbol s ∧ w = .symbol t ∧ s.id = t.id
  completion : Equivalence fun c d : Completion => c.equals d = true

theorem equalities : Equalities where
  sameValue := ⟨Value.sameValue_self, Value.sameValue_symm, Value.sameValue_trans⟩
  sameValueZero :=
    ⟨Value.sameValueZero_self, fun hvw => Value.sameValueZero_comm _ _ ▸ hvw, Value.sameValueZero_trans⟩
  strictEquals_symm _ _ := Value.strictEquals_symm
  strictEquals_trans _ _ _ := Value.strictEquals_trans
  sameValue_iff := Value.sameValue_iff
  strictEquals_iff := Value.strictEquals_iff
  sameValue_iff_eq := Value.sameValue_iff_eq
  completion := by
    refine ⟨fun c => ?_, fun hcd => ?_, fun hcd hde => ?_⟩
    · exact (c.equals_iff c).mpr ⟨rfl, rfl, c.value.sameValue_self⟩
    · obtain ⟨hkind, hlabel, hvalue⟩ := (Completion.equals_iff _ _).mp hcd
      exact (Completion.equals_iff _ _).mpr ⟨hkind.symm, hlabel.symm, Value.sameValue_symm hvalue⟩
    · obtain ⟨hkind, hlabel, hvalue⟩ := (Completion.equals_iff _ _).mp hcd
      obtain ⟨hkind', hlabel', hvalue'⟩ := (Completion.equals_iff _ _).mp hde
      exact (Completion.equals_iff _ _).mpr
        ⟨hkind.trans hkind', hlabel.trans hlabel', Value.sameValue_trans hvalue hvalue'⟩

end IterationEngine
