import Mathlib.Data.List.Induction
import IterationEngine.Proofs.Close
import IterationEngine.Proofs.Definitions

/-!
# Properties that are not configurable

What becomes of a property whose Configurable attribute is cleared.

Such a property would have to stay what it is: a value a value, a pair of accessors the same pair, and not configurable.
An accessor pair is indeed never defined over it. But a value is guarded by Writable and by nothing else: it is written
over every pair of accessors, and over a writable value with whatever attributes come along. So a single write makes a
value of a pair that is not configurable, or makes a value configurable again (`unconfigurable_not_kept`).

1. `Property.stays_iff`: the property stays what it is, at every moment, exactly when each call that may replace it
   writes a value over a value and leaves it unconfigurable.
2. `Property.accessor_stays_iff`: a pair of accessors stays exactly when no value is written under its key at all.
3. `Realm.unconfigurable_stays_iff`: the first result for an object of a realm.
-/

namespace IterationEngine

namespace Property

/-! ## Staying what it is -/

/-- The getter and the setter of a pair of accessors; a value has none. -/
def pair? : Property → Option (Handle × Handle)
  | data .. => none
  | accessor getter setter _ => some (getter, setter)

/-- The property `q` is still the property `p` in all that a property that is not configurable has to keep. -/
structure Stays (p q : Property) : Prop where
  pair : q.pair? = p.pair?
  unconfigurable : q.attributes.configurable = false

variable {key : String} {p q : Property} {d : Definition} {ds : List Definition}

/-- Over a property that is not configurable only a value is ever put. -/
theorem exists_data_of_mayReplace (hq : q.attributes.configurable = false) (hd : d.mayReplace q = true) :
    ∃ v a, d.property = .data v a := by
  cases d with
  | value _ v a => exact ⟨v, a, rfl⟩
  | method _ v => exact ⟨v, .hidden, rfl⟩
  | accessor => cases hq.symm.trans hd

/-- A property stays what it is exactly when each call that may replace it writes a value over a value and leaves it
unconfigurable. -/
theorem stays_iff (hp : p.attributes.configurable = false) (key : String) (ds : List Definition) :
    (∀ ds₁, ds₁ <+: ds → p.Stays (replacedAll key p ds₁)) ↔
      ∀ ds₁ d ds₂, ds = ds₁ ++ d :: ds₂ → d.key = key → d.mayReplace (replacedAll key p ds₁) = true →
        p.pair? = none ∧ ∃ v a, d.property = .data v a ∧ a.configurable = false := by
  constructor
  · rintro hstays ds₁ d ds₂ rfl hkey hd
    obtain ⟨v, a, hvalue⟩ := exists_data_of_mayReplace (hstays ds₁ (List.prefix_append _ _)).unconfigurable hd
    have hnext := hstays (ds₁ ++ [d]) ⟨ds₂, by rw [List.append_assoc, List.singleton_append]⟩
    rw [replacedAll_append_singleton, replaced_of_mayReplace hkey hd, hvalue] at hnext
    exact ⟨hnext.pair.symm, v, a, hvalue, hnext.unconfigurable⟩
  · intro hcalls ds₁
    -- The calls made so far grow at their end, where the next one is made.
    induction ds₁ using List.reverseRecOn with
    | nil => exact fun _ => ⟨rfl, hp⟩
    | append_singleton ds₁ d ih =>
      rintro ⟨ds₂, rfl⟩
      rw [List.append_assoc, List.singleton_append] at ih hcalls
      rw [replacedAll_append_singleton, replaced]
      split
      · next hd =>
        obtain ⟨hpair, v, a, hvalue, ha⟩ := hcalls ds₁ d ds₂ rfl hd.1 hd.2
        rw [hvalue]
        exact ⟨hpair.symm, ha⟩
      · exact ih ⟨d :: ds₂, rfl⟩

/-- Calls that define accessors do nothing to a property that is not configurable. -/
theorem replacedAll_of_accessors (hp : p.attributes.configurable = false)
    (hds : ∀ d ∈ ds, d.key = key → ∃ getter setter a, d = .accessor key getter setter a) :
    replacedAll key p ds = p := by
  refine replacedAll_of_fixed fun d hd => ?_
  by_cases hkey : d.key = key
  · obtain ⟨getter, setter, a, rfl⟩ := hds d hd hkey
    exact replaced_of_not_mayReplace hp
  · exact replaced_of_ne hkey

/-- A pair of accessors that is not configurable stays exactly when no value and no method is written under its key:
nothing guards it against that. -/
theorem accessor_stays_iff {getter setter : Handle} {a : Attributes} (ha : a.configurable = false) (key : String)
    (ds : List Definition) :
    (∀ ds₁, ds₁ <+: ds → (accessor getter setter a).Stays (replacedAll key (accessor getter setter a) ds₁)) ↔
      ∀ d ∈ ds, d.key = key → ∃ getter' setter' a', d = .accessor key getter' setter' a' := by
  have hp : (accessor getter setter a).attributes.configurable = false := ha
  constructor
  · intro hstays d hd hkey
    obtain ⟨ds₁, ds₂, rfl⟩ := List.append_of_mem hd
    -- Up to this call the pair has stayed, a pair may be replaced by every value, and it is none.
    have hpair := (hstays ds₁ (List.prefix_append _ _)).pair
    have hmay : d.mayReplace (replacedAll key (accessor getter setter a) ds₁) = false := by
      refine Bool.eq_false_iff.mpr fun hmay => ?_
      cases ((stays_iff hp key _).mp hstays ds₁ d ds₂ rfl hkey hmay).1
    cases hin : replacedAll key (accessor getter setter a) ds₁ with
    | data =>
      rw [hin] at hpair
      cases hpair
    | accessor =>
      rw [hin] at hmay
      cases d with
      | value | method => cases hmay
      | accessor _ getter' setter' a' => exact ⟨getter', setter', a', by rw [← hkey]; rfl⟩
  · rintro haccessors ds₁ ⟨ds₂, rfl⟩
    rw [replacedAll_of_accessors hp fun d hd => haccessors d (List.mem_append_left ds₂ hd)]
    exact ⟨rfl, ha⟩

end Property

/-! ## Properties of objects -/

namespace Realm

variable {r : Realm} {id : ObjectId} {key : String} {p : Property}

theorem ownProperty?_definingAll (hp : r.heap.ownProperty? key id = some p) (ds : List Definition) :
    (r.definingAll id ds).heap.ownProperty? key id = some (p.replacedAll key ds) := by
  obtain ⟨o, ho, hfind⟩ := Option.bind_eq_some_iff.mp hp
  rw [Definition.definingAll_eq ho, Heap.ownProperty?, get?_withProperties ho]
  exact PropertyTable.find?_defineAll_of_some hfind ds

/-- An own property that is not configurable stays what it is, at every moment of a sequence of calls on its object,
exactly when each of the calls that may replace what stands there writes a value over a value, with attributes that are
not configurable. -/
theorem unconfigurable_stays_iff (hp : r.heap.ownProperty? key id = some p)
    (hconfigurable : p.attributes.configurable = false) (ds : List Definition) :
    (∀ ds₁, ds₁ <+: ds → ∃ q, (r.definingAll id ds₁).heap.ownProperty? key id = some q ∧ p.Stays q) ↔
      ∀ ds₁ d ds₂ q, ds = ds₁ ++ d :: ds₂ → d.key = key →
        (r.definingAll id ds₁).heap.ownProperty? key id = some q → d.mayReplace q = true →
        p.pair? = none ∧ ∃ v a, d.property = .data v a ∧ a.configurable = false := by
  have hstays : (∀ ds₁, ds₁ <+: ds → ∃ q, (r.definingAll id ds₁).heap.ownProperty? key id = some q ∧ p.Stays q) ↔
      ∀ ds₁, ds₁ <+: ds → p.Stays (p.replacedAll key ds₁) := by
    refine forall₂_congr fun ds₁ _ => ?_
    rw [ownProperty?_definingAll hp]
    exact ⟨fun ⟨q, heq, hq⟩ => Option.some.inj heq ▸ hq, fun hq => ⟨_, rfl, hq⟩⟩
  rw [hstays, Property.stays_iff hconfigurable]
  refine forall₃_congr fun ds₁ d ds₂ => ⟨fun hcall q hds hkey hq hd => ?_, fun hcall hds hkey hd => ?_⟩
  · rw [ownProperty?_definingAll hp] at hq
    obtain rfl := Option.some.inj hq
    exact hcall hds hkey hd
  · exact hcall _ hds hkey (ownProperty?_definingAll hp ds₁) hd

end Realm

/-! ## Two properties that do not stay -/

/-- Object 0 is a plain object without properties. -/
def plainRealm : Realm where
  heap := { objects := #[.plain none] }
  context := idleContext
  registry := {}

/-- A pair of accessors that is neither enumerable nor configurable, made over into a value and defined again. -/
def overwriting : List Definition := [.value "k" (.boolean true) .all, .accessor "k" none none ⟨0⟩]

theorem unconfigurable_stays_iff_overwriting :
    ∃ r p, r = plainRealm.definingAll ⟨0⟩ [.accessor "k" none none ⟨0⟩] ∧ r.heap.ownProperty? "k" ⟨0⟩ = some p ∧
      p.attributes.configurable = false ∧
      ¬∀ ds₁, ds₁ <+: overwriting → ∃ q, (r.definingAll ⟨0⟩ ds₁).heap.ownProperty? "k" ⟨0⟩ = some q ∧ p.Stays q := by
  refine ⟨_, .accessor none none ⟨0⟩, rfl, by decide, by decide, fun hstays => ?_⟩
  have hcalls := (Realm.unconfigurable_stays_iff (by decide) (by decide) overwriting).mp hstays
  cases (hcalls [] _ _ (.accessor none none ⟨0⟩) rfl rfl (by decide) rfl).1

/-- A property that is not configurable is not kept: one write makes a value of a pair of accessors. -/
theorem unconfigurable_not_kept :
    ¬∀ (r : Realm) (id : ObjectId) (key : String) (p : Property), r.heap.ownProperty? key id = some p →
      p.attributes.configurable = false → ∀ ds : List Definition,
        ∃ q, (r.definingAll id ds).heap.ownProperty? key id = some q ∧ p.Stays q := by
  intro hkept
  have hpair : (plainRealm.definingAll ⟨0⟩ [.accessor "k" none none ⟨2⟩]).heap.ownProperty? "k" ⟨0⟩ =
      some (.accessor none none ⟨2⟩) := by decide
  obtain ⟨q, hq, hstays⟩ := hkept _ _ _ _ hpair (by decide) [.value "k" (.boolean true) .all]
  obtain rfl : Property.data (.boolean true) .all = q := Option.some.inj (hq ▸ rfl)
  cases hstays.pair

/-- Another write gives the attribute back to a value that had lost it. -/
example :
    ((plainRealm.definingAll ⟨0⟩ [.value "k" .null ⟨1⟩]).heap.ownProperty? "k" ⟨0⟩,
      (plainRealm.definingAll ⟨0⟩ [.value "k" .null ⟨1⟩, .value "k" .null .all]).heap.ownProperty? "k" ⟨0⟩) =
      (some (.data .null ⟨1⟩), some (.data .null ⟨7⟩)) := by
  decide

end IterationEngine
