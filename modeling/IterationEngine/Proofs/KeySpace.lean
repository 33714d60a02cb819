import IterationEngine.Proofs.Configurable
import IterationEngine.Proofs.Inheritance

/-!
# One space of keys

Strings and symbols are keys of the same properties.

An object is keyed by strings, and a symbol is written into that space as the text of `Symbol.key`. A key that is made
of a value other than a symbol would have to be no such text, but a string is its own key, whatever it spells: the
string that spells the key of a symbol reaches the property of that symbol (`symbol_key_reached`).

It is the only value that does. Numbers, the other primitive values and the texts of objects never begin like the key
of a symbol (`Value.key_eq_key_iff`), so a write under any key but that one string leaves what stands under a symbol
alone (`Realm.keySpace`).
-/

namespace IterationEngine

/-! ## Texts of numbers -/

namespace Number

theorem not_mem_toDigits (n : Nat) : '@' ∉ Nat.toDigits 10 n := by
  intro hmem
  have hdigit := Nat.isDigit_of_mem_toDigits (by decide) (by decide) hmem
  exact absurd hdigit (by decide)

theorem not_mem_fractionPart {cs : List Char} (h : '@' ∉ cs) : '@' ∉ fractionPart cs := by
  have hdropped : '@' ∉ dropTrailingZeros cs := by
    rw [dropTrailingZeros, List.mem_reverse]
    exact fun hmem => h (List.mem_reverse.mp ((List.dropWhile_sublist _).subset hmem))
  unfold fractionPart
  cases hds : dropTrailingZeros cs with
  | nil => exact List.not_mem_nil
  | cons c ds => exact List.not_mem_cons_of_ne_of_not_mem (by decide) (hds ▸ hdropped)

theorem not_mem_exponentPart (x : Int) : '@' ∉ exponentPart x := by
  have hdigits := not_mem_toDigits x.natAbs
  unfold exponentPart
  dsimp only
  split <;> split <;> simp [hdigits]

theorem Significant.not_mem_chars (s : Significant) : '@' ∉ s.chars := by
  have hdigits := not_mem_toDigits s.digits
  have htake : ∀ n, '@' ∉ (Nat.toDigits 10 s.digits).take n := fun n hmem => hdigits (List.mem_of_mem_take hmem)
  have hdrop : ∀ n, '@' ∉ (Nat.toDigits 10 s.digits).drop n := fun n hmem => hdigits (List.mem_of_mem_drop hmem)
  unfold chars
  dsimp only
  split
  · have hfraction := not_mem_fractionPart (hdrop 1)
    simp only [List.mem_append, not_or]
    exact ⟨⟨htake 1, hfraction⟩, not_mem_exponentPart _⟩
  · split
    · simp [htake, not_mem_fractionPart (hdrop _)]
    · have hzeros : ∀ n, '@' ∉ List.replicate n '0' ++ Nat.toDigits 10 s.digits := by simp [hdigits]
      simp [not_mem_fractionPart (hzeros _)]

/-- No number is written with the character that the keys of symbols begin with. -/
theorem not_mem_chars (n : Number) : '@' ∉ n.chars := by
  unfold chars
  split
  · decide
  · dsimp only
    split <;> split <;> (try split) <;> simp [Significant.not_mem_chars]

end Number

/-! ## Keys of values -/

/-- The text of an object begins with a letter or a bracket. -/
theorem Object.head?_text (o : Object) : o.text.toList.head? ≠ some '@' := by
  unfold text
  split
  -- Without a message the text is the name of the error, and else the name comes first.
  case h_3 kind message _ => split <;> cases kind <;> simp [ErrorKind.name]
  all_goals simp

theorem Heap.head?_objectText (h : Heap) (id : ObjectId) : (h.objectText id).toList.head? ≠ some '@' := by
  unfold objectText
  split
  · exact Object.head?_text _
  · simp

/-- A value that is no symbol has the key of a symbol exactly if it is the string that spells it. -/
theorem Value.key_eq_key_iff (h : Heap) (s : Symbol) {v : Value} (hv : ∀ t, v ≠ .symbol t) :
    v.key h.objectText = s.key ↔ v = .string s.key := by
  have hne : ∀ key : String, key.toList.head? ≠ some '@' → key ≠ s.key := fun _ hkey => Ne.symm (s.key_ne hkey)
  cases v with
  | string text => exact (Value.string.injEq _ _).symm ▸ Iff.rfl
  | symbol t => exact absurd rfl (hv t)
  | undefined => exact iff_of_false (hne "undefined" (by decide)) nofun
  | null => exact iff_of_false (hne "null" (by decide)) nofun
  | boolean b =>
    cases b
    · exact iff_of_false (hne "false" (by decide)) nofun
    · exact iff_of_false (hne "true" (by decide)) nofun
  | number n =>
    refine iff_of_false (hne n.text fun hhead => n.not_mem_chars ?_) nofun
    rw [Number.text, String.toList_ofList] at hhead
    exact List.mem_of_head? hhead
  | object id => exact iff_of_false (hne (h.objectText id) (h.head?_objectText id)) nofun

/-! ## Writes -/

/-- What the keys of values that are no symbols have to do with the properties under the key of a symbol. -/
structure Realm.KeySpace (r : Realm) : Prop where
  key : ∀ (s : Symbol) (v : Value), (∀ t, v ≠ .symbol t) → (v.key r.heap.objectText = s.key ↔ v = .string s.key)
  /-- A write under the key of any other value is seen under no symbol, on no object. -/
  kept : ∀ (s : Symbol) (v : Value), (∀ t, v ≠ .symbol t) → v ≠ .string s.key →
    ∀ (d : Definition) (id id' : ObjectId), d.key = v.key r.heap.objectText →
      (d.perform id r).2.heap.ownProperty? s.key id' = r.heap.ownProperty? s.key id' ∧
      (d.perform id r).2.heap.lookup id' s.key = r.heap.lookup id' s.key
  /-- A permitted write under that one string is a write under the symbol. -/
  reached : ∀ (s : Symbol) (d : Definition) (id : ObjectId), d.key = (Value.string s.key).key r.heap.objectText →
    (d.perform id r).1 = some true → (d.perform id r).2.heap.ownProperty? s.key id = some d.property

theorem Realm.keySpace (r : Realm) : r.KeySpace where
  key s v hv := v.key_eq_key_iff r.heap s hv
  kept s v hv hne d id id' hd := by
    have hkey : s.key ≠ d.key := by
      intro heq
      exact hne ((v.key_eq_key_iff r.heap s hv).mp (hd.symm.trans heq.symm))
    refine ⟨?_, d.lookup_perform id id' r fun hfirst => hkey hfirst.1⟩
    rcases d.perform_cases id r with ⟨-, hw⟩ | ⟨-, hsame⟩
    · exact hw.other s.key id' fun heq => hkey heq.1
    · rw [hsame]
  reached s d id hd hanswer := by
    have hw := Definition.written_of_permitted hanswer
    rw [show d.key = s.key from hd] at hw
    exact hw.own

/-- The first symbol that is asked for in a process. -/
def firstSymbol : Symbol := (Symbol.Registry.wellKnown {} .iterator).1

/-- A write under the string that spells the symbol is one under the symbol, and a write under another string is not. -/
theorem Realm.keySpace_firstSymbol :
    (Realm.setProperty ⟨0⟩ "@@1:Symbol.iterator" .null .all plainRealm).2.heap.ownProperty? firstSymbol.key ⟨0⟩ =
        some (.data .null .all) ∧
      (Realm.setProperty ⟨0⟩ "iterator" .null .all plainRealm).2.heap.ownProperty? firstSymbol.key ⟨0⟩ =
        plainRealm.heap.ownProperty? firstSymbol.key ⟨0⟩ := by
  have hspace := plainRealm.keySpace
  have hother := hspace.kept firstSymbol (.string "iterator") (fun _ => nofun) (by decide) (.value "iterator" .null .all)
    ⟨0⟩ ⟨0⟩ rfl
  exact ⟨hspace.reached firstSymbol (.value "@@1:Symbol.iterator" .null .all) ⟨0⟩ (by decide) (by decide), hother.1⟩

/-- The keys of strings and of symbols are not apart: the first symbol of a process has the key of a string that anyone
can write, and what is written under that string stands under the symbol. -/
theorem symbol_key_reached :
    ¬(∀ v : Value, (∀ t, v ≠ .symbol t) → v.key plainRealm.heap.objectText ≠ firstSymbol.key) ∧
      ¬∀ (v w : Value) (id : ObjectId), (∀ t, v ≠ .symbol t) →
        (Realm.setProperty id (v.key plainRealm.heap.objectText) w .all plainRealm).2.heap.ownProperty?
            firstSymbol.key id =
          plainRealm.heap.ownProperty? firstSymbol.key id := by
  have hspelled : ∀ t, Value.string "@@1:Symbol.iterator" ≠ .symbol t := fun _ => nofun
  refine ⟨fun hapart => hapart _ hspelled (by decide), fun hkept => ?_⟩
  have hwritten : (Realm.setProperty ⟨0⟩ "@@1:Symbol.iterator" .null .all plainRealm).2.heap.ownProperty?
      firstSymbol.key ⟨0⟩ = some (.data .null .all) := by decide
  have hfresh : plainRealm.heap.ownProperty? firstSymbol.key ⟨0⟩ = none := by decide
  cases hwritten.symm.trans ((hkept _ .null ⟨0⟩ hspelled).trans hfresh)

end IterationEngine
