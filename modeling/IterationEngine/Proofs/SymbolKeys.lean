import IterationEngine.Symbol

/-!
# Keys of symbols

No two symbols of a process share a key.

A key spells the number of its symbol, a colon and the description, and the number ends at the first colon whatever the
description holds (`Symbol.key_inj`). So keys are as different as symbols are, and it is left to show that the registry
never hands out one symbol for another.

1. `Registry.log`: requests in any order, each with its answer; `Registry.creations`: how many symbols they make.
2. `Registry.serve_cases`: all that one request can do.
3. `Registry.Kept.serve`: what a registry and the answers given so far have to do with each other, kept by each request.
4. `Registry.symbols_distinct`: two answers are one symbol exactly if they answer requests for one well-known name.
-/

namespace IterationEngine

namespace Symbol

/-! ## Reading a key -/

theorem toList_key (s : Symbol) :
    s.key.toList = '@' :: '@' :: (Nat.toDigits 10 s.id.toNat ++ ':' :: s.description.toList) := by
  simp [key, Nat.toList_repr]

/-- The number is all that stands before the first character that is no digit. -/
theorem takeWhile_digits (n : Nat) (description : List Char) :
    (Nat.toDigits 10 n ++ ':' :: description).takeWhile Char.isDigit = Nat.toDigits 10 n := by
  rw [List.takeWhile_append_of_pos fun c hc => Nat.isDigit_of_mem_toDigits (by decide) (by decide) hc,
    List.takeWhile_cons_of_neg (by decide), List.append_nil]

/-- Symbols with the same key are the same, whatever characters their descriptions hold. -/
theorem key_inj {s t : Symbol} : s.key = t.key ↔ s = t := by
  refine ⟨fun hkey => ?_, congrArg key⟩
  obtain ⟨i, d⟩ := s
  obtain ⟨j, e⟩ := t
  have hlist := congrArg String.toList hkey
  rw [toList_key, toList_key, List.cons.injEq, List.cons.injEq] at hlist
  have hdigits := congrArg (List.takeWhile Char.isDigit) hlist.2.2
  rw [takeWhile_digits, takeWhile_digits] at hdigits
  have hnumber := congrArg (fun ds => Nat.ofDigitChars 10 ds 0) hdigits
  rw [Nat.ofDigitChars_toDigits (by decide) (by decide), Nat.ofDigitChars_toDigits (by decide) (by decide)] at hnumber
  obtain rfl : i = j := UInt64.toNat_inj.mp hnumber
  obtain rfl : d = e := String.toList_inj.mp (List.cons.inj (List.append_cancel_left hlist.2.2)).2
  rfl

/-! ## Requests -/

/-- What a registry may be asked for. -/
inductive Request where
  | create (description : String)
  | wellKnown (name : String)
  deriving DecidableEq, Repr

/-- The description of the symbol that is asked for; only two names are well known. -/
def Request.description? : Request → Option String
  | create description => some description
  | wellKnown name => (WellKnownName.ofString? name).map WellKnownName.description

namespace WellKnownName

theorem ofString?_eq_some {name : String} {k : WellKnownName} : ofString? name = some k ↔ name = k.description := by
  unfold ofString?
  constructor
  · intro hk
    split at hk
    · next hname =>
      obtain rfl := Option.some.inj hk
      exact hname
    · split at hk
      · next hname =>
        obtain rfl := Option.some.inj hk
        exact hname
      · cases hk
  · rintro rfl
    cases k <;> decide

@[simp] theorem ofString?_description (k : WellKnownName) : ofString? k.description = some k :=
  ofString?_eq_some.mpr rfl

theorem description_inj {k k' : WellKnownName} : k.description = k'.description ↔ k = k' := by
  rw [← ofString?_eq_some, ofString?_description, Option.some.injEq]

end WellKnownName

namespace Registry

/-- The answer to a request, and the registry after it. -/
def serve (r : Registry) : Request → Option Symbol × Registry
  | .create description => (some (r.create description).1, (r.create description).2)
  | .wellKnown name => r.wellKnown? name

/-- The requests in their order, each with its answer. -/
def log (r : Registry) : List Request → List (Request × Option Symbol)
  | [] => []
  | q :: qs => (q, (r.serve q).1) :: (r.serve q).2.log qs

/-- A request for which a symbol has to be made. -/
def makes (r : Registry) : Request → Bool
  | .create _ => true
  | .wellKnown name => (WellKnownName.ofString? name).any fun k => (r.find? k).isNone

/-- The number of symbols that are made for the requests. -/
def creations (r : Registry) : List Request → Nat
  | [] => 0
  | q :: qs => (r.makes q).toNat + (r.serve q).2.creations qs

variable {r : Registry} {n : Nat} {k k' : WellKnownName} {q q' : Request} {s s' : Symbol}

/-! ## One request -/

theorem find?_create (r : Registry) (description : String) (k : WellKnownName) :
    (r.create description).2.find? k = r.find? k := by
  cases k <;> rfl

theorem wellKnown_of_find? (hk : r.find? k = some s) : r.wellKnown k = (s, r) := by rw [wellKnown, hk]

theorem wellKnown_of_none (hk : r.find? k = none) :
    (r.wellKnown k).1 = ⟨r.nextId, k.description⟩ ∧ (r.wellKnown k).2.nextId = r.nextId + 1 := by
  rw [wellKnown, hk]
  cases k <;> exact ⟨rfl, rfl⟩

/-- A well-known symbol is known once it has been asked for, and what else is known stays. -/
theorem find?_wellKnown (r : Registry) (k k' : WellKnownName) :
    (r.wellKnown k).2.find? k' = if k = k' then some (r.wellKnown k).1 else r.find? k' := by
  cases hk : r.find? k with
  | some s =>
    rw [wellKnown_of_find? hk]
    split
    · next hkk => exact hkk ▸ hk
    · rfl
  | none =>
    rw [wellKnown, hk]
    cases k <;> cases k' <;> rfl

theorem serve_wellKnown (r : Registry) (k : WellKnownName) :
    r.serve (.wellKnown k.description) = (some (r.wellKnown k).1, (r.wellKnown k).2) := by
  rw [serve, wellKnown?, WellKnownName.ofString?_description]

/-- All that a request can do: make a symbol, have no answer, be answered by a symbol that is known, or make a
well-known symbol. -/
theorem serve_cases (r : Registry) (q : Request) :
    (∃ description, q = .create description ∧ r.makes q = true ∧
      r.serve q = (some ⟨r.nextId, description⟩, (r.create description).2)) ∨
    (q.description? = none ∧ r.makes q = false ∧ r.serve q = (none, r)) ∨
    (∃ k s, q = .wellKnown k.description ∧ r.find? k = some s ∧ r.makes q = false ∧ r.serve q = (some s, r)) ∨
    ∃ k, q = .wellKnown k.description ∧ r.find? k = none ∧ r.makes q = true ∧
      r.serve q = (some ⟨r.nextId, k.description⟩, (r.wellKnown k).2) := by
  cases q with
  | create description => exact .inl ⟨description, rfl, rfl, rfl⟩
  | wellKnown name =>
    cases hname : WellKnownName.ofString? name with
    | none => exact .inr (.inl (by simp [Request.description?, makes, serve, wellKnown?, hname]))
    | some k =>
      obtain rfl := WellKnownName.ofString?_eq_some.mp hname
      rw [serve_wellKnown]
      cases hk : r.find? k with
      | some s =>
        refine .inr (.inr (.inl ⟨k, s, rfl, hk, by simp [makes, hk], ?_⟩))
        rw [wellKnown_of_find? hk]
      | none =>
        refine .inr (.inr (.inr ⟨k, rfl, hk, by simp [makes, hk], ?_⟩))
        rw [(wellKnown_of_none hk).1]

/-! ## Numbers -/

/-- A registry that has made `n` symbols: the next number is `n + 1`, and the well-known symbols that it knows have
numbers up to `n`, each its own. -/
structure Numbered (r : Registry) (n : Nat) : Prop where
  nextId : r.nextId = UInt64.ofNat (n + 1)
  id_le : ∀ {k s}, r.find? k = some s → s.id.toNat ≤ n
  description : ∀ {k s}, r.find? k = some s → s.description = k.description
  apart : ∀ {k k' s s'}, r.find? k = some s → r.find? k' = some s' → s.id = s'.id → k = k'

theorem numbered_empty : Numbered {} 0 where
  nextId := rfl
  id_le {k _} hk := by cases k <;> cases hk
  description {k _} hk := by cases k <;> cases hk
  apart {k _ _ _} hk := by cases k <;> cases hk

namespace Numbered

/-- As long as the numbers have not run out, the next one is new. -/
theorem toNat_nextId (hr : r.Numbered n) (hn : n + 1 < UInt64.size) : r.nextId.toNat = n + 1 := by
  rw [hr.nextId, UInt64.toNat_ofNat_of_lt' hn]

theorem nextId_succ (hr : r.Numbered n) : r.nextId + 1 = UInt64.ofNat (n + 1 + 1) := by
  rw [hr.nextId, UInt64.ofNat_add (n + 1) 1]
  rfl

theorem create (hr : r.Numbered n) (description : String) : (r.create description).2.Numbered (n + 1) where
  nextId := hr.nextId_succ
  id_le hk := Nat.le_succ_of_le (hr.id_le (find?_create r description _ ▸ hk))
  description hk := hr.description (find?_create r description _ ▸ hk)
  apart hk hk' := hr.apart (find?_create r description _ ▸ hk) (find?_create r description _ ▸ hk')

theorem wellKnown (hr : r.Numbered n) (hk : r.find? k = none) (hn : n + 1 < UInt64.size) :
    (r.wellKnown k).2.Numbered (n + 1) := by
  obtain ⟨hmade, hnext⟩ := wellKnown_of_none hk
  have hnew : (r.wellKnown k).1.id.toNat = n + 1 := by
    rw [hmade]
    exact hr.toNat_nextId hn
  -- what is known afterwards is the new symbol under its name, or was known before
  have hcases : ∀ {k' s}, (r.wellKnown k).2.find? k' = some s →
      (k = k' ∧ s = (r.wellKnown k).1) ∨ r.find? k' = some s := by
    intro k' s hk'
    rw [find?_wellKnown] at hk'
    split at hk'
    · next hkk => exact .inl ⟨hkk, (Option.some.inj hk').symm⟩
    · exact .inr hk'
  refine ⟨hnext.trans hr.nextId_succ, fun hk' => ?_, fun hk' => ?_, fun hk₁ hk₂ hid => ?_⟩
  · rcases hcases hk' with ⟨-, rfl⟩ | hold
    · exact Nat.le_of_eq hnew
    · exact Nat.le_succ_of_le (hr.id_le hold)
  · rcases hcases hk' with ⟨rfl, rfl⟩ | hold
    · rw [hmade]
    · exact hr.description hold
  · rcases hcases hk₁ with ⟨rfl, rfl⟩ | hold₁ <;> rcases hcases hk₂ with ⟨rfl, rfl⟩ | hold₂
    · rfl
    · have hle := hr.id_le hold₂
      rw [← hid, hnew] at hle
      exact absurd hle (Nat.not_succ_le_self n)
    · have hle := hr.id_le hold₁
      rw [hid, hnew] at hle
      exact absurd hle (Nat.not_succ_le_self n)
    · exact hr.apart hold₁ hold₂ hid

theorem serve (hr : r.Numbered n) (q : Request) (hn : n + (r.makes q).toNat < UInt64.size) :
    (r.serve q).2.Numbered (n + (r.makes q).toNat) := by
  obtain ⟨d, -, hmakes, hserve⟩ | ⟨-, hmakes, hserve⟩ | ⟨k, s, -, -, hmakes, hserve⟩ | ⟨k, -, hk, hmakes, hserve⟩ :=
    r.serve_cases q <;> rw [hmakes] at hn ⊢ <;> rw [hserve]
  · exact hr.create d
  · exact hr
  · exact hr
  · exact hr.wellKnown hk hn

end Numbered

/-! ## Answers -/

/-- The symbol `s` has been the answer to `q`, and the registry has made `n` symbols up to now. -/
structure Answered (r : Registry) (n : Nat) (q : Request) (s : Symbol) : Prop where
  id_le : s.id.toNat ≤ n
  description : some s.description = q.description?
  /-- The symbol of a well-known name is known. -/
  known : ∀ {name}, q = .wellKnown name → ∃ k : WellKnownName, name = k.description ∧ r.find? k = some s
  /-- No other symbol is. -/
  other : ∀ {k s'}, r.find? k = some s' → s.id = s'.id → q = .wellKnown k.description

/-- A known symbol may have been the answer to a request for it. -/
theorem Numbered.answered_known (hr : r.Numbered n) (hk : r.find? k = some s) :
    r.Answered n (.wellKnown k.description) s where
  id_le := hr.id_le hk
  description := by simp [Request.description?, hr.description hk]
  known := by
    rintro name hname
    exact ⟨k, (Request.wellKnown.inj hname).symm, hk⟩
  other hk' hid := by rw [hr.apart hk hk' hid]

/-- The answer to a request, once it has been given. -/
theorem Numbered.answered (hr : r.Numbered n) (hn : n + (r.makes q).toNat < UInt64.size) (hs : (r.serve q).1 = some s) :
    (r.serve q).2.Answered (n + (r.makes q).toNat) q s := by
  have hafter := hr.serve q hn
  obtain ⟨d, rfl, hmakes, hserve⟩ | ⟨-, -, hserve⟩ | ⟨k, t, rfl, hk, hmakes, hserve⟩ | ⟨k, rfl, hk, hmakes, hserve⟩ :=
    r.serve_cases q <;> rw [hserve] at hs hafter ⊢
  · obtain rfl := Option.some.inj hs
    rw [hmakes] at hn ⊢
    have hnew : r.nextId.toNat = n + 1 := hr.toNat_nextId hn
    refine ⟨Nat.le_of_eq hnew, rfl, nofun, fun {k s'} hk hid => ?_⟩
    have hle := hr.id_le (find?_create r d k ▸ hk)
    rw [← hid, hnew] at hle
    exact absurd hle (Nat.not_succ_le_self n)
  · cases hs
  · obtain rfl := Option.some.inj hs
    exact hafter.answered_known hk
  · obtain rfl := Option.some.inj hs
    exact hafter.answered_known (by rw [find?_wellKnown, if_pos rfl, (wellKnown_of_none hk).1])

namespace Answered

/-- What has been answered stays so, whatever is asked next. -/
theorem serve (hs : r.Answered n q s) (hr : r.Numbered n) (q' : Request)
    (hn : n + (r.makes q').toNat < UInt64.size) : (r.serve q').2.Answered (n + (r.makes q').toNat) q s := by
  obtain ⟨d, rfl, hmakes, hserve⟩ | ⟨-, hmakes, hserve⟩ | ⟨k, t, rfl, hk, hmakes, hserve⟩ | ⟨k, rfl, hk, hmakes, hserve⟩ :=
    r.serve_cases q' <;> rw [hmakes] at hn ⊢ <;> rw [hserve]
  · refine ⟨Nat.le_succ_of_le hs.id_le, hs.description, fun hname => ?_, fun {k s'} hk hid => ?_⟩
    · obtain ⟨k, hk, hfind⟩ := hs.known hname
      exact ⟨k, hk, (find?_create r d k).trans hfind⟩
    · exact hs.other ((find?_create r d k).symm.trans hk) hid
  · exact hs
  · exact hs
  · refine ⟨Nat.le_succ_of_le hs.id_le, hs.description, fun hname => ?_, fun {k' s'} hk' hid => ?_⟩
    · obtain ⟨k', hk', hfind⟩ := hs.known hname
      have hne : k ≠ k' := by
        rintro rfl
        cases hk.symm.trans hfind
      exact ⟨k', hk', by rw [find?_wellKnown, if_neg hne, hfind]⟩
    · rw [find?_wellKnown] at hk'
      split at hk'
      · -- the symbol that has just been made has a number of its own
        obtain rfl := Option.some.inj hk'
        have hle := hs.id_le
        rw [hid, (wellKnown_of_none hk).1, hr.toNat_nextId hn] at hle
        exact absurd hle (Nat.not_succ_le_self n)
      · exact hs.other hk' hid

/-- Answers to requests for one well-known name are one symbol. -/
theorem eq_of_name (hs : r.Answered n q s) (hs' : r.Answered n q' s')
    (hname : ∃ name, q = .wellKnown name ∧ q' = .wellKnown name) : s = s' := by
  obtain ⟨name, rfl, rfl⟩ := hname
  obtain ⟨k, rfl, hk⟩ := hs.known rfl
  obtain ⟨k', hname, hk'⟩ := hs'.known rfl
  obtain rfl := WellKnownName.description_inj.mp hname
  exact Option.some.inj (hk.symm.trans hk')

/-- Answers with one number answer requests for one well-known name, unless both symbols were created. -/
theorem exists_name (hs : r.Answered n q s) (hs' : r.Answered n q' s')
    (hcreated : ∀ d d', q = .create d → q' = .create d' → s.id ≠ s'.id) (hid : s.id = s'.id) :
    ∃ name, q = .wellKnown name ∧ q' = .wellKnown name := by
  cases q' with
  | wellKnown name =>
    obtain ⟨k, rfl, hk⟩ := hs'.known rfl
    exact ⟨_, hs.other hk hid, rfl⟩
  | create d' =>
    cases q with
    | wellKnown name =>
      obtain ⟨k, rfl, hk⟩ := hs.known rfl
      exact ⟨_, rfl, hs'.other hk hid.symm⟩
    | create d => exact absurd hid (hcreated d d' rfl rfl)

end Answered

/-! ## All answers -/

/-- Two requests with their answers. Keys and numbers tell the symbols apart, which are one exactly if both requests
are for one well-known name. -/
def Apart (p p' : Request × Option Symbol) : Prop :=
  ∀ s s', p.2 = some s → p'.2 = some s' →
    (s.key = s'.key ↔ s = s') ∧ (s.id = s'.id ↔ s = s') ∧
      (s = s' ↔ ∃ name, p.1 = .wellKnown name ∧ p'.1 = .wellKnown name)

theorem Answered.apart (hs : r.Answered n q s) (hs' : r.Answered n q' s')
    (hcreated : ∀ d d', q = .create d → q' = .create d' → s.id ≠ s'.id) : Apart (q, some s) (q', some s') := by
  rintro _ _ ⟨⟩ ⟨⟩
  have hname : s.id = s'.id → ∃ name, q = .wellKnown name ∧ q' = .wellKnown name := hs.exists_name hs' hcreated
  refine ⟨key_inj, ⟨fun hid => hs.eq_of_name hs' (hname hid), congrArg Symbol.id⟩, fun heq => ?_, hs.eq_of_name hs'⟩
  exact hname (congrArg Symbol.id heq)

/-- What a registry that has made `n` symbols and the answers that it has given have to do with each other. -/
structure Kept (r : Registry) (n : Nat) (past : List (Request × Option Symbol)) : Prop where
  numbered : r.Numbered n
  answered : ∀ p ∈ past, ∀ s, p.2 = some s → r.Answered n p.1 s
  described : ∀ p ∈ past, p.2.map Symbol.description = p.1.description?
  apart : past.Pairwise Apart

/-- A symbol that is made for the asking has the asked description, and only for a name that is not well known there is
none. -/
theorem Numbered.described (hr : r.Numbered n) (hn : n + (r.makes q).toNat < UInt64.size) :
    (r.serve q).1.map Symbol.description = q.description? := by
  cases hs : (r.serve q).1 with
  | some s => exact (hr.answered hn hs).description
  | none =>
    obtain ⟨d, -, -, hserve⟩ | ⟨hnone, -, -⟩ | ⟨k, t, -, -, -, hserve⟩ | ⟨k, -, -, -, hserve⟩ := r.serve_cases q
    · cases (congrArg Prod.fst hserve).symm.trans hs
    · exact hnone.symm
    · cases (congrArg Prod.fst hserve).symm.trans hs
    · cases (congrArg Prod.fst hserve).symm.trans hs

namespace Kept

variable {past : List (Request × Option Symbol)}

theorem empty : Kept {} 0 [] := ⟨numbered_empty, nofun, nofun, .nil⟩

/-- One request, and its answer. -/
theorem serve (h : r.Kept n past) (q : Request) (hn : n + (r.makes q).toNat < UInt64.size) :
    (r.serve q).2.Kept (n + (r.makes q).toNat) (past ++ [(q, (r.serve q).1)]) where
  numbered := h.numbered.serve q hn
  answered := by
    intro p hp s hs
    rcases List.mem_append.mp hp with hold | hq
    · exact (h.answered p hold s hs).serve h.numbered q hn
    · obtain rfl := List.mem_singleton.mp hq
      exact h.numbered.answered hn hs
  described := by
    intro p hp
    rcases List.mem_append.mp hp with hold | hq
    · exact h.described p hold
    · obtain rfl := List.mem_singleton.mp hq
      exact h.numbered.described hn
  apart := by
    refine List.pairwise_append.mpr ⟨h.apart, List.pairwise_singleton _ _, fun p hp p' hp' => ?_⟩
    obtain rfl := List.mem_singleton.mp hp'
    rintro s s' hs hs'
    have hold := h.answered p hp s hs
    refine Answered.apart (hold.serve h.numbered q hn) (h.numbered.answered hn hs') ?_ s s' rfl rfl
    -- a created symbol has a number beyond all that were made before
    rintro d d' - rfl hid
    obtain rfl := Option.some.inj hs'
    have hnew : (r.create d').1.id.toNat = n + 1 := h.numbered.toNat_nextId hn
    have hle := hold.id_le
    rw [hid, hnew] at hle
    exact absurd hle (Nat.not_succ_le_self n)

/-- Any number of requests, by induction on them. -/
theorem log (h : r.Kept n past) (qs : List Request) (hn : n + r.creations qs < UInt64.size) :
    ∃ r' n', Kept r' n' (past ++ r.log qs) := by
  induction qs generalizing r n past with
  | nil => exact ⟨r, n, by rwa [Registry.log, List.append_nil]⟩
  | cons q qs ih =>
    rw [creations, ← Nat.add_assoc] at hn
    obtain ⟨r', n', hkept⟩ := ih (h.serve q (Nat.lt_of_le_of_lt (Nat.le_add_right _ _) hn)) hn
    rw [List.append_assoc] at hkept
    exact ⟨r', n', hkept⟩

end Kept

theorem map_fst_log (r : Registry) (qs : List Request) : (r.log qs).map Prod.fst = qs := by
  induction qs generalizing r with
  | nil => rfl
  | cons q qs ih => rw [log, List.map_cons, ih]

/-- All requests of a process that makes fewer than `2 ^ 64` symbols, in whatever order. Each is answered by a symbol of
the description that was asked for, unless it is for a name that is not well known; and any two answers are told apart
by their keys, and are one symbol exactly if both requests are for one well-known name. -/
theorem symbols_distinct (qs : List Request) (h : creations {} qs < UInt64.size) :
    (log {} qs).map Prod.fst = qs ∧ (∀ p ∈ log {} qs, p.2.map Symbol.description = p.1.description?) ∧
      (log {} qs).Pairwise Apart := by
  obtain ⟨_, _, hkept⟩ := Kept.empty.log qs (by rwa [Nat.zero_add])
  exact ⟨map_fst_log _ _, hkept.described, hkept.apart⟩

/-- Requests whose descriptions imitate keys, names and each other. -/
def imitations : List Request :=
  [.create "Symbol.iterator", .wellKnown "Symbol.iterator", .create "2:Symbol.iterator", .create "", .create "",
    .wellKnown "Symbol.toStringTag", .wellKnown "@@1:Symbol.iterator", .create "@@1:", .wellKnown "Symbol.iterator"]

theorem symbols_distinct_imitations :
    creations {} imitations = 7 ∧ (log {} imitations).map Prod.fst = imitations ∧
      (∀ p ∈ log {} imitations, p.2.map Symbol.description = p.1.description?) ∧
      (log {} imitations).Pairwise Apart := by
  have hcreations : creations {} imitations = 7 := by decide +kernel
  exact ⟨hcreations, symbols_distinct imitations (by rw [hcreations]; decide)⟩

end Registry

end Symbol

end IterationEngine
