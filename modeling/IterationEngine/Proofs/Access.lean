import IterationEngine.Proofs.Journal

/-!
# Reading properties and looking up methods

What the operations on properties do with what they find, and the guest code that they run.

1. `get_apply`, `found_of_getMethod`: every way in which a read or the lookup of a method can go.
2. `getMethod_journal`: the only guest code that the lookup of a method runs is the getter of the key.
-/

namespace IterationEngine.Access

variable {H : Type} {g : Guest H}

theorem get_apply (g : Guest H) (id : ObjectId) (key : String) (receiver : Value) (m : Machine H) :
    get g id key receiver m =
      match m.realm.heap.lookup id key with
      | some (.data v _) => some (v, m)
      | some (.accessor (some getter) _ _) =>
        if m.realm.heap.isFunction getter then g.call getter receiver [] m else some (.undefined, m)
      | _ => some (.undefined, m) := by
  show (match m.realm.heap.lookup id key with
    | some (.data v _) => (pure v : Run H Value)
    | some (.accessor (some getter) _ _) =>
      if m.realm.heap.isFunction getter = true then g.call getter receiver [] else pure .undefined
    | _ => pure .undefined) m = _
  cases m.realm.heap.lookup id key with
  | none => rfl
  | some p =>
    cases p with
    | data v a => rfl
    | accessor getter setter a =>
      cases getter with
      | none => rfl
      | some getter =>
        dsimp only
        split <;> rfl

/-- What the lookup of a method makes of the value `v` under the key, `m` being the machine that reading it
left. -/
inductive Found (key : String) (v : Value) (m : Machine H) : Handle → Machine H → Prop
  | failed {e : Value} : m.pending = some e → Found key v m none m
  | absent : m.pending = none → v.isNullish = true → Found key v m none m
  | function {f : ObjectId} : m.pending = none → m.realm.heap.function? v = some f → Found key v m (some f) m
  | refused : m.pending = none → v.isNullish = false → m.realm.heap.function? v = none →
      Found key v m none (m.withError .typeError
        ("Property '" ++ key ++ "' is not a function (" ++ m.realm.heap.typeName v ++ ")"))

theorem found_of_getMethod {v : Value} {key : String} {f : Handle} {m m' : Machine H}
    (h : getMethod g v key m = some (f, m')) :
    ∃ w m₁, getV g v key m = some (w, m₁) ∧ Found key w m₁ f m' := by
  obtain ⟨w, m₁, hv, h⟩ := Run.bind_eq_some.mp h
  refine ⟨w, m₁, hv, ?_⟩
  rcases Run.ifPending_eq_some.mp h with ⟨e, hp, h⟩ | ⟨hp, h⟩
  · obtain ⟨rfl, rfl⟩ := Run.pure_eq_some h
    exact .failed hp
  · split at h
    · next hn =>
      obtain ⟨rfl, rfl⟩ := Run.pure_eq_some h
      exact .absent hp hn
    · next hn =>
      rw [Run.getHeap_bind_apply] at h
      cases hf : m₁.realm.heap.function? w with
      | some id =>
        rw [hf] at h
        obtain ⟨rfl, rfl⟩ := Run.pure_eq_some h
        exact .function hp hf
      | none =>
        rw [hf] at h
        obtain ⟨rfl, rfl⟩ := Run.pure_eq_some h
        exact .refused hp (Bool.eq_false_iff.mpr hn) hf

/-- A method is found only with no exception pending. -/
theorem pending_of_getMethod {v : Value} {key : String} {f : ObjectId} {m m' : Machine H}
    (h : getMethod g v key m = some (some f, m')) : m'.pending = none := by
  obtain ⟨w, m₁, -, hf⟩ := found_of_getMethod h
  cases hf with
  | function hp _ => exact hp

/-! ## Guest code that is run -/

/-- What reading a key of a value runs of guest code: nothing, or the getter of the key and nothing else. -/
inductive GetterCalls (r : Realm) (v : Value) (key : String) : Journal → Prop
  | none : GetterCalls r v key []
  | getter {id getter : ObjectId} {setter : Handle} {a : Attributes} (result : Value) (after : Realm) :
      v = .object id → r.heap.lookup id key = some (.accessor (some getter) setter a) →
      GetterCalls r v key [.called ⟨getter, v, [], r, result, after⟩]

theorem getV_journal {v w : Value} {key : String} {n n' : Machine (H × Journal)}
    (h : getV g.recorded v key n = some (w, n')) :
    ∃ calls, n'.journal = n.journal ++ calls ∧ GetterCalls n.realm v key calls := by
  cases v with
  | undefined | null =>
    rw [getV, Run.textOf_bind_apply, Run.lift_bind_apply] at h
    obtain ⟨-, rfl⟩ := Run.pure_eq_some h
    exact ⟨[], (List.append_nil _).symm, .none⟩
  | boolean | number | string | symbol =>
    obtain ⟨-, rfl⟩ := Run.pure_eq_some h
    exact ⟨[], (List.append_nil _).symm, .none⟩
  | object id =>
    rw [getV, get_apply] at h
    split at h
    · obtain ⟨-, rfl⟩ := Run.pure_eq_some h
      exact ⟨[], (List.append_nil _).symm, .none⟩
    · next getter setter a hl =>
      split at h
      · obtain ⟨m', -, rfl⟩ := Guest.recorded_call_eq_some h
        exact ⟨_, rfl, .getter w m'.realm rfl hl⟩
      · obtain ⟨-, rfl⟩ := Run.pure_eq_some h
        exact ⟨[], (List.append_nil _).symm, .none⟩
    · obtain ⟨-, rfl⟩ := Run.pure_eq_some h
      exact ⟨[], (List.append_nil _).symm, .none⟩

theorem getMethod_journal {v : Value} {key : String} {f : Handle} {n n' : Machine (H × Journal)}
    (h : getMethod g.recorded v key n = some (f, n')) :
    ∃ calls, n'.journal = n.journal ++ calls ∧ GetterCalls n.realm v key calls := by
  obtain ⟨w, n₁, hv, hf⟩ := found_of_getMethod h
  -- once the value has been read, the lookup only looks at the realm and may raise an error
  have hj : n'.journal = n₁.journal := by cases hf <;> rfl
  rw [hj]
  exact getV_journal hv

end IterationEngine.Access
