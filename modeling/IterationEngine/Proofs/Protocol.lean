import IterationEngine.Proofs.Run

/-!
# Steps of the protocol

How the operations of the iteration protocol end.

1. `signals_of`, `signals_ofMethod`, `signals_next`: nothing is answered exactly when an exception is left pending.
2. `stepped_of_step`: the four ways in which a step goes.
3. `taken_of_item`: the ways in which a consumer takes one more item.
-/

namespace IterationEngine

variable {H α : Type}

/-- An operation that answers nothing exactly when it leaves an exception pending, whatever was pending before. -/
def Run.Signals (x : Run H (Option α)) : Prop :=
  ∀ m a m', x m = some (a, m') → (a = none ↔ m'.pending.isSome = true)

namespace Iterator

variable (g : Guest H)

theorem signals_ofMethod (v method : Value) : Run.Signals (ofMethod g v method) := by
  intro m a m' h
  obtain ⟨iterator, m₁, -, h⟩ := Run.bind_eq_some.mp h
  rcases Run.ifPending_eq_some.mp h with ⟨e, hp, h⟩ | ⟨hp, h⟩
  · obtain ⟨rfl, rfl⟩ := Run.pure_eq_some h
    simp [hp]
  · split at h
    · obtain ⟨rfl, rfl⟩ := Run.pure_eq_some h
      simp [hp]
    · obtain ⟨rfl, hr⟩ := Run.raise_eq_some (Realm.raises_raiseTypeError _) h
      simp [hr]

theorem signals_of (v : Value) : Run.Signals (of g v) := by
  intro m a m' h
  rw [of, Run.lift_bind_apply] at h
  obtain ⟨method, m₁, -, h⟩ := Run.bind_eq_some.mp h
  rcases Run.ifPending_eq_some.mp h with ⟨e, hp, h⟩ | ⟨hp, h⟩
  · obtain ⟨rfl, rfl⟩ := Run.pure_eq_some h
    simp [hp]
  · split at h
    · exact signals_ofMethod g v _ m₁ a m' h
    · rw [Run.lift_bind_apply] at h
      obtain ⟨rfl, hr⟩ := Run.raise_eq_some (Realm.raises_raiseTypeError _) h
      simp [hr]

theorem signals_next (iterator : Handle) (argument : Option Value) :
    Run.Signals (next g iterator argument) := by
  intro m a m' h
  obtain ⟨result, m₁, -, h⟩ := Run.bind_eq_some.mp h
  rcases Run.ifPending_eq_some.mp h with ⟨e, hp, h⟩ | ⟨hp, h⟩
  · obtain ⟨rfl, rfl⟩ := Run.pure_eq_some h
    simp [hp]
  · split at h
    · obtain ⟨rfl, rfl⟩ := Run.pure_eq_some h
      simp [hp]
    · obtain ⟨rfl, hr⟩ := Run.raise_eq_some (Realm.raises_raiseNotResult _) h
      simp [hr]

/-- Reading an entry signals its failures in the same way. -/
theorem signals_entryOf (v : Value) : Run.Signals (entryOf g v) := by
  intro m a m' h
  unfold entryOf at h
  split at h
  · obtain ⟨key, m₁, -, h⟩ := Run.bind_eq_some.mp h
    rcases Run.ifPending_eq_some.mp h with ⟨e, hp, h⟩ | ⟨hp, h⟩
    · obtain ⟨rfl, rfl⟩ := Run.pure_eq_some h
      simp [hp]
    · obtain ⟨entryValue, m₂, -, h⟩ := Run.bind_eq_some.mp h
      rcases Run.ifPending_eq_some.mp h with ⟨e, hp, h⟩ | ⟨hp, h⟩
      · obtain ⟨rfl, rfl⟩ := Run.pure_eq_some h
        simp [hp]
      · obtain ⟨rfl, rfl⟩ := Run.pure_eq_some h
        simp [hp]
  · rw [Run.textOf_bind_apply] at h
    obtain ⟨rfl, hr⟩ := Run.raise_eq_some (Realm.raises_raiseTypeError _) h
    simp [hr]

variable {g}

/-- An operation that signals its failures and answers something has left nothing pending. -/
theorem pending_of_signals {x : Run H (Option α)} (hx : x.Signals) {a : α} {m m' : Machine H}
    (h : x m = some (some a, m')) : m'.pending = none := by
  have hs := hx m (some a) m' h
  cases hp : m'.pending with
  | none => rfl
  | some e =>
    rw [hp] at hs
    cases hs.mpr rfl

/-- An operation that signals its failures and answers nothing has left an exception pending. -/
theorem exists_pending_of_signals {x : Run H (Option α)} (hx : x.Signals) {m m' : Machine H}
    (h : x m = some (none, m')) : ∃ e, m'.pending = some e :=
  Option.isSome_iff_exists.mp ((hx m none m' h).mp rfl)

/-! ## Steps -/

/-- How a step goes from the machine `m`. It answers nothing when asking for a result or reading `done` fails and
when the iterator says that it is done, and otherwise the very result that `next` answered. -/
inductive Stepped (g : Guest H) (iterator : Handle) (m : Machine H) : Handle → Machine H → Prop
  | nextFailed {m' : Machine H} {e : Value} :
      next g iterator none m = some (none, m') → m'.pending = some e → Stepped g iterator m none m'
  | doneFailed {r : ObjectId} {d e : Value} {m₁ m' : Machine H} :
      next g iterator none m = some (some r, m₁) → Access.getFrom g (some r) "done" m₁ = some (d, m') →
      m'.pending = some e → Stepped g iterator m none m'
  | exhausted {r : ObjectId} {d : Value} {m₁ m' : Machine H} :
      next g iterator none m = some (some r, m₁) → Access.getFrom g (some r) "done" m₁ = some (d, m') →
      m'.pending = none → d.toBoolean = true → Stepped g iterator m none m'
  | found {r : ObjectId} {d : Value} {m₁ m' : Machine H} :
      next g iterator none m = some (some r, m₁) → Access.getFrom g (some r) "done" m₁ = some (d, m') →
      m'.pending = none → d.toBoolean = false → Stepped g iterator m (some r) m'

theorem isDone_eq_some {r : ObjectId} {done : Bool} {m m' : Machine H}
    (h : isDone g r m = some (done, m')) :
    ∃ d, Access.getFrom g (some r) "done" m = some (d, m') ∧ (m'.pending = none → done = d.toBoolean) := by
  obtain ⟨d, m₁, hd, h⟩ := Run.bind_eq_some.mp h
  rcases Run.ifPending_eq_some.mp h with ⟨e, hp, h⟩ | ⟨hp, h⟩
  · obtain ⟨rfl, rfl⟩ := Run.pure_eq_some h
    refine ⟨d, hd, fun hn => ?_⟩
    rw [hp] at hn
    cases hn
  · obtain ⟨rfl, rfl⟩ := Run.pure_eq_some h
    exact ⟨d, hd, fun _ => rfl⟩

theorem stepped_of_step {iterator : Handle} {r : Handle} {m m' : Machine H}
    (h : step g iterator m = some (r, m')) : Stepped g iterator m r m' := by
  obtain ⟨result, m₁, hnext, h⟩ := Run.bind_eq_some.mp h
  cases result with
  | none =>
    obtain ⟨rfl, rfl⟩ := Run.pure_eq_some h
    obtain ⟨e, he⟩ := exists_pending_of_signals (signals_next g iterator none) hnext
    exact .nextFailed hnext he
  | some result =>
    obtain ⟨done, m₂, hdone, h⟩ := Run.bind_eq_some.mp h
    obtain ⟨d, hd, hb⟩ := isDone_eq_some hdone
    rcases Run.ifPending_eq_some.mp h with ⟨e, hp, h⟩ | ⟨hp, h⟩
    · obtain ⟨rfl, rfl⟩ := Run.pure_eq_some h
      exact .doneFailed hnext hd hp
    · obtain rfl := hb hp
      split at h
      · next ht =>
        obtain ⟨rfl, rfl⟩ := Run.pure_eq_some h
        exact .exhausted hnext hd hp ht
      · next hf =>
        obtain ⟨rfl, rfl⟩ := Run.pure_eq_some h
        exact .found hnext hd hp (Bool.eq_false_iff.mpr hf)

/-! ## Items -/

/-- How a consumer takes one more item: a step, and if that finds a result, its value. -/
inductive Taken (g : Guest H) (iterator : ObjectId) (m : Machine H) : Item → Machine H → Prop
  | exhausted {m' : Machine H} :
      step g (some iterator) m = some (none, m') → m'.pending = none → Taken g iterator m .exhausted m'
  | value {r : ObjectId} {v : Value} {m₁ m' : Machine H} :
      step g (some iterator) m = some (some r, m₁) → m₁.pending = none →
      value g r m₁ = some (v, m') → m'.pending = none → Taken g iterator m (.value v) m'
  | stepFailed {e : Value} {m' : Machine H} :
      step g (some iterator) m = some (none, m') → m'.pending = some e → Taken g iterator m .failed m'
  | valueFailed {r : ObjectId} {v e : Value} {m₁ m' : Machine H} :
      step g (some iterator) m = some (some r, m₁) → m₁.pending = none →
      value g r m₁ = some (v, m') → m'.pending = some e → Taken g iterator m .failed m'

theorem taken_of_item {iterator : ObjectId} {x : Item} {m m' : Machine H}
    (h : item g iterator m = some (x, m')) : Taken g iterator m x m' := by
  obtain ⟨result, m₁, hstep, h⟩ := Run.bind_eq_some.mp h
  rcases Run.ifPending_eq_some.mp h with ⟨e, hp, h⟩ | ⟨hp, h⟩
  · obtain ⟨rfl, rfl⟩ := Run.pure_eq_some h
    -- a step that finds a result leaves nothing pending
    cases stepped_of_step hstep with
    | nextFailed | doneFailed | exhausted => exact .stepFailed hstep hp
    | found _ _ hn =>
      rw [hn] at hp
      cases hp
  · cases result with
    | none =>
      obtain ⟨rfl, rfl⟩ := Run.pure_eq_some h
      exact .exhausted hstep hp
    | some r =>
      obtain ⟨v, m₂, hv, h⟩ := Run.bind_eq_some.mp h
      rcases Run.ifPending_eq_some.mp h with ⟨e, hp₂, h⟩ | ⟨hp₂, h⟩
      · obtain ⟨rfl, rfl⟩ := Run.pure_eq_some h
        exact .valueFailed hstep hp hv hp₂
      · obtain ⟨rfl, rfl⟩ := Run.pure_eq_some h
        exact .value hstep hp hv hp₂

/-- What a consumer meets tells whether an exception is pending. -/
theorem Taken.failed_iff {iterator : ObjectId} {x : Item} {m m' : Machine H} (h : Taken g iterator m x m') :
    x = .failed ↔ m'.pending.isSome = true := by
  cases h with
  | exhausted _ hp | value _ _ _ hp | stepFailed _ hp | valueFailed _ _ _ hp => simp [hp]

end Iterator

end IterationEngine
