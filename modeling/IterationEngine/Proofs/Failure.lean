import IterationEngine.Proofs.Origin
import IterationEngine.Proofs.Taking

/-!
# Failure signals

Failures of the protocol and of the consumers are signalled exactly.

An operation that fails answers nothing and leaves an exception pending, and whoever called it has to look for
either. `ExactFailures` lists what a caller may rely on, and `exactFailures` shows it of all guest code and from
every machine, with or without an exception pending.
-/

namespace IterationEngine.Iterator

variable {H : Type}

/-! ## Consumers -/

/-- A list that is not empty is a whole list. -/
theorem pending_of_drain {g : Guest H} {rounds : Nat} {iterator : ObjectId} {taken : Array Value}
    {vs : List Value} {m m' : Machine H} (h : drain g rounds iterator taken m = some (vs, m')) (hvs : vs ≠ []) :
    m'.pending = none := by
  induction rounds generalizing taken m with
  | zero => cases h
  | succ rounds ih =>
    obtain ⟨x, m₁, hitem, h⟩ := Run.bind_eq_some.mp h
    cases x with
    | failed =>
      obtain ⟨rfl, -⟩ := Run.pure_eq_some h
      exact absurd rfl hvs
    | exhausted =>
      obtain ⟨-, rfl⟩ := Run.pure_eq_some h
      exact (taken_of_item hitem).pending nofun
    | value v => exact ih h

theorem pending_of_toList {g : Guest H} {iterable : Value} {method : Option Value} {vs : List Value}
    {m m' : Machine H} (h : toList g iterable method m = some (vs, m')) (hvs : vs ≠ []) : m'.pending = none := by
  rw [toList_eq] at h
  obtain ⟨iterator, m₁, -, h⟩ := Run.bind_eq_some.mp h
  cases iterator with
  | none =>
    obtain ⟨rfl, -⟩ := Run.pure_eq_some h
    exact absurd rfl hvs
  | some id => exact pending_of_drain h hvs

/-- Closing after a failure leaves an exception pending: closing with a throw gives a throw. -/
theorem pending_of_closeFailed {g : Guest H} {iterator : ObjectId} {m m' : Machine H}
    (h : closeFailed g iterator m = some ((), m')) : m'.pending.isSome = true := by
  obtain ⟨thrown, m₁, htake, h⟩ := Run.bind_eq_some.mp h
  obtain ⟨o, m₂, hclose, h⟩ := Run.bind_eq_some.mp h
  obtain ⟨rfl, rfl⟩ := Run.lift_eq_some htake
  have ho : o.isThrow = true := isThrow_of_close hclose rfl
  cases o with
  | throws v =>
    obtain ⟨-, rfl⟩ := Run.lift_eq_some h
    rfl
  | normal | returns | breaks | continues => cases ho

theorem signals_fillMap (g : Guest H) (rounds : Nat) (iterator map : ObjectId) :
    Run.Signals (fillMap g rounds iterator map) := by
  induction rounds with
  | zero => exact fun _ _ _ h => nomatch h
  | succ rounds ih =>
    intro m a m' h
    obtain ⟨x, m₁, hitem, h⟩ := Run.bind_eq_some.mp h
    have hfailed := (taken_of_item hitem).failed_iff
    cases x with
    | failed | exhausted =>
      obtain ⟨rfl, rfl⟩ := Run.pure_eq_some h
      simpa using hfailed
    | value v =>
      obtain ⟨entry, m₂, -, h⟩ := Run.bind_eq_some.mp h
      cases entry with
      | some entry =>
        obtain ⟨_, m₃, -, h⟩ := Run.bind_eq_some.mp h
        exact ih m₃ a m' h
      | none =>
        obtain ⟨_, m₃, hclose, h⟩ := Run.bind_eq_some.mp h
        obtain ⟨rfl, rfl⟩ := Run.pure_eq_some h
        simp [pending_of_closeFailed hclose]

theorem signals_fillSet (g : Guest H) (rounds : Nat) (iterator set : ObjectId) :
    Run.Signals (fillSet g rounds iterator set) := by
  induction rounds with
  | zero => exact fun _ _ _ h => nomatch h
  | succ rounds ih =>
    intro m a m' h
    obtain ⟨x, m₁, hitem, h⟩ := Run.bind_eq_some.mp h
    have hfailed := (taken_of_item hitem).failed_iff
    cases x with
    | failed | exhausted =>
      obtain ⟨rfl, rfl⟩ := Run.pure_eq_some h
      simpa using hfailed
    | value v =>
      obtain ⟨_, m₂, -, h⟩ := Run.bind_eq_some.mp h
      exact ih m₂ a m' h

/-- A collection is made and filled; without an iterable there is nothing to fill it with. -/
theorem signals_filled {g : Guest H} {o : Object} {iterable : Value} {fill : ObjectId → ObjectId → Run H Handle}
    (hfill : ∀ iterator id, Run.Signals (fill iterator id)) {r : Handle} {m m' : Machine H}
    (h : (do
      let id ← Realm.alloc o
      if iterable.isNullish then return some id
      else
        match ← of g iterable with
        | none => return none
        | some iterator => fill iterator id : Run H Handle) m = some (r, m')) (hm : m.pending = none) :
    r = none ↔ m'.pending.isSome = true := by
  rw [Run.lift_bind_apply] at h
  split at h
  · obtain ⟨rfl, rfl⟩ := Run.pure_eq_some h
    have hp : (m.withRealm (Realm.alloc o m.realm).2).pending = none := hm
    simp [hp]
  · obtain ⟨iterator, m₁, hof, h⟩ := Run.bind_eq_some.mp h
    cases iterator with
    | none =>
      obtain ⟨rfl, rfl⟩ := Run.pure_eq_some h
      exact signals_of g iterable _ _ _ hof
    | some iterator => exact hfill iterator _ _ _ _ h

/-! ## All signals -/

/-- What those may rely on who call operations of the protocol and consumers. -/
structure ExactFailures (g : Guest H) : Prop where
  of : ∀ v, Run.Signals (of g v)
  ofMethod : ∀ v method, Run.Signals (ofMethod g v method)
  next : ∀ iterator argument, Run.Signals (next g iterator argument)
  /-- A step answers the very object that `next` answered, with nothing pending. -/
  found : ∀ {iterator r m m'}, step g iterator m = some (some r, m') →
    m'.pending = none ∧ ∃ m₁, Iterator.next g iterator none m = some (some r, m₁)
  /-- A step that answers nothing with nothing pending has read a truthy `done` from what `next` answered. -/
  exhausted : ∀ {iterator m m'}, step g iterator m = some (none, m') → m'.pending = none →
    ∃ r d m₁, Iterator.next g iterator none m = some (some r, m₁) ∧
      Access.getFrom g (some r) "done" m₁ = some (d, m') ∧ d.toBoolean = true
  toList : ∀ {v method m vs m'}, toList g v method m = some (vs, m') → vs ≠ [] → m'.pending = none
  toMap : ∀ {v m r m'}, toMap g v m = some (r, m') → m.pending = none → (r = none ↔ m'.pending.isSome = true)
  toSet : ∀ {v m r m'}, toSet g v m = some (r, m') → m.pending = none → (r = none ↔ m'.pending.isSome = true)
  /-- The pending exception is taken only where there is one: taking it in any other way elsewhere changes
  nothing. -/
  closeTakes : ∀ {take}, Taking.Agrees take → ∀ iterator c, Taking.close take g iterator c = close g iterator c
  forOfTakes : ∀ {take}, Taking.Agrees take → ∀ v body, Taking.forOf take g v body = forOf g v body
  toMapTakes : ∀ {take}, Taking.Agrees take → ∀ v, Taking.toMap take g v = Iterator.toMap g v
  /-- What is reported has been passed in or raised. -/
  ofRaises : ∀ {v m r m' e}, Iterator.of g v m = some (r, m') → m'.pending = some e →
    ∃ j, Iterator.of g.recorded v (m.recording []) = some (r, m'.recording j) ∧
      Origin none m.realm m'.realm j e
  ofMethodRaises : ∀ {v method m r m' e}, Iterator.ofMethod g v method m = some (r, m') → m'.pending = some e →
    ∃ j, Iterator.ofMethod g.recorded v method (m.recording []) = some (r, m'.recording j) ∧
      Origin none m.realm m'.realm j e
  closeThrows : ∀ {iterator c m e m'}, close g iterator c m = some (.throws e, m') →
    ∃ j, close g.recorded iterator c (m.recording []) = some (.throws e, m'.recording j) ∧
      Origin c.thrown? m.realm m'.realm j e
  forOfThrows : ∀ {v body m e m'}, forOf g v body m = some (.throws e, m') →
    ∃ j, forOf g.recorded v (recordedBody body) (m.recording []) = some (.throws e, m'.recording j) ∧
      Origin none m.realm m'.realm j e
  toMapRaises : ∀ {v m r m' e}, Iterator.toMap g v m = some (r, m') → m'.pending = some e →
    ∃ j, Iterator.toMap g.recorded v (m.recording []) = some (r, m'.recording j) ∧
      Origin none m.realm m'.realm j e

/-- Failures are signalled exactly, whatever guest code does. -/
theorem exactFailures (g : Guest H) : ExactFailures g where
  of := signals_of g
  ofMethod := signals_ofMethod g
  next := signals_next g
  found := by
    intro iterator r m m' h
    cases stepped_of_step h with
    | found hn _ hp _ => exact ⟨hp, _, hn⟩
  exhausted := by
    intro iterator m m' h hp
    cases stepped_of_step h with
    | nextFailed _ he | doneFailed _ _ he =>
      rw [hp] at he
      cases he
    | exhausted hn hd _ ht => exact ⟨_, _, _, hn, hd, ht⟩
  toList := pending_of_toList
  toMap := fun h hm => signals_filled (signals_fillMap g g.rounds) h hm
  toSet := fun h hm => signals_filled (signals_fillSet g g.rounds) h hm
  closeTakes := fun htake => Taking.close_eq htake
  forOfTakes := fun htake => Taking.forOf_eq htake
  toMapTakes := fun htake => Taking.toMap_eq htake
  ofRaises := by
    intro v m r m' e h hp
    obtain ⟨j, hj⟩ := ((mirror_recorded g).of v).exists_journal h []
    exact ⟨j, hj, ((Traced.begin none m.realm).sim ((mirror_traced g _ _ _).of v) hj).pending e hp⟩
  ofMethodRaises := by
    intro v method m r m' e h hp
    obtain ⟨j, hj⟩ := ((mirror_recorded g).ofMethod v method).exists_journal h []
    exact ⟨j, hj, ((Traced.begin none m.realm).sim ((mirror_traced g _ _ _).ofMethod v method) hj).pending e hp⟩
  closeThrows := by
    intro iterator c m e m' h
    obtain ⟨j, hj⟩ := ((mirror_recorded g).close iterator c).exists_journal h []
    refine ⟨j, hj, origin_of_close (Traced.begin _ m.realm) (fun e' he' => ?_) hj⟩
    exact origin_of_effective he'
  forOfThrows := by
    intro v body m e m' h
    obtain ⟨j, hj⟩ := ((mirror_recorded g).forOf (fun v => sim_recorded _ (body v)) v).exists_journal h []
    obtain ⟨runs, hfor⟩ := exists_forOf hj
    exact ⟨j, hj, origin_of_forOf (Traced.begin none m.realm) hfor⟩
  toMapRaises := by
    intro v m r m' e h hp
    obtain ⟨j, hj⟩ := ((mirror_recorded g).toMap Records.sim_raise v).exists_journal h []
    exact ⟨j, hj, origin_of_toMap (Traced.begin none m.realm) hj hp⟩

/-- The first step finds the result 3. Once that has been handed out, a step finds that the result 4 is done. -/
theorem exactFailures_countingGuest :
    (∃ m₁ m', step countingGuest (some ⟨0⟩) iterableMachine = some (some ⟨3⟩, m') ∧ m'.pending = none ∧
      next countingGuest (some ⟨0⟩) none iterableMachine = some (some ⟨3⟩, m₁)) ∧
    (∃ r d m₁ m', step countingGuest (some ⟨0⟩) { iterableMachine with host := 1 } = some (none, m') ∧
      m'.pending = none ∧ next countingGuest (some ⟨0⟩) none { iterableMachine with host := 1 } = some (some r, m₁) ∧
      Access.getFrom countingGuest (some r) "done" m₁ = some (d, m') ∧ d.toBoolean = true) ∧
    ∃ (m' : Machine Unit) (j : Journal),
      close idleGuest.recorded (some ⟨0⟩) (.returns .null) (closableMachine.recording []) =
        some (.throws (.object ⟨2⟩), m'.recording j) ∧ j.length = 1 ∧
      Origin none closableMachine.realm m'.realm j (.object ⟨2⟩) := by
  refine ⟨?_, ?_, ?_⟩
  · have hcheck : (step countingGuest (some ⟨0⟩) iterableMachine).map Prod.fst = some (some ⟨3⟩) := by decide +kernel
    obtain ⟨⟨_, m'⟩, hstep, rfl⟩ := Option.map_eq_some_iff.mp hcheck
    obtain ⟨hp, m₁, hnext⟩ := (exactFailures countingGuest).found hstep
    exact ⟨m₁, m', hstep, hp, hnext⟩
  · have hcheck : (step countingGuest (some ⟨0⟩) { iterableMachine with host := 1 }).map
        (fun p => (p.1, p.2.pending)) = some (none, none) := by decide +kernel
    obtain ⟨⟨_, m'⟩, hstep, heq⟩ := Option.map_eq_some_iff.mp hcheck
    obtain ⟨rfl, hp⟩ := Prod.mk.inj heq
    obtain ⟨r, d, m₁, hnext, hdone, htrue⟩ := (exactFailures countingGuest).exhausted hstep hp
    exact ⟨r, d, m₁, m', hstep, hp, hnext, hdone, htrue⟩
  · have hcheck : (close idleGuest (some ⟨0⟩) (.returns .null) closableMachine).map Prod.fst =
        some (.throws (.object ⟨2⟩)) := by decide +kernel
    have hcalls : (close idleGuest.recorded (some ⟨0⟩) (.returns .null) (closableMachine.recording [])).any
        (fun p => p.2.journal.length == 1) = true := by decide +kernel
    obtain ⟨⟨_, m'⟩, hclose, rfl⟩ := Option.map_eq_some_iff.mp hcheck
    obtain ⟨j, hj, horigin⟩ := (exactFailures idleGuest).closeThrows hclose
    rw [hj] at hcalls
    exact ⟨m', j, hj, beq_iff_eq.mp hcalls, horigin⟩

end IterationEngine.Iterator
