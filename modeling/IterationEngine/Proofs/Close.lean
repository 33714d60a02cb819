import IterationEngine.Proofs.Access

/-!
# Closing an iterator

What comes of closing an iterator, whatever guest code does meanwhile.

1. `closing_of_closeWith`: the three ways in which closing goes, and the arbitration of its two outcomes.
2. `close_outcome`: closing from any machine, with the guest code it runs.
-/

namespace IterationEngine

variable {H : Type} {g : Guest H}

namespace Iterator

/-- Which of two outcomes closing reports, `c` that of the consumer and `r` that of the cleanup, and what it
leaves of the machine `m`. -/
inductive Arbitrated (c r : Completion) (m : Machine H) : Completion → Machine H → Prop
  | thrown : c.isThrow = true → Arbitrated c r m c m
  | cleanupThrew : c.isThrow = false → r.isThrow = true → Arbitrated c r m r m
  | kept : c.isThrow = false → r.isThrow = false → r.value.isObject = true → Arbitrated c r m c m
  | rejected {e : ObjectId} {m' : Machine H} :
      c.isThrow = false → r.isThrow = false → r.value.isObject = false →
      m' = m.withError .typeError
        ("Iterator result " ++ r.value.text m.realm.heap.objectText ++ " is not an object") →
      m'.pending = some (.object e) →
      Arbitrated c r m (.throws (.object e)) m'.settled

/-- How closing goes on once the method `return` has been looked up: `method` is what was found, `m` the machine
that the lookup left, and the list holds the calls that are made from there on. -/
inductive Closing (g : Guest H) (iterator : Handle) (c : Completion) (m : Machine H) :
    Handle → Journal → Completion → Machine H → Prop
  | lookupFailed {method : Handle} {e : Value} :
      m.pending = some e → Closing g iterator c m method [] (.throws e) m.settled
  | absent : m.pending = none → Closing g iterator c m none [] c m
  | called {f : ObjectId} {v : Value} {m₁ m' : Machine H} {o : Completion} :
      m.pending = none → g.call f (.ofHandle iterator) [] m = some (v, m₁) →
      Arbitrated c (m₁.effective (.normal v)) m₁.settled o m' →
      Closing g iterator c m (some f) [.called ⟨f, .ofHandle iterator, [], m.realm, v, m₁.realm⟩] o m'

theorem Arbitrated.pending {c r o : Completion} {m m' : Machine H} (h : Arbitrated c r m o m')
    (hm : m.pending = none) : m'.pending = none := by
  cases h with
  | thrown | cleanupThrew | kept => exact hm
  | rejected => rfl

theorem Closing.pending {iterator method : Handle} {c o : Completion} {m m' : Machine H} {calls : Journal}
    (h : Closing g iterator c m method calls o m') : m'.pending = none := by
  cases h with
  | lookupFailed => rfl
  | absent hp => exact hp
  | called _ _ ha => exact ha.pending rfl

/-- A consumer that has failed stays failed. -/
theorem Closing.isThrow {iterator method : Handle} {c o : Completion} {m m' : Machine H} {calls : Journal}
    (h : Closing g iterator c m method calls o m') (hc : c.isThrow = true) : o.isThrow = true := by
  cases h with
  | lookupFailed => rfl
  | absent => exact hc
  | called _ _ ha =>
    cases ha with
    | thrown => exact hc
    | cleanupThrew hf | kept hf | rejected hf =>
      rw [hc] at hf
      cases hf

/-! ## From the code to its outcomes -/

theorem CloseDecision.decide_cases (c r : Completion) :
    (decide c r = keepCompletion ∧ c.isThrow = true) ∨
    (decide c r = useInnerResult ∧ c.isThrow = false ∧ r.isThrow = true) ∨
    (decide c r = keepCompletion ∧ c.isThrow = false ∧ r.isThrow = false ∧ r.value.isObject = true) ∨
    (decide c r = resultNotObject ∧ c.isThrow = false ∧ r.isThrow = false ∧ r.value.isObject = false) := by
  unfold decide
  cases c.isThrow <;> cases r.isThrow <;> cases r.value.isObject <;> simp

theorem raiseNotResult_bind_apply (v : Value) (x : Run H Completion) (m : Machine H) :
    (do raiseNotResult v; x : Run H Completion) m =
      x (m.withError .typeError ("Iterator result " ++ v.text m.realm.heap.objectText ++ " is not an object")) :=
  rfl

/-- The table of decisions, carried out on the outcome that a call left. -/
theorem arbitrated_of_decide {c o : Completion} {v : Value} {m m' : Machine H}
    (h : (match CloseDecision.decide c (m.effective (.normal v)) with
      | .keepCompletion => (pure c : Run H Completion)
      | .useInnerResult => pure (m.effective (.normal v))
      | .resultNotObject => do
        raiseNotResult v
        Realm.takePending) m.settled = some (o, m')) :
    Arbitrated c (m.effective (.normal v)) m.settled o m' := by
  rcases CloseDecision.decide_cases c (m.effective (.normal v)) with
    ⟨hd, hc⟩ | ⟨hd, hc, hr⟩ | ⟨hd, hc, hr, ho⟩ | ⟨hd, hc, hr, ho⟩
  all_goals rw [hd] at h
  · obtain ⟨rfl, rfl⟩ := Run.pure_eq_some h
    exact .thrown hc
  · obtain ⟨rfl, rfl⟩ := Run.pure_eq_some h
    exact .cleanupThrew hc hr
  · obtain ⟨rfl, rfl⟩ := Run.pure_eq_some h
    exact .kept hc hr ho
  · -- no exception was pending, so the outcome is the result of the call
    have hv : (m.effective (.normal v)).value = v := by
      cases hp : m.pending with
      | none => rw [Machine.effective_of_pending_eq_none hp]; rfl
      | some e => rw [Machine.effective_of_pending hp] at hr; cases hr
    dsimp only at h
    rw [raiseNotResult_bind_apply, Run.takePending_of_pending (Machine.pending_withError _ _ _),
      Option.some.injEq, Prod.mk.injEq] at h
    obtain ⟨rfl, rfl⟩ := h
    exact .rejected hc hr ho (by rw [hv]) rfl

/-- Arbitration makes no call. -/
theorem Arbitrated.unrecorded {c r o : Completion} {n n' : Machine (H × Journal)} (h : Arbitrated c r n o n') :
    Arbitrated c r n.unrecorded o n'.unrecorded ∧ n'.journal = n.journal := by
  cases h with
  | thrown hc => exact ⟨.thrown hc, rfl⟩
  | cleanupThrew hc hr => exact ⟨.cleanupThrew hc hr, rfl⟩
  | kept hc hr ho => exact ⟨.kept hc hr ho, rfl⟩
  | rejected hc hr ho hm hp =>
    subst hm
    exact ⟨.rejected hc hr ho rfl hp, rfl⟩

/-- Closing with guest code that keeps a journal: a lookup of `return`, and what follows from it. -/
theorem closing_of_closeWith {iterator : Handle} {c o : Completion} {n n' : Machine (H × Journal)}
    (h : closeWith g.recorded iterator c n = some (o, n')) :
    ∃ method n₁ calls, Access.getMethod g.recorded (.ofHandle iterator) "return" n = some (method, n₁) ∧
      Closing g iterator c n₁.unrecorded method calls o n'.unrecorded ∧
      n'.journal = n₁.journal ++ calls := by
  obtain ⟨method, n₁, hm, h⟩ := Run.bind_eq_some.mp h
  rcases Run.ifPending_eq_some.mp h with ⟨e, hp, h⟩ | ⟨hp, h⟩
  · rw [Run.takePending_of_pending hp, Option.some.injEq, Prod.mk.injEq] at h
    obtain ⟨rfl, rfl⟩ := h
    exact ⟨method, n₁, [], hm, .lookupFailed hp, (List.append_nil _).symm⟩
  · cases method with
    | none =>
      obtain ⟨rfl, rfl⟩ := Run.pure_eq_some h
      exact ⟨none, n', [], hm, .absent hp, (List.append_nil _).symm⟩
    | some f =>
      obtain ⟨v, n₂, hcall, h⟩ := Run.bind_eq_some.mp h
      obtain ⟨m₂, hguest, rfl⟩ := Guest.recorded_call_eq_some hcall
      rw [Run.bind_eq_of_eq_some (Run.outcome_apply v _)] at h
      obtain ⟨ha, hj⟩ := (arbitrated_of_decide h).unrecorded
      exact ⟨some f, n₁, _, hm, .called hp hguest ha, hj⟩

theorem close_apply (iterator : Handle) (c : Completion) (m : Machine H) :
    close g iterator c m = closeWith g iterator (m.effective c) m.settled := by
  rw [close]
  cases hp : m.pending with
  | none =>
    rw [Run.ifPending_of_none hp, Machine.effective_of_pending_eq_none hp,
      Machine.settled_of_pending_eq_none hp]
  | some e =>
    rw [Run.ifPending_of_pending hp, Machine.effective_of_pending hp]
    exact Run.bind_eq_of_eq_some (Run.takePending_of_pending hp) _

/-- Closing, with the guest code that it runs. -/
theorem closing_of_close {iterator : Handle} {c o : Completion} {m m' : Machine H}
    (h : close g iterator c m = some (o, m')) :
    ∃ method m₁ lookup calls,
      Access.getMethod g (.ofHandle iterator) "return" m.settled = some (method, m₁) ∧
      Access.GetterCalls m.settled.realm (.ofHandle iterator) "return" lookup ∧
      Closing g iterator (m.effective c) m₁ method calls o m' ∧
      close g.recorded iterator c (m.recording []) = some (o, m'.recording (lookup ++ calls)) := by
  obtain ⟨j, hj⟩ := ((mirror_recorded g).close iterator c).exists_journal h []
  have hrec := hj
  rw [close_apply] at hrec
  obtain ⟨method, n₁, calls, hm, hc, hcalls⟩ := closing_of_closeWith hrec
  obtain ⟨lookup, hlookup, hgetter⟩ := Access.getMethod_journal hm
  obtain ⟨m₁, hm₁, hR⟩ := ((mirror_recorded g).getMethod _ _).exists_left rfl hm
  obtain rfl : n₁.unrecorded = m₁ := hR
  obtain rfl : j = lookup ++ calls := by
    rw [hlookup] at hcalls
    exact hcalls
  exact ⟨method, n₁.unrecorded, lookup, calls, hm₁, hgetter, hc, hj⟩

theorem pending_of_close {iterator : Handle} {c o : Completion} {m m' : Machine H}
    (h : close g iterator c m = some (o, m')) : m'.pending = none := by
  obtain ⟨_, _, _, _, -, -, hc, -⟩ := closing_of_close h
  exact hc.pending

/-- Closing with a throw gives a throw, on which those rely who close because they have failed. -/
theorem isThrow_of_close {iterator : Handle} {c o : Completion} {m m' : Machine H}
    (h : close g iterator c m = some (o, m')) (hc : (m.effective c).isThrow = true) : o.isThrow = true := by
  obtain ⟨_, _, _, _, -, -, hclosing, -⟩ := closing_of_close h
  exact hclosing.isThrow hc

/-- Closing an iterator, from any machine and whatever guest code does. Nothing is left pending and the context
goes on. With `c` replaced by the exception that was pending, if any, `return` is looked up, which runs its getter
at the most; then `Closing` says what is called and what the outcome is. These calls are all the guest code that
is run. -/
theorem close_outcome {iterator : Handle} {c o : Completion} {m m' : Machine H}
    (h : close g iterator c m = some (o, m')) :
    (m'.pending = none ∧ m'.realm.context.state = .running) ∧
    ∃ method m₁ lookup calls,
      Access.getMethod g (.ofHandle iterator) "return" m.settled = some (method, m₁) ∧
      Access.GetterCalls m.settled.realm (.ofHandle iterator) "return" lookup ∧
      Closing g iterator (m.effective c) m₁ method calls o m' ∧
      close g.recorded iterator c (m.recording []) = some (o, m'.recording (lookup ++ calls)) :=
  have hp : m'.pending = none := pending_of_close h
  ⟨⟨hp, (Context.state_eq_running_iff _).mpr hp⟩, closing_of_close h⟩

end Iterator

/-! ## A cleanup that answers no object -/

/-- Guest code that answers `undefined` and changes nothing. -/
def idleGuest : Guest Unit where
  call := fun _ _ _ m => some (.undefined, m)
  rounds := 8

def idleContext : Context where
  maxDepth := 10
  strict := true
  symbols := ⟨⟨1, "Symbol.iterator"⟩, ⟨2, "Symbol.toStringTag"⟩⟩

/-- Object 0 has object 1, a function, as its method `return`. -/
def closableHeap : Heap where
  objects := #[
    { kind := .plain .ordinary
      properties := PropertyTable.withValue .empty "return" (.object ⟨1⟩) .all },
    .ofCode "return" 0 (.guest ⟨0⟩)]
  allocations := 2
  peak := 2

def closableMachine : Machine Unit where
  realm := { heap := closableHeap, context := idleContext, registry := {} }
  host := ()

/-- A return is closed with a cleanup that answers `undefined`: an error takes its place, and none is pending. -/
theorem close_outcome_idleGuest :
    ∃ m', Iterator.close idleGuest (some ⟨0⟩) (.returns .null) closableMachine =
        some (.throws (.object ⟨2⟩), m') ∧ m'.realm.context.state = .running := by
  have h : ∃ m', Iterator.close idleGuest (some ⟨0⟩) (.returns .null) closableMachine =
      some (.throws (.object ⟨2⟩), m') := ⟨_, rfl⟩
  obtain ⟨m', hm⟩ := h
  exact ⟨m', hm, (Iterator.close_outcome hm).1.2⟩

end IterationEngine
