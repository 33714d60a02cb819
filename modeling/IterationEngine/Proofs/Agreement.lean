import IterationEngine.Proofs.Collecting

/-!
# Loops and lists

Two consumers, written apart, that come to the same.

A list leaves its failure pending, a loop hands it back as a completion. A loop whose body does nothing but answer its
value takes the same steps as a list does, so either of the two can be had from the other.

1. `forOf_echo`: the loop as a function of the list, in one equation, by induction on the rounds of both.
2. `consumed_of_forOf`, `Consumed.unique`: the values that the body is run on are those that the list has taken, because
   a run of the protocol is determined by the machine on which it begins.
3. `loop_matches_list`: both, for a body that is noted in a journal.
-/

namespace IterationEngine.Iterator

variable {H : Type} {g : Guest H}

/-- The loop body that answers its value and does nothing. -/
def echo (v : Value) : Run H Completion := pure (.normal v)

/-- What a loop with that body makes of a list: its last value, or the exception that is pending. -/
def loopOutcome (p : List Value × Machine H) : Completion × Machine H :=
  (p.2.effective (.normal (p.1.getLast?.getD .undefined)), p.2.settled)

theorem loopOutcome_of_pending {vs : List Value} {m : Machine H} {e : Value} (hp : m.pending = some e) :
    loopOutcome (vs, m) = (.throws e, m.settled) := by
  rw [loopOutcome, Machine.effective_of_pending hp]

theorem loopOutcome_of_none {vs : List Value} {m : Machine H} (hp : m.pending = none) :
    loopOutcome (vs, m) = (.normal (vs.getLast?.getD .undefined), m) := by
  rw [loopOutcome, Machine.effective_of_pending_eq_none hp, Machine.settled_of_pending_eq_none hp]

/-! ## One equation for both -/

/-- A round of the loop. Nothing is pending when the body is run, and nothing after that. -/
theorem echo_round {rounds : Nat} {iterator : ObjectId} {last v : Value} {m : Machine H} (hp : m.pending = none) :
    (do
      let completion ← echo v
      match ← bodyOutcome completion with
      | .normal w => loop g echo rounds iterator w
      | .continues "" => loop g echo rounds iterator last
      | c => leaveLoop g iterator last c : Run H Completion) m = loop g echo rounds iterator v m := by
  have hecho : (echo v : Run H Completion) m = some (.normal v, m) := rfl
  rw [Run.bind_eq_of_eq_some hecho, Run.bind_eq_of_eq_some (Run.bodyOutcome_apply (.normal v) m),
    Machine.effective_of_pending_eq_none hp, Machine.settled_of_pending_eq_none hp]

/-- The loop that has last seen the last of the values taken. -/
theorem loop_echo (rounds : Nat) (iterator : ObjectId) (taken : Array Value) (m : Machine H) :
    loop g echo rounds iterator (taken.toList.getLast?.getD .undefined) m =
      (drain g rounds iterator taken m).map loopOutcome := by
  induction rounds generalizing taken m with
  | zero => rfl
  | succ rounds ih =>
    rw [loop, drain]
    cases hitem : item g iterator m with
    | none =>
      show (item g iterator m).bind _ = ((item g iterator m).bind _).map _
      rw [hitem]
      rfl
    | some p =>
      obtain ⟨x, m₁⟩ := p
      rw [Run.bind_eq_of_eq_some hitem, Run.bind_eq_of_eq_some hitem]
      have ht := taken_of_item hitem
      cases x with
      | failed =>
        obtain ⟨e, hp⟩ := Option.isSome_iff_exists.mp (ht.failed_iff.mp rfl)
        show (liftM Realm.takePending : Run H Completion) m₁ = some (loopOutcome ([], m₁))
        rw [Run.takePending_of_pending hp, loopOutcome_of_pending hp]
      | exhausted =>
        show some (Completion.normal (taken.toList.getLast?.getD .undefined), m₁) =
          some (loopOutcome (taken.toList, m₁))
        rw [loopOutcome_of_none (ht.pending nofun)]
      | value v =>
        refine (echo_round (ht.pending nofun)).trans ?_
        have hlast : (taken.push v).toList.getLast?.getD .undefined = v := by
          rw [Array.toList_push, List.getLast?_concat, Option.getD_some]
        rw [← ih, hlast]

theorem forOf_echo (g : Guest H) (iterable : Value) (m : Machine H) :
    forOf g iterable echo m = (toList g iterable none m).map loopOutcome := by
  rw [forOf, toList_eq]
  show (of g iterable m).bind _ = ((of g iterable m).bind _).map _
  cases hof : of g iterable m with
  | none => rfl
  | some p =>
    obtain ⟨iterator, m₁⟩ := p
    cases iterator with
    | none =>
      obtain ⟨e, hp⟩ := exists_pending_of_signals (signals_of g iterable) hof
      show (liftM Realm.takePending : Run H Completion) m₁ = some (loopOutcome ([], m₁))
      rw [Run.takePending_of_pending hp, loopOutcome_of_pending hp]
    | some iterator => exact loop_echo g.rounds iterator #[] m₁

/-! ## Runs of the protocol are determined -/

/-- A step that has found a result is followed by reading its value. -/
theorem item_of_found {iterator r : ObjectId} {m m₁ : Machine H} (hstep : step g (some iterator) m = some (some r, m₁))
    (hp : m₁.pending = none) :
    item g iterator m = (do let v ← value g r; if ← Realm.isPending then return .failed else return .value v :
      Run H Item) m₁ := by
  rw [item, Run.bind_eq_of_eq_some hstep]
  exact Run.ifPending_of_none hp _ _

theorem item_of_taken {iterator : ObjectId} {x : Item} {m m' : Machine H} (h : Taken g iterator m x m') :
    item g iterator m = some (x, m') := by
  cases h with
  | exhausted hstep hp =>
    rw [item, Run.bind_eq_of_eq_some hstep]
    exact Run.ifPending_of_none hp _ _
  | stepFailed hstep hp =>
    rw [item, Run.bind_eq_of_eq_some hstep]
    exact Run.ifPending_of_pending hp _ _
  | value hstep hp hvalue hp' =>
    rw [item_of_found hstep hp, Run.bind_eq_of_eq_some hvalue]
    exact Run.ifPending_of_none hp' _ _
  | valueFailed hstep hp hvalue hp' =>
    rw [item_of_found hstep hp, Run.bind_eq_of_eq_some hvalue]
    exact Run.ifPending_of_pending hp' _ _

theorem Taken.unique {iterator : ObjectId} {x x' : Item} {m m₁ m₂ : Machine H} (h : Taken g iterator m x m₁)
    (h' : Taken g iterator m x' m₂) : x = x' ∧ m₁ = m₂ :=
  Prod.mk.inj (Option.some.inj ((item_of_taken h).symm.trans (item_of_taken h')))

theorem Ended.unique {iterator : ObjectId} {failure failure' : Option Value} {m m₁ m₂ : Machine H}
    (h : Ended g iterator m failure m₁) (h' : Ended g iterator m failure' m₂) : failure = failure' ∧ m₁ = m₂ := by
  have hm : m₁ = m₂ := by
    cases h with
    | exhausted ht | failed ht =>
      cases h' with
      | exhausted ht' | failed ht' => exact (ht.unique ht').2
  subst hm
  exact ⟨h.pending.symm.trans h'.pending, rfl⟩

/-- After an ending there is no further round. -/
theorem Ended.not_round {iterator : ObjectId} {failure : Option Value} {v : Value} {m m₁ m₂ : Machine H}
    (h : Ended g iterator m failure m₁) : ¬ ValueRound g iterator m v m₂ := by
  intro hround
  cases h with
  | exhausted ht | failed ht => cases (ht.unique hround).1

theorem Repeated.unique {iterator : ObjectId} {us us' : List Value} {failure failure' : Option Value}
    {m m₁ m₁' m₂ m₂' : Machine H} (h : Repeated (ValueRound g iterator) m us m₁) (hend : Ended g iterator m₁ failure m₂)
    (h' : Repeated (ValueRound g iterator) m us' m₁') (hend' : Ended g iterator m₁' failure' m₂') :
    us = us' ∧ failure = failure' ∧ m₂ = m₂' := by
  induction h generalizing us' with
  | none m =>
    cases h' with
    | none => exact ⟨rfl, hend.unique hend'⟩
    | more hround _ => exact absurd hround hend.not_round
  | more hround _ ih =>
    cases h' with
    | none => exact absurd hround hend'.not_round
    | more hround' hrest' =>
      obtain ⟨hitem, rfl⟩ := Taken.unique hround hround'
      obtain ⟨rfl, hrest⟩ := ih hend hrest'
      obtain rfl := Item.value.inj hitem
      exact ⟨rfl, hrest⟩

theorem Consumed.unique {start : Run H Handle} {us us' : List Value} {failure failure' : Option Value}
    {m m₁ m₂ : Machine H} (h : Consumed g start (ValueRound g) m us failure m₁)
    (h' : Consumed g start (ValueRound g) m us' failure' m₂) : us = us' ∧ failure = failure' ∧ m₁ = m₂ := by
  cases h with
  | noIterator hstart hp =>
    cases h' with
    | noIterator hstart' hp' =>
      obtain ⟨-, rfl⟩ := Prod.mk.inj (Option.some.inj (hstart.symm.trans hstart'))
      exact ⟨rfl, hp.symm.trans hp', rfl⟩
    | ran hstart' _ _ _ => cases hstart.symm.trans hstart'
  | ran hstart _ hrounds hend =>
    cases h' with
    | noIterator hstart' _ => cases hstart.symm.trans hstart'
    | ran hstart' _ hrounds' hend' =>
      obtain ⟨hiterator, rfl⟩ := Prod.mk.inj (Option.some.inj (hstart.symm.trans hstart'))
      obtain rfl := Option.some.inj hiterator
      exact Repeated.unique hrounds hend hrounds' hend'

/-! ## The values that the body is run on -/

/-- The rounds of the loop are rounds of the protocol. -/
theorem repeated_of_rounds {iterator : ObjectId} {runs : List BodyRun} {m m' : Machine H}
    (h : Rounds g echo iterator m runs m') : Repeated (ValueRound g iterator) m (runs.map BodyRun.value) m' := by
  induction h with
  | none m => exact .none m
  | more ht hbody _ _ ih =>
    obtain ⟨-, rfl⟩ := Run.pure_eq_some hbody
    rw [Machine.settled_of_pending_eq_none (ht.pending nofun)] at ih
    exact .more ht ih

/-- The body never leaves the loop, so the loop ends as the protocol does. -/
theorem ended_of_ending {iterator : ObjectId} {last : Value} {runs : List BodyRun} {r : Completion} {m m' : Machine H}
    (h : Ending g echo iterator last m runs r m') :
    runs = [] ∧ ∃ failure m₁, Ended g iterator m failure m₁ := by
  cases h with
  | exhausted ht => exact ⟨rfl, none, _, .exhausted ht⟩
  | failed ht hp => exact ⟨rfl, _, _, .failed ht hp⟩
  | left ht hbody hgoes _ =>
    obtain ⟨rfl, rfl⟩ := Run.pure_eq_some hbody
    rw [Machine.effective_of_pending_eq_none (ht.pending nofun)] at hgoes
    cases hgoes

theorem consumed_of_forOf {iterable : Value} {runs : List BodyRun} {r : Completion} {m m' : Machine H}
    (h : ForOf g echo iterable m runs r m') :
    ∃ failure m₁, Consumed g (of g iterable) (ValueRound g) m (runs.map BodyRun.value) failure m₁ := by
  cases h with
  | noIterator hof hp => exact ⟨_, _, .noIterator hof hp⟩
  | looped hof hp hrounds hending =>
    obtain ⟨rfl, failure, m₁, hended⟩ := ended_of_ending hending
    rw [List.append_nil]
    exact ⟨failure, m₁, .ran hof hp (repeated_of_rounds hrounds) hended⟩

/-! ## Agreement -/

/-- The loop over an iterable from the machine `m`, with a journal of the runs of its body. -/
def echoing (g : Guest H) (iterable : Value) (m : Machine H) : Option (Completion × Machine (H × Journal)) :=
  forOf g.recorded iterable (recordedBody echo) (m.recording [])

theorem records_forOf_echo (g : Guest H) (iterable : Value) :
    Run.Sim Records (forOf g iterable echo) (forOf g.recorded iterable (recordedBody echo)) :=
  (mirror_recorded g).forOf (fun v => sim_recorded _ (echo v)) iterable

/-- A loop and a list over the same iterable from the same machine agree. -/
structure LoopMatchesList (g : Guest H) (iterable : Value) (m : Machine H) : Prop where
  /-- Either both come to an end or none of them does. -/
  answers : toList g iterable none m = none ↔ echoing g iterable m = none
  /-- The body is run on the members of the list, in their order, and both leave the same machine. -/
  returned : ∀ {vs m'}, toList g iterable none m = some (vs, m') → m'.pending = none →
    ∃ j : Journal, echoing g iterable m = some (.normal (vs.getLast?.getD .undefined), m'.recording j) ∧
      j.bodyRuns.map BodyRun.value = vs
  /-- The list is empty. The body has been run on the values that were taken until something failed, and the machines
  differ only in the exception, which the list leaves pending and the loop answers. -/
  failed : ∀ {vs m' e}, toList g iterable none m = some (vs, m') → m'.pending = some e →
    vs = [] ∧ ∃ (us : List Value) (j : Journal), Consumed g (of g iterable) (ValueRound g) m us (some e) m' ∧
      echoing g iterable m = some (.throws e, m'.settled.recording j) ∧ j.bodyRuns.map BodyRun.value = us

/-- Whenever the list answers, so does the loop, and its body has been run on the values that the list has taken. -/
theorem echoing_of_toList {iterable : Value} {vs : List Value} {m m' : Machine H}
    (h : toList g iterable none m = some (vs, m')) :
    ∃ (us : List Value) (failure : Option Value) (j : Journal),
      Consumed g (of g iterable) (ValueRound g) m us failure m' ∧ vs = failure.elim us (fun _ => []) ∧
      echoing g iterable m = some ((loopOutcome (vs, m')).1, (loopOutcome (vs, m')).2.recording j) ∧
      j.bodyRuns.map BodyRun.value = us := by
  obtain ⟨us, failure, hconsumed, hvs⟩ := toList_eq_some h
  have hloop : forOf g iterable echo m = some (loopOutcome (vs, m')) := by
    rw [forOf_echo, h, Option.map_some]
  obtain ⟨j, hj⟩ := (records_forOf_echo g iterable).exists_journal hloop []
  obtain ⟨runs, hfor, hruns⟩ := forOf_recorded hj
  obtain rfl : j.bodyRuns = runs := hruns
  obtain ⟨failure', m₁, hconsumed'⟩ := consumed_of_forOf hfor
  exact ⟨us, failure, j, hconsumed, hvs, hj, (hconsumed'.unique hconsumed).1⟩

theorem loop_matches_list (g : Guest H) (iterable : Value) (m : Machine H) : LoopMatchesList g iterable m where
  answers := by
    have hecho : forOf g iterable echo m = none ↔ echoing g iterable m = none :=
      (records_forOf_echo g iterable).eq_none_iff rfl
    rw [← hecho, forOf_echo, Option.map_eq_none_iff]
  returned := by
    intro vs m' h hp
    obtain ⟨us, failure, j, hconsumed, hvs, hj, hvalues⟩ := echoing_of_toList h
    obtain rfl : failure = none := hconsumed.pending.symm.trans hp
    obtain rfl : vs = us := hvs
    rw [loopOutcome_of_none hp] at hj
    exact ⟨j, hj, hvalues⟩
  failed := by
    intro vs m' e h hp
    obtain ⟨us, failure, j, hconsumed, hvs, hj, hvalues⟩ := echoing_of_toList h
    obtain rfl : failure = some e := hconsumed.pending.symm.trans hp
    rw [loopOutcome_of_pending hp] at hj
    exact ⟨hvs, us, j, hconsumed, hj, hvalues⟩

/-- Over one value, the loop answers it and the list holds it. With guest code that answers no iterator, the loop throws
the error that the list leaves pending. -/
theorem loop_matches_list_countingGuest :
    (∃ (m' : Machine Nat) (j : Journal),
      toList countingGuest (.object ⟨0⟩) none iterableMachine = some ([.string "a"], m') ∧
      echoing countingGuest (.object ⟨0⟩) iterableMachine = some (.normal (.string "a"), m'.recording j) ∧
      j.bodyRuns.map BodyRun.value = [.string "a"]) ∧
    ∃ (m m' : Machine Unit) (us : List Value) (j : Journal),
      toList idleGuest (.object ⟨0⟩) none m = some ([], m') ∧ m'.pending = some (.object ⟨5⟩) ∧
      Consumed idleGuest (of idleGuest (.object ⟨0⟩)) (ValueRound idleGuest) m us (some (.object ⟨5⟩)) m' ∧
      echoing idleGuest (.object ⟨0⟩) m = some (.throws (.object ⟨5⟩), m'.settled.recording j) ∧
      j.bodyRuns.map BodyRun.value = us := by
  constructor
  · have hcheck : (toList countingGuest (.object ⟨0⟩) none iterableMachine).map (fun p => (p.1, p.2.pending)) =
        some ([.string "a"], none) := by decide +kernel
    obtain ⟨⟨_, m'⟩, hlist, heq⟩ := Option.map_eq_some_iff.mp hcheck
    obtain ⟨rfl, hp⟩ := Prod.mk.inj heq
    obtain ⟨j, hloop, hvalues⟩ := (loop_matches_list countingGuest (.object ⟨0⟩) iterableMachine).returned hlist hp
    exact ⟨m', j, hlist, hloop, hvalues⟩
  · let m : Machine Unit := { realm := iterableMachine.realm, host := () }
    have hcheck : (toList idleGuest (.object ⟨0⟩) none m).map (fun p => (p.1, p.2.pending)) =
        some ([], some (.object ⟨5⟩)) := by decide +kernel
    obtain ⟨⟨_, m'⟩, hlist, heq⟩ := Option.map_eq_some_iff.mp hcheck
    obtain ⟨rfl, hp⟩ := Prod.mk.inj heq
    obtain ⟨-, us, j, hconsumed, hloop, hvalues⟩ := (loop_matches_list idleGuest (.object ⟨0⟩) m).failed hlist hp
    exact ⟨m, m', us, j, hlist, hp, hconsumed, hloop, hvalues⟩

end IterationEngine.Iterator
