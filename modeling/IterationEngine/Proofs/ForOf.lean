import IterationEngine.Proofs.Close
import IterationEngine.Proofs.Protocol

/-!
# The for-of loop

What a loop over an iterable does, whatever the iterable, the body and other guest code do.

1. `Rounds`, `Ending`, `ForOf`: the rounds of a loop, how the last of them ends it, and the whole run.
2. `loop_recorded`: by induction on the rounds, every run of a loop is of that form.
3. `forOf_outcome`: the loop from any machine, with the values that its body was run on.
-/

namespace IterationEngine

variable {H : Type}

/-- A run of a loop body: the value, and the exception it left pending as a throw or else its completion. -/
structure BodyRun where
  value : Value
  outcome : Completion

/-- The runs of a loop body among the events. -/
def Journal.bodyRuns (j : Journal) : List BodyRun :=
  j.filterMap fun
    | .ranBody v _ c after => some ⟨v, after.context.pending.elim c .throws⟩
    | _ => none

theorem Journal.bodyRuns_append (j j' : Journal) : (j ++ j').bodyRuns = j.bodyRuns ++ j'.bodyRuns :=
  List.filterMap_append

/-- After a run of its body with this outcome a loop goes on with the next value. -/
def Completion.goesOn : Completion → Bool
  | .normal _ => true
  | .continues l => l == ""
  | _ => false

namespace Iterator

/-- The value of the last normal run, `last` being the one before all of them. -/
def lastNormal (last : Value) : List BodyRun → Value
  | [] => last
  | ⟨_, .normal v⟩ :: runs => lastNormal v runs
  | _ :: runs => lastNormal last runs

/-- What a loop makes of the outcome of closing: an unlabelled break ends this loop alone. -/
def leaving (last : Value) : Completion → Completion
  | .breaks "" => .normal last
  | c => c

theorem leaving_eq_throws {last e : Value} {c : Completion} (h : leaving last c = .throws e) :
    c = .throws e := by
  unfold leaving at h
  split at h
  · cases h
  · exact h

variable (g : Guest H) (body : Value → Run H Completion)

/-- Rounds of a loop after which it goes on. Each takes an item and runs the body on its value, once, and what
the body left pending is settled before the next one. -/
inductive Rounds (iterator : ObjectId) : Machine H → List BodyRun → Machine H → Prop
  | none (m : Machine H) : Rounds iterator m [] m
  | more {v : Value} {c : Completion} {runs : List BodyRun} {m m₁ m₂ m' : Machine H} :
      Taken g iterator m (.value v) m₁ → body v m₁ = some (c, m₂) → (m₂.effective c).goesOn = true →
      Rounds iterator m₂.settled runs m' → Rounds iterator m (⟨v, m₂.effective c⟩ :: runs) m'

/-- How a loop ends after its last complete round, with the runs of the body from there on. Only a body that
leaves the loop makes it close the iterator. -/
inductive Ending (iterator : ObjectId) (last : Value) (m : Machine H) :
    List BodyRun → Completion → Machine H → Prop
  | exhausted {m' : Machine H} :
      Taken g iterator m .exhausted m' → Ending iterator last m [] (.normal last) m'
  | failed {e : Value} {m' : Machine H} :
      Taken g iterator m .failed m' → m'.pending = some e →
      Ending iterator last m [] (.throws e) m'.settled
  | left {v : Value} {c closed : Completion} {m₁ m₂ m' : Machine H} :
      Taken g iterator m (.value v) m₁ → body v m₁ = some (c, m₂) → (m₂.effective c).goesOn = false →
      close g (some iterator) (m₂.effective c) m₂.settled = some (closed, m') →
      Ending iterator last m [⟨v, m₂.effective c⟩] (leaving last closed) m'

/-- A whole loop: an iterator is got from the iterable, once, and then come the rounds and the ending. -/
inductive ForOf (iterable : Value) (m : Machine H) : List BodyRun → Completion → Machine H → Prop
  | noIterator {e : Value} {m' : Machine H} :
      of g iterable m = some (none, m') → m'.pending = some e → ForOf iterable m [] (.throws e) m'.settled
  | looped {iterator : ObjectId} {runs final : List BodyRun} {r : Completion} {m₁ m₂ m' : Machine H} :
      of g iterable m = some (some iterator, m₁) → m₁.pending = none → Rounds g body iterator m₁ runs m₂ →
      Ending g body iterator (lastNormal .undefined runs) m₂ final r m' →
      ForOf iterable m (runs ++ final) r m'

variable {g body}

theorem Taken.pending {iterator : ObjectId} {x : Item} {m m' : Machine H} (h : Taken g iterator m x m')
    (hx : x ≠ .failed) : m'.pending = none := by
  cases hp : m'.pending with
  | none => rfl
  | some e => exact absurd (h.failed_iff.mpr (by rw [hp]; rfl)) hx

theorem Ending.pending {iterator : ObjectId} {last : Value} {runs : List BodyRun} {r : Completion}
    {m m' : Machine H} (h : Ending g body iterator last m runs r m') : m'.pending = none := by
  cases h with
  | exhausted ht => exact ht.pending nofun
  | failed => rfl
  | left _ _ _ hc => exact pending_of_close hc

theorem ForOf.pending {iterable : Value} {runs : List BodyRun} {r : Completion} {m m' : Machine H}
    (h : ForOf g body iterable m runs r m') : m'.pending = none := by
  cases h with
  | noIterator => rfl
  | looped _ _ _ he => exact he.pending

theorem Rounds.goesOn {iterator : ObjectId} {runs : List BodyRun} {m m' : Machine H}
    (h : Rounds g body iterator m runs m') : ∀ run ∈ runs, run.outcome.goesOn = true := by
  induction h with
  | none => nofun
  | more _ _ hg _ ih => exact List.forall_mem_cons.mpr ⟨hg, ih⟩

/-- After every run of the body but the last the loop goes on. -/
theorem ForOf.goesOn {iterable : Value} {runs : List BodyRun} {r : Completion} {m m' : Machine H}
    (h : ForOf g body iterable m runs r m') : ∀ run ∈ runs.dropLast, run.outcome.goesOn = true := by
  cases h with
  | noIterator => nofun
  | looped _ _ hr he =>
    intro run hrun
    refine hr.goesOn run ?_
    cases he with
    | exhausted | failed =>
      rw [List.append_nil] at hrun
      exact List.dropLast_subset _ hrun
    | left =>
      rw [List.dropLast_concat] at hrun
      exact hrun

/-! ## From the code to its rounds -/

/-- `n` is `m` with a journal beside it that has these runs of the body. -/
def RecordsRuns (runs : List BodyRun) (m : Machine H) (n : Machine (H × Journal)) : Prop :=
  Records m n ∧ n.journal.bodyRuns = runs

/-- What the operations of the protocol call is no loop body. -/
theorem mirror_recordsRuns (g : Guest H) (runs : List BodyRun) : Mirror (RecordsRuns runs) g g.recorded where
  realm := fun h => (mirror_recorded g).realm h.1
  quiet := fun h hq => ⟨(mirror_recorded g).quiet h.1 hq, h.2⟩
  call := by
    intro f v args m n h
    obtain ⟨hmn, rfl⟩ := h
    obtain ⟨j, rfl⟩ := hmn.exists_eq_recording
    show Option.Rel _ (g.call f v args m) ((g.call f v args m).map _)
    cases g.call f v args m with
    | none => exact .none
    | some p =>
      refine .some ⟨rfl, rfl, ?_⟩
      rw [Machine.journal_recording, Journal.bodyRuns_append]
      exact List.append_nil _
  rounds := rfl

theorem taken_of_recorded {iterator : ObjectId} {x : Item} {n n' : Machine (H × Journal)}
    (h : item g.recorded iterator n = some (x, n')) :
    Taken g iterator n.unrecorded x n'.unrecorded ∧ n'.journal.bodyRuns = n.journal.bodyRuns := by
  obtain ⟨m', hm, hn, hj⟩ := ((mirror_recordsRuns g _).item iterator).exists_left ⟨rfl, rfl⟩ h
  obtain rfl : n'.unrecorded = m' := hn
  exact ⟨taken_of_item hm, hj⟩

theorem recordedBody_eq_some {v : Value} {c : Completion} {n n' : Machine (H × Journal)}
    (h : recordedBody body v n = some (c, n')) :
    body v n.unrecorded = some (c, n'.unrecorded) ∧
      n'.journal.bodyRuns = n.journal.bodyRuns ++ [⟨v, n'.unrecorded.effective c⟩] := by
  unfold recordedBody at h
  obtain ⟨m', hm, rfl⟩ := Run.recorded_eq_some h
  exact ⟨hm, Journal.bodyRuns_append _ _⟩

theorem lastNormal_cons (last : Value) (run : BodyRun) (runs : List BodyRun) :
    lastNormal last (run :: runs) = lastNormal (lastNormal last [run]) runs := by
  obtain ⟨v, o⟩ := run
  cases o <;> rfl

/-- After a run of the body a loop goes on or is left. -/
theorem loop_afterBody (rounds : Nat) (iterator : ObjectId) (last v : Value) (o : Completion) :
    (match o with
      | .normal w => loop g body rounds iterator w
      | .continues "" => loop g body rounds iterator last
      | c => leaveLoop g iterator last c) =
      if o.goesOn then loop g body rounds iterator (lastNormal last [⟨v, o⟩])
      else leaveLoop g iterator last o := by
  cases o with
  | normal w => rfl
  | continues l =>
    by_cases hl : l = ""
    · subst hl
      rfl
    · have hg : (Completion.continues l).goesOn = false := beq_false_of_ne hl
      rw [hg]
      split
      · next h => cases h
      · next h => exact absurd (Completion.continues.inj h) hl
      · rfl
  | returns | breaks | throws => rfl

theorem pure_leaving (last : Value) (closed : Completion) :
    (pure (leaving last closed) : Run H Completion) =
      match closed with
      | .breaks "" => pure (.normal last)
      | c => pure c := by
  unfold leaving
  split <;> rfl

theorem leaveLoop_eq_some {iterator : ObjectId} {last : Value} {c r : Completion} {m m' : Machine H}
    (h : leaveLoop g iterator last c m = some (r, m')) :
    ∃ closed, close g (some iterator) c m = some (closed, m') ∧ r = leaving last closed := by
  obtain ⟨closed, m₁, hc, h⟩ := Run.bind_eq_some.mp h
  obtain ⟨rfl, rfl⟩ := Run.pure_eq_some ((congrFun (pure_leaving last closed) m₁).trans h)
  exact ⟨closed, hc, rfl⟩

/-- A loop with guest code that keeps a journal: rounds, and an ending. -/
theorem loop_recorded {iterator : ObjectId} {rounds : Nat} {last : Value} {r : Completion}
    {n n' : Machine (H × Journal)}
    (h : loop g.recorded (recordedBody body) rounds iterator last n = some (r, n')) :
    ∃ runs m final, Rounds g body iterator n.unrecorded runs m ∧
      Ending g body iterator (lastNormal last runs) m final r n'.unrecorded ∧
      n'.journal.bodyRuns = n.journal.bodyRuns ++ (runs ++ final) := by
  induction rounds generalizing last n with
  | zero => cases h
  | succ rounds ih =>
    obtain ⟨x, n₁, hitem, h⟩ := Run.bind_eq_some.mp h
    obtain ⟨ht, hj₁⟩ := taken_of_recorded hitem
    cases x with
    | failed =>
      obtain ⟨e, hp⟩ := Option.isSome_iff_exists.mp (ht.failed_iff.mp rfl)
      have htake := Run.takePending_of_pending (m := n₁) hp
      obtain ⟨rfl, rfl⟩ := Prod.mk.inj (Option.some.inj (htake.symm.trans h))
      exact ⟨[], _, [], .none _, .failed ht hp, hj₁.trans (List.append_nil _).symm⟩
    | exhausted =>
      obtain ⟨rfl, rfl⟩ := Run.pure_eq_some h
      exact ⟨[], _, [], .none _, .exhausted ht, hj₁.trans (List.append_nil _).symm⟩
    | value v =>
      obtain ⟨c, n₂, hbody, h⟩ := Run.bind_eq_some.mp h
      obtain ⟨hb, hj₂⟩ := recordedBody_eq_some hbody
      rw [hj₁] at hj₂
      rw [Run.bind_eq_of_eq_some (Run.bodyOutcome_apply c n₂)] at h
      have h := (congrFun (loop_afterBody rounds iterator last v (n₂.effective c)) n₂.settled).symm.trans h
      cases hg : (n₂.effective c).goesOn with
      | true =>
        rw [hg, if_pos rfl] at h
        obtain ⟨runs, m, final, hr, he, hj⟩ := ih h
        refine ⟨⟨v, n₂.effective c⟩ :: runs, m, final, .more ht hb hg hr, ?_, ?_⟩
        · rw [lastNormal_cons]
          exact he
        · calc n'.journal.bodyRuns
              = n₂.journal.bodyRuns ++ (runs ++ final) := hj
            _ = n.journal.bodyRuns ++ [⟨v, n₂.effective c⟩] ++ (runs ++ final) := by rw [hj₂]; rfl
            _ = n.journal.bodyRuns ++ (⟨v, n₂.effective c⟩ :: runs ++ final) := List.append_assoc _ _ _
      | false =>
        rw [hg, if_neg Bool.false_ne_true] at h
        obtain ⟨closed, hclose, rfl⟩ := leaveLoop_eq_some h
        obtain ⟨m', hm, hn, hj⟩ := ((mirror_recordsRuns g _).close _ _).exists_left ⟨rfl, rfl⟩ hclose
        obtain rfl : n'.unrecorded = m' := hn
        refine ⟨[], _, [⟨v, n₂.effective c⟩], .none _, .left ht hb hg hm, ?_⟩
        exact hj.trans hj₂

/-- The same for a whole loop. -/
theorem forOf_recorded {iterable : Value} {r : Completion} {n n' : Machine (H × Journal)}
    (h : forOf g.recorded iterable (recordedBody body) n = some (r, n')) :
    ∃ runs, ForOf g body iterable n.unrecorded runs r n'.unrecorded ∧
      n'.journal.bodyRuns = n.journal.bodyRuns ++ runs := by
  obtain ⟨iterator, n₁, hof, h⟩ := Run.bind_eq_some.mp h
  obtain ⟨m₁, hm, hn, hj⟩ := ((mirror_recordsRuns g _).of iterable).exists_left ⟨rfl, rfl⟩ hof
  obtain rfl : n₁.unrecorded = m₁ := hn
  cases iterator with
  | none =>
    obtain ⟨e, hp⟩ := exists_pending_of_signals (signals_of g iterable) hm
    have htake := Run.takePending_of_pending (m := n₁) hp
    obtain ⟨rfl, rfl⟩ := Prod.mk.inj (Option.some.inj (htake.symm.trans h))
    exact ⟨[], .noIterator hm hp, hj.trans (List.append_nil _).symm⟩
  | some iterator =>
    obtain ⟨runs, m₂, final, hr, he, hruns⟩ := loop_recorded h
    rw [hj] at hruns
    exact ⟨runs ++ final, .looped hm (pending_of_signals (signals_of g iterable) hm) hr he, hruns⟩

theorem exists_forOf {iterable : Value} {r : Completion} {m m' : Machine H}
    (h : forOf g iterable body m = some (r, m')) : ∃ runs, ForOf g body iterable m runs r m' := by
  obtain ⟨j, hj⟩ := ((mirror_recorded g).forOf (fun v => sim_recorded _ (body v)) iterable).exists_journal h []
  obtain ⟨runs, hfor, -⟩ := forOf_recorded hj
  exact ⟨runs, hfor⟩

/-- A loop over an iterable, from any machine, whatever guest code and the body do. Nothing is left pending. The
rounds of the loop, its ending and so its result are those that `ForOf` describes. The body is run for them and
for nothing else, in that order, and never again after a run that leaves the loop. -/
theorem forOf_outcome {iterable : Value} {r : Completion} {m m' : Machine H}
    (h : forOf g iterable body m = some (r, m')) :
    m'.pending = none ∧
    ∃ j : Journal, ForOf g body iterable m j.bodyRuns r m' ∧
      (∀ run ∈ j.bodyRuns.dropLast, run.outcome.goesOn = true) ∧
      forOf g.recorded iterable (recordedBody body) (m.recording []) = some (r, m'.recording j) := by
  obtain ⟨j, hj⟩ := ((mirror_recorded g).forOf (fun v => sim_recorded _ (body v)) iterable).exists_journal h []
  obtain ⟨runs, hfor, hruns⟩ := forOf_recorded hj
  obtain rfl : j.bodyRuns = runs := hruns
  exact ⟨hfor.pending, j, hfor, hfor.goesOn, hj⟩

end Iterator

/-! ## A loop of one round -/

/-- Guest code that counts the results it has handed out: function 1 answers its receiver, and function 2 the
result 3 and from then on the result 4. -/
def countingGuest : Guest Nat where
  call := fun f v _ m =>
    if f = ⟨1⟩ then some (v, m)
    else if m.host = 0 then some (.object ⟨3⟩, { m with host := 1 })
    else some (.object ⟨4⟩, m)
  rounds := 8

/-- Object 0 is an iterable and its own iterator, over the one value of the result 3. -/
def iterableHeap : Heap where
  objects := #[
    { kind := .plain .ordinary
      properties := PropertyTable.withValue
        (PropertyTable.withValue .empty idleContext.iteratorKey (.object ⟨1⟩) .all) "next" (.object ⟨2⟩) .all },
    .ofCode "iterator" 0 (.guest ⟨0⟩), .ofCode "next" 0 (.guest ⟨1⟩),
    .ofResult none (.string "a") false, .ofResult none .undefined true]
  allocations := 5
  peak := 5

def iterableMachine : Machine Nat where
  realm := { heap := iterableHeap, context := idleContext, registry := {} }
  host := 0

/-- The loop ends with the value of its one round. -/
theorem forOf_outcome_countingGuest :
    ∃ m', Iterator.forOf countingGuest (.object ⟨0⟩) (fun v => pure (.normal v)) iterableMachine =
        some (.normal (.string "a"), m') ∧
      ∃ j : Journal, Iterator.ForOf countingGuest (fun v => pure (.normal v)) (.object ⟨0⟩) iterableMachine
        j.bodyRuns (.normal (.string "a")) m' := by
  have h : (Iterator.forOf countingGuest (.object ⟨0⟩) (fun v => pure (.normal v)) iterableMachine).map
      Prod.fst = some (.normal (.string "a")) := by decide +kernel
  obtain ⟨⟨r, m'⟩, hm, hr⟩ := Option.map_eq_some_iff.mp h
  obtain rfl : r = .normal (.string "a") := hr
  obtain ⟨-, j, hj, -, -⟩ := Iterator.forOf_outcome hm
  exact ⟨m', hm, j, hj⟩

end IterationEngine
