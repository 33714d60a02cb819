import IterationEngine.Program.Command
import IterationEngine.Proofs.Simulation

/-!
# Journals

Runs that keep a journal of the guest code they run.

The journal is kept by the embedder, next to its own state, and the engine does not see it. `Guest.recorded` notes
the calls that an operation makes itself, and `recordedBody` the runs of a loop body; what these run in turn is
theirs to note. By `mirror_recorded` a recorded run is the run it records, with a journal beside it.
-/

namespace IterationEngine

variable {H α : Type}

/-- A call of a function object: how it was made, the realm it found, its result and the realm it left. -/
structure CallRecord where
  function : ObjectId
  receiver : Value
  args : List Value
  before : Realm
  result : Value
  after : Realm

inductive Event where
  | called (call : CallRecord)
  /-- A run of a loop body for a value. -/
  | ranBody (value : Value) (before : Realm) (completion : Completion) (after : Realm)
  /-- A command of a program, with the heap it left. -/
  | performed (command : Command) (reply : command.Reply) (heap : Heap)

/-- What has happened, in the order in which it ended. -/
abbrev Journal := List Event

namespace Machine

/-- The machine with a journal beside the state of its embedder. -/
def recording (m : Machine H) (j : Journal) : Machine (H × Journal) := { realm := m.realm, host := (m.host, j) }

/-- The machine without its journal. -/
def unrecorded (n : Machine (H × Journal)) : Machine H := { realm := n.realm, host := n.host.1 }

def journal (n : Machine (H × Journal)) : Journal := n.host.2

@[simp] theorem unrecorded_recording (m : Machine H) (j : Journal) : (m.recording j).unrecorded = m := rfl

@[simp] theorem journal_recording (m : Machine H) (j : Journal) : (m.recording j).journal = j := rfl

@[simp] theorem realm_recording (m : Machine H) (j : Journal) : (m.recording j).realm = m.realm := rfl

end Machine

/-- The run, noting what happened in it. -/
def Run.recorded (event : Realm → α → Realm → Event) (x : Run H α) : Run (H × Journal) α := fun n =>
  (x n.unrecorded).map fun p => (p.1, p.2.recording (n.journal ++ [event n.realm p.1 p.2.realm]))

/-- The guest code, noting every call of it. -/
def Guest.recorded (g : Guest H) : Guest (H × Journal) where
  call := fun f v args =>
    Run.recorded (fun before result after => .called ⟨f, v, args, before, result, after⟩) (g.call f v args)
  rounds := g.rounds

/-- The loop body, noting every run of it. -/
def recordedBody (body : Value → Run H Completion) : Value → Run (H × Journal) Completion := fun v =>
  Run.recorded (fun before completion after => .ranBody v before completion after) (body v)

theorem Run.recorded_eq_some {event : Realm → α → Realm → Event} {x : Run H α} {n n' : Machine (H × Journal)}
    {a : α} (h : Run.recorded event x n = some (a, n')) :
    ∃ m', x n.unrecorded = some (a, m') ∧ n' = m'.recording (n.journal ++ [event n.realm a m'.realm]) := by
  obtain ⟨⟨b, m'⟩, hx, hb⟩ := Option.map_eq_some_iff.mp h
  rw [Prod.mk.injEq] at hb
  obtain ⟨rfl, rfl⟩ := hb
  exact ⟨m', hx, rfl⟩

theorem Guest.recorded_call_eq_some {g : Guest H} {f : ObjectId} {v a : Value} {args : List Value}
    {n n' : Machine (H × Journal)} (h : g.recorded.call f v args n = some (a, n')) :
    ∃ m', g.call f v args n.unrecorded = some (a, m') ∧
      n' = m'.recording (n.journal ++ [.called ⟨f, v, args, n.realm, a, m'.realm⟩]) := by
  change Run.recorded (fun before result after => .called ⟨f, v, args, before, result, after⟩)
    (g.call f v args) n = _ at h
  exact Run.recorded_eq_some h

/-- `n` is the machine `m` with some journal beside it. -/
def Records (m : Machine H) (n : Machine (H × Journal)) : Prop := n.unrecorded = m

theorem Records.exists_eq_recording {m : Machine H} {n : Machine (H × Journal)} (h : Records m n) :
    ∃ j, n = m.recording j := by
  obtain rfl : n.unrecorded = m := h
  exact ⟨n.journal, rfl⟩

theorem sim_recorded (event : Realm → α → Realm → Event) (x : Run H α) :
    Run.Sim Records x (Run.recorded event x) := by
  intro m n hmn
  obtain ⟨j, rfl⟩ := hmn.exists_eq_recording
  unfold Run.recorded
  rw [Machine.unrecorded_recording]
  cases x m with
  | none => exact .none
  | some p => exact .some ⟨rfl, rfl⟩

namespace Records

theorem sim_action (x : Action α) : Run.Sim (Records (H := H)) (liftM x) (liftM x) := by
  intro m n hmn
  obtain ⟨j, rfl⟩ := hmn.exists_eq_recording
  exact .some ⟨rfl, rfl⟩

theorem sim_raise (v : Value) : Run.Sim (Records (H := H)) (liftM (Realm.raise v)) (liftM (Realm.raise v)) :=
  sim_action _

/-- Calls of guest code aside, no operation sees the journal. -/
theorem mirror {g : Guest H} {g' : Guest (H × Journal)}
    (hcall : ∀ f v args, Run.Sim Records (g.call f v args) (g'.call f v args)) (hrounds : g.rounds = g'.rounds) :
    Mirror Records g g' where
  realm := by
    intro m n hmn
    obtain rfl : n.unrecorded = m := hmn
    rfl
  quiet := by
    intro m n r hmn _
    obtain rfl : n.unrecorded = m := hmn
    rfl
  call := hcall
  rounds := hrounds

end Records

/-- Keeping a journal changes nothing else. -/
theorem mirror_recorded (g : Guest H) : Mirror Records g g.recorded :=
  Records.mirror (fun f v args => sim_recorded (fun before result after => .called ⟨f, v, args, before, result, after⟩)
    (g.call f v args)) rfl

/-- A run that answers does so with a journal too. -/
theorem Run.Sim.exists_journal {x : Run H α} {y : Run (H × Journal) α} (hxy : Run.Sim Records x y)
    {m m' : Machine H} {a : α} (h : x m = some (a, m')) (j : Journal) :
    ∃ j', y (m.recording j) = some (a, m'.recording j') := by
  obtain ⟨n', hn, hR⟩ := hxy.exists_right (n := m.recording j) rfl h
  obtain ⟨j', rfl⟩ := hR.exists_eq_recording
  exact ⟨j', hn⟩

/-- What is shown of a run by its journal, at a run that answers, beside what is computed of its recorded run. -/
theorem exists_recorded (x : Option (α × Machine H)) {y : Option (α × Machine (H × Journal))}
    (check : α × Machine (H × Journal) → Bool) {P : α → Machine H → Journal → Prop}
    (hshown : ∀ a m', x = some (a, m') → ∃ j, y = some (a, m'.recording j) ∧ P a m' j) (hanswers : x.isSome = true)
    (hcheck : y.any check = true) :
    ∃ a m' j, x = some (a, m') ∧ y = some (a, m'.recording j) ∧ check (a, m'.recording j) = true ∧ P a m' j := by
  obtain ⟨⟨a, m'⟩, hx⟩ := Option.isSome_iff_exists.mp hanswers
  obtain ⟨j, hy, hP⟩ := hshown a m' hx
  rw [hy] at hcheck
  exact ⟨a, m', j, hx, hy, hcheck, hP⟩

end IterationEngine
