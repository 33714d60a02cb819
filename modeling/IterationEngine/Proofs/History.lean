import IterationEngine.Program.Basic
import IterationEngine.Proofs.Journal

/-!
# Histories

Whole runs of guest code, with a journal of every call and every command at every depth.

The interpreter is given here once more, for an embedder that keeps a journal beside its state
(`Program.runNoted`, `Program.guestNoted`). `Upheld` says what a relation between a machine and the same machine
with a journal has to survive; then it survives every program (`Upheld.runWithin`), by induction on the nesting
of calls and, for each piece of code, on the tree of its commands. `History` is what can have come of running
programs one after another.
-/

namespace IterationEngine

variable {H α : Type}

/-- The machine with one more event in its journal. -/
def Machine.noting (n : Machine (H × Journal)) (ev : Event) : Machine (H × Journal) :=
  n.unrecorded.recording (n.journal ++ [ev])

namespace Run

/-- The run with a journal beside it, to which it adds nothing. -/
def beside (x : Run H α) : Run (H × Journal) α := fun n =>
  (x n.unrecorded).map fun p => (p.1, p.2.recording n.journal)

/-- The run, and then a note of it. -/
def noted (event : Realm → α → Realm → Event) (x : Run (H × Journal) α) : Run (H × Journal) α := fun n =>
  (x n).map fun p => (p.1, p.2.noting (event n.realm p.1 p.2.realm))

/-- A relation that holds after the note as well survives the run with its note; `R` is what is known before it. -/
theorem rel_noted {R R' : Machine H → Machine (H × Journal) → Prop} {event : Realm → α → Realm → Event}
    {x : Option (α × Machine H)} {y : Run (H × Journal) α} {n : Machine (H × Journal)}
    (hxy : Option.Rel (fun p q => p.1 = q.1 ∧ R p.2 q.2) x (y n))
    (hnote : ∀ {a m' n'}, x = some (a, m') → y n = some (a, n') → R m' n' →
      R' m' (n'.noting (event n.realm a n'.realm))) :
    Option.Rel (fun p q => p.1 = q.1 ∧ R' p.2 q.2) x (noted event y n) := by
  unfold noted
  generalize hy : y n = q at hxy
  cases hxy with
  | none => exact .none
  | @some p q hpq =>
    obtain ⟨a, m'⟩ := p
    obtain ⟨b, n'⟩ := q
    obtain ⟨rfl, hR⟩ := hpq
    exact .some ⟨rfl, hnote rfl hy hR⟩

theorem Sim.noted {R : Machine H → Machine (H × Journal) → Prop} {x : Run H α} {y : Run (H × Journal) α}
    {event : Realm → α → Realm → Event} (hxy : Sim R x y)
    (hnote : ∀ {m n a m' n'}, R m n → x m = some (a, m') → y n = some (a, n') → R m' n' →
      R m' (n'.noting (event n.realm a n'.realm))) :
    Sim R x (Run.noted event y) :=
  fun m n hmn => rel_noted (hxy m n hmn) (hnote hmn)

end Run

theorem Run.Sim.requireLive {K : Type} {R : Machine H → Machine K → Prop}
    (hR : ∀ {m n}, R m n → n.realm = m.realm) (vs : List Value) :
    Run.Sim R (Run.requireLive vs) (Run.requireLive vs) := by
  intro m n hmn
  unfold Run.requireLive
  rw [hR hmn]
  split
  · exact .some ⟨rfl, hmn⟩
  · exact .none

/-! ## The interpreter with a journal -/

/-- The event of a call. -/
def Event.ofCall (function : ObjectId) (receiver : Value) (args : List Value) (before : Realm) (result : Value)
    (after : Realm) : Event :=
  .called { function, receiver, args, before, result, after }

/-- The event of a command. -/
def Event.ofCommand (command : Command) (_ : Realm) (reply : command.Reply) (after : Realm) : Event :=
  .performed command reply after.heap

namespace Program

variable {S : Type}

/-- Runs a program and notes the commands that it performs. -/
def runNoted (g : Guest (Embedder S × Journal)) : Program S → Run (Embedder S × Journal) Completion
  | finish completion => do
    Run.requireLive [completion.value]
    return completion
  | perform command next => do
    let reply ← (command.run g).noted (.ofCommand command)
    runNoted g (next reply)
  | define name arity body next => do
    let function ← (defineFunction name arity body).beside
    runNoted g (next function)
  | forOf iterable body next => do
    Run.requireLive [iterable]
    let completion ← Iterator.forOf g iterable fun v => runNoted g (body v)
    runNoted g (next completion)
  | update change next => do
    let state ← (updateState change).beside
    runNoted g (next state)

/-- Runs a piece of guest code and notes the commands that it performs. -/
def runGuestNoted (g : Guest (Embedder S × Journal)) : GuestCode (Embedder S × Journal) := fun code args n =>
  match n.host.1.code[code.index]? with
  | some body => (do let completion ← runNoted g (body args); return completion.value) n
  | none => none

/-- How function objects are called, with a note of every call. -/
def guestNoted (rounds : Nat) : (nesting : Nat) → Guest (Embedder S × Journal)
  | 0 => { call := fun _ _ _ => Run.diverge, rounds }
  | nesting + 1 =>
    { call := fun function receiver args =>
        (callFunction (runGuestNoted (guestNoted rounds nesting)) function receiver args).noted
          (.ofCall function receiver args)
      rounds }

/-- Runs a program within bounds, with a journal. -/
def runWithinNoted (bounds : Bounds) (p : Program S) : Run (Embedder S × Journal) Completion :=
  runNoted (guestNoted bounds.rounds bounds.nesting) p

end Program

/-! ## Relations that survive every program -/

open Program

/-- What a family of relations between a machine and the same machine with a journal has to survive. Calls come
last: there the relations are known to survive the guest code that is called. -/
structure Upheld {S ι : Type} (R : ι → Machine (Embedder S) → Machine (Embedder S × Journal) → Prop) :
    Prop where
  records : ∀ {i m n}, R i m n → Records m n
  quiet : ∀ {i m n r}, R i m n → m.realm.Quiet r → R i (m.withRealm r) (n.withRealm r)
  command : ∀ {g g'}, (∀ i, Mirror (R i) g g') → ∀ i (c : Command),
    Run.Sim (R i) (c.run g) ((c.run g').noted (.ofCommand c))
  define : ∀ i name arity body,
    Run.Sim (R i) (defineFunction name arity body) (defineFunction name arity body).beside
  update : ∀ i change, Run.Sim (R i) (updateState change) (updateState change).beside
  call : ∀ {guest : GuestCode (Embedder S)} {guest' : GuestCode (Embedder S × Journal)},
    (∀ i code args, Run.Sim (R i) (guest code args) (guest' code args)) → ∀ i f v args,
    Run.Sim (R i) (callFunction guest f v args) ((callFunction guest' f v args).noted (.ofCall f v args))

namespace Upheld

variable {S ι : Type} {R : ι → Machine (Embedder S) → Machine (Embedder S × Journal) → Prop}

theorem realm (U : Upheld R) {i : ι} {m : Machine (Embedder S)} {n : Machine (Embedder S × Journal)}
    (h : R i m n) : n.realm = m.realm :=
  congrArg Machine.realm (U.records h)

/-- A program, given that calls of function objects are known. -/
theorem run (U : Upheld R) {g : Guest (Embedder S)} {g' : Guest (Embedder S × Journal)}
    (M : ∀ i, Mirror (R i) g g') (i : ι) (p : Program S) : Run.Sim (R i) (p.run g) (p.runNoted g') := by
  induction p with
  | finish c => exact (Run.Sim.requireLive U.realm _).bind fun _ => .pure c
  | perform command next ih => exact (U.command M i command).bind ih
  | define name arity body next _ ih => exact (U.define i name arity body).bind ih
  | forOf iterable body next ihBody ih =>
    exact (Run.Sim.requireLive U.realm _).bind fun _ => ((M i).forOf ihBody iterable).bind ih
  | update change next ih => exact (U.update i change).bind ih

theorem runGuest (U : Upheld R) {g : Guest (Embedder S)} {g' : Guest (Embedder S × Journal)}
    (M : ∀ i, Mirror (R i) g g') (i : ι) (code : CodeId) (args : List Value) :
    Run.Sim (R i) (Program.runGuest g code args) (runGuestNoted g' code args) := by
  intro m n hmn
  obtain ⟨j, rfl⟩ := (U.records hmn).exists_eq_recording
  unfold Program.runGuest runGuestNoted
  show Option.Rel _ _ (match m.host.code[code.index]? with
    | some body => (do let completion ← runNoted g' (body args); return completion.value) (m.recording j)
    | none => none)
  cases m.host.code[code.index]? with
  | none => exact .none
  | some body => exact ((U.run M i (body args)).bind fun c => .pure c.value) m _ hmn

/-- Calls at every depth, by induction on how deeply they may be nested. -/
theorem guest (U : Upheld R) (rounds nesting : Nat) (i : ι) :
    Mirror (R i) (Program.guest rounds nesting) (guestNoted rounds nesting) := by
  induction nesting generalizing i with
  | zero => exact ⟨U.realm, U.quiet, fun _ _ _ => .diverge, rfl⟩
  | succ nesting ih => exact ⟨U.realm, U.quiet, U.call (U.runGuest ih) i, rfl⟩

theorem runWithin (U : Upheld R) (bounds : Bounds) (p : Program S) (i : ι) :
    Run.Sim (R i) (p.runWithin bounds) (p.runWithinNoted bounds) :=
  U.run (U.guest bounds.rounds bounds.nesting) i p

end Upheld

/-- The machine has come of running programs one after another on some machine, each to its end, and the journal
says what happened in them. -/
inductive History {S : Type} : Machine (Embedder S) → Journal → Prop
  | start (m : Machine (Embedder S)) : History m []
  | run {m m' : Machine (Embedder S)} {j j' : Journal} {p : Program S} {bounds : Bounds} {c : Completion} :
      History m j → p.runWithinNoted bounds (m.recording j) = some (c, m'.recording j') → History m' j'

/-- A machine without any object. -/
def embeddingMachine : Machine (Embedder Unit) where
  realm :=
    { heap := .empty, context := { maxDepth := 10, strict := true, symbols := ⟨⟨1, ""⟩, ⟨2, ""⟩⟩ }, registry := {} }
  host := { state := () }

end IterationEngine
