import IterationEngine.Program.Command

/-!
# Programs

Programs: guest code as a tree of the commands it performs.

A program performs one command after another and may choose each by the replies to those before. It may define
functions whose bodies are programs, loop over an iterable with a program as the body, and use the state of its
embedder. Every way to drive an engine is such a tree, so what holds of all programs holds of all guest code.
-/

namespace IterationEngine

inductive Program (S : Type) where
  /-- The end. A call answers with the value of the completion, a loop goes on by the completion. -/
  | finish (completion : Completion)
  | perform (command : Command) (next : command.Reply → Program S)
  /-- Makes a function object whose code is guest code. -/
  | define (name : String) (arity : UInt32) (body : List Value → Program S) (next : ObjectId → Program S)
  | forOf (iterable : Value) (body : Value → Program S) (next : Completion → Program S)
  /-- Changes the state of the embedder and reads it. -/
  | update (change : S → S) (next : S → Program S)

/-- An embedder: its state, and the guest code behind the function objects it has defined. -/
structure Embedder (S : Type) where
  code : Array (List Value → Program S) := #[]
  state : S

namespace Program

variable {S : Type}

/-- Makes a function object for a piece of guest code. -/
def defineFunction (name : String) (arity : UInt32) (body : List Value → Program S) :
    Run (Embedder S) ObjectId := fun m =>
  let function := Object.ofCode name arity (.guest ⟨m.host.code.size⟩)
  let (id, heap) := m.realm.heap.alloc function
  some (id,
    { realm := { m.realm with heap }
      host := { m.host with code := m.host.code.push body } })

/-- Changes the state of the embedder and answers the new state. -/
def updateState (change : S → S) : Run (Embedder S) S := fun m =>
  let state := change m.host.state
  some (state, { m with host := { m.host with state } })

/-- Runs a program, given how function objects are called. -/
def run (g : Guest (Embedder S)) : Program S → Run (Embedder S) Completion
  | finish completion => do
    Run.requireLive [completion.value]
    return completion
  | perform command next => do
    let reply ← command.run g
    run g (next reply)
  | define name arity body next => do
    let function ← defineFunction name arity body
    run g (next function)
  | forOf iterable body next => do
    Run.requireLive [iterable]
    let completion ← Iterator.forOf g iterable fun v => run g (body v)
    run g (next completion)
  | update change next => do
    let state ← updateState change
    run g (next state)

/-- Runs a piece of guest code of the embedder. -/
def runGuest (g : Guest (Embedder S)) : GuestCode (Embedder S) := fun code args m =>
  match m.host.code[code.index]? with
  | some body => (do let completion ← run g (body args); return completion.value) m
  | none => none

/-- The bounds within which a run has to answer: the nesting of calls, and the rounds of a loop. -/
structure Bounds where
  nesting : Nat
  rounds : Nat
  deriving DecidableEq, Repr

/-- How function objects are called when at most `nesting` calls may be nested. -/
def guest (rounds : Nat) : (nesting : Nat) → Guest (Embedder S)
  | 0 => { call := fun _ _ _ => Run.diverge, rounds }
  | nesting + 1 =>
    { call := fun function receiver args =>
        callFunction (runGuest (guest rounds nesting)) function receiver args
      rounds }

/-- Runs a program within bounds. -/
def runWithin (bounds : Bounds) (p : Program S) : Run (Embedder S) Completion :=
  run (guest bounds.rounds bounds.nesting) p

end Program

end IterationEngine
