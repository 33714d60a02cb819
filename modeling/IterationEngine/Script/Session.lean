import IterationEngine.Script.Datum
import IterationEngine.Script.Syntax

/-!
# Sessions and plays

The state of a running script, and the monad in which its steps are written as programs.

The state holds two sets of registers and the events of the trace. A play is a program that is still to be
continued, so that plays compose to programs.
-/

namespace IterationEngine.Script

/-- What a trace is made of. -/
inductive Event where
  /-- One entry of the report. -/
  | entry (fields : List (String × Datum ObjectId))
  /-- An engine life begins, with these objects known by name, or ends, with none. -/
  | life (named : List (ObjectId × String))
  deriving Repr

structure Session where
  config : Config
  /-- Whether the engine is initialized. -/
  live : Bool := false
  registers : Table Value := .empty
  completions : Table Completion := .empty
  /-- How often each list of bodies has been run. -/
  runs : Array Nat := #[]
  /-- The number of quiet functions that are running. -/
  quiet : Nat := 0
  events : Array Event := #[]
  deriving Repr

/-! ## Symbols of the process -/

/-- The descriptions of the symbols in the pool. -/
def poolDescriptions : List String := ["a", "a", "", "Symbol.iterator", "x y", "π😀"]

/-- Creates symbols with the given descriptions. -/
def createAll : List String → Symbol.Registry → List Symbol × Symbol.Registry
  | [], r => ([], r)
  | d :: rest, r =>
    let (s, r) := r.create d
    let (more, r) := createAll rest r
    (s :: more, r)

/-- The symbols of the process before a script runs: the well-known ones, then the pool. -/
def processSymbols : List Symbol × Symbol.Registry :=
  createAll poolDescriptions (Symbol.Registry.wellKnowns {}).2

def pool : List Symbol := processSymbols.1

def processRegistry : Symbol.Registry := processSymbols.2

/-! ## Plays -/

/-- A program that goes on with a value of type `α`. -/
def Play (α : Type) := (α → Program Session) → Program Session

instance : Monad Play where
  pure a := fun k => k a
  bind x f := fun k => x fun a => f a k

namespace Play

def perform (c : Command) : Play c.Reply := fun k => .perform c k

def session : Play Session := fun k => .update id k

def change (f : Session → Session) : Play Unit := fun k => .update f fun _ => k ()

/-- The program that ends when the play does. -/
def program (p : Play Completion) : Program Session := p .finish

/-- The heap, which is empty without an initialized engine. -/
def heap : Play Heap := do
  if (← session).live then perform .getHeap else return .empty

/-- Fails without an initialized engine. -/
def context : Play Context := perform .getContext

end Play

/-! ## Evaluation -/

/-- The arguments of the running body. -/
abbrev Arguments := List Value

def Expr.eval (args : Arguments) : Expr → Play Value
  | .constant v => return v
  | .pooled i => return (pool[i]?).elim .undefined .symbol
  | .wellKnown name => return (processRegistry.wellKnown? name).1.elim .undefined .symbol
  | .register name => return ((← Play.session).registers.find? name).getD .undefined
  | .builtin name => return .ofHandle ((← Play.context).builtin name)
  | .global => return .ofHandle (← Play.context).global
  | .receiver => return (← Play.context).frame.receiver
  | .active => return .ofHandle (← Play.context).frame.active
  | .argument i => return (args[i]?).getD .undefined
  | .argumentCount => return .number (.ofNat args.length)

def CompletionExpr.eval (args : Arguments) : CompletionExpr → Play Completion
  | .register name => return ((← Play.session).completions.find? name).getD (.normal .undefined)
  | .normal none => return .normal .undefined
  | .normal (some e) => return .normal (← e.eval args)
  | .returns e => return .returns (← e.eval args)
  | .breaks label => return .breaks label
  | .continues label => return .continues label
  | .throws e => return .throws (← e.eval args)

/-! ## The trace -/

namespace Session

def keep (s : Session) (register : Option String) (v : Value) : Session :=
  match register with
  | some name => { s with registers := s.registers.insert name v }
  | none => s

def keepCompletion (s : Session) (register : Option String) (c : Completion) : Session :=
  match register with
  | some name => { s with completions := s.completions.insert name c }
  | none => s

def record (s : Session) (event : Event) : Session :=
  { s with events := s.events.push event }

/-- Counts one more run of a list of bodies. -/
def countRun (s : Session) (index : Nat) : Session :=
  { s with runs := s.runs.modify index (· + 1) }

/-- The engine is initialized anew. -/
def started (s : Session) (named : List (ObjectId × String)) : Session :=
  { s with live := true }.record (.life named)

/-- The engine is shut down: objects and all that may refer to them are gone. -/
def ended (s : Session) : Session :=
  { s with live := false, registers := .empty, completions := .empty }.record (.life [])

end Session

namespace Play

/-- Reports an entry, unless a quiet function is running. A pending exception is reported with it. -/
def report (fields : Heap → List (String × Datum ObjectId)) : Play Unit := do
  let s ← session
  if s.quiet = 0 then
    let h ← heap
    let pending ← if s.live then (do return (← context).pending) else pure none
    let exception := pending.elim [] fun v => [("exc", ofValue h v)]
    change (·.record (.entry (fields h ++ exception)))

/-- A fresh counter for the runs of a list of bodies. -/
def newCounter : Play Nat := do
  let index := (← session).runs.size
  change fun s => { s with runs := s.runs.push 0 }
  return index

/-- Counts a run and answers how many came before it. -/
def countRun (counter : Nat) : Play Nat := do
  let n := ((← session).runs[counter]?).getD 0
  change (·.countRun counter)
  return n

end Play

end IterationEngine.Script
