import IterationEngine.Script.Operate

/-!
# Running scripts

Running scripts.

A step within a function or a loop body is a program, and so is a step at the top level except for those that
begin or end an engine life. The report of a script is the list of its entries with the objects labelled.
-/

namespace IterationEngine.Script

/-- Where steps were left early, and with what. -/
structure Leaving where
  value : Option Expr
  completion : Option CompletionExpr

/-- The body for the run of the given number: one for each run, the last for all further runs. -/
def bodyFor (bodies : List (Arguments → Play (Option Leaving))) (run : Nat) :
    Arguments → Play (Option Leaving) :=
  (bodies[min run (bodies.length - 1)]?).getD fun _ => return none

/-- Keeps an answer and reports it. -/
def conclude (name : String) (register : Option String) (answer : Answer) : Play Unit := do
  Play.change (answer.keep register)
  Play.report (answer.fields name)

/-- Reports the start of a scripted function's run. -/
def reportCall (run : Nat) (args : Arguments) : Play Unit := do
  let context ← Play.context
  Play.report fun heap =>
    let name := match context.frame.active.bind heap.get? with
      | some { kind := .function name _ _, .. } => name
      | _ => ""
    [("call", .text name), ("n", ofNat run), ("depth", ofNat context.depth),
      ("this", ofValue heap context.frame.receiver), ("args", ofValues heap args)]

/-- What a scripted function does when it is called. -/
def functionBody (counter : Nat) (quiet : Bool) (bodies : List (Arguments → Play (Option Leaving)))
    (args : Arguments) : Play Value := do
  let run ← Play.countRun counter
  Play.change fun s => { s with quiet := s.quiet + quiet.toNat }
  reportCall run args
  let leaving ← bodyFor bodies run args
  let result ← match leaving.bind (·.value) with
    | some e => e.eval args
    | none => pure .undefined
  Play.change fun s => { s with quiet := s.quiet - quiet.toNat }
  return result

/-- What the body of a scripted loop does for a value. -/
def loopBody (counter : Nat) (bodies : List (Arguments → Play (Option Leaving))) (v : Value) :
    Play Completion := do
  let run ← Play.countRun counter
  Play.report fun heap => [("body", ofNat run), ("value", ofValue heap v)]
  let leaving ← bodyFor bodies run [v]
  match leaving.bind (·.completion) with
  | some c => c.eval [v]
  | none => return .normal .undefined

/-- Plays steps up to `times` times, until they are left. -/
def replay (steps : Play (Option Leaving)) : Nat → Play (Option Leaving)
  | 0 => return none
  | times + 1 => do
    match ← steps with
    | some leaving => return some leaving
    | none => replay steps times

mutual

/-- A step as part of a program. -/
def Step.play (args : Arguments) : Step → Play (Option Leaving)
  | .operate name register operation => do
    if !operation.isFree then
      let _ ← Play.context
    let answer ← operation.play args
    conclude name register answer
    return none
  | .function name register functionName arity bodies quiet => do
    let _ ← Play.context
    let id ← match bodies with
      | none => Play.perform (.createFunction functionName arity none)
      | some bodies =>
        let counter ← Play.newCounter
        let bodies := playBodies bodies
        fun k => .define functionName arity
          (fun args => functionBody counter quiet bodies args fun v => .finish (.normal v)) k
    conclude name register (.value (.object id))
    return none
  | .forOf name register iterable bodies => do
    let _ ← Play.context
    let iterable ← iterable.eval args
    let counter ← Play.newCounter
    let bodies := playBodies bodies
    let completion ← fun k => .forOf iterable (fun v => loopBody counter bodies v .finish) k
    conclude name register (.completion completion)
    return none
  | .loop times steps => replay (playAll args steps) times
  | .leave value completion => return some { value, completion }

/-- Steps one after another, until they are left. -/
def playAll (args : Arguments) : List Step → Play (Option Leaving)
  | [] => return none
  | step :: rest => do
    match ← step.play args with
    | some leaving => return some leaving
    | none => playAll args rest

def playBodies : List (List Step) → List (Arguments → Play (Option Leaving))
  | [] => []
  | body :: rest => (fun args => playAll args body) :: playBodies rest

end

/-! ## The top level -/

/-- The bounds within which the steps of a script have to answer. -/
def bounds : Program.Bounds := { nesting := 1000000, rounds := 100000000 }

/-- Runs a play for its effect on the session. -/
def execute (e : Engine Session) (p : Play Unit) : Engine.Outcome × Engine Session :=
  e.run bounds (Play.program do
    p
    return .normal .undefined)

/-- Changes the session from outside. -/
def changeSession (e : Engine Session) (f : Session → Session) : Engine Session :=
  { e with embedder := { e.embedder with state := f e.embedder.state } }

/-- Reports the answer to an operation on the engine. -/
def answerWith (e : Engine Session) (name : String) (answer : Answer) : Engine Session :=
  (execute e (conclude name none answer)).2

/-- The intrinsic objects under the names that reports use. -/
def namedIntrinsics (c : Context) : List (ObjectId × String) :=
  Intrinsic.all.filterMap fun i => (c.intrinsic i).map fun id => (id, "%" ++ i.name ++ "%")

/-- Initializes the engine and reports it. -/
def start (e : Engine Session) (name : String) : Engine Session :=
  let t := e.start
  let engine := match e.isInitialized, t.engine.getContext with
    | false, .ok c => changeSession t.engine (·.started (namedIntrinsics c))
    | _, _ => t.engine
  answerWith engine name (.data (.record [("ok", .boolean t.ok), ("log", .text t.log)]))

/-- Shuts the engine down and reports it. -/
def shutdown (e : Engine Session) (name : String) : Engine Session :=
  let t := e.shutdown
  let engine := if e.isInitialized then changeSession t.engine Session.ended else t.engine
  answerWith engine name (.data (.record [("log", .text t.log)]))

/-- Replaces the configuration and reports it. -/
def updateConfig (e : Engine Session) (name : String) (config : Config) : Engine Session :=
  match e.updateConfig config with
  | .ok engine => answerWith (changeSession engine fun s => { s with config }) name .done
  | .error error => answerWith e name (.refused error)

/-- The name under which a step reports. -/
def Step.name : Step → String
  | .operate name .. | .function name .. | .forOf name .. => name
  | .loop .. | .leave .. => ""

/-- Runs a step that is a program. The flag tells whether the script goes on. -/
def runProgram (e : Engine Session) (step : Step) : Bool × Engine Session :=
  match execute e (do let _ ← step.play []) with
  | (.finished _, e) => (true, e)
  | (.refused error, e) => (true, answerWith e step.name (.refused error))
  | (.unanswered, e) => (false, e)

/-- Runs `f` up to `times` times, as long as the script goes on. -/
def repeatRun (f : Engine Session → Bool × Engine Session) : Nat → Engine Session → Bool × Engine Session
  | 0, e => (true, e)
  | times + 1, e =>
    match f e with
    | (true, e) => repeatRun f times e
    | (false, e) => (false, e)

mutual

/-- Runs a step at the top level. -/
def Step.run : Step → Engine Session → Bool × Engine Session
  | .operate name _ .start, e => (true, start e name)
  | .operate name _ .shutdown, e => (true, shutdown e name)
  | .operate name _ .isInitialized, e => (true, answerWith e name (.ofBool e.isInitialized))
  | .operate name _ (.updateConfig config), e => (true, updateConfig e name config)
  | .operate name _ .memoryStatistics, e => (true, answerWith e name (.data (.text e.memoryStatistics)))
  | .operate name _ .heapStatistics, e => (true, answerWith e name (.data (statistics e.heap)))
  | .loop times steps, e => repeatRun (runAll steps) times e
  | .leave .., e => (false, e)
  | step, e => runProgram e step

/-- Runs steps one after another, as long as the script goes on. -/
def runAll : List Step → Engine Session → Bool × Engine Session
  | [], e => (true, e)
  | step :: rest, e =>
    match step.run e with
    | (true, e) => runAll rest e
    | (false, e) => (false, e)

end

/-- Labels the objects in a trace, entry by entry. -/
def labelEvents : List Event → Labels → List (Datum Label)
  | [], _ => []
  | .life named :: rest, _ => labelEvents rest (.ofNamed named)
  | .entry fields :: rest, labels =>
    let (fields, labels) := labelledFields fields labels
    .record fields :: labelEvents rest labels

/-- The entries that a script reports. -/
def report (s : Script) : List (Datum Label) :=
  let fresh : Engine Session :=
    { config := s.config, registry := processRegistry, embedder := { state := { config := s.config } } }
  let begun := if s.started then start fresh "init" else fresh
  let (_, e) := runAll s.steps begun
  labelEvents e.embedder.state.events.toList {}

end IterationEngine.Script
