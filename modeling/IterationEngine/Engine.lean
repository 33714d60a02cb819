import IterationEngine.Program.Basic

/-!
# Engines

Engines and their life cycle.

An engine keeps a flag that says whether it is initialized, and apart from it a context and a heap; the requests that
start it and shut it down write all three. Its configuration is fixed by the flag, and commands need flag and context
both. A start that fails half-way drops what it has made. Shutting an engine down drops context and objects and keeps
the statistics of the heap and the symbols of the process. Symbols belong to the process and not to an engine life, so
they can be created at any time.
-/

namespace IterationEngine

structure Config where
  strict : Bool := false
  /-- The number of calls that may be nested; it has to be positive. -/
  maxDepth : Int := 500
  /-- Whether the engine logs its life cycle. -/
  verbose : Bool := false
  deriving DecidableEq, Repr

/-- Why an engine refuses a request. -/
inductive EngineError where
  | notInitialized
  | alreadyInitialized
  deriving DecidableEq, Repr

def EngineError.message : EngineError → String
  | .notInitialized => "Engine used before initialize()"
  | .alreadyInitialized => "Engine configuration cannot change after initialize()"

structure Engine (S : Type) where
  config : Config := {}
  heap : Heap := .empty
  context : Option Context := none
  /-- Set at the end of a start that succeeds, and reset by a shutdown. -/
  isInitialized : Bool := false
  /-- The symbols of the process. -/
  registry : Symbol.Registry := {}
  embedder : Embedder S

namespace Engine

variable {S : Type}

/-- The context, if the engine says that it is initialized and has one. -/
def getContext (e : Engine S) : Except EngineError Context :=
  match e.isInitialized, e.context with
  | true, some c => .ok c
  | _, _ => .error .notInitialized

/-- Replaces the whole configuration. -/
def updateConfig (e : Engine S) (config : Config) : Except EngineError (Engine S) :=
  if e.isInitialized then .error .alreadyInitialized else .ok { e with config }

/-- The statistics of the heap as a line of text. -/
def memoryStatistics (e : Engine S) : String := "Heap: " ++ e.heap.statistics

/-- A line of the log. -/
def logLine (text : String) : String := "[strand] " ++ text ++ "\n"

/-- The realm of a fresh engine life, before anything is installed. -/
def freshRealm (e : Engine S) : Realm :=
  let (symbols, registry) := e.registry.wellKnowns
  { heap := e.heap
    context := { maxDepth := e.config.maxDepth, strict := e.config.strict, symbols }
    registry }

/-- The answer to a request that changes the life cycle. -/
structure Transition (S : Type) where
  /-- Whether the engine is in the state that was asked for. -/
  ok : Bool
  /-- What the engine wrote to its log. -/
  log : String
  engine : Engine S

/-- Makes a context and installs the intrinsic objects, unless the configuration does not allow it. The flag is set
last. -/
def install (e : Engine S) : Except String (Engine S) :=
  if e.config.maxDepth ≤ 0 then
    .error ("max_execution_depth must be positive, got " ++ e.config.maxDepth.repr)
  else
    let realm := (Intrinsics.install e.freshRealm).2
    .ok { e with
      heap := realm.heap, context := some realm.context, isInitialized := true, registry := realm.registry }

/-- Initializes the engine, unless that is done already. Whatever a failure has left of context and objects is
dropped. -/
def start (e : Engine S) : Transition S :=
  if e.isInitialized then { ok := true, log := "", engine := e }
  else
    match e.install with
    | .ok engine =>
      { ok := true
        log := if e.config.verbose then logLine ("engine initialized (" ++ engine.heap.statistics ++ ")") else ""
        engine }
    | .error reason =>
      { ok := false
        log := logLine ("Engine initialization failed: " ++ reason)
        engine := { e with heap := e.heap.release, context := none } }

/-- Drops the context and all objects. -/
def shutdown (e : Engine S) : Transition S :=
  if e.isInitialized then
    { ok := true
      log := if e.config.verbose then logLine ("engine shutdown (" ++ e.heap.statistics ++ ")") else ""
      engine := { e with heap := e.heap.release, context := none, isInitialized := false } }
  else { ok := true, log := "", engine := e }

/-- How a program on an engine ends. -/
inductive Outcome where
  | finished (completion : Completion)
  /-- It performed a command that needs an initialized engine, and there was none. -/
  | refused (error : EngineError)
  /-- It did not answer within its bounds. -/
  | unanswered
  deriving DecidableEq, Repr

/-- Runs a program on the symbols of the process alone, up to the first command that needs a context. -/
def runIdle : Program S → Symbol.Registry → S → Option Completion × Symbol.Registry × S
  | .finish completion, registry, state => (some completion, registry, state)
  | .update change next, registry, state => runIdle (next (change state)) registry (change state)
  | .perform (.createSymbol description) next, registry, state =>
    let (symbol, registry) := registry.create description
    runIdle (next symbol) registry state
  | .perform .., registry, state | .define .., registry, state | .forOf .., registry, state =>
    (none, registry, state)

/-- Runs a program. Where the context is refused it can compute and create symbols, but any other command is refused for
the same reason. -/
def run (bounds : Program.Bounds) (e : Engine S) (p : Program S) : Outcome × Engine S :=
  match e.getContext with
  | .error error =>
    let (completion, registry, state) := runIdle p e.registry e.embedder.state
    let outcome := completion.elim (.refused error) .finished
    (outcome, { e with registry, embedder := { e.embedder with state } })
  | .ok context =>
    let machine : Machine (Embedder S) :=
      { realm := { heap := e.heap, context, registry := e.registry }, host := e.embedder }
    match p.runWithin bounds machine with
    | some (completion, m) =>
      (.finished completion,
        { e with
          heap := m.realm.heap, context := some m.realm.context, registry := m.realm.registry
          embedder := m.host })
    | none => (.unanswered, e)

end Engine

end IterationEngine
