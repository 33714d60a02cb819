import IterationEngine.Engine

/-!
# Scripts

The syntax of scripts: expressions, and steps that each exercise one operation of an engine.

Scripts name kinds, tags and the like by text, and a step that names an unknown one reports so when it is
reached. Functions and loop bodies are lists of steps, one list for each run and the last for all further runs.
-/

namespace IterationEngine.Script

inductive Expr where
  | constant (v : Value)
  /-- A symbol of the pool that every script has. -/
  | pooled (index : Nat)
  | wellKnown (name : String)
  | register (name : String)
  | builtin (name : String)
  | global
  | receiver
  | active
  | argument (index : Nat)
  | argumentCount
  deriving Repr

inductive CompletionExpr where
  | register (name : String)
  | normal (value : Option Expr)
  | returns (value : Expr)
  | breaks (label : String)
  | continues (label : String)
  | throws (value : Expr)
  deriving Repr

/-- An operation with its operands. -/
inductive Operation where
  -- life cycle
  | start
  | shutdown
  | isInitialized
  | updateConfig (config : Config)
  | getConfig
  | memoryStatistics
  | heapStatistics
  | registerNothing
  | trackNothing
  -- context
  | contextState
  | setStrict (on : Bool)
  | setMaxDepth (limit : Int)
  | setGlobal (object : Option Expr)
  | raise (v : Expr)
  | raiseError (kind message : String)
  | rethrow (c : CompletionExpr)
  | clearPending
  | takePending
  | registerBuiltin (name : String) (object : Option Expr)
  | builtin (name : String)
  | install (part : String)
  -- values
  | evaluate (v : Expr)
  | inspect (v : Expr)
  | compare (a b : Expr)
  | createSymbol (description : String)
  | errorInfo (v : Expr)
  -- construction
  | createObject (prototype : Option Expr) (tag : Option String)
  | createWithSlots (prototype : Option Expr) (slots : List String)
  | createBuiltin (which name : String)
  | createError (kind message : String)
  | createResult (v : Expr) (done : Bool)
  | createListIterator (list : List Expr)
  | createUnbound (list : Option (List Expr)) (prototype : Option Expr)
  | createMap (prototype : Option Expr)
  | createSet (prototype : Option Expr)
  -- objects
  | setProperty (object key v : Expr) (a : Attributes)
  | defineAccessor (object key : Expr) (getter setter : Option Expr) (a : Attributes)
  | setMethod (object key v : Expr)
  | getProperty (object key : Expr) (receiver : Option Expr)
  | getOwn (object key : Expr)
  | has (object key : Expr)
  | find (object key : Expr)
  | keys (object : Expr)
  | properties (v : Expr) (getter setter : Option Expr)
  | setPrototype (object prototype : Expr)
  | setSlot (object : Expr) (slot : String) (v : Expr)
  | getSlot (object : Expr) (slot : String)
  | dump (object : Expr)
  -- access and calls
  | getFrom (object : Option Expr) (key : Expr)
  | getV (v key : Expr)
  | getMethod (v key : Expr)
  | call (callable : Expr) (receiver : Option Expr) (args : List Expr)
  | callFunction (function : Expr) (receiver : Option Expr) (args : List Expr)
  | invoke (v key : Expr) (args : List Expr)
  -- iteration
  | iterator (v : Option Expr) (method : Option Expr)
  | next (iterator : Option Expr) (argument : Option Expr)
  | isDone (result : Expr)
  | value (result : Expr)
  | step (iterator : Option Expr)
  | decideClose (c inner : CompletionExpr)
  | close (iterator : Option Expr) (c : CompletionExpr)
  | bindNext (iterator function : Expr)
  | createMapIterator (source : Expr) (kind : String)
  | createSetIterator (source : Expr) (kind : String)
  | isIterable (v : Expr)
  | toList (v : Expr) (method : Option Expr)
  -- collections
  | mapInsert (map key v : Expr)
  | mapFind (map key : Expr)
  | mapContains (map key : Expr)
  | mapErase (map key : Expr)
  | setInsert (set v : Expr)
  | setContains (set v : Expr)
  | toMap (v : Expr)
  | toSet (v : Expr)
  -- completions
  | completion (c : CompletionExpr)
  | inspectCompletion (c : CompletionExpr)
  | completionEquals (a b : CompletionExpr)
  deriving Repr

/--
A step of a script. Steps that report carry the name they report under. The result of a step may be kept in a
register.
-/
inductive Step where
  | operate (name : String) (register : Option String) (operation : Operation)
  | function (name : String) (register : Option String) (functionName : String) (arity : UInt32)
      (bodies : Option (List (List Step))) (quiet : Bool)
  | forOf (name : String) (register : Option String) (iterable : Expr) (bodies : List (List Step))
  | loop (times : Nat) (steps : List Step)
  /-- Ends the steps it stands in, with a value for a function or a completion for a loop body. -/
  | leave (value : Option Expr) (completion : Option CompletionExpr)

end IterationEngine.Script

namespace IterationEngine

/-- A script: what engine it needs and what it does with it. -/
structure Script where
  config : Config := {}
  /-- Whether the engine is initialized before the first step. -/
  started : Bool := true
  steps : List Script.Step

end IterationEngine
