import IterationEngine.Heap
import IterationEngine.Completion

/-!
# The execution context

The execution context: the running call, the limits on calls, the registry of built-in objects, and the
exception that is pending, if any.

A pending exception is a value of the context and no jump: each operation that can fail leaves one and answers
nothing, and whoever called it looks.
-/

namespace IterationEngine

/-- The objects that every initialized engine holds. -/
inductive Intrinsic where
  | objectPrototype
  | globalObject
  | errorPrototype
  | typeErrorPrototype
  | rangeErrorPrototype
  | referenceErrorPrototype
  | iteratorPrototype
  | mapIteratorPrototype
  | setIteratorPrototype
  | mapPrototype
  | setPrototype
  deriving DecidableEq, Repr

namespace Intrinsic

/-- The name under which an intrinsic object is registered. -/
def name : Intrinsic → String
  | objectPrototype => "ObjectPrototype"
  | globalObject => "GlobalObject"
  | errorPrototype => "ErrorPrototype"
  | typeErrorPrototype => "TypeErrorPrototype"
  | rangeErrorPrototype => "RangeErrorPrototype"
  | referenceErrorPrototype => "ReferenceErrorPrototype"
  | iteratorPrototype => "IteratorPrototype"
  | mapIteratorPrototype => "MapIteratorPrototype"
  | setIteratorPrototype => "SetIteratorPrototype"
  | mapPrototype => "MapPrototype"
  | setPrototype => "SetPrototype"

def all : List Intrinsic :=
  [objectPrototype, globalObject, errorPrototype, typeErrorPrototype, rangeErrorPrototype,
    referenceErrorPrototype, iteratorPrototype, mapIteratorPrototype, setIteratorPrototype, mapPrototype,
    setPrototype]

end Intrinsic

/-- The prototype of raised errors of a kind. -/
def ErrorKind.prototype : ErrorKind → Intrinsic
  | .error => .errorPrototype
  | .typeError => .typeErrorPrototype
  | .rangeError => .rangeErrorPrototype
  | .referenceError => .referenceErrorPrototype

/-- What a running call sees of itself. -/
structure Frame where
  receiver : Value := .undefined
  /-- The function object whose code is running. -/
  active : Handle := none
  deriving DecidableEq, Repr

/-- Whether a context goes on or has stopped at an exception. -/
inductive RunState where
  | running
  | thrown
  deriving DecidableEq, Repr

def RunState.name : RunState → String
  | running => "running"
  | thrown => "thrown"

/-- What a context keeps of exceptions: whether one is pending, which one, and how the context stands. The three
agree. -/
structure ExceptionCell where
  state : RunState
  /-- The exception that is stored. -/
  stored : Value
  isPending : Bool
  thrown_iff : state = .thrown ↔ isPending = true
  stored_of_not_pending : isPending = false → stored = .undefined
  deriving DecidableEq, Repr

namespace ExceptionCell

/-- No exception is pending. -/
def empty : ExceptionCell where
  state := .running
  stored := .undefined
  isPending := false
  thrown_iff := by decide
  stored_of_not_pending _ := rfl

/-- That exception is pending. -/
def holding (v : Value) : ExceptionCell where
  state := .thrown
  stored := v
  isPending := true
  thrown_iff := by decide
  stored_of_not_pending := nofun

/-- The exception that is pending, if one is. -/
def pending (x : ExceptionCell) : Option Value := if x.isPending then some x.stored else none

theorem isSome_pending (x : ExceptionCell) : x.pending.isSome = x.isPending := by
  unfold pending
  cases x.isPending <;> rfl

theorem eq_empty {x : ExceptionCell} (h : x.pending = none) : x = empty := by
  obtain ⟨state, stored, isPending, hthrown, hstored⟩ := x
  cases isPending with
  | true => cases h
  | false =>
    obtain rfl : stored = .undefined := hstored rfl
    cases state with
    | running => rfl
    | thrown => exact absurd (hthrown.mp rfl) Bool.false_ne_true

theorem eq_holding {x : ExceptionCell} {v : Value} (h : x.pending = some v) : x = holding v := by
  obtain ⟨state, stored, isPending, hthrown, hstored⟩ := x
  cases isPending with
  | false => cases h
  | true =>
    obtain rfl : stored = v := Option.some.inj h
    obtain rfl : state = .thrown := hthrown.mpr rfl
    rfl

end ExceptionCell

structure Context where
  frame : Frame := {}
  /-- The number of calls that are running. -/
  depth : Nat := 0
  maxDepth : Int
  strict : Bool
  global : Handle := none
  builtins : Table Handle := .empty
  cell : ExceptionCell := .empty
  symbols : Symbol.WellKnown
  deriving DecidableEq, Repr

namespace Context

/-- Another call may start. -/
def canCall (c : Context) : Bool := decide ((c.depth : Int) < c.maxDepth)

def state (c : Context) : RunState := c.cell.state

/-- The exception that the context stores. -/
def exception (c : Context) : Value := c.cell.stored

/-- The exception that is pending, if one is. -/
def pending (c : Context) : Option Value := c.cell.pending

theorem state_eq_thrown_iff (c : Context) : c.state = .thrown ↔ c.pending.isSome = true := by
  rw [pending, c.cell.isSome_pending]
  exact c.cell.thrown_iff

theorem state_eq_running_iff (c : Context) : c.state = .running ↔ c.pending = none := by
  rw [← Option.not_isSome_iff_eq_none, ← c.state_eq_thrown_iff]
  cases c.state <;> decide

theorem exception_eq (c : Context) : c.exception = c.pending.getD .undefined := by
  show c.cell.stored = c.cell.pending.getD .undefined
  cases h : c.cell.pending with
  | none =>
    rw [ExceptionCell.eq_empty h]
    rfl
  | some v =>
    rw [ExceptionCell.eq_holding h]
    rfl

/-- The registered object of that name. -/
def builtin (c : Context) (name : String) : Handle :=
  (c.builtins.find? name).join

def intrinsic (c : Context) (i : Intrinsic) : Handle := c.builtin i.name

/-- The receiver that a call sees: outside strict mode the global object stands in for no receiver. -/
def effectiveReceiver (c : Context) (receiver : Value) : Value :=
  if !c.strict && receiver.isNullish then
    match c.global with
    | some g => .object g
    | none => receiver
  else receiver

/-- The key under which objects keep the method that iterates over them. -/
def iteratorKey (c : Context) : String := c.symbols.iterator.key

/-- The key under which objects keep their class label. -/
def tagKey (c : Context) : String := c.symbols.toStringTag.key

/-- A description for diagnostics, given the text of objects. -/
def describe (objectText : ObjectId → String) (c : Context) : String :=
  let exception := match c.pending with
    | some v => ", exception=" ++ v.text objectText
    | none => ""
  "Context\x7bstate=" ++ c.state.name ++
    ", depth=" ++ c.depth.repr ++
    ", strict=" ++ (if c.strict then "true" else "false") ++ exception ++ "\x7d"

end Context

end IterationEngine
