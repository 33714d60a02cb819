import IterationEngine.Access

/-!
# The iteration protocol

The iteration protocol: getting an iterator from a value, and taking steps with it.

Getting an iterator and asking it for its next result answer nothing exactly when they leave an exception
pending. A step also answers nothing when the iterator is exhausted.
-/

namespace IterationEngine.Iterator

open Realm

variable {H : Type} (g : Guest H)

/-- The iterator that a given method makes for a value. -/
def ofMethod (v method : Value) : Run H Handle := do
  let iterator ← Access.call g method v []
  if ← isPending then return none
  else
    match iterator with
    | .object id => return some id
    | _ =>
      raiseTypeError "Result of the Symbol.iterator method is not an object"
      return none

/-- The iterator that a value makes for itself. -/
def of (v : Value) : Run H Handle := do
  let context ← getContext
  let method ← Access.getMethod g v context.iteratorKey
  if ← isPending then return none
  else
    match method with
    | some f => ofMethod g v (.object f)
    | none =>
      let text ← textOf v
      raiseTypeError (text ++ " is not iterable")
      return none

/-- Raises the error for a result that is no object. -/
def raiseNotResult (v : Value) : Action Unit := do
  let text ← textOf v
  raiseTypeError ("Iterator result " ++ text ++ " is not an object")

/-- Asks an iterator for its next result, passing it a value or none. -/
def next (iterator : Handle) (argument : Option Value := none) : Run H Handle := do
  let result ← Access.invoke g (.ofHandle iterator) "next" argument.toList
  if ← isPending then return none
  else
    match result with
    | .object id => return some id
    | v =>
      raiseNotResult v
      return none

/-- Whether a result says that the iterator is exhausted. -/
def isDone (result : ObjectId) : Run H Bool := do
  let done ← Access.getFrom g (some result) "done"
  if ← isPending then return false
  else return done.toBoolean

/-- The value of a result. -/
def value (result : ObjectId) : Run H Value :=
  Access.getFrom g (some result) "value"

/-- The next result that is not the last; nothing when the iterator is exhausted or fails. -/
def step (iterator : Handle) : Run H Handle := do
  match ← next g iterator with
  | none => return none
  | some result =>
    let done ← isDone g result
    if ← isPending then return none
    else if done then return none
    else return some result

/-- Whether a value has a method that makes an iterator for it. -/
def isIterable (v : Value) : Run H Bool := do
  if v.isObject then
    let context ← getContext
    let method ← Access.getV g v context.iteratorKey
    if ← isPending then return false
    else
      let heap ← getHeap
      return (heap.function? method).isSome
  else return false

end IterationEngine.Iterator
