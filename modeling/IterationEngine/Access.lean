import IterationEngine.Call

/-!
# Property access and method calls

Reading properties and calling methods.

Reading runs the getter of an accessor pair. None of these operations looks for an exception that is pending
when it starts; those that go on after a read look for one then, and stop.
-/

namespace IterationEngine.Access

open Realm

variable {H : Type} (g : Guest H)

/-- The value of a property as seen by `receiver`. A pair without a function to get the value has none. -/
def get (id : ObjectId) (key : String) (receiver : Value) : Run H Value := do
  let heap ← getHeap
  match heap.lookup id key with
  | some (.data v _) => return v
  | some (.accessor (some getter) _ _) =>
    if heap.isFunction getter then g.call getter receiver []
    else return .undefined
  | _ => return .undefined

/-- The value of a property of an object; nothing has no properties. -/
def getFrom (object : Handle) (key : String) : Run H Value := do
  match object with
  | some id => get g id key (.object id)
  | none =>
    raiseTypeError ("Cannot read properties of undefined (reading '" ++ key ++ "')")
    return .undefined

/-- The value of a property of any value. Primitive values have no properties. -/
def getV (v : Value) (key : String) : Run H Value := do
  match v with
  | .undefined | .null =>
    let text ← textOf v
    raiseTypeError ("Cannot read properties of " ++ text ++ " (reading '" ++ key ++ "')")
    return .undefined
  | .object id => get g id key v
  | _ => return .undefined

/-- Raises the error for a property that holds `v` and is called. -/
def raiseNotCallable (key : String) (v : Value) : Action Unit := do
  let heap ← getHeap
  raiseTypeError ("Property '" ++ key ++ "' is not a function (" ++ heap.typeName v ++ ")")

/-- The function under a key, or nothing if it is absent. Any other value is an error. -/
def getMethod (v : Value) (key : String) : Run H Handle := do
  let method ← getV g v key
  if ← isPending then return none
  else if method.isNullish then return none
  else
    let heap ← getHeap
    match heap.function? method with
    | some f => return some f
    | none =>
      raiseNotCallable key method
      return none

/-- Calls a value. -/
def call (callable receiver : Value) (args : List Value) : Run H Value := do
  let heap ← getHeap
  match heap.function? callable with
  | some f => g.call f receiver args
  | none =>
    let text ← textOf callable
    raiseTypeError (text ++ " is not a function")
    return .undefined

/-- Calls the method under a key; an absent method is an error here. -/
def invoke (v : Value) (key : String) (args : List Value) : Run H Value := do
  let method ← getV g v key
  if ← isPending then return .undefined
  else
    let heap ← getHeap
    match heap.function? method with
    | some f => g.call f v args
    | none =>
      raiseNotCallable key method
      return .undefined

end IterationEngine.Access
