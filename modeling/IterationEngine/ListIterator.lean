import IterationEngine.Realm

/-!
# List iterators

List iterators: a list of values behind the iteration protocol.

A list iterator is bound to the one function object that may advance it. Having the right state is no proof of
that, so a step compares the running function with the bound one before it moves the cursor.
-/

namespace IterationEngine.ListIterator

open Realm

/-- A list iterator that no function is bound to yet. -/
def createUnbound (prototype : Handle) (list : Option (List Value)) : Action ObjectId :=
  alloc { kind := .listIterator { list }, prototype }

/-- Binds the function that may advance the iterator. -/
def bindNext (iterator : ObjectId) (next : Handle) : Action Unit :=
  modifyObject iterator fun o =>
    match o.kind with
    | .listIterator cursor => { o with kind := .listIterator { cursor with next } }
    | _ => o

/-- An iterator over a list, with a step function of its own as its method `next`. -/
def create (list : List Value) : Action ObjectId := do
  let prototype ← intrinsic .iteratorPrototype
  let iterator ← createUnbound prototype (some list)
  let next ← alloc (.ofCode "next" 0 (.builtin .listNext))
  bindNext iterator (some next)
  setMethod iterator "next" (.object next)
  return iterator

/-- Moves the cursor of a list iterator past one value. -/
def advance (iterator : ObjectId) : Action Unit :=
  modifyObject iterator fun o =>
    match o.kind with
    | .listIterator cursor => { o with kind := .listIterator { cursor with index := cursor.index + 1 } }
    | _ => o

/-- Why a step of a list iterator is refused. -/
inductive Refusal where
  | unbound
  | foreign
  | noList
  deriving DecidableEq, Repr

def Refusal.message : Refusal → String
  | .unbound => "ListIterator next called on object without [[IteratorNext]]"
  | .foreign => "ListIterator next called on an iterator it does not belong to"
  | .noList => "ListIterator next called on object without [[IteratedList]]"

/-- The iterator, list and index of the step that a running call may take. -/
def permitted (heap : Heap) (frame : Frame) : Except Refusal (ObjectId × List Value × Nat) :=
  match frame.receiver with
  | .object id =>
    match heap.listCursor? id with
    | some { next := some bound, list, index } =>
      if frame.active = some bound then
        match list with
        | some values => .ok (id, values, index)
        | none => .error .noList
      else .error .foreign
    | _ => .error .unbound
  | _ => .error .unbound

/-- One step of the list iterator that is the receiver of the running call. -/
def next : Action Value := do
  let heap ← getHeap
  let context ← getContext
  match permitted heap context.frame with
  | .error refusal =>
    raiseTypeError refusal.message
    return .undefined
  | .ok (iterator, values, index) =>
    match values[index]? with
    | none =>
      let result ← createResult .undefined true
      return .object result
    | some v =>
      advance iterator
      let result ← createResult v false
      return .object result

end IterationEngine.ListIterator
