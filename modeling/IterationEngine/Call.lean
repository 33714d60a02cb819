import IterationEngine.ListIterator
import IterationEngine.CollectionIterator

/-!
# Calls

Calls of function objects.

A call at the depth limit raises a range error and runs nothing. Otherwise the code runs in a frame of its own,
with the effective receiver and the function object as the active function, and the caller's frame is put back
whatever the code did.
-/

namespace IterationEngine

open Realm

variable {H : Type}

/-- Runs a function that the engine supplies. -/
def Builtin.run : Builtin → Action Value
  | .listNext => ListIterator.next
  | .mapIterator kind => do
    let context ← getContext
    let iterator ← CollectionIterator.ofMap context.frame.receiver kind
    return .ofHandle iterator
  | .setIterator kind => do
    let context ← getContext
    let iterator ← CollectionIterator.ofSet context.frame.receiver kind
    return .ofHandle iterator
  | .receiver => do
    let context ← getContext
    return context.frame.receiver

/-- How the embedder runs its pieces of guest code. -/
abbrev GuestCode (H : Type) := CodeId → List Value → Run H Value

/-- Starts a call in the given frame. -/
def enterFrame (frame : Frame) : Action Unit :=
  modifyContext fun c => { c with frame, depth := c.depth + 1 }

/-- Ends a call and returns to the frame of the caller. -/
def leaveFrame (frame : Frame) : Action Unit :=
  modifyContext fun c => { c with frame, depth := c.depth - 1 }

/-- Runs the code of a function object in the current frame. -/
def runCode (guest : GuestCode H) (code : Code) (args : List Value) : Run H Value :=
  match code with
  | .builtin b => b.run
  | .guest id => guest id args
  | .absent => return .undefined

/-- Calls a function object. -/
def callFunction (guest : GuestCode H) (function : ObjectId) (receiver : Value) (args : List Value) :
    Run H Value := do
  let context ← getContext
  if context.canCall then
    let heap ← getHeap
    enterFrame { receiver := context.effectiveReceiver receiver, active := some function }
    let result ← runCode guest ((heap.code? function).getD .absent) args
    leaveFrame context.frame
    return result
  else
    raiseError .rangeError "Maximum call stack size exceeded"
    return .undefined

/--
What an operation needs to know of the world outside it: how a function object is called, and how many rounds a
loop over guest code may take before it counts as one that does not return.
-/
structure Guest (H : Type) where
  call : ObjectId → Value → List Value → Run H Value
  rounds : Nat

end IterationEngine
