import IterationEngine.Iterator.Protocol

/-!
# Closing an iterator

Closing an iterator: its method `return` is called, and one of two outcomes is kept.

A throw of the consumer is never masked by a cleanup that fails. Otherwise a failing cleanup wins, and a
cleanup that answers something other than an object is a failure. The outcome is handed back as a completion and
nothing is left pending.
-/

namespace IterationEngine.Iterator

open Realm

/-- Which outcome closing an iterator reports. -/
inductive CloseDecision where
  | keepCompletion
  | useInnerResult
  | resultNotObject
  deriving DecidableEq, Repr

namespace CloseDecision

def name : CloseDecision → String
  | keepCompletion => "KeepCompletion"
  | useInnerResult => "UseInnerResult"
  | resultNotObject => "ReturnResultNotObject"

/-- Weighs the completion of the consumer against the outcome of the cleanup. -/
def decide (completion inner : Completion) : CloseDecision :=
  if completion.isThrow then keepCompletion
  else if inner.isThrow then useInnerResult
  else if inner.value.isObject then keepCompletion
  else resultNotObject

end CloseDecision

variable {H : Type} (g : Guest H)

/-- The outcome of a call as a completion: the exception it left pending, otherwise its result. -/
def outcome (result : Value) : Action Completion := do
  if ← isPending then takePending
  else return .normal result

/-- Closes an iterator when no exception is pending. -/
def closeWith (iterator : Handle) (completion : Completion) : Run H Completion := do
  let method ← Access.getMethod g (.ofHandle iterator) "return"
  if ← isPending then
    let failure ← takePending
    return failure
  else
    match method with
    | none => return completion
    | some f =>
      let result ← g.call f (.ofHandle iterator) []
      let inner ← outcome result
      match CloseDecision.decide completion inner with
      | .keepCompletion => return completion
      | .useInnerResult => return inner
      | .resultNotObject =>
        raiseNotResult result
        let failure ← takePending
        return failure

/-- Closes an iterator. An exception that is pending takes the place of the completion. -/
def close (iterator : Handle) (completion : Completion) : Run H Completion := do
  if ← isPending then
    let pending ← takePending
    closeWith g iterator pending
  else closeWith g iterator completion

end IterationEngine.Iterator
