import IterationEngine.Iterator.Close

/-!
# Consumers

Consumers of iterators: the for-of loop, lists, maps and sets.

The loop closes its iterator when it is left early. A list or a set takes every value and never closes. A map
closes when an item is no entry, because then it is the consumer that fails.
-/

namespace IterationEngine.Iterator

open Realm

variable {H : Type} (g : Guest H)

/-- What a consumer meets when it takes one more step. -/
inductive Item where
  | value (v : Value)
  | exhausted
  /-- An exception is pending. -/
  | failed
  deriving DecidableEq, Repr

/-- Takes a step and reads its value. -/
def item (iterator : ObjectId) : Run H Item := do
  let result ← step g (some iterator)
  if ← isPending then return .failed
  else
    match result with
    | none => return .exhausted
    | some r =>
      let v ← value g r
      if ← isPending then return .failed
      else return .value v

/-! ## Lists -/

/-- The values from here on, after those in `taken`; none of them if a step fails. -/
def drain : Nat → ObjectId → Array Value → Run H (List Value)
  | 0, _, _ => Run.diverge
  | rounds + 1, iterator, taken => do
    match ← item g iterator with
    | .failed => return []
    | .exhausted => return taken.toList
    | .value v => drain rounds iterator (taken.push v)

/-- All values of an iterable, using a given method to get the iterator or the iterable's own. -/
def toList (iterable : Value) (method : Option Value := none) : Run H (List Value) := do
  let iterator ← match method with
    | some m => ofMethod g iterable m
    | none => of g iterable
  match iterator with
  | none => return []
  | some id => drain g g.rounds id #[]

/-! ## Loops -/

/-- The outcome of one run of a loop body: the exception it left pending, otherwise its completion. -/
def bodyOutcome (completion : Completion) : Action Completion := do
  if ← isPending then takePending
  else return completion

/-- Leaves a loop early: closes the iterator; an unlabelled break ends this loop alone. -/
def leaveLoop (iterator : ObjectId) (last : Value) (completion : Completion) : Run H Completion := do
  let closed ← close g (some iterator) completion
  match closed with
  | .breaks "" => return .normal last
  | c => return c

/-- The loop over the values from here on, `last` being the value of the last normal run of the body. -/
def loop (body : Value → Run H Completion) : Nat → ObjectId → Value → Run H Completion
  | 0, _, _ => Run.diverge
  | rounds + 1, iterator, last => do
    match ← item g iterator with
    | .failed =>
      let failure ← takePending
      return failure
    | .exhausted => return .normal last
    | .value v =>
      let completion ← body v
      let result ← bodyOutcome completion
      match result with
      | .normal w => loop body rounds iterator w
      | .continues "" => loop body rounds iterator last
      | c => leaveLoop g iterator last c

/-- Runs a body for each value of an iterable. -/
def forOf (iterable : Value) (body : Value → Run H Completion) : Run H Completion := do
  match ← of g iterable with
  | none =>
    let failure ← takePending
    return failure
  | some iterator => loop g body g.rounds iterator .undefined

/-! ## Maps and sets -/

/-- Adds an entry to a map object. -/
def insertEntry (map : ObjectId) (key v : Value) : Action Unit :=
  modifyObject map fun o =>
    match o.kind with
    | .map data => { o with kind := .map (data.insert key v) }
    | _ => o

/-- Adds a value to a set object. -/
def insertValue (set : ObjectId) (v : Value) : Action Unit :=
  modifyObject set fun o =>
    match o.kind with
    | .set data => { o with kind := .set (data.insert v) }
    | _ => o

/-- Closes the iterator with the pending exception and leaves the outcome pending. -/
def closeFailed (iterator : ObjectId) : Run H Unit := do
  let thrown ← takePending
  let outcome ← close g (some iterator) thrown
  rethrow outcome

/-- The key and value that an item of a map iteration holds, or nothing and a pending exception. -/
def entryOf (v : Value) : Run H (Option (Value × Value)) := do
  match v with
  | .object id =>
    let key ← Access.getFrom g (some id) "0"
    if ← isPending then return none
    else
      let entryValue ← Access.getFrom g (some id) "1"
      if ← isPending then return none
      else return some (key, entryValue)
  | v =>
    let text ← textOf v
    raiseTypeError ("Iterator value " ++ text ++ " is not an entry object")
    return none

/-- Adds the entries from here on to a map. -/
def fillMap : Nat → ObjectId → ObjectId → Run H Handle
  | 0, _, _ => Run.diverge
  | rounds + 1, iterator, map => do
    match ← item g iterator with
    | .failed => return none
    | .exhausted => return some map
    | .value v =>
      match ← entryOf g v with
      | some (key, entryValue) =>
        insertEntry map key entryValue
        fillMap rounds iterator map
      | none =>
        closeFailed g iterator
        return none

/-- A fresh map of the entries of an iterable, or nothing and a pending exception. -/
def toMap (iterable : Value) : Run H Handle := do
  let prototype ← intrinsic .mapPrototype
  let map ← alloc { kind := .map .empty, prototype }
  if iterable.isNullish then return some map
  else
    match ← of g iterable with
    | none => return none
    | some iterator => fillMap g g.rounds iterator map

/-- Adds the values from here on to a set. -/
def fillSet : Nat → ObjectId → ObjectId → Run H Handle
  | 0, _, _ => Run.diverge
  | rounds + 1, iterator, set => do
    match ← item g iterator with
    | .failed => return none
    | .exhausted => return some set
    | .value v =>
      insertValue set v
      fillSet rounds iterator set

/-- A fresh set of the values of an iterable, or nothing and a pending exception. -/
def toSet (iterable : Value) : Run H Handle := do
  let prototype ← intrinsic .setPrototype
  let set ← alloc { kind := .set .empty, prototype }
  if iterable.isNullish then return some set
  else
    match ← of g iterable with
    | none => return none
    | some iterator => fillSet g g.rounds iterator set

end IterationEngine.Iterator
