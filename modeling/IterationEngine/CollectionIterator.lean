import IterationEngine.Realm

/-!
# Iterators over collections

Iterators over maps and sets.

Only the construction is here, and with it the check that the source really is a map or a set: its tag does not
count, its kind does.
-/

namespace IterationEngine.CollectionIterator

open Realm

/-- An iterator over a map, or nothing and a pending type error. -/
def ofMap (source : Value) (kind : IterationKind) : Action Handle := do
  let heap ← getHeap
  match source with
  | .object id =>
    match heap.mapData? id with
    | some _ =>
      let prototype ← intrinsic .mapIteratorPrototype
      let iterator ← alloc { kind := .mapIterator { source := id, kind }, prototype }
      return some iterator
    | none =>
      raiseTypeError ("Map Iterator source " ++ heap.objectText id ++ " has no [[MapData]]")
      return none
  | v =>
    let text ← textOf v
    raiseTypeError ("Map Iterator source " ++ text ++ " is not an object")
    return none

/-- An iterator over a set, or nothing and a pending type error. -/
def ofSet (source : Value) (kind : IterationKind) : Action Handle := do
  let heap ← getHeap
  match source with
  | .object id =>
    match heap.setData? id with
    | some _ =>
      let prototype ← intrinsic .setIteratorPrototype
      let iterator ← alloc { kind := .setIterator { source := id, kind }, prototype }
      return some iterator
    | none =>
      raiseTypeError ("Set Iterator source " ++ heap.objectText id ++ " has no [[SetData]]")
      return none
  | v =>
    let text ← textOf v
    raiseTypeError ("Set Iterator source " ++ text ++ " is not an object")
    return none

end IterationEngine.CollectionIterator
