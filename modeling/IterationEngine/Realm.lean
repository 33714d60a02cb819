import IterationEngine.Context

/-!
# Realms, actions and runs

The realm, that is heap and context together, and the two monads that act on it.

An `Action` always comes to an end and changes the realm alone. A `Run` may hand control to guest code, so it
also carries the embedder's own state, of any type, and it has no result if guest code or a loop over it does
not return.
-/

namespace IterationEngine

structure Realm where
  heap : Heap
  context : Context
  /-- The symbols of the process. -/
  registry : Symbol.Registry
  deriving Repr

/-- A realm together with the state of its embedder, which the engine carries and never looks at. -/
structure Machine (H : Type) where
  realm : Realm
  host : H

/-- A change of the realm that always answers. -/
abbrev Action (α : Type) := StateM Realm α

/-- A change of the machine that may not answer. -/
abbrev Run (H : Type) (α : Type) := StateT (Machine H) Option α

variable {H α : Type}

/-- Actions take part in runs. -/
instance : MonadLift (StateM Realm) (StateT (Machine H) Option) where
  monadLift x := fun m => some ((x m.realm).1, { m with realm := (x m.realm).2 })

namespace Run

/-- The run that never answers. -/
def diverge : Run H α := fun _ => none

@[simp] theorem diverge_apply (m : Machine H) : (diverge : Run H α) m = none := rfl

@[simp] theorem pure_apply (a : α) (m : Machine H) : (pure a : Run H α) m = some (a, m) := rfl

@[simp] theorem lift_apply (x : Action α) (m : Machine H) :
    (liftM x : Run H α) m = some ((x m.realm).1, { m with realm := (x m.realm).2 }) := rfl

/-- A sequence answers exactly when both of its parts do. -/
theorem bind_eq_some {β : Type} {x : Run H α} {f : α → Run H β} {m : Machine H} {r : β × Machine H} :
    (x >>= f) m = some r ↔ ∃ a m', x m = some (a, m') ∧ f a m' = some r := by
  change (x m).bind (fun p => f p.1 p.2) = some r ↔ _
  cases x m with
  | none => simp
  | some p =>
      constructor
      · intro h
        exact ⟨p.1, p.2, rfl, h⟩
      · rintro ⟨a, m', h, hf⟩
        obtain rfl := Option.some.inj h
        exact hf

end Run

namespace Realm

/-! ## Context -/

def getContext : Action Context := fun r => (r.context, r)

def modifyContext (f : Context → Context) : Action Unit :=
  fun r => ((), { r with context := f r.context })

/-- An exception is pending. -/
def isPending : Action Bool := fun r => (r.context.cell.isPending, r)

def raise (v : Value) : Action Unit :=
  modifyContext fun c => { c with cell := .holding v }

def clearPending : Action Unit :=
  modifyContext fun c => { c with cell := .empty }

/-- The pending exception as a completion, with none pending afterwards. -/
def takePending : Action Completion := fun r =>
  (.throws r.context.exception, { r with context := { r.context with cell := .empty } })

/-- Makes the value of a throw pending; other completions change nothing. -/
def rethrow : Completion → Action Unit
  | .throws v => raise v
  | _ => pure ()

def registerBuiltin (name : String) (object : Handle) : Action Unit :=
  modifyContext fun c => { c with builtins := c.builtins.insert name object }

def intrinsic (i : Intrinsic) : Action Handle := fun r => (r.context.intrinsic i, r)

/-! ## Heap -/

def getHeap : Action Heap := fun r => (r.heap, r)

def alloc (o : Object) : Action ObjectId := fun r =>
  let (id, heap) := r.heap.alloc o
  (id, { r with heap })

def modifyObject (id : ObjectId) (f : Object → Object) : Action Unit :=
  fun r => ((), { r with heap := r.heap.modify id f })

/-- The text of a value. -/
def textOf (v : Value) : Action String := fun r => (v.text r.heap.objectText, r)

/-- The property key that a value stands for. -/
def keyOf (v : Value) : Action String := fun r => (v.key r.heap.objectText, r)

/-! ## Errors -/

/-- Raises a fresh error. -/
def raiseError (kind : ErrorKind) (message : String) : Action Unit := do
  let prototype ← intrinsic kind.prototype
  let e ← alloc (.ofError kind message prototype)
  raise (.object e)

def raiseTypeError (message : String) : Action Unit := raiseError .typeError message

/-! ## Own properties and slots -/

/-- Writes a property and tells whether that was permitted. -/
def setProperty (id : ObjectId) (key : String) (v : Value) (a : Attributes) : Action Bool := do
  let heap ← getHeap
  match (heap.get? id).bind fun o => PropertyTable.setValue? o.properties key v a with
  | some properties =>
    modifyObject id fun o => { o with properties }
    return true
  | none => return false

/-- Defines an accessor pair and tells whether that was permitted. -/
def defineAccessor (id : ObjectId) (key : String) (getter setter : Handle) (a : Attributes) :
    Action Bool := do
  let heap ← getHeap
  match (heap.get? id).bind fun o => PropertyTable.setAccessor? o.properties key getter setter a with
  | some properties =>
    modifyObject id fun o => { o with properties }
    return true
  | none => return false

/-- Writes a method; a refused write is dropped. -/
def setMethod (id : ObjectId) (key : String) (v : Value) : Action Unit :=
  modifyObject id fun o => { o with properties := PropertyTable.setMethod o.properties key v }

def setPrototype (id : ObjectId) (prototype : Handle) : Action Unit :=
  modifyObject id fun o => { o with prototype }

def setSlot (id : ObjectId) (slot : String) (v : Value) : Action Unit :=
  modifyObject id fun o => { o with slots := o.slots.insert slot v }

/-! ## Construction -/

/-- A fresh plain object whose listed slots hold `undefined`. -/
def createObject (prototype : Handle) (tag : PlainTag) (slots : List String) : Action ObjectId :=
  alloc { Object.plain prototype tag with
    slots := slots.foldl (fun t slot => t.insert slot .undefined) .empty }

/-- A fresh result object of an iteration step. -/
def createResult (value : Value) (done : Bool) : Action ObjectId := do
  let prototype ← intrinsic .objectPrototype
  alloc (.ofResult prototype value done)

end Realm

end IterationEngine
