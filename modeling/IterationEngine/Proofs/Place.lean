import IterationEngine.Proofs.Commands
import IterationEngine.Proofs.Call

/-!
# The place in the calls

Which call is running, and how deep.

Receiver, active function and depth of a context are changed by calls of function objects alone, which put back
what they found. Here is the other half of that: no action of a command and no function of the engine changes them
(`Realm.KeepsPlace.ofCommand`, `Realm.KeepsPlace.builtin`), not even those that change the rest of the context.
-/

namespace IterationEngine

variable {H α β : Type}

/-- What a context says about the calls that are running. -/
structure Place where
  frame : Frame
  depth : Nat
  deriving DecidableEq, Repr

namespace Context

def place (c : Context) : Place := ⟨c.frame, c.depth⟩

/-- What a context says about an exception is of one piece: it has stopped exactly if an exception is pending, and
stores `undefined` unless one is. -/
structure Settled (c : Context) : Prop where
  thrown : c.state = .thrown ↔ c.pending.isSome = true
  stored : c.pending = none → c.exception = .undefined

theorem settled (c : Context) : c.Settled where
  thrown := c.state_eq_thrown_iff
  stored := by
    intro hnone
    rw [exception_eq, hnone, Option.getD_none]

end Context

/-- An action that keeps the place in the calls. -/
def Realm.KeepsPlace (x : Action α) : Prop := ∀ r : Realm, (x r).2.context.place = r.context.place

namespace Realm.KeepsPlace

/-- Whatever happens to the heap and to the symbols, the context is the same. -/
theorem ofContext {x : Action α} (hx : ∀ r : Realm, (x r).2.context = r.context) : KeepsPlace x :=
  fun r => congrArg Context.place (hx r)

theorem ofQuiet {x : Action α} (hx : IsQuiet x) : KeepsPlace x := by
  intro r
  have hplace := congrArg Context.place (hx r).context
  exact hplace

theorem pure (a : α) : KeepsPlace (Pure.pure a : Action α) := fun _ => rfl

theorem bind {x : Action α} {f : α → Action β} (hx : KeepsPlace x) (hf : ∀ a, KeepsPlace (f a)) :
    KeepsPlace (x >>= f) :=
  fun r => (hf (x r).1 (x r).2).trans (hx r)

theorem modifyContext {f : Context → Context} (hf : ∀ c : Context, (f c).place = c.place) :
    KeepsPlace (Realm.modifyContext f) :=
  fun r => hf r.context

theorem modifyObject (id : ObjectId) (f : Object → Object) : KeepsPlace (Realm.modifyObject id f) := fun _ => rfl

theorem raise (v : Value) : KeepsPlace (Realm.raise v) := fun _ => rfl

theorem rethrow (c : Completion) : KeepsPlace (Realm.rethrow c) := by
  cases c with
  | throws v => exact raise v
  | normal | returns | breaks | continues => exact pure ()

theorem setProperty (id : ObjectId) (key : String) (v : Value) (a : Attributes) :
    KeepsPlace (Realm.setProperty id key v a) := by
  refine (ofQuiet .getHeap).bind fun heap => ?_
  split
  · exact (modifyObject _ _).bind fun _ => pure _
  · exact pure _

theorem defineAccessor (id : ObjectId) (key : String) (getter setter : Handle) (a : Attributes) :
    KeepsPlace (Realm.defineAccessor id key getter setter a) := by
  refine (ofQuiet .getHeap).bind fun heap => ?_
  split
  · exact (modifyObject _ _).bind fun _ => pure _
  · exact pure _

theorem createListIterator (list : List Value) : KeepsPlace (ListIterator.create list) := by
  refine (ofQuiet (.intrinsic _)).bind fun prototype => (ofQuiet (.alloc _)).bind fun iterator => ?_
  refine (ofQuiet (.alloc _)).bind fun next => (modifyObject _ _).bind fun _ => ?_
  exact (modifyObject _ _).bind fun _ => pure _

theorem sequential : Sequential KeepsPlace where
  bind := bind
  quiet := ofQuiet
  registerBuiltin _ _ := modifyContext fun _ => rfl
  setProperty := setProperty
  setMethod _ _ _ := modifyObject _ _

/-- No command that is an action changes the place. -/
theorem ofCommand {c : Command} {x : Action c.Reply} (hx : c.action? = some x) : KeepsPlace x := by
  cases c <;> cases hx
  -- questions about the state
  case getContext | getHeap | textOf | keyOf => exact ofContext fun _ => rfl
  -- the context
  case setStrict | setMaxDepth | setGlobal | takePending | clearPending | registerBuiltin =>
    exact fun _ => rfl
  case raise v => exact raise v
  case raiseError kind message => exact ofQuiet (.raiseError kind message)
  case rethrow c => exact rethrow c
  case install part => exact sequential.install part
  case createSymbol => exact ofContext fun _ => rfl
  -- construction
  case createObject | createFunction | createError | createUnbound | createMap | createSet => exact ofQuiet (.alloc _)
  case createResult v done => exact ofQuiet (.createResult v done)
  case createListIterator list => exact createListIterator list
  case createMapIterator source kind => exact ofQuiet (.ofMap source kind)
  case createSetIterator source kind => exact ofQuiet (.ofSet source kind)
  -- own properties
  case setProperty id key v a => exact setProperty id key v a
  case defineAccessor id key getter setter a => exact defineAccessor id key getter setter a
  case setMethod | setPrototype | setSlot => exact modifyObject _ _
  -- iteration and collections
  case bindNext | insertEntry | insertValue => exact modifyObject _ _
  case eraseEntry => exact ofContext fun _ => rfl

/-- No function that the engine supplies changes the place. -/
theorem builtin (b : Builtin) : KeepsPlace b.run := by
  cases b with
  | listNext =>
    refine (ofQuiet .getHeap).bind fun heap => (ofQuiet .getContext).bind fun context => ?_
    split
    · exact (ofQuiet (.raiseTypeError _)).bind fun _ => pure _
    · split
      · exact (ofQuiet (.createResult _ _)).bind fun _ => pure _
      · refine (modifyObject _ _).bind fun _ => ?_
        exact (ofQuiet (.createResult _ _)).bind fun _ => pure _
  | mapIterator kind =>
    exact (ofQuiet .getContext).bind fun context => (ofQuiet (.ofMap _ _)).bind fun _ => pure _
  | setIterator kind =>
    exact (ofQuiet .getContext).bind fun context => (ofQuiet (.ofSet _ _)).bind fun _ => pure _
  | receiver => exact (ofQuiet .getContext).bind fun context => pure _

end Realm.KeepsPlace

end IterationEngine
