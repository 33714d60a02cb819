import IterationEngine.Program.Command
import IterationEngine.Proofs.Intrinsics
import IterationEngine.Proofs.Simulation

/-!
# Commands as actions and operations

A command is either one action on the realm (`Command.action?`) or one of the operations that read properties and
call functions. A relation that is known to survive the actions therefore survives all commands
(`Mirror.command`), so an invariant needs to be looked at action by action and no more. Actions that are themselves
sequences are dealt with once for all properties that sequences inherit (`Realm.Sequential`).
-/

namespace IterationEngine

variable {H K : Type}

/-! ## Sequences of actions -/

/-- A property that a sequence of actions inherits from its parts, and that the elementary actions have of which
intrinsic objects are made. -/
structure Realm.Sequential (P : {α : Type} → Action α → Prop) : Prop where
  bind : ∀ {α β : Type} {x : Action α} {f : α → Action β}, P x → (∀ a, P (f a)) → P (x >>= f)
  quiet : ∀ {α : Type} {x : Action α}, IsQuiet x → P x
  registerBuiltin : ∀ name object, P (Realm.registerBuiltin name object)
  setProperty : ∀ id key v a, P (Realm.setProperty id key v a)
  setMethod : ∀ id key v, P (Realm.setMethod id key v)

namespace Realm.Sequential

variable {P : {α : Type} → Action α → Prop} (C : Sequential P)
include C

theorem composable : Composable P where
  pure a := C.quiet (.pure a)
  bind := C.bind
  getContext := C.quiet .getContext
  intrinsic i := C.quiet (.intrinsic i)
  alloc _ := C.quiet (.alloc _)
  registerBuiltin := C.registerBuiltin
  setProperty := C.setProperty
  setMethod := C.setMethod

theorem install (part : Intrinsics.Part) : P part.install := C.composable.installPart part

end Realm.Sequential

/-! ## Commands -/

/-- The action that a command is, unless it may read a property or call a function. -/
def Command.action? : (c : Command) → Option (Action c.Reply)
  -- questions about the state
  | getContext => some Realm.getContext
  | getHeap => some Realm.getHeap
  | textOf v => some (Realm.textOf v)
  | keyOf v => some (Realm.keyOf v)
  -- the context
  | setStrict on => some (Realm.modifyContext fun c => { c with strict := on })
  | setMaxDepth limit => some (Realm.modifyContext fun c => { c with maxDepth := limit })
  | setGlobal object => some (Realm.modifyContext fun c => { c with global := object })
  | raise v => some (Realm.raise v)
  | raiseError kind message => some (Realm.raiseError kind message)
  | takePending => some Realm.takePending
  | clearPending => some Realm.clearPending
  | rethrow c => some (Realm.rethrow c)
  | registerBuiltin name object => some (Realm.registerBuiltin name object)
  | install part => some part.install
  | createSymbol description => some (freshSymbol description)
  -- construction
  | createObject prototype tag slots => some (Realm.createObject prototype tag slots)
  | createFunction name arity builtin => some (Realm.alloc (.ofCode name arity (builtin.elim .absent .builtin)))
  | createError kind message => some (Realm.alloc (.ofError kind message none))
  | createResult v done => some (Realm.createResult v done)
  | createListIterator list => some (ListIterator.create list)
  | createUnbound prototype list => some (ListIterator.createUnbound prototype list)
  | createMap prototype => some (Realm.alloc { kind := .map .empty, prototype })
  | createSet prototype => some (Realm.alloc { kind := .set .empty, prototype })
  | createMapIterator source kind => some (CollectionIterator.ofMap source kind)
  | createSetIterator source kind => some (CollectionIterator.ofSet source kind)
  -- own properties
  | setProperty id key v a => some (Realm.setProperty id key v a)
  | defineAccessor id key getter setter a => some (Realm.defineAccessor id key getter setter a)
  | setMethod id key v => some (Realm.setMethod id key v)
  | setPrototype id prototype => some (Realm.setPrototype id prototype)
  | setSlot id slot v => some (Realm.setSlot id slot v)
  -- access and calls
  | get .. | getFrom .. | getV .. | getMethod .. | call .. | invoke .. => none
  -- iteration
  | iterator .. | next .. | isDone _ | value _ | step _ | close .. | isIterable _ | toList .. => none
  | bindNext it function => some (ListIterator.bindNext it function)
  -- collections
  | insertEntry map key v => some (Iterator.insertEntry map key v)
  | eraseEntry map key => some (eraseFrom map key)
  | insertValue set v => some (Iterator.insertValue set v)
  | toMap _ | toSet _ => none

theorem Command.perform_of_action (g : Guest H) {c : Command} {x : Action c.Reply} (hx : c.action? = some x) :
    c.perform g = liftM x := by
  cases c <;> cases hx <;> rfl

theorem Command.run_of_action {g : Guest H} {c : Command} {x : Action c.Reply} (hx : c.action? = some x)
    {m m' : Machine H} {reply : c.Reply} (h : c.run g m = some (reply, m')) :
    reply = (x m.realm).1 ∧ m' = m.withRealm (x m.realm).2 := by
  obtain ⟨u, m₁, hlive, hrun⟩ := Run.bind_eq_some.mp h
  unfold Run.requireLive at hlive
  split at hlive
  · obtain ⟨-, rfl⟩ := Prod.mk.inj (Option.some.inj hlive)
    rw [c.perform_of_action g hx] at hrun
    exact Run.lift_eq_some hrun
  · cases hlive

/-- A relation that survives the action of a command, if it is one, and the raising of values survives the command. -/
theorem Mirror.command {R : Machine H → Machine K → Prop} {g : Guest H} {g' : Guest K} (M : Mirror R g g')
    (hraise : ∀ v, Run.Sim R (liftM (Realm.raise v)) (liftM (Realm.raise v))) (c : Command)
    (hact : ∀ x, c.action? = some x → Run.Sim R (liftM x) (liftM x)) :
    Run.Sim R (c.perform g) (c.perform g') := by
  cases haction : c.action? with
  | some x =>
    rw [c.perform_of_action g haction, c.perform_of_action g' haction]
    exact hact x haction
  | none =>
    cases c with
    -- access and calls
    | get id key receiver => exact M.get id key receiver
    | getFrom object key => exact M.getFrom object key
    | getV v key => exact M.getV v key
    | getMethod v key => exact M.getMethod v key
    | call callable receiver args => exact M.callValue callable receiver args
    | invoke v key args => exact M.invoke v key args
    -- iteration
    | iterator v method =>
      cases method with
      | none => exact M.of v
      | some method => exact M.ofMethod v method
    | next iterator argument => exact M.next iterator argument
    | isDone result => exact M.isDone result
    | value result => exact M.value result
    | step iterator => exact M.step iterator
    | close iterator c => exact M.close iterator c
    | isIterable v => exact M.isIterable v
    | toList v method => exact M.toList v method
    -- collections
    | toMap v => exact M.toMap hraise v
    | toSet v => exact M.toSet v
    | _ => cases haction

end IterationEngine
