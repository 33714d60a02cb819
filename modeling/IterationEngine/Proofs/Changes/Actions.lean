import Mathlib.Logic.Relation
import IterationEngine.Proofs.Commands
import IterationEngine.Proofs.Definitions

/-!
# Elementary changes

Everything that the engine does to a realm is made up of a few elementary changes.

`Realm.Change` lists them: another context with the same symbols, one more symbol of the process, one more object, and
one object altered in one respect. Every action is a sequence of them (`Realm.Stepwise`), each command that is one
action among them (`Realm.Stepwise.ofCommand`).
-/

namespace IterationEngine

variable {α β : Type}

/-! ## The changes -/

/-- An object altered in one respect. Its own properties are altered by a definition only. -/
inductive Object.Altered (o : Object) : Object → Prop
  | kind (kind : ObjectKind) : Altered o { o with kind }
  | prototype (prototype : Handle) : Altered o { o with prototype }
  | slots (slots : Table Value) : Altered o { o with slots }
  | properties (d : Definition) : Altered o { o with properties := o.properties.define d }

/-- An elementary change of a realm. -/
inductive Realm.Change (r : Realm) : Realm → Prop
  | context {c : Context} : c.symbols = r.context.symbols → Change r { r with context := c }
  | symbol (description : String) : Change r { r with registry := (r.registry.create description).2 }
  | alloc {o : Object} : o.Made → Change r { r with heap := (r.heap.alloc o).2 }
  | modify {id : ObjectId} {f : Object → Object} :
      (∀ o, r.heap.get? id = some o → o.Altered (f o)) → Change r { r with heap := r.heap.modify id f }

/-- A sequence of elementary changes. -/
abbrev Realm.Changes : Realm → Realm → Prop := Relation.ReflTransGen Realm.Change

/-! ## Actions -/

/-- An action that is a sequence of elementary changes, in every realm. -/
def Realm.Stepwise (x : Action α) : Prop := ∀ r : Realm, r.Changes (x r).2

namespace Realm.Stepwise

/-- A question changes nothing. -/
theorem ask {x : Action α} (hx : ∀ r, (x r).2 = r) : Stepwise x := by
  intro r
  rw [hx r]

theorem pure (a : α) : Stepwise (Pure.pure a : Action α) := .ask fun _ => rfl

theorem bind {x : Action α} {f : α → Action β} (hx : Stepwise x) (hf : ∀ a, Stepwise (f a)) : Stepwise (x >>= f) :=
  fun r => (hx r).trans (hf (x r).1 (x r).2)

theorem getHeap : Stepwise Realm.getHeap := .ask fun _ => rfl

theorem getContext : Stepwise Realm.getContext := .ask fun _ => rfl

theorem textOf (v : Value) : Stepwise (Realm.textOf v) := .ask fun _ => rfl

theorem intrinsic (i : Intrinsic) : Stepwise (Realm.intrinsic i) := .ask fun _ => rfl

/-! ### The context -/

theorem modifyContext {f : Context → Context} (hf : ∀ c, (f c).symbols = c.symbols) :
    Stepwise (Realm.modifyContext f) :=
  fun r => .single (.context (hf r.context))

theorem setGlobal (object : Handle) : Stepwise (Realm.modifyContext fun c => { c with global := object }) :=
  modifyContext fun _ => rfl

theorem enterFrame (frame : Frame) : Stepwise (IterationEngine.enterFrame frame) := modifyContext fun _ => rfl

theorem leaveFrame (frame : Frame) : Stepwise (IterationEngine.leaveFrame frame) := modifyContext fun _ => rfl

theorem raise (v : Value) : Stepwise (Realm.raise v) := modifyContext fun _ => rfl

theorem takePending : Stepwise Realm.takePending := fun _ => .single (.context rfl)

theorem rethrow (c : Completion) : Stepwise (Realm.rethrow c) := by
  cases c with
  | throws v => exact raise v
  | normal | returns | breaks | continues => exact pure ()

theorem freshSymbol (description : String) : Stepwise (Command.freshSymbol description) :=
  fun _ => .single (.symbol description)

/-! ### Objects -/

theorem alloc {o : Object} (ho : o.Made) : Stepwise (Realm.alloc o) := fun _ => .single (.alloc ho)

/-- An object without properties of its own. -/
theorem allocBare (kind : ObjectKind) (prototype : Handle) : Stepwise (Realm.alloc { kind, prototype }) :=
  alloc (.bare kind prototype .empty)

theorem createResult (v : Value) (done : Bool) : Stepwise (Realm.createResult v done) :=
  (intrinsic _).bind fun _ => alloc (.ofResult _ v done)

theorem raiseError (kind : ErrorKind) (message : String) : Stepwise (Realm.raiseError kind message) :=
  (intrinsic _).bind fun _ => (alloc (.ofError kind message _)).bind fun _ => raise _

theorem raiseTypeError (message : String) : Stepwise (Realm.raiseTypeError message) := raiseError _ message

theorem modifyObject {f : Object → Object} (hf : ∀ o : Object, o.Altered (f o)) (id : ObjectId) :
    Stepwise (Realm.modifyObject id f) :=
  fun _ => .single (.modify fun o _ => hf o)

/-- A change of the kind, for objects of one class. -/
theorem modifyKind {f : Object → Object} (hf : ∀ o : Object, ∃ kind, f o = { o with kind }) (id : ObjectId) :
    Stepwise (Realm.modifyObject id f) := by
  refine modifyObject (fun o => ?_) id
  obtain ⟨kind, hkind⟩ := hf o
  rw [hkind]
  exact .kind kind

theorem bindNext (iterator : ObjectId) (next : Handle) : Stepwise (ListIterator.bindNext iterator next) :=
  modifyKind (fun o => by obtain ⟨kind, _, _, _⟩ := o; cases kind <;> exact ⟨_, rfl⟩) iterator

theorem advance (iterator : ObjectId) : Stepwise (ListIterator.advance iterator) :=
  modifyKind (fun o => by obtain ⟨kind, _, _, _⟩ := o; cases kind <;> exact ⟨_, rfl⟩) iterator

theorem insertEntry (map : ObjectId) (key v : Value) : Stepwise (Iterator.insertEntry map key v) :=
  modifyKind (fun o => by obtain ⟨kind, _, _, _⟩ := o; cases kind <;> exact ⟨_, rfl⟩) map

theorem insertValue (set : ObjectId) (v : Value) : Stepwise (Iterator.insertValue set v) :=
  modifyKind (fun o => by obtain ⟨kind, _, _, _⟩ := o; cases kind <;> exact ⟨_, rfl⟩) set

theorem eraseFrom (map : ObjectId) (key : Value) : Stepwise (Command.eraseFrom map key) :=
  getHeap.bind fun _ =>
    (modifyKind (fun o => by obtain ⟨kind, _, _, _⟩ := o; cases kind <;> exact ⟨_, rfl⟩) map).bind fun _ => pure _

/-! ### Own properties -/

/-- A call that defines a property, on an object that exists or not. -/
theorem define (id : ObjectId) (d : Definition) : Stepwise (d.perform id) := by
  intro r
  cases ho : r.heap.get? id with
  | some o =>
    rw [Definition.perform_apply ho]
    refine .single (.modify fun p hp => ?_)
    obtain rfl := Option.some.inj (ho.symm.trans hp)
    exact .properties d
  | none => rw [(Definition.perform_of_missing ho d).2]

theorem setProperty (id : ObjectId) (key : String) (v : Value) (a : Attributes) :
    Stepwise (Realm.setProperty id key v a) :=
  define id (.value key v a)

theorem defineAccessor (id : ObjectId) (key : String) (getter setter : Handle) (a : Attributes) :
    Stepwise (Realm.defineAccessor id key getter setter a) :=
  define id (.accessor key getter setter a)

theorem setMethod (id : ObjectId) (key : String) (v : Value) : Stepwise (Realm.setMethod id key v) :=
  define id (.method key v)

/-! ### Iterators -/

theorem createListIterator (list : List Value) : Stepwise (ListIterator.create list) := by
  refine (intrinsic _).bind fun prototype => (allocBare _ _).bind fun iterator => ?_
  refine (alloc (.ofCode _ _ _)).bind fun next => (bindNext _ _).bind fun _ => ?_
  exact (setMethod _ _ _).bind fun _ => pure _

theorem allocIterator (i : Intrinsic) (kind : ObjectKind) :
    Stepwise (do let prototype ← Realm.intrinsic i
                 let iterator ← Realm.alloc { kind, prototype }
                 return some iterator) :=
  (intrinsic i).bind fun _ => (allocBare _ _).bind fun _ => pure _

theorem ofMap (source : Value) (kind : IterationKind) : Stepwise (CollectionIterator.ofMap source kind) := by
  refine getHeap.bind fun heap => ?_
  split
  · split
    · exact allocIterator _ _
    · exact (raiseTypeError _).bind fun _ => pure _
  · exact (textOf _).bind fun _ => (raiseTypeError _).bind fun _ => pure _

theorem ofSet (source : Value) (kind : IterationKind) : Stepwise (CollectionIterator.ofSet source kind) := by
  refine getHeap.bind fun heap => ?_
  split
  · split
    · exact allocIterator _ _
    · exact (raiseTypeError _).bind fun _ => pure _
  · exact (textOf _).bind fun _ => (raiseTypeError _).bind fun _ => pure _

/-! ### Intrinsic objects -/

theorem composable : Composable Stepwise where
  pure := pure
  bind := bind
  getContext := getContext
  intrinsic := intrinsic
  alloc := alloc
  registerBuiltin _ _ := modifyContext fun _ => rfl
  setProperty := setProperty
  setMethod := setMethod

theorem install : Stepwise Intrinsics.install := composable.install setGlobal

/-! ### Commands -/

/-- Every command that is one action. -/
theorem ofCommand {c : Command} {x : Action c.Reply} (hx : c.action? = some x) : Stepwise x := by
  cases c <;> cases hx
  -- questions about the state
  case getContext | getHeap | textOf | keyOf => exact .ask fun _ => rfl
  -- the context
  case setStrict | setMaxDepth | setGlobal | clearPending | registerBuiltin => exact modifyContext fun _ => rfl
  case takePending => exact takePending
  case raise v => exact raise v
  case raiseError kind message => exact raiseError kind message
  case rethrow c => exact rethrow c
  case install part => exact composable.installPart part
  case createSymbol description => exact freshSymbol description
  -- construction
  case createObject prototype tag slots => exact alloc (.bare _ _ _)
  case createFunction name arity builtin => exact alloc (.ofCode _ _ _)
  case createError kind message => exact alloc (.ofError _ _ _)
  case createUnbound | createMap | createSet => exact allocBare _ _
  case createResult v done => exact createResult v done
  case createListIterator list => exact createListIterator list
  case createMapIterator source kind => exact ofMap source kind
  case createSetIterator source kind => exact ofSet source kind
  -- own properties
  case setProperty id key v a => exact setProperty id key v a
  case defineAccessor id key getter setter a => exact defineAccessor id key getter setter a
  case setMethod id key v => exact setMethod id key v
  case setPrototype id prototype => exact modifyObject (fun _ => .prototype prototype) id
  case setSlot id slot v => exact modifyObject (fun _ => .slots _) id
  -- iteration and collections
  case bindNext iterator function => exact bindNext iterator function
  case insertEntry map key v => exact insertEntry map key v
  case eraseEntry map key => exact eraseFrom map key
  case insertValue set v => exact insertValue set v

end Realm.Stepwise

end IterationEngine
