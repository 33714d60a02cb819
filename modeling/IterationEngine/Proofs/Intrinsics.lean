import IterationEngine.Intrinsics

/-!
# Making intrinsic objects

The few actions that intrinsic objects are made with.

`Realm.Composable` says of a property of actions that sequences inherit it and that these few have it. Then installing
any part of the intrinsic objects has it too (`Realm.Composable.installPart`), and with the global object all of them
(`Realm.Composable.install`). What is said of each function that installs something is said here once, for all such
properties.
-/

namespace IterationEngine

/-- The objects as they are made: without properties of their own, unless they are functions, errors or the results of
iteration steps. -/
inductive Object.Made : Object → Prop
  | bare (kind : ObjectKind) (prototype : Handle) (slots : Table Value) : Made { kind, prototype, slots }
  | ofCode (name : String) (arity : UInt32) (code : Code) : Made (.ofCode name arity code)
  | ofError (kind : ErrorKind) (message : String) (prototype : Handle) : Made (.ofError kind message prototype)
  | ofResult (prototype : Handle) (v : Value) (done : Bool) : Made (.ofResult prototype v done)

/-- A property that a sequence of actions inherits from its parts, and that the actions have of which intrinsic objects
are made. -/
structure Realm.Composable (P : {α : Type} → Action α → Prop) : Prop where
  pure : ∀ {α : Type} (a : α), P (Pure.pure a : Action α)
  bind : ∀ {α β : Type} {x : Action α} {f : α → Action β}, P x → (∀ a, P (f a)) → P (x >>= f)
  getContext : P Realm.getContext
  intrinsic : ∀ i, P (Realm.intrinsic i)
  alloc : ∀ {o : Object}, o.Made → P (Realm.alloc o)
  registerBuiltin : ∀ name object, P (Realm.registerBuiltin name object)
  setProperty : ∀ id key v a, P (Realm.setProperty id key v a)
  setMethod : ∀ id key v, P (Realm.setMethod id key v)

namespace Realm.Composable

variable {P : {α : Type} → Action α → Prop} (C : Composable P)
include C

theorem register (i : Intrinsic) (id : ObjectId) : P (Intrinsics.register i id) := C.registerBuiltin _ _

theorem allocPlain (prototype : Handle) : P (Realm.alloc (.plain prototype)) := C.alloc (.bare _ _ _)

theorem inheriting (parent : Intrinsic) : P (Intrinsics.inheriting parent) :=
  C.bind (C.intrinsic _) fun _ => C.allocPlain _

theorem builtinFunction (name : String) (b : Builtin) : P (Intrinsics.builtinFunction name b) :=
  C.alloc (.ofCode _ _ _)

theorem setHidden (id : ObjectId) (key text : String) : P (Intrinsics.setHidden id key text) :=
  C.bind (C.setProperty _ _ _ _) fun _ => C.pure _

theorem setTag (id : ObjectId) (tag : String) : P (Intrinsics.setTag id tag) :=
  C.bind C.getContext fun _ => C.bind (C.setProperty _ _ _ _) fun _ => C.pure _

theorem installCollectionIterator (parent : ObjectId) (i : Intrinsic) (tag : String) :
    P (Intrinsics.installCollectionIterator parent i tag) :=
  C.bind (C.allocPlain _) fun _ => C.bind (C.setTag _ _) fun _ => C.register _ _

theorem installIterators : P Intrinsics.installIterators := by
  refine C.bind C.getContext fun context => C.bind (C.inheriting _) fun prototype => ?_
  refine C.bind (C.builtinFunction _ _) fun self => C.bind (C.setMethod _ _ _) fun _ => ?_
  refine C.bind (C.register _ _) fun _ => C.bind (C.installCollectionIterator _ _ _) fun _ => ?_
  exact C.installCollectionIterator _ _ _

theorem installMaps : P Intrinsics.installMaps := by
  refine C.bind C.getContext fun context => C.bind (C.inheriting _) fun prototype => ?_
  refine C.bind (C.builtinFunction _ _) fun keys => C.bind (C.builtinFunction _ _) fun values => ?_
  refine C.bind (C.builtinFunction _ _) fun entries => C.bind (C.setMethod _ _ _) fun _ => ?_
  refine C.bind (C.setMethod _ _ _) fun _ => C.bind (C.setMethod _ _ _) fun _ => ?_
  exact C.bind (C.setMethod _ _ _) fun _ => C.bind (C.setTag _ _) fun _ => C.register _ _

theorem installSets : P Intrinsics.installSets := by
  refine C.bind C.getContext fun context => C.bind (C.inheriting _) fun prototype => ?_
  refine C.bind (C.builtinFunction _ _) fun values => C.bind (C.builtinFunction _ _) fun entries => ?_
  refine C.bind (C.setMethod _ _ _) fun _ => C.bind (C.setMethod _ _ _) fun _ => ?_
  refine C.bind (C.setMethod _ _ _) fun _ => C.bind (C.setMethod _ _ _) fun _ => ?_
  exact C.bind (C.setTag _ _) fun _ => C.register _ _

/-- Every part of the intrinsic objects that can be installed anew. -/
theorem installPart (part : Intrinsics.Part) : P part.install := by
  cases part with
  | iterators => exact C.installIterators
  | maps => exact C.installMaps
  | sets => exact C.installSets

theorem installErrorKind (parent : ObjectId) (kind : ErrorKind) : P (Intrinsics.installErrorKind parent kind) :=
  C.bind (C.allocPlain _) fun _ => C.bind (C.setHidden _ _ _) fun _ => C.register _ _

theorem installErrors : P Intrinsics.installErrors := by
  refine C.bind (C.inheriting _) fun general => C.bind (C.setHidden _ _ _) fun _ => ?_
  refine C.bind (C.setHidden _ _ _) fun _ => C.bind (C.register _ _) fun _ => ?_
  refine C.bind (C.installErrorKind _ _) fun _ => C.bind (C.installErrorKind _ _) fun _ => ?_
  exact C.installErrorKind _ _

/-- All intrinsic objects. The global object is the one thing that parts do not have to do with. -/
theorem install (hglobal : ∀ object, P (Realm.modifyContext fun c => { c with global := object })) :
    P Intrinsics.install := by
  have hinstallGlobal : P Intrinsics.installGlobal := by
    refine C.bind (C.allocPlain _) fun root => C.bind (C.register _ _) fun _ => ?_
    refine C.bind (C.allocPlain _) fun global => C.bind (hglobal _) fun _ => ?_
    exact C.register _ _
  refine C.bind hinstallGlobal fun _ => C.bind C.installErrors fun _ => ?_
  exact C.bind C.installIterators fun _ => C.bind C.installMaps fun _ => C.installSets

end Realm.Composable

end IterationEngine
