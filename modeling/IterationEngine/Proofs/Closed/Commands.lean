import IterationEngine.Engine
import IterationEngine.Proofs.Closed.Actions

/-!
# Commands on closed realms

The intrinsic objects, and all commands that are actions.

1. `Realm.KeepsClosed.install`: from an empty heap, the intrinsic objects are installed on a closed realm.
2. `Realm.KeepsClosed.ofCommand`: an action behind a command, given live operands, answers what is live. What is bound
   to a list iterator by `ListIterator.bindNext` may be of the wrong class, so this command is left out.
-/

namespace IterationEngine

namespace Realm.KeepsClosed

open Heap (holding)

variable {h₀ : Heap}

/-! ## Intrinsic objects -/

theorem register (i : Intrinsic) {id : ObjectId} (hid : h₀.Holds [.object id]) :
    KeepsClosed h₀ (holding fun _ => []) (Intrinsics.register i id) :=
  registerBuiltin i.name hid.head

/-- A fresh plain object. -/
theorem plain {prototype : Handle} (hp : h₀.Holds [.ofHandle prototype]) :
    KeepsClosed h₀ (holding fun id => [.object id]) (Realm.alloc (.plain prototype)) :=
  (allocPlain rfl (Heap.holds_plain hp.head .ordinary)).live

theorem inheriting (parent : Intrinsic) :
    KeepsClosed h₀ (holding fun id => [.object id]) (Intrinsics.inheriting parent) :=
  (intrinsic parent).bind fun _ _ _ hp => plain hp

theorem setHidden (id : ObjectId) (key text : String) :
    KeepsClosed h₀ (holding fun _ => []) (Intrinsics.setHidden id key text) :=
  (setProperty (Value.liveIn_string h₀ text) id key .hidden).andPure (Heap.holds_nil _)

theorem setTag (id : ObjectId) (tag : String) : KeepsClosed h₀ (holding fun _ => []) (Intrinsics.setTag id tag) :=
  getContext.bind fun _ h _ _ => (setProperty (Value.liveIn_string h tag) id _ .label).andPure (Heap.holds_nil _)

theorem builtinFunction (name : String) (b : Builtin) :
    KeepsClosed h₀ (holding fun id => [.object id]) (Intrinsics.builtinFunction name b) :=
  (createFunction name 0 (.builtin b)).live

/-- A method that is live. -/
theorem setFunction {f : ObjectId} (hf : h₀.Holds [.object f]) (id : ObjectId) (key : String) :
    KeepsClosed h₀ (holding fun _ => []) (Realm.setMethod id key (.object f)) :=
  setMethod hf.head id key

/-- The live object is a parent. -/
theorem plainUnder {parent : ObjectId} (hparent : h₀.Holds [.object parent]) :
    KeepsClosed h₀ (holding fun id => [.object id]) (Realm.alloc (.plain (some parent))) :=
  plain hparent

theorem installGlobal : KeepsClosed h₀ (holding fun _ => []) Intrinsics.installGlobal := by
  refine (plain (Heap.holds_undefined h₀)).bind fun root h₁ _ hroot => (register _ hroot).bind fun _ h₂ hgrows₂ _ => ?_
  refine (plainUnder (hroot.mono hgrows₂)).bind fun global h₃ _ hglobal => ?_
  exact (setGlobal hglobal.head).bind fun _ _ hgrows _ => register _ (hglobal.mono hgrows)

theorem installErrorKind {parent : ObjectId} (hparent : h₀.Holds [.object parent]) (kind : ErrorKind) :
    KeepsClosed h₀ (holding fun _ => []) (Intrinsics.installErrorKind parent kind) := by
  refine (plainUnder hparent).bind fun prototype h₁ _ hprototype => ?_
  exact (setHidden prototype _ _).bind fun _ _ hgrows _ => register _ (hprototype.mono hgrows)

theorem installErrors : KeepsClosed h₀ (holding fun _ => []) Intrinsics.installErrors := by
  refine (inheriting _).bind fun general h₁ _ hgeneral => ?_
  refine (setHidden general _ _).bind fun _ h₂ hgrows₂ _ => (setHidden general _ _).bind fun _ h₃ hgrows₃ _ => ?_
  have h₃general := (hgeneral.mono hgrows₂).mono hgrows₃
  refine (register _ h₃general).bind fun _ h₄ hgrows₄ _ => ?_
  have h₄general := h₃general.mono hgrows₄
  refine (installErrorKind h₄general _).bind fun _ h₅ hgrows₅ _ => ?_
  refine (installErrorKind (h₄general.mono hgrows₅) _).bind fun _ h₆ hgrows₆ _ => ?_
  exact installErrorKind ((h₄general.mono hgrows₅).mono hgrows₆) _

theorem installCollectionIterator {parent : ObjectId} (hparent : h₀.Holds [.object parent]) (i : Intrinsic)
    (tag : String) : KeepsClosed h₀ (holding fun _ => []) (Intrinsics.installCollectionIterator parent i tag) := by
  refine (plainUnder hparent).bind fun prototype h₁ _ hprototype => ?_
  exact (setTag prototype tag).bind fun _ _ hgrows _ => register i (hprototype.mono hgrows)

theorem installIterators : KeepsClosed h₀ (holding fun _ => []) Intrinsics.installIterators := by
  refine getContext.bind fun context h₁ _ _ => (inheriting _).bind fun prototype h₂ _ hprototype => ?_
  refine (builtinFunction _ _).bind fun self h₃ hgrows₃ hself => ?_
  refine (setFunction hself prototype _).bind fun _ h₄ hgrows₄ _ => ?_
  have h₄prototype := (hprototype.mono hgrows₃).mono hgrows₄
  refine (register _ h₄prototype).bind fun _ h₅ hgrows₅ _ => ?_
  refine (installCollectionIterator (h₄prototype.mono hgrows₅) _ _).bind fun _ h₆ hgrows₆ _ => ?_
  exact installCollectionIterator ((h₄prototype.mono hgrows₅).mono hgrows₆) _ _

/-- Methods that are given to a prototype one after another, the class label, and the registration. -/
theorem setMethods {prototype : ObjectId} (i : Intrinsic) (tag : String) (methods : List (String × ObjectId))
    (hprototype : h₀.Holds [.object prototype]) (hmethods : h₀.Holds (methods.map fun e => .object e.2)) :
    KeepsClosed h₀ (holding fun _ => []) (methods.foldr
      (fun e x => do
        Realm.setMethod prototype e.1 (.object e.2)
        x)
      (do
        Intrinsics.setTag prototype tag
        Intrinsics.register i prototype)) := by
  induction methods generalizing h₀ with
  | nil => exact (setTag prototype tag).bind fun _ _ hgrows _ => register i (hprototype.mono hgrows)
  | cons e rest ih =>
    obtain ⟨hmethod, hrest⟩ := Heap.holds_cons.mp hmethods
    exact (setMethod hmethod prototype e.1).bind fun _ _ hgrows _ => ih (hprototype.mono hgrows) (hrest.mono hgrows)

theorem installMaps : KeepsClosed h₀ (holding fun _ => []) Intrinsics.installMaps := by
  refine getContext.bind fun context h₁ _ _ => (inheriting _).bind fun prototype h₂ _ hprototype => ?_
  refine (builtinFunction _ _).bind fun keys h₃ hgrows₃ hkeys => ?_
  refine (builtinFunction _ _).bind fun values h₄ hgrows₄ hvalues => ?_
  refine (builtinFunction _ _).bind fun entries h₅ hgrows₅ hentries => ?_
  have hprototype := ((hprototype.mono hgrows₃).mono hgrows₄).mono hgrows₅
  have hmethods : h₅.Holds [.object keys, .object values, .object entries, .object entries] :=
    ((hkeys.mono hgrows₄).mono hgrows₅).append ((hvalues.mono hgrows₅).append (hentries.append hentries))
  exact setMethods .mapPrototype "Map"
    [("keys", keys), ("values", values), ("entries", entries), (context.iteratorKey, entries)] hprototype hmethods

theorem installSets : KeepsClosed h₀ (holding fun _ => []) Intrinsics.installSets := by
  refine getContext.bind fun context h₁ _ _ => (inheriting _).bind fun prototype h₂ _ hprototype => ?_
  refine (builtinFunction _ _).bind fun values h₃ hgrows₃ hvalues => ?_
  refine (builtinFunction _ _).bind fun entries h₄ hgrows₄ hentries => ?_
  have hprototype := (hprototype.mono hgrows₃).mono hgrows₄
  have hvalues := hvalues.mono hgrows₄
  have hmethods : h₄.Holds [.object values, .object values, .object entries, .object values] :=
    hvalues.append (hvalues.append (hentries.append hvalues))
  exact setMethods .setPrototype "Set"
    [("values", values), ("keys", values), ("entries", entries), (context.iteratorKey, values)] hprototype hmethods

theorem installPart (part : Intrinsics.Part) : KeepsClosed h₀ (holding fun _ => []) part.install := by
  cases part with
  | iterators => exact installIterators
  | maps => exact installMaps
  | sets => exact installSets

theorem install : KeepsClosed h₀ (holding fun _ => []) Intrinsics.install :=
  installGlobal.bind fun _ _ _ _ => installErrors.bind fun _ _ _ _ => installIterators.bind fun _ _ _ _ =>
    installMaps.bind fun _ _ _ _ => installSets

end Realm.KeepsClosed

/-! ## Commands -/

/-- The values in the answer to a command, with handles as values. -/
def Command.replyValues : (c : Command) → c.Reply → List Value
  | getContext, context => context.values
  | getHeap, heap => heap.values
  | takePending, c => [c.value]
  | createObject .., id => [.object id]
  | createFunction .., id => [.object id]
  | createError .., id => [.object id]
  | createResult .., id => [.object id]
  | createListIterator _, id => [.object id]
  | createUnbound .., id => [.object id]
  | createMap _, id => [.object id]
  | createSet _, id => [.object id]
  | createMapIterator .., it => [.ofHandle it]
  | createSetIterator .., it => [.ofHandle it]
  | get .., v => [v]
  | getFrom .., v => [v]
  | getV .., v => [v]
  | getMethod .., f => [.ofHandle f]
  | call .., v => [v]
  | invoke .., v => [v]
  | iterator .., it => [.ofHandle it]
  | next .., result => [.ofHandle result]
  | value _, v => [v]
  | step _, result => [.ofHandle result]
  | close .., c => [c.value]
  | toList .., vs => vs
  | toMap _, map => [.ofHandle map]
  | toSet _, set => [.ofHandle set]
  -- an answer of any other command is no object
  | textOf _, _ | keyOf _, _ | setStrict _, _ | setMaxDepth _, _ | setGlobal _, _ | raise _, _ | raiseError .., _
  | clearPending, _ | rethrow _, _ | registerBuiltin .., _ | install _, _ | createSymbol _, _ | setProperty .., _
  | defineAccessor .., _ | setMethod .., _ | setPrototype .., _ | setSlot .., _ | isDone _, _ | bindNext .., _
  | isIterable _, _ | insertEntry .., _ | eraseEntry .., _ | insertValue .., _ => []

namespace Realm.KeepsClosed

open Heap (holding)

variable {h₀ : Heap}

/-- Every command that is an action, but for one. -/
theorem ofCommand {c : Command} {x : Action c.Reply} (hx : c.action? = some x) (hc : ∀ id f, c ≠ .bindNext id f)
    (hlive : h₀.Holds c.operands) : KeepsClosed h₀ (holding c.replyValues) x := by
  cases c <;> cases hx
  case bindNext id f => exact absurd rfl (hc id f)
  -- questions about the state
  case getContext => exact getContext
  case getHeap => exact getHeap.weaken fun heap h _ hheap => hheap.1 ▸ hheap.2
  case textOf v => exact textOf v
  case keyOf v => exact keyOf v
  -- the context
  case setStrict | setMaxDepth => exact modifyContext fun _ _ _ hcontext => hcontext
  case setGlobal object => exact setGlobal hlive.head
  case raise v => exact raise hlive.head
  case raiseError kind message => exact raiseError kind message
  case takePending => exact takePending
  case clearPending => exact clearPending
  case rethrow c => exact rethrow hlive
  case registerBuiltin name object => exact registerBuiltin name hlive.head
  case install part => exact installPart part
  case createSymbol description => exact freshSymbol description
  -- construction
  case createObject prototype tag slots => exact createObject hlive.head tag slots
  case createFunction name arity builtin => exact (createFunction name arity _).live
  case createError kind message => exact createError kind message (Value.liveIn_undefined h₀)
  case createResult v done => exact createResult hlive.head done
  case createListIterator list => exact createListIterator hlive
  case createUnbound prototype list =>
    exact createUnbound hlive.head hlive.tail
  case createMap prototype => exact createCollection (.inl rfl) hlive.head
  case createSet prototype => exact createCollection (.inr rfl) hlive.head
  case createMapIterator source kind => exact ofMap hlive.head kind
  case createSetIterator source kind => exact ofSet hlive.head kind
  -- own properties
  case setProperty id key v a => exact setProperty hlive.tail.head id key a
  case defineAccessor id key getter setter a => exact defineAccessor hlive.tail id key a
  case setMethod id key v => exact setMethod hlive.tail.head id key
  case setPrototype id prototype => exact setPrototype hlive.tail.head id
  case setSlot id slot v => exact setSlot hlive.tail.head id slot
  -- collections
  case insertEntry map key v => exact insertEntry hlive.tail.head hlive.tail.tail.head map
  case eraseEntry map key => exact eraseFrom map key
  case insertValue set v => exact insertValue hlive.tail.head set

end Realm.KeepsClosed

end IterationEngine
