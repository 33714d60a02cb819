import IterationEngine.Iterator.Consume
import IterationEngine.Intrinsics

/-!
# Commands

Commands: what guest code and embedders may ask of a running engine, one operation at a time.

A command names its operands by value, and its reply has a type of its own. It is answered only if every object
among its operands is on the heap; a stale identity has no answer.
-/

namespace IterationEngine

inductive Command where
  -- questions about the state
  | getContext
  | getHeap
  | textOf (v : Value)
  | keyOf (v : Value)
  -- the context
  | setStrict (on : Bool)
  | setMaxDepth (limit : Int)
  | setGlobal (object : Handle)
  | raise (v : Value)
  | raiseError (kind : ErrorKind) (message : String)
  | takePending
  | clearPending
  | rethrow (c : Completion)
  | registerBuiltin (name : String) (object : Handle)
  | install (part : Intrinsics.Part)
  | createSymbol (description : String)
  -- construction
  | createObject (prototype : Handle) (tag : PlainTag) (slots : List String)
  | createFunction (name : String) (arity : UInt32) (builtin : Option Builtin)
  | createError (kind : ErrorKind) (message : String)
  | createResult (v : Value) (done : Bool)
  | createListIterator (list : List Value)
  | createUnbound (prototype : Handle) (list : Option (List Value))
  | createMap (prototype : Handle)
  | createSet (prototype : Handle)
  | createMapIterator (source : Value) (kind : IterationKind)
  | createSetIterator (source : Value) (kind : IterationKind)
  -- own properties
  | setProperty (id : ObjectId) (key : String) (v : Value) (a : Attributes)
  | defineAccessor (id : ObjectId) (key : String) (getter setter : Handle) (a : Attributes)
  | setMethod (id : ObjectId) (key : String) (v : Value)
  | setPrototype (id : ObjectId) (prototype : Handle)
  | setSlot (id : ObjectId) (slot : String) (v : Value)
  -- access and calls
  | get (id : ObjectId) (key : String) (receiver : Value)
  | getFrom (object : Handle) (key : String)
  | getV (v : Value) (key : String)
  | getMethod (v : Value) (key : String)
  | call (callable receiver : Value) (args : List Value)
  | invoke (v : Value) (key : String) (args : List Value)
  -- iteration
  | iterator (v : Value) (method : Option Value)
  | next (iterator : Handle) (argument : Option Value)
  | isDone (result : ObjectId)
  | value (result : ObjectId)
  | step (iterator : Handle)
  | close (iterator : Handle) (c : Completion)
  | bindNext (iterator : ObjectId) (function : Handle)
  | isIterable (v : Value)
  | toList (v : Value) (method : Option Value)
  -- collections
  | insertEntry (map : ObjectId) (key v : Value)
  | eraseEntry (map : ObjectId) (key : Value)
  | insertValue (set : ObjectId) (v : Value)
  | toMap (v : Value)
  | toSet (v : Value)
  deriving Repr

namespace Command

/-- The type of the answer to a command. -/
@[reducible] def Reply : Command → Type
  | getContext => Context
  | getHeap => Heap
  | textOf _ | keyOf _ => String
  | setStrict _ | setMaxDepth _ | setGlobal _ | raise _ | raiseError .. | clearPending | rethrow _
  | registerBuiltin .. | install _ => Unit
  | takePending => Completion
  | createSymbol _ => Symbol
  | createObject .. | createFunction .. | createError .. | createResult .. | createListIterator _
  | createUnbound .. | createMap _ | createSet _ => ObjectId
  | createMapIterator .. | createSetIterator .. => Handle
  | setProperty .. | defineAccessor .. => Bool
  | setMethod .. | setPrototype .. | setSlot .. => Unit
  | get .. | getFrom .. | getV .. | call .. | invoke .. | value _ => Value
  | getMethod .. | iterator .. | next .. | step _ => Handle
  | isDone _ | isIterable _ => Bool
  | close .. => Completion
  | toList .. => List Value
  | bindNext .. | insertEntry .. | insertValue .. => Unit
  | eraseEntry .. => Bool
  | toMap _ | toSet _ => Handle

/-- The values among the operands of a command, with handles as values. -/
def operands : Command → List Value
  | getContext | getHeap | setStrict _ | setMaxDepth _ | raiseError .. | takePending | clearPending
  | install _ | createSymbol _ | createFunction .. | createError .. => []
  | textOf v | keyOf v | raise v | createResult v _ | createMapIterator v _ | createSetIterator v _
  | getV v _ | getMethod v _ | isIterable v | toMap v | toSet v => [v]
  | setGlobal h | registerBuiltin _ h | createObject h _ _ | createMap h | createSet h | getFrom h _
  | step h => [.ofHandle h]
  | rethrow c => [c.value]
  | createListIterator list => list
  | createUnbound h list => .ofHandle h :: list.getD []
  | setProperty id _ v _ | setMethod id _ v | setSlot id _ v | get id _ v | eraseEntry id v
  | insertValue id v => [.object id, v]
  | defineAccessor id _ getter setter _ => [.object id, .ofHandle getter, .ofHandle setter]
  | setPrototype id h | bindNext id h => [.object id, .ofHandle h]
  | call f r args => f :: r :: args
  | invoke v _ args => v :: args
  | iterator v method | toList v method => v :: method.toList
  | next h argument => .ofHandle h :: argument.toList
  | isDone id | value id => [.object id]
  | close h c => [.ofHandle h, c.value]
  | insertEntry id k v => [.object id, k, v]

/-- Removes an entry of a map object and tells whether there was one. -/
def eraseFrom (map : ObjectId) (key : Value) : Action Bool := do
  let heap ← Realm.getHeap
  Realm.modifyObject map fun o =>
    match o.kind with
    | .map data => { o with kind := .map (data.delete key).2 }
    | _ => o
  return (heap.mapData? map).elim false fun data => (data.delete key).1

/-- Makes a fresh symbol of the process. -/
def freshSymbol (description : String) : Action Symbol := fun r =>
  let (symbol, registry) := r.registry.create description
  (symbol, { r with registry })

variable {H : Type} (g : Guest H)

/-- Carries out a command. -/
def perform : (c : Command) → Run H c.Reply
  | getContext => Realm.getContext
  | getHeap => Realm.getHeap
  | textOf v => Realm.textOf v
  | keyOf v => Realm.keyOf v
  | setStrict on => Realm.modifyContext fun c => { c with strict := on }
  | setMaxDepth limit => Realm.modifyContext fun c => { c with maxDepth := limit }
  | setGlobal object => Realm.modifyContext fun c => { c with global := object }
  | raise v => Realm.raise v
  | raiseError kind message => Realm.raiseError kind message
  | takePending => Realm.takePending
  | clearPending => Realm.clearPending
  | rethrow c => Realm.rethrow c
  | registerBuiltin name object => Realm.registerBuiltin name object
  | install part => part.install
  | createSymbol description => freshSymbol description
  | createObject prototype tag slots => Realm.createObject prototype tag slots
  | createFunction name arity builtin =>
    Realm.alloc (.ofCode name arity (builtin.elim .absent .builtin))
  | createError kind message => Realm.alloc (.ofError kind message none)
  | createResult v done => Realm.createResult v done
  | createListIterator list => ListIterator.create list
  | createUnbound prototype list => ListIterator.createUnbound prototype list
  | createMap prototype => Realm.alloc { kind := .map .empty, prototype }
  | createSet prototype => Realm.alloc { kind := .set .empty, prototype }
  | createMapIterator source kind => CollectionIterator.ofMap source kind
  | createSetIterator source kind => CollectionIterator.ofSet source kind
  | setProperty id key v a => Realm.setProperty id key v a
  | defineAccessor id key getter setter a => Realm.defineAccessor id key getter setter a
  | setMethod id key v => Realm.setMethod id key v
  | setPrototype id prototype => Realm.setPrototype id prototype
  | setSlot id slot v => Realm.setSlot id slot v
  | get id key receiver => Access.get g id key receiver
  | getFrom object key => Access.getFrom g object key
  | getV v key => Access.getV g v key
  | getMethod v key => Access.getMethod g v key
  | call callable receiver args => Access.call g callable receiver args
  | invoke v key args => Access.invoke g v key args
  | iterator v method => method.elim (Iterator.of g v) (Iterator.ofMethod g v)
  | next it argument => Iterator.next g it argument
  | isDone result => Iterator.isDone g result
  | value result => Iterator.value g result
  | step it => Iterator.step g it
  | close it c => Iterator.close g it c
  | bindNext it function => ListIterator.bindNext it function
  | isIterable v => Iterator.isIterable g v
  | toList v method => Iterator.toList g v method
  | insertEntry map key v => Iterator.insertEntry map key v
  | eraseEntry map key => eraseFrom map key
  | insertValue set v => Iterator.insertValue set v
  | toMap v => Iterator.toMap g v
  | toSet v => Iterator.toSet g v

end Command

/-- Goes on only if every object among the values is on the heap. -/
def Run.requireLive {H : Type} (vs : List Value) : Run H Unit := fun m =>
  if vs.all fun v => v.object?.all m.realm.heap.contains then some ((), m) else none

/-- Carries out a command on live operands. -/
def Command.run {H : Type} (g : Guest H) (c : Command) : Run H c.Reply := do
  Run.requireLive c.operands
  c.perform g

end IterationEngine
