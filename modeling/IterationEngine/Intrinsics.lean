import IterationEngine.Realm

/-!
# Intrinsic objects

The objects that an engine installs when it is initialized: the root prototype and the global object, the
prototypes of errors, and the prototypes of iterators, maps and sets with their methods.

They are allocated in a fixed order, so that their identities are the same in every engine life.
-/

namespace IterationEngine.Intrinsics

open Realm

/-- Registers an intrinsic object under its name. -/
def register (i : Intrinsic) (id : ObjectId) : Action Unit :=
  registerBuiltin i.name (some id)

/-- A fresh object that inherits from an intrinsic object. -/
def inheriting (parent : Intrinsic) : Action ObjectId := do
  let prototype ← intrinsic parent
  alloc (.plain prototype)

/-- Gives an object a value that is not part of its data. -/
def setHidden (id : ObjectId) (key text : String) : Action Unit := do
  let _ ← setProperty id key (.string text) .hidden

/-- Gives a prototype the label of its class. -/
def setTag (id : ObjectId) (tag : String) : Action Unit := do
  let context ← getContext
  let _ ← setProperty id context.tagKey (.string tag) .label

/-- A fresh function object for code of the engine. -/
def builtinFunction (name : String) (b : Builtin) : Action ObjectId :=
  alloc (.ofCode name 0 (.builtin b))

def installGlobal : Action Unit := do
  let root ← alloc (.plain none)
  register .objectPrototype root
  let global ← alloc (.plain (some root))
  modifyContext fun c => { c with global := some global }
  register .globalObject global

/-- The prototype of one native kind of error, which inherits from the general one. -/
def installErrorKind (parent : ObjectId) (kind : ErrorKind) : Action Unit := do
  let prototype ← alloc (.plain (some parent))
  setHidden prototype "name" kind.name
  register kind.prototype prototype

def installErrors : Action Unit := do
  let general ← inheriting .objectPrototype
  setHidden general "name" ErrorKind.error.name
  setHidden general "message" ""
  register .errorPrototype general
  installErrorKind general .typeError
  installErrorKind general .rangeError
  installErrorKind general .referenceError

/-- A prototype of collection iterators, labelled for its class. -/
def installCollectionIterator (parent : ObjectId) (i : Intrinsic) (tag : String) : Action Unit := do
  let prototype ← alloc (.plain (some parent))
  setTag prototype tag
  register i prototype

def installIterators : Action Unit := do
  let context ← getContext
  let prototype ← inheriting .objectPrototype
  let self ← builtinFunction "[Symbol.iterator]" .receiver
  setMethod prototype context.iteratorKey (.object self)
  register .iteratorPrototype prototype
  installCollectionIterator prototype .mapIteratorPrototype "Map Iterator"
  installCollectionIterator prototype .setIteratorPrototype "Set Iterator"

/-- The default iteration of a map is over its entries. -/
def installMaps : Action Unit := do
  let context ← getContext
  let prototype ← inheriting .objectPrototype
  let keys ← builtinFunction "keys" (.mapIterator .keys)
  let values ← builtinFunction "values" (.mapIterator .values)
  let entries ← builtinFunction "entries" (.mapIterator .entries)
  setMethod prototype "keys" (.object keys)
  setMethod prototype "values" (.object values)
  setMethod prototype "entries" (.object entries)
  setMethod prototype context.iteratorKey (.object entries)
  setTag prototype "Map"
  register .mapPrototype prototype

/-- The default iteration of a set is over its values, which are its keys too. -/
def installSets : Action Unit := do
  let context ← getContext
  let prototype ← inheriting .objectPrototype
  let values ← builtinFunction "values" (.setIterator .values)
  let entries ← builtinFunction "entries" (.setIterator .entries)
  setMethod prototype "values" (.object values)
  setMethod prototype "keys" (.object values)
  setMethod prototype "entries" (.object entries)
  setMethod prototype context.iteratorKey (.object values)
  setTag prototype "Set"
  register .setPrototype prototype

/-- The parts of the intrinsics that can be installed anew. -/
inductive Part where
  | iterators
  | maps
  | sets
  deriving DecidableEq, Repr

namespace Part

def ofString? : String → Option Part
  | "iterator" => some iterators
  | "map" => some maps
  | "set" => some sets
  | _ => none

def install : Part → Action Unit
  | iterators => installIterators
  | maps => installMaps
  | sets => installSets

end Part

/-- Installs all intrinsic objects. -/
def install : Action Unit := do
  installGlobal
  installErrors
  installIterators
  installMaps
  installSets

end IterationEngine.Intrinsics
