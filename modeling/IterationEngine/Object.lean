import IterationEngine.Property
import IterationEngine.Collection

/-!
# Objects

Objects of the guest language.

An object has a prototype, own properties, internal slots that property lookup never sees, and a kind that
holds the state proper to it. The kind is fixed when the object is made. A plain object may carry the tag of
another class without having that class's state, so a check of the tag is no check of the kind.
-/

namespace IterationEngine

/-- The class that an object shows. -/
inductive ClassTag where
  | ordinary
  | function
  | error
  | map
  | set
  | iterator
  deriving DecidableEq, Repr

def ClassTag.name : ClassTag → String
  | .ordinary => "Ordinary"
  | .function => "Function"
  | .error => "Error"
  | .map => "Map"
  | .set => "Set"
  | .iterator => "Iterator"

/-- The tags that a plain object may carry. -/
inductive PlainTag where
  | ordinary
  | error
  | map
  | set
  | iterator
  deriving DecidableEq, Repr

namespace PlainTag

def classTag : PlainTag → ClassTag
  | ordinary => .ordinary
  | error => .error
  | map => .map
  | set => .set
  | iterator => .iterator

def ofString? (name : String) : Option PlainTag :=
  [ordinary, error, map, set, iterator].find? fun t => t.classTag.name = name

end PlainTag

inductive ErrorKind where
  | error
  | typeError
  | rangeError
  | referenceError
  deriving DecidableEq, Repr

namespace ErrorKind

def name : ErrorKind → String
  | error => "Error"
  | typeError => "TypeError"
  | rangeError => "RangeError"
  | referenceError => "ReferenceError"

/-- All kinds of error, the general one first. -/
def all : List ErrorKind := [error, typeError, rangeError, referenceError]

def ofString? (text : String) : Option ErrorKind :=
  all.find? fun k => k.name = text

end ErrorKind

/-- What an iterator over a collection yields. -/
inductive IterationKind where
  | keys
  | values
  | entries
  deriving DecidableEq, Repr

namespace IterationKind

def name : IterationKind → String
  | keys => "keys"
  | values => "values"
  | entries => "entries"

def ofString? (text : String) : Option IterationKind :=
  [keys, values, entries].find? fun k => k.name = text

end IterationKind

/-- Functions that the engine itself supplies. -/
inductive Builtin where
  /-- The next step of a list iterator. -/
  | listNext
  /-- An iterator over the map that is the receiver. -/
  | mapIterator (kind : IterationKind)
  /-- An iterator over the set that is the receiver. -/
  | setIterator (kind : IterationKind)
  /-- The receiver itself. -/
  | receiver
  deriving DecidableEq, Repr

/-- A piece of guest code, by its number in the embedder's table. -/
structure CodeId where
  index : Nat
  deriving DecidableEq, Repr

/-- What a function object runs. -/
inductive Code where
  | builtin (b : Builtin)
  | guest (code : CodeId)
  /-- Nothing; a call answers `undefined`. -/
  | absent
  deriving DecidableEq, Repr

/-- The state of a list iterator. -/
structure ListCursor where
  /-- The values iterated over, which never change. -/
  list : Option (List Value)
  index : Nat := 0
  /-- The function object that alone may advance this iterator. -/
  next : Handle := none
  deriving DecidableEq, Repr

/-- The state of an iterator over a map or a set. -/
structure CollectionCursor where
  source : ObjectId
  index : Nat := 0
  kind : IterationKind
  deriving DecidableEq, Repr

/-- What an object is, with the state that goes with it. -/
inductive ObjectKind where
  | plain (tag : PlainTag)
  | function (name : String) (arity : UInt32) (code : Code)
  | error (kind : ErrorKind) (message : String)
  | map (data : MapData)
  | set (data : SetData)
  | listIterator (cursor : ListCursor)
  | mapIterator (cursor : CollectionCursor)
  | setIterator (cursor : CollectionCursor)
  deriving DecidableEq, Repr

/-- How an object is stored. Objects that are stored alike take the same number of bytes. -/
inductive StorageClass where
  | plain
  | function
  | error
  | map
  | set
  | listIterator
  | mapIterator
  | setIterator
  deriving DecidableEq, Repr

def ObjectKind.storageClass : ObjectKind → StorageClass
  | plain _ => .plain
  | function .. => .function
  | error .. => .error
  | map _ => .map
  | set _ => .set
  | listIterator _ => .listIterator
  | mapIterator _ => .mapIterator
  | setIterator _ => .setIterator

structure Object where
  kind : ObjectKind
  prototype : Handle := none
  properties : PropertyTable := .empty
  slots : Table Value := .empty
  deriving DecidableEq, Repr

namespace Object

def classTag (o : Object) : ClassTag :=
  match o.kind with
  | .plain tag => tag.classTag
  | .function .. => .function
  | .error .. => .error
  | .map _ => .map
  | .set _ => .set
  | .listIterator _ | .mapIterator _ | .setIterator _ => .iterator

def isFunction (o : Object) : Bool :=
  match o.kind with
  | .function .. => true
  | _ => false

/-- The text of an object depends on its kind alone. -/
def text (o : Object) : String :=
  match o.kind with
  | .plain _ => "[object Object]"
  | .function name _ _ => "function " ++ name ++ "() \x7b [native code] \x7d"
  | .error kind message => if message.isEmpty then kind.name else kind.name ++ ": " ++ message
  | .map _ => "[object Map]"
  | .set _ => "[object Set]"
  | .listIterator _ => "[object List Iterator]"
  | .mapIterator _ => "[object Map Iterator]"
  | .setIterator _ => "[object Set Iterator]"

/-! ## Construction -/

/-- A plain object with the given prototype and tag. -/
def plain (prototype : Handle) (tag : PlainTag := .ordinary) : Object :=
  { kind := .plain tag, prototype }

/-- A function object; its name and length are own properties. -/
def ofCode (name : String) (arity : UInt32) (code : Code) : Object :=
  { kind := .function name arity code
    properties := PropertyTable.withValue
      (PropertyTable.withValue .empty "name" (.string name) .label)
      "length" (.number (.ofNat arity.toNat)) .label }

/-- An error; it has a message property only if the message is not empty. -/
def ofError (kind : ErrorKind) (message : String) (prototype : Handle) : Object :=
  let named := PropertyTable.withValue .empty "name" (.string kind.name) .hidden
  { kind := .error kind message
    prototype
    properties :=
      if message.isEmpty then named else PropertyTable.withValue named "message" (.string message) .hidden }

/-- The result of an iteration step. -/
def ofResult (prototype : Handle) (value : Value) (done : Bool) : Object :=
  { kind := .plain .ordinary
    prototype
    properties := PropertyTable.withValue
      (PropertyTable.withValue .empty "value" value .all) "done" (.boolean done) .all }

end Object

end IterationEngine
