import IterationEngine.Engine
import Std.Data.HashMap

/-!
# Reports of scripts

Data trees for what a script reports, and the labels that tell objects apart in them.

A report refers to objects by identity. For the reader these are replaced by labels: an intrinsic object has its
name, any other object the next number when it is first met. Numbering goes through the report from left to
right and starts again with each engine life.
-/

namespace IterationEngine.Script

/-- A data tree whose references to objects are of type `ρ`. -/
inductive Datum (ρ : Type) where
  | null
  | boolean (b : Bool)
  | integer (i : Int)
  | number (n : Number)
  | text (s : String)
  | reference (object : ρ) (text : String)
  | list (items : List (Datum ρ))
  | record (fields : List (String × Datum ρ))
  deriving Repr

/-- How an object is named to the reader. -/
inductive Label where
  | intrinsic (name : String)
  | ordinal (n : Nat)
  deriving DecidableEq, Repr

/-- The labels given so far in one engine life. -/
structure Labels where
  given : Std.HashMap ObjectId Label := {}
  next : Nat := 0

namespace Labels

/-- The labels at the start of an engine life with the given named objects. -/
def ofNamed (named : List (ObjectId × String)) : Labels :=
  { given := .ofList (named.map fun (id, name) => (id, .intrinsic name)) }

/-- The label of an object, a new one if it has none. -/
def get (id : ObjectId) : StateM Labels Label := fun labels =>
  match labels.given[id]? with
  | some label => (label, labels)
  | none =>
    let label := Label.ordinal labels.next
    (label, { given := labels.given.insert id label, next := labels.next + 1 })

end Labels

mutual

/-- Replaces identities by labels. -/
def Datum.labelled : Datum ObjectId → StateM Labels (Datum Label)
  | .null => return .null
  | .boolean b => return .boolean b
  | .integer i => return .integer i
  | .number n => return .number n
  | .text s => return .text s
  | .reference id text => return .reference (← Labels.get id) text
  | .list items => return .list (← labelledItems items)
  | .record fields => return .record (← labelledFields fields)

def labelledItems : List (Datum ObjectId) → StateM Labels (List (Datum Label))
  | [] => return []
  | d :: rest => do
    let d ← d.labelled
    let rest ← labelledItems rest
    return d :: rest

def labelledFields : List (String × Datum ObjectId) → StateM Labels (List (String × Datum Label))
  | [] => return []
  | (name, d) :: rest => do
    let d ← d.labelled
    let rest ← labelledFields rest
    return (name, d) :: rest

end

/-! ## Data of the domain -/

section Domain

variable (heap : Heap)

def ofValue : Value → Datum ObjectId
  | .undefined => .record [("undef", .boolean true)]
  | .null => .null
  | .boolean b => .boolean b
  | .number n => .number n
  | .string s => .text s
  | .symbol s => .record [("sym", .text s.text), ("key", .text s.key)]
  | .object id => .reference id (heap.objectText id)

def ofHandle : Handle → Datum ObjectId
  | some id => .reference id (heap.objectText id)
  | none => .null

def ofValues (vs : List Value) : Datum ObjectId := .list (vs.map (ofValue heap))

def ofNat (n : Nat) : Datum ObjectId := .integer n

def ofCompletion (c : Completion) : Datum ObjectId :=
  .record [("k", .text c.kindName), ("v", ofValue heap c.value), ("l", .text c.label)]

/-- Attributes as letters, a missing attribute as a dash. -/
def attributeLetters (a : Attributes) : String :=
  (if a.writable then "w" else "-") ++ (if a.enumerable then "e" else "-") ++
    (if a.configurable then "c" else "-")

def attributeFields (a : Attributes) : List (String × Datum ObjectId) :=
  [("attrs", .text (attributeLetters a)), ("bits", ofNat a.bits.toNat)]

def ofProperty : Property → Datum ObjectId
  | .data v a => .record (("value", ofValue heap v) :: attributeFields a)
  | .accessor getter setter a =>
    .record (("get", ofHandle heap getter) :: ("set", ofHandle heap setter) :: attributeFields a)

def ofCollectionCursor (name : String) (c : CollectionCursor) : List (String × Datum ObjectId) :=
  [("iter", .text name), ("source", ofHandle heap (some c.source)), ("index", ofNat c.index),
    ("kind", .text c.kind.name)]

/-- What an object holds beyond what every object has. -/
def kindFields : ObjectKind → List (String × Datum ObjectId)
  | .plain _ => []
  | .function name arity _ => [("name", .text name), ("arity", ofNat arity.toNat)]
  | .error kind message => [("name", .text kind.name), ("message", .text message), ("etype", .text kind.name)]
  | .map data =>
    [("size", ofNat data.size), ("empty", .boolean (data.size == 0)), ("keys", ofValues heap data.keys),
      ("values", ofValues heap data.values),
      ("entries", .list (data.entries.map fun (k, v) => .list [ofValue heap k, ofValue heap v]))]
  | .set data =>
    [("size", ofNat data.size), ("empty", .boolean (data.size == 0)), ("values", ofValues heap data.values)]
  | .listIterator c =>
    [("iter", .text "List"), ("list", c.list.elim .null (ofValues heap)), ("index", ofNat c.index),
      ("next", ofHandle heap c.next)]
  | .mapIterator c => ofCollectionCursor heap "Map" c
  | .setIterator c => ofCollectionCursor heap "Set" c

/-- An object in full. -/
def ofObject (id : ObjectId) (o : Object) : Datum ObjectId :=
  let properties := o.properties.keys.filterMap fun key =>
    (o.properties.find? key).map fun p => .list [.text key, ofProperty heap p]
  .record ([("type", .text o.classTag.name), ("self", ofHandle heap (some id)),
    ("proto", ofHandle heap o.prototype), ("count", ofNat o.properties.size), ("props", .list properties)] ++
    kindFields heap o.kind)

/-- The context in full. -/
def ofContext (c : Context) : Datum ObjectId :=
  .record [("state", .text c.state.name),
    ("has_exc", .boolean c.cell.isPending), ("stored", ofValue heap c.exception),
    ("depth", ofNat c.depth), ("can_call", .boolean c.canCall), ("strict", .boolean c.strict),
    ("this", ofValue heap c.frame.receiver), ("binding", ofHandle heap c.frame.receiver.object?),
    ("active", ofHandle heap c.frame.active), ("global", ofHandle heap c.global),
    ("linked", .boolean true), ("debug", .text (c.describe heap.objectText))]

/-- The names of the kinds that a value has. -/
def kindNames (v : Value) : List String :=
  let isNumber := match v with
    | .number _ => true
    | _ => false
  let isFunction := (heap.function? v).isSome
  [("undefined", v.isUndefined), ("null", v == .null), ("nullish", v.isNullish),
    ("boolean", heap.typeName v == "boolean"), ("number", isNumber), ("nan", v.isNaN),
    ("string", heap.typeName v == "string"), ("symbol", heap.typeName v == "symbol"), ("object", v.isObject),
    ("function", isFunction), ("as_function", isFunction), ("callable", isFunction)].filterMap
    fun (name, holds) => if holds then some name else none

/-- A value with all its conversions. -/
def inspect (v : Value) : Datum ObjectId :=
  .record [("v", ofValue heap v), ("is", .list ((kindNames heap v).map .text)),
    ("typeof", .text (heap.typeName v)), ("string", .text (v.text heap.objectText)),
    ("key", .text (v.key heap.objectText)), ("bool", .boolean v.toBoolean), ("ao_bool", .boolean v.toBoolean),
    ("num", .number v.toNumber)]

/-- The answers of the three equalities. -/
def compare (a b : Value) : Datum ObjectId :=
  .record [("strict", .boolean (a.strictEquals b)), ("same", .boolean (a.sameValue b)),
    ("zero", .boolean (a.sameValueZero b)), ("ao_same", .boolean (a.sameValue b))]

/-- A completion with its kinds and its description. -/
def inspectCompletion (c : Completion) : Datum ObjectId :=
  let kinds := [("normal", c.isNormal), ("abrupt", c.isAbrupt), ("return", c.isReturn), ("break", c.isBreak),
    ("continue", c.isContinue), ("throw", c.isThrow)].filterMap
    fun (name, holds) => if holds then some (.text name) else none
  .record [("c", ofCompletion heap c), ("is", .list kinds), ("debug", .text (c.describe heap.objectText))]

/-- The kind of error that a value is. -/
def errorInfo (v : Value) : Datum ObjectId :=
  let kind := v.object?.bind heap.errorKind?
  .record [("error", if kind.isSome then .text (v.text heap.objectText) else .null),
    ("is", .list (ErrorKind.all.map fun k => .boolean (kind == some k)))]

def ofConfig (c : Config) : Datum ObjectId :=
  .record [("strict", .boolean c.strict), ("depth", .integer c.maxDepth), ("verbose", .boolean c.verbose)]

/-- The statistics of the heap. -/
def statistics : Datum ObjectId :=
  .record [("count", ofNat heap.size), ("total", ofNat heap.allocations), ("peak", ofNat heap.peak)]

end Domain

end IterationEngine.Script
