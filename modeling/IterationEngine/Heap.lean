import IterationEngine.Object

/-!
# The heap

The heap: all objects in the order of their allocation, with the statistics of a whole engine life.

Nothing is reclaimed before the heap is released, so an identity stays valid until then. Property lookup walks
the prototype chain; the walk is bounded by the number of objects, which no chain without a cycle exceeds. Around a
cycle an unbounded walk goes on for ever if no object of it owns the key, and only then; the bounded one answers that
there is no such property.
-/

namespace IterationEngine

structure Heap where
  objects : Array Object := #[]
  /-- Objects ever allocated. Releasing the heap does not reset it. The number stands for a counter of 64 bits as long
  as there have been fewer than `2 ^ 64` of them. -/
  allocations : Nat := 0
  /-- The greatest number of objects held at once. -/
  peak : Nat := 0
  /-- How the objects ever allocated are stored, the latest first. Releasing the heap does not reset it. -/
  stored : List StorageClass := []
  deriving Repr

namespace Heap

def empty : Heap := {}

def size (h : Heap) : Nat := h.objects.size

def get? (h : Heap) (id : ObjectId) : Option Object := h.objects[id.index]?

def contains (h : Heap) (id : ObjectId) : Bool := decide (id.index < h.objects.size)

/-- Adds an object, under the next identity. -/
def alloc (h : Heap) (o : Object) : ObjectId × Heap :=
  (⟨h.objects.size⟩,
    { objects := h.objects.push o
      allocations := h.allocations + 1
      peak := max h.peak (h.objects.size + 1)
      stored := o.kind.storageClass :: h.stored })

/-- Adds an object if there is one, and otherwise changes nothing. -/
def register (h : Heap) : Option Object → Handle × Heap
  | some o => ((h.alloc o).1, (h.alloc o).2)
  | none => (none, h)

/-- Changes one object. -/
def modify (h : Heap) (id : ObjectId) (f : Object → Object) : Heap :=
  { h with objects := h.objects.modify id.index f }

/-- Drops every object and keeps the statistics. -/
def release (h : Heap) : Heap := { h with objects := #[] }

/-- The bytes ever allocated, by the sizes that a platform gives the classes of storage. -/
def bytes (sizeOf : StorageClass → Nat) (h : Heap) : Nat :=
  h.stored.foldr (fun c n => sizeOf c + n) 0

/-- The statistics as text. The bytes differ from one platform to another; their place is marked by a star. -/
def statistics (h : Heap) : String :=
  "objects=" ++ h.size.repr ++ " allocations=" ++ h.allocations.repr ++ " bytes=* peak=" ++ h.peak.repr

/-! ## Laws of allocation and change -/

theorem contains_iff (h : Heap) (id : ObjectId) : h.contains id = true ↔ ∃ o, h.get? id = some o := by
  simp only [contains, get?, decide_eq_true_eq]
  constructor
  · intro hlt
    exact ⟨h.objects[id.index], by simp [hlt]⟩
  · rintro ⟨o, ho⟩
    exact (Array.getElem?_eq_some_iff.mp ho).1

@[simp] theorem size_alloc (h : Heap) (o : Object) : (h.alloc o).2.size = h.size + 1 := by
  simp [alloc, size]

@[simp] theorem size_modify (h : Heap) (id : ObjectId) (f : Object → Object) :
    (h.modify id f).size = h.size := by
  simp [modify, size]

/-- A fresh object is found under its identity. -/
@[simp] theorem get?_alloc_self (h : Heap) (o : Object) : (h.alloc o).2.get? (h.alloc o).1 = some o := by
  simp [alloc, get?]

/-- Allocation leaves the objects there were. -/
theorem get?_alloc_of_some {h : Heap} {id : ObjectId} {p : Object} (hp : h.get? id = some p) (o : Object) :
    (h.alloc o).2.get? id = some p := by
  obtain ⟨hlt, rfl⟩ := Array.getElem?_eq_some_iff.mp hp
  simp [alloc, get?, Array.getElem?_push, Nat.ne_of_lt hlt, hlt]

/-- A change is a change of one object. -/
theorem get?_modify (h : Heap) (id id' : ObjectId) (f : Object → Object) :
    (h.modify id f).get? id' = if id = id' then (h.get? id').map f else h.get? id' := by
  by_cases heq : id = id'
  · subst heq
    simp [modify, get?, Array.getElem?_modify]
  · have hne : id.index ≠ id'.index := fun e => heq (by cases id; cases id'; simp_all)
    simp [modify, get?, Array.getElem?_modify, heq, hne]

/-! ## Objects by kind -/

/-- The text of an object. -/
def objectText (h : Heap) (id : ObjectId) : String :=
  match h.get? id with
  | some o => o.text
  | none => ""

def isFunction (h : Heap) (id : ObjectId) : Bool :=
  match h.get? id with
  | some o => o.isFunction
  | none => false

def code? (h : Heap) (id : ObjectId) : Option Code :=
  match h.get? id with
  | some { kind := .function _ _ code, .. } => some code
  | _ => none

def mapData? (h : Heap) (id : ObjectId) : Option MapData :=
  match h.get? id with
  | some { kind := .map data, .. } => some data
  | _ => none

def setData? (h : Heap) (id : ObjectId) : Option SetData :=
  match h.get? id with
  | some { kind := .set data, .. } => some data
  | _ => none

def listCursor? (h : Heap) (id : ObjectId) : Option ListCursor :=
  match h.get? id with
  | some { kind := .listIterator cursor, .. } => some cursor
  | _ => none

def errorKind? (h : Heap) (id : ObjectId) : Option ErrorKind :=
  match h.get? id with
  | some { kind := .error kind _, .. } => some kind
  | _ => none

/-- The function object that a value is, if it is one. -/
def function? (h : Heap) : Value → Handle
  | .object id => if h.isFunction id then some id else none
  | _ => none

/-- A value is a function if it is an object that is one. -/
theorem function?_eq_some {h : Heap} {v : Value} {f : ObjectId} :
    h.function? v = some f ↔ v = .object f ∧ h.isFunction f = true := by
  cases v with
  | undefined | null | boolean | number | string | symbol => exact ⟨nofun, nofun⟩
  | object id =>
    show (if h.isFunction id = true then some id else none) = some f ↔ _
    rw [Option.ite_none_right_eq_some, Option.some.injEq, Value.object.injEq]
    exact ⟨fun ⟨hfunction, hid⟩ => ⟨hid, hid ▸ hfunction⟩, fun ⟨hid, hfunction⟩ => ⟨hid ▸ hfunction, hid⟩⟩

/-- The name of a value's kind; function objects have one of their own. -/
def typeName (h : Heap) : Value → String
  | .undefined => "undefined"
  | .null => "object"
  | .boolean _ => "boolean"
  | .number _ => "number"
  | .string _ => "string"
  | .symbol _ => "symbol"
  | .object id => if h.isFunction id then "function" else "object"

/-! ## Property lookup -/

/-- At most `bound` objects along the prototype chain. -/
def chainFrom (h : Heap) : Nat → Handle → List ObjectId
  | 0, _ => []
  | _, none => []
  | bound + 1, some id =>
    match h.get? id with
    | some o => id :: h.chainFrom bound o.prototype
    | none => []

/-- The object itself, its prototype, the prototype of that, and so on. -/
def chain (h : Heap) (id : ObjectId) : List ObjectId :=
  h.chainFrom h.size (some id)

def ownProperty? (h : Heap) (key : String) (id : ObjectId) : Option Property :=
  (h.get? id).bind fun o => o.properties.find? key

/-- The property of the first object on the chain that owns the key. A chain that runs into a cycle, and on which no
object owns the key, has no end and so no answer to give; `none` stands for that as well. -/
def lookup (h : Heap) (id : ObjectId) (key : String) : Option Property :=
  (h.chain id).findSome? (h.ownProperty? key)

end Heap

end IterationEngine
