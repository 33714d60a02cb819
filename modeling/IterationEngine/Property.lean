import IterationEngine.Table
import IterationEngine.Value

/-!
# Properties

Properties of objects, and the table of an object's own properties.

A property is a value or a pair of accessors, with a bit set of attributes. The two ways to define a property guard
different attributes: a value may be written unless the key already holds a value that is not writable, an
accessor pair may be defined unless the key already holds a property that is not configurable. A permitted
definition replaces the old property whole.

An object keeps its properties in a map and the order of their keys in a list. The two are written apart, and nothing
but the care of the calls that define properties makes them agree.
-/

namespace IterationEngine

/-- A set of attributes. The bits without a meaning are kept as they are given. -/
structure Attributes where
  bits : UInt8
  deriving DecidableEq, Repr, Inhabited

namespace Attributes

def writable (a : Attributes) : Bool := a.bits.toNat.testBit 0

def enumerable (a : Attributes) : Bool := a.bits.toNat.testBit 1

def configurable (a : Attributes) : Bool := a.bits.toNat.testBit 2

/-- The attributes of a property defined without saying otherwise. -/
def all : Attributes := ⟨7⟩

/-- The attributes of an accessor pair defined without saying otherwise: it is not writable. -/
def accessor : Attributes := ⟨6⟩

/-- The attributes of a method: hidden from enumeration. -/
def hidden : Attributes := ⟨5⟩

/-- The attributes of a fixed label, such as the name of a function: configurable and nothing else. -/
def label : Attributes := ⟨4⟩

end Attributes

inductive Property where
  | data (value : Value) (attributes : Attributes)
  | accessor (getter setter : Handle) (attributes : Attributes)
  deriving DecidableEq, Repr, Inhabited

namespace Property

def attributes : Property → Attributes
  | data _ a | accessor _ _ a => a

/-- Whether a value may be written over this property. -/
def acceptsValue : Property → Bool
  | data _ a => a.writable
  | accessor .. => true

/-- The value of a data property; an accessor pair has none. -/
def value : Property → Value
  | data v _ => v
  | accessor .. => .undefined

end Property

/-- The own properties of an object, by key, and apart from them the keys in the order in which they were first
defined. -/
structure PropertyTable where
  map : Table Property := .empty
  order : List String := []
  deriving DecidableEq, Repr, Inhabited

namespace PropertyTable

def empty : PropertyTable := {}

def find? (t : PropertyTable) (key : String) : Option Property := t.map.find? key

def contains (t : PropertyTable) (key : String) : Bool := t.map.contains key

/-- The keys as they are listed. -/
def keys (t : PropertyTable) : List String := t.order

/-- The number of properties in the map. -/
def size (t : PropertyTable) : Nat := t.map.size

/-- Puts a property in the place of another one, whose key is listed already. -/
def overwrite (t : PropertyTable) (key : String) (p : Property) : PropertyTable :=
  { t with map := t.map.insert key p }

/-- Adds a property, and its key at the end of the list. -/
def append (t : PropertyTable) (key : String) (p : Property) : PropertyTable :=
  { map := t.map.insert key p, order := t.order ++ [key] }

/-- Writes a value under a key, unless the key holds a value that is not writable. -/
def setValue? (t : PropertyTable) (key : String) (v : Value) (a : Attributes) : Option PropertyTable :=
  match t.find? key with
  | some p => if p.acceptsValue then some (t.overwrite key (.data v a)) else none
  | none => some (t.append key (.data v a))

/-- Defines an accessor pair under a key, unless the key holds a property that is not configurable. -/
def setAccessor? (t : PropertyTable) (key : String) (getter setter : Handle) (a : Attributes) :
    Option PropertyTable :=
  match t.find? key with
  | some p => if p.attributes.configurable then some (t.overwrite key (.accessor getter setter a)) else none
  | none => some (t.append key (.accessor getter setter a))

/-- Writes a method; a refused write is dropped. -/
def setMethod (t : PropertyTable) (key : String) (v : Value) : PropertyTable :=
  (setValue? t key v .hidden).getD t

/-- The table with one more value, for tables that are being built up from nothing. -/
def withValue (t : PropertyTable) (key : String) (v : Value) (a : Attributes) : PropertyTable :=
  (setValue? t key v a).getD t

end PropertyTable

end IterationEngine
