import IterationEngine.Number.Text
import IterationEngine.Number.Numeral
import IterationEngine.Symbol

/-!
# Values

Values of the guest language: seven kinds, three equalities, and the conversions that need no heap.

Objects are identities; what an object is, the heap knows. The text of an object is therefore a parameter of
the conversions to text.
-/

namespace IterationEngine

/-- The identity of a heap object: its place in the order of allocation. -/
structure ObjectId where
  index : Nat
  deriving DecidableEq, Hashable, Repr

/-- An object or nothing, as prototypes, accessors and registry entries are. -/
abbrev Handle := Option ObjectId

inductive Value where
  | undefined
  | null
  | boolean (b : Bool)
  | number (n : Number)
  | string (s : String)
  | symbol (s : Symbol)
  | object (id : ObjectId)
  deriving DecidableEq, Repr, Inhabited

namespace Value

/-- A handle as a value: nothing is `undefined`. -/
def ofHandle : Handle → Value
  | some id => object id
  | none => undefined

/-- The object that a value is, if it is one. -/
def object? : Value → Handle
  | object id => some id
  | _ => none

def isUndefined : Value → Bool
  | undefined => true
  | _ => false

def isNullish : Value → Bool
  | undefined | null => true
  | _ => false

def isObject (v : Value) : Bool := v.object?.isSome

def isNaN : Value → Bool
  | number n => n.isNaN
  | _ => false

/-! ## Equalities -/

/-- Equality of kind and content; NaN differs from itself, the zeros are equal. -/
def strictEquals : Value → Value → Bool
  | undefined, undefined => true
  | null, null => true
  | boolean a, boolean b => a == b
  | number a, number b => a.equals b
  | string a, string b => a == b
  | symbol a, symbol b => a.id == b.id
  | object a, object b => a == b
  | _, _ => false

/-- Equality that finds NaN equal to itself and parts the zeros. -/
def sameValue : Value → Value → Bool
  | number a, number b => a.same b
  | a, b => a.strictEquals b

/-- Equality that finds NaN equal to itself and the zeros equal; keys of collections are compared by it. -/
def sameValueZero : Value → Value → Bool
  | number a, number b => a.sameZero b
  | a, b => a.strictEquals b

/-! ## Conversions -/

def toBoolean : Value → Bool
  | undefined | null => false
  | boolean b => b
  | number n => !n.isNaN && !n.isZero
  | string s => !s.isEmpty
  | symbol _ | object _ => true

def toNumber : Value → Number
  | undefined => .nan
  | null => .zero
  | boolean b => if b then .one else .zero
  | number n => n
  | string s => .ofText s
  | symbol _ | object _ => .nan

/-- The text of a value, given the text of objects. -/
def text (objectText : ObjectId → String) : Value → String
  | undefined => "undefined"
  | null => "null"
  | boolean b => if b then "true" else "false"
  | number n => n.text
  | string s => s
  | symbol s => s.text
  | object id => objectText id

/-- The property key that a value stands for, given the text of objects. -/
def key (objectText : ObjectId → String) : Value → String
  | symbol s => s.key
  | v => v.text objectText

end Value

end IterationEngine
