import IterationEngine.Value

/-!
# Maps and sets

The data of maps and sets: lists in insertion order whose keys are compared by `Value.sameValueZero`.

A negative zero is stored as zero. Overwriting the value of a key keeps its place and the key first stored;
deleting it and adding it again moves it to the end.
-/

namespace IterationEngine

/-- The form in which a key is stored: negative zero becomes zero. -/
def Value.normalizeKey : Value → Value
  | .number n => .number (if n.isZero then .zero else n)
  | v => v

/-- Entries of a map in the order in which their keys were added. -/
structure MapData where
  entries : List (Value × Value) := []
  deriving DecidableEq, Repr, Inhabited

namespace MapData

def empty : MapData := ⟨[]⟩

/-- The first entry whose key is the same. -/
def findEntry? (m : MapData) (key : Value) : Option (Value × Value) :=
  m.entries.find? fun e => e.1.sameValueZero key

def contains (m : MapData) (key : Value) : Bool := (m.findEntry? key).isSome

def find? (m : MapData) (key : Value) : Option Value := (m.findEntry? key).map Prod.snd

/-- The entries with the value of a key replaced, or with a new entry at the end. -/
def put : List (Value × Value) → Value → Value → List (Value × Value)
  | [], key, v => [(key.normalizeKey, v)]
  | e :: rest, key, v => if e.1.sameValueZero key then (e.1, v) :: rest else e :: put rest key v

def insert (m : MapData) (key v : Value) : MapData := ⟨put m.entries key v⟩

/-- The map without the entry of that key. -/
def erase (m : MapData) (key : Value) : MapData :=
  ⟨m.entries.eraseP fun e => e.1.sameValueZero key⟩

/-- Deletes the entry of a key and tells whether there was one. -/
def delete (m : MapData) (key : Value) : Bool × MapData :=
  match m.findEntry? key with
  | some _ => (true, m.erase key)
  | none => (false, m)

def size (m : MapData) : Nat := m.entries.length
def keys (m : MapData) : List Value := m.entries.map Prod.fst
def values (m : MapData) : List Value := m.entries.map Prod.snd

end MapData

/-- Values of a set in the order in which they were added. -/
structure SetData where
  values : List Value := []
  deriving DecidableEq, Repr, Inhabited

namespace SetData

def empty : SetData := ⟨[]⟩

def contains (s : SetData) (v : Value) : Bool := s.values.any fun x => x.sameValueZero v

/-- The set with a value added at the end, unless it is there already. -/
def insert (s : SetData) (v : Value) : SetData :=
  if s.contains v then s else ⟨s.values ++ [v.normalizeKey]⟩

def size (s : SetData) : Nat := s.values.length

end SetData

end IterationEngine
