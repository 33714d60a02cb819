/-!
# Tables

Maps from strings, as lists of entries.

A table is looked up by key and counted, and the order of its entries is asked for by nobody: whoever needs the order in
which keys have come keeps it apart. Internal slots and the registry of built-in objects are such tables, and the
properties of an object are one beside the list of their keys.
-/

namespace IterationEngine

structure Table (α : Type) where
  entries : List (String × α) := []
  deriving DecidableEq, Repr, Inhabited

namespace Table

variable {α : Type}

def empty : Table α := ⟨[]⟩

/-- The value of the first entry with that key. -/
def lookup : List (String × α) → String → Option α
  | [], _ => none
  | (k, a) :: rest, key => if k = key then some a else lookup rest key

/-- The entries with the value of `key` replaced, or added at the end. -/
def put : List (String × α) → String → α → List (String × α)
  | [], key, a => [(key, a)]
  | (k, b) :: rest, key, a => if k = key then (key, a) :: rest else (k, b) :: put rest key a

def find? (t : Table α) (key : String) : Option α := lookup t.entries key

def insert (t : Table α) (key : String) (a : α) : Table α := ⟨put t.entries key a⟩

def contains (t : Table α) (key : String) : Bool := (t.find? key).isSome

def size (t : Table α) : Nat := t.entries.length

/-! ## Laws of insertion -/

theorem lookup_put (entries : List (String × α)) (key key' : String) (a : α) :
    lookup (put entries key a) key' = if key = key' then some a else lookup entries key' := by
  induction entries with
  | nil => simp [put, lookup]
  | cons e rest ih =>
      obtain ⟨k, b⟩ := e
      by_cases hk : k = key
      · subst hk
        by_cases hk' : k = key' <;> simp [put, lookup, hk']
      · by_cases hk' : k = key'
        · subst hk'
          simp [put, lookup, hk, Ne.symm hk]
        · simp [put, lookup, hk, hk', ih]

@[simp] theorem find?_insert (t : Table α) (key key' : String) (a : α) :
    (t.insert key a).find? key' = if key = key' then some a else t.find? key' :=
  lookup_put t.entries key key' a

theorem length_put (entries : List (String × α)) (key : String) (a : α) :
    (put entries key a).length = if (lookup entries key).isSome then entries.length else entries.length + 1 := by
  induction entries with
  | nil => rfl
  | cons e rest ih =>
      obtain ⟨k, b⟩ := e
      by_cases hk : k = key
      · simp [put, lookup, hk]
      · simp only [put, lookup, hk, if_false, List.length_cons, ih]
        split <;> rfl

/-- A new key is one entry more. -/
theorem size_insert (t : Table α) (key : String) (a : α) :
    (t.insert key a).size = if t.contains key then t.size else t.size + 1 :=
  length_put t.entries key a

end Table

end IterationEngine
