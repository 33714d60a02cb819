/-!
# Symbols

Symbols of the guest language and the registry that hands them out.

A symbol is told apart by its identity number alone. Objects are keyed by strings, so a symbol has a key that
spells its number and description. The registry numbers symbols from one and keeps one symbol for each
well-known name, made when it is first asked for.
-/

namespace IterationEngine

structure Symbol where
  id : UInt64
  description : String
  deriving DecidableEq, Repr

namespace Symbol

/-- The text of a symbol. -/
def text (s : Symbol) : String :=
  "Symbol(" ++ s.description ++ ")"

/-- The property key of a symbol. -/
def key (s : Symbol) : String :=
  "@@" ++ s.id.toNat.repr ++ ":" ++ s.description

/-- The key of a symbol is no key that starts otherwise. -/
theorem key_ne (s : Symbol) {key : String} (hkey : key.toList.head? ≠ some '@') : s.key ≠ key := by
  rintro rfl
  simp [Symbol.key] at hkey

/-- The symbols that the language itself refers to. -/
inductive WellKnownName where
  | iterator
  | toStringTag
  deriving DecidableEq, Repr

def WellKnownName.description : WellKnownName → String
  | .iterator => "Symbol.iterator"
  | .toStringTag => "Symbol.toStringTag"

def WellKnownName.ofString? (name : String) : Option WellKnownName :=
  if name = WellKnownName.iterator.description then some .iterator
  else if name = WellKnownName.toStringTag.description then some .toStringTag
  else none

/-- The state of symbol creation in one process. Numbers wrap after `2 ^ 64` creations. -/
structure Registry where
  nextId : UInt64 := 1
  iterator : Option Symbol := none
  toStringTag : Option Symbol := none
  deriving DecidableEq, Repr

namespace Registry

/-- A symbol that no earlier call has handed out. -/
def create (r : Registry) (description : String) : Symbol × Registry :=
  (⟨r.nextId, description⟩, { r with nextId := r.nextId + 1 })

def find? (r : Registry) : WellKnownName → Option Symbol
  | .iterator => r.iterator
  | .toStringTag => r.toStringTag

/-- The symbol of a well-known name, created at its first use. -/
def wellKnown (r : Registry) (name : WellKnownName) : Symbol × Registry :=
  match r.find? name with
  | some s => (s, r)
  | none =>
    let (s, r) := r.create name.description
    match name with
    | .iterator => (s, { r with iterator := some s })
    | .toStringTag => (s, { r with toStringTag := some s })

/-- The well-known symbol of that name; other names have none. -/
def wellKnown? (r : Registry) (name : String) : Option Symbol × Registry :=
  match WellKnownName.ofString? name with
  | none => (none, r)
  | some n =>
    let (s, r) := r.wellKnown n
    (some s, r)

end Registry

/-- The well-known symbols as an initialized engine uses them. -/
structure WellKnown where
  iterator : Symbol
  toStringTag : Symbol
  deriving DecidableEq, Repr

/-- Both well-known symbols. -/
def Registry.wellKnowns (r : Registry) : WellKnown × Registry :=
  let (iterator, r) := r.wellKnown .iterator
  let (toStringTag, r) := r.wellKnown .toStringTag
  (⟨iterator, toStringTag⟩, r)

end Symbol

end IterationEngine
