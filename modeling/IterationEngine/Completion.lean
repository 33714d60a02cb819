import IterationEngine.Value

/-!
# Completions

Completions: the outcome of a statement or of a cleanup as plain data, so that competing outcomes can be
compared before one of them is raised.
-/

namespace IterationEngine

/-- An outcome. A break or continue names the loop it leaves; the empty label is the innermost loop. -/
inductive Completion where
  | normal (value : Value)
  | returns (value : Value)
  | breaks (label : String)
  | continues (label : String)
  | throws (value : Value)
  deriving DecidableEq, Repr, Inhabited

namespace Completion

/-- The value that a completion carries; a break or continue carries `undefined`. -/
def value : Completion → Value
  | normal v | returns v | throws v => v
  | breaks _ | continues _ => .undefined

/-- The label of a break or continue, empty for the other kinds. -/
def label : Completion → String
  | breaks l | continues l => l
  | normal _ | returns _ | throws _ => ""

def kindName : Completion → String
  | normal _ => "normal"
  | returns _ => "return"
  | breaks _ => "break"
  | continues _ => "continue"
  | throws _ => "throw"

def isNormal : Completion → Bool
  | normal _ => true
  | _ => false

def isReturn : Completion → Bool
  | returns _ => true
  | _ => false

def isBreak : Completion → Bool
  | breaks _ => true
  | _ => false

def isContinue : Completion → Bool
  | continues _ => true
  | _ => false

def isThrow : Completion → Bool
  | throws _ => true
  | _ => false

/-- Every completion but a normal one is abrupt. -/
def isAbrupt (c : Completion) : Bool := !c.isNormal

/-- Same kind, same label and the same value. -/
def equals : Completion → Completion → Bool
  | normal a, normal b | returns a, returns b | throws a, throws b => a.sameValue b
  | breaks a, breaks b | continues a, continues b => a == b
  | _, _ => false

/-- A description for diagnostics, given the text of objects. -/
def describe (objectText : ObjectId → String) (c : Completion) : String :=
  let detail := match c with
    | breaks l | continues l => if l.isEmpty then "" else " " ++ l
    | normal v | returns v | throws v => " " ++ v.text objectText
  "Completion\x7b" ++ c.kindName ++ detail ++ "\x7d"

end Completion

end IterationEngine
