import IterationEngine.Proofs.Close
import IterationEngine.Proofs.Protocol

/-!
# Taking the pending exception

The pending exception is taken only where there is one.

Taking an exception that is not there would make up a throw of `undefined`. The operations that take exceptions
are given here once more, with the way in which they do so as a parameter. If that way agrees with
`Realm.takePending` wherever an exception is pending, however it may differ elsewhere, the operations are the
same (`Taking.close_eq`, `Taking.forOf_eq`, `Taking.toMap_eq`); so they never take one elsewhere.
-/

namespace IterationEngine.Iterator

open Realm

variable {H : Type}

namespace Taking

section Operations

variable (take : Run H Completion) (g : Guest H)

/-- `take` takes the exception that is pending. It may do anything where there is none. -/
def Agrees : Prop := ∀ m : Machine H, m.pending.isSome = true → take m = (liftM takePending : Run H Completion) m

def bodyOutcome (completion : Completion) : Run H Completion := do
  if ← isPending then take
  else return completion

def outcome (result : Value) : Run H Completion := bodyOutcome take (.normal result)

def closeWith (iterator : Handle) (completion : Completion) : Run H Completion := do
  let method ← Access.getMethod g (.ofHandle iterator) "return"
  if ← isPending then
    let failure ← take
    return failure
  else
    match method with
    | none => return completion
    | some f =>
      let result ← g.call f (.ofHandle iterator) []
      let inner ← outcome take result
      match CloseDecision.decide completion inner with
      | .keepCompletion => return completion
      | .useInnerResult => return inner
      | .resultNotObject =>
        raiseNotResult result
        let failure ← take
        return failure

def close (iterator : Handle) (completion : Completion) : Run H Completion := do
  if ← isPending then
    let pending ← take
    closeWith take g iterator pending
  else closeWith take g iterator completion

def leaveLoop (iterator : ObjectId) (last : Value) (completion : Completion) : Run H Completion := do
  let closed ← close take g (some iterator) completion
  match closed with
  | .breaks "" => return .normal last
  | c => return c

def loop (body : Value → Run H Completion) : Nat → ObjectId → Value → Run H Completion
  | 0, _, _ => Run.diverge
  | rounds + 1, iterator, last => do
    match ← item g iterator with
    | .failed =>
      let failure ← take
      return failure
    | .exhausted => return .normal last
    | .value v =>
      let completion ← body v
      let result ← bodyOutcome take completion
      match result with
      | .normal w => loop body rounds iterator w
      | .continues "" => loop body rounds iterator last
      | c => leaveLoop take g iterator last c

def forOf (iterable : Value) (body : Value → Run H Completion) : Run H Completion := do
  match ← of g iterable with
  | none =>
    let failure ← take
    return failure
  | some iterator => loop take g body g.rounds iterator .undefined

def closeFailed (iterator : ObjectId) : Run H Unit := do
  let thrown ← take
  let outcome ← close take g (some iterator) thrown
  rethrow outcome

def fillMap : Nat → ObjectId → ObjectId → Run H Handle
  | 0, _, _ => Run.diverge
  | rounds + 1, iterator, map => do
    match ← item g iterator with
    | .failed => return none
    | .exhausted => return some map
    | .value v =>
      match ← entryOf g v with
      | some (key, entryValue) =>
        insertEntry map key entryValue
        fillMap rounds iterator map
      | none =>
        closeFailed take g iterator
        return none

def toMap (iterable : Value) : Run H Handle := do
  let prototype ← intrinsic .mapPrototype
  let map ← alloc { kind := .map .empty, prototype }
  if iterable.isNullish then return some map
  else
    match ← of g iterable with
    | none => return none
    | some iterator => fillMap take g g.rounds iterator map

end Operations

variable {take : Run H Completion} {g : Guest H} (htake : Agrees take)
include htake

theorem eq_of_pending {m : Machine H} {e : Value} (hp : m.pending = some e) :
    take m = (liftM takePending : Run H Completion) m :=
  htake m (by rw [hp]; rfl)

theorem bodyOutcome_eq (c : Completion) : bodyOutcome take c = liftM (Iterator.bodyOutcome c) := by
  funext m
  rw [bodyOutcome, Run.bodyOutcome_apply]
  cases hp : m.pending with
  | none =>
    rw [Run.ifPending_of_none hp, Machine.effective_of_pending_eq_none hp,
      Machine.settled_of_pending_eq_none hp]
    rfl
  | some e =>
    rw [Run.ifPending_of_pending hp, eq_of_pending htake hp, Run.takePending_of_pending hp,
      Machine.effective_of_pending hp]

theorem outcome_eq (result : Value) : outcome take result = liftM (Iterator.outcome result) :=
  bodyOutcome_eq htake (.normal result)

theorem closeWith_eq (iterator : Handle) (c : Completion) :
    closeWith take g iterator c = Iterator.closeWith g iterator c := by
  funext m
  refine Run.bind_congr fun method m₁ _ => ?_
  cases hp : m₁.pending with
  | some e =>
    rw [Run.ifPending_of_pending hp, Run.ifPending_of_pending hp]
    exact eq_of_pending htake hp
  | none =>
    rw [Run.ifPending_of_none hp, Run.ifPending_of_none hp]
    cases method with
    | none => rfl
    | some f =>
      refine Run.bind_congr fun result m₂ _ => ?_
      rw [outcome_eq htake]
      refine Run.bind_congr fun inner m₃ _ => ?_
      cases CloseDecision.decide c inner with
      | keepCompletion | useInnerResult => rfl
      | resultNotObject =>
        -- the error that is taken here has just been raised
        exact eq_of_pending htake (Machine.pending_withError m₃ _ _)

theorem close_eq (iterator : Handle) (c : Completion) :
    close take g iterator c = Iterator.close g iterator c := by
  funext m
  unfold close Iterator.close
  cases hp : m.pending with
  | none => rw [Run.ifPending_of_none hp, Run.ifPending_of_none hp, closeWith_eq htake]
  | some e =>
    rw [Run.ifPending_of_pending hp, Run.ifPending_of_pending hp]
    have htaken := Run.takePending_of_pending hp
    rw [Run.bind_eq_of_eq_some htaken, ← closeWith_eq htake]
    exact Run.bind_eq_of_eq_some ((eq_of_pending htake hp).trans htaken) _

theorem leaveLoop_eq (iterator : ObjectId) (last : Value) (c : Completion) :
    leaveLoop take g iterator last c = Iterator.leaveLoop g iterator last c := by
  rw [leaveLoop, close_eq htake]
  rfl

theorem loop_eq (body : Value → Run H Completion) (rounds : Nat) (iterator : ObjectId) (last : Value) :
    loop take g body rounds iterator last = Iterator.loop g body rounds iterator last := by
  induction rounds generalizing last with
  | zero => rfl
  | succ rounds ih =>
    funext m
    refine Run.bind_congr fun x m₁ hx => ?_
    cases x with
    | failed =>
      -- an item fails only with an exception pending
      exact htake m₁ ((taken_of_item hx).failed_iff.mp rfl)
    | exhausted => rfl
    | value v =>
      refine Run.bind_congr fun c m₂ _ => ?_
      rw [bodyOutcome_eq htake]
      refine Run.bind_congr fun o m₃ _ => ?_
      have hloop : loop take g body rounds iterator = Iterator.loop g body rounds iterator := funext ih
      have hleave : leaveLoop take g iterator last = Iterator.leaveLoop g iterator last :=
        funext (leaveLoop_eq htake iterator last)
      generalize loop take g body rounds iterator = next at hloop
      generalize leaveLoop take g iterator last = leave at hleave
      subst hloop hleave
      rfl

theorem forOf_eq (iterable : Value) (body : Value → Run H Completion) :
    forOf take g iterable body = Iterator.forOf g iterable body := by
  funext m
  refine Run.bind_congr fun iterator m₁ hof => ?_
  cases iterator with
  | none => exact htake m₁ ((signals_of g iterable m none m₁ hof).mp rfl)
  | some iterator => exact congrFun (loop_eq htake body _ iterator _) m₁

/-- Closing after a failure takes the exception that the failure has left. -/
theorem closeFailed_eq (iterator : ObjectId) {m : Machine H} (hm : m.pending.isSome = true) :
    closeFailed take g iterator m = Iterator.closeFailed g iterator m := by
  obtain ⟨e, hp⟩ := Option.isSome_iff_exists.mp hm
  have htaken := Run.takePending_of_pending hp
  unfold closeFailed Iterator.closeFailed
  rw [Run.bind_eq_of_eq_some htaken, ← close_eq htake]
  exact Run.bind_eq_of_eq_some ((eq_of_pending htake hp).trans htaken) _

theorem fillMap_eq (rounds : Nat) (iterator map : ObjectId) :
    fillMap take g rounds iterator map = Iterator.fillMap g rounds iterator map := by
  induction rounds with
  | zero => rfl
  | succ rounds ih =>
    funext m
    refine Run.bind_congr fun x m₁ _ => ?_
    cases x with
    | failed | exhausted => rfl
    | value v =>
      refine Run.bind_congr fun entry m₂ hentry => ?_
      cases entry with
      | some entry => exact Run.bind_congr fun _ m₃ _ => congrFun ih m₃
      | none =>
        have hm₂ : m₂.pending.isSome = true := (signals_entryOf g v m₁ none m₂ hentry).mp rfl
        exact Run.bind_congr_left (closeFailed_eq htake iterator hm₂) _

theorem toMap_eq (iterable : Value) : toMap take g iterable = Iterator.toMap g iterable := by
  unfold toMap Iterator.toMap
  funext m
  refine Run.bind_congr fun prototype m₁ _ => ?_
  refine Run.bind_congr fun map m₂ _ => ?_
  split
  · rfl
  · refine Run.bind_congr fun iterator m₃ _ => ?_
    cases iterator with
    | none => rfl
    | some iterator => exact congrFun (fillMap_eq htake _ iterator map) m₃

end Taking

end IterationEngine.Iterator
