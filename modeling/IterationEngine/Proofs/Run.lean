import IterationEngine.Iterator.Consume

/-!
# Runs, step by step

What a run did, read off its answer.

A run is a chain of actions of the engine and calls of guest code, and an answer of the whole gives an answer of
every link. The lemmas here take such a chain apart: `Run.bind_eq_some` at a call, the equations of this module
at an action, and `ifPending_eq_some` where an operation looks for an exception.
-/

namespace IterationEngine

variable {H α β : Type}

namespace Machine

/-- The exception that is pending, if there is one. -/
def pending (m : Machine H) : Option Value := m.realm.context.pending

/-- The machine with another realm. -/
def withRealm (m : Machine H) (r : Realm) : Machine H := { m with realm := r }

/-- The machine with no exception pending. -/
def settled (m : Machine H) : Machine H :=
  m.withRealm { m.realm with context := { m.realm.context with cell := .empty } }

/-- The exception that is pending as a throw, or else the completion `c`. -/
def effective (m : Machine H) (c : Completion) : Completion := m.pending.elim c .throws

@[simp] theorem realm_withRealm (m : Machine H) (r : Realm) : (m.withRealm r).realm = r := rfl

@[simp] theorem pending_settled (m : Machine H) : m.settled.pending = none := rfl

theorem effective_of_pending {m : Machine H} {e : Value} (h : m.pending = some e) (c : Completion) :
    m.effective c = .throws e := by
  rw [effective, h, Option.elim_some]

theorem effective_of_pending_eq_none {m : Machine H} (h : m.pending = none) (c : Completion) :
    m.effective c = c := by
  rw [effective, h, Option.elim_none]

theorem pending_of_effective {m : Machine H} {v e : Value} (h : m.effective (.normal v) = .throws e) :
    m.pending = some e := by
  cases hp : m.pending with
  | none =>
    rw [effective_of_pending_eq_none hp] at h
    cases h
  | some e' =>
    rw [effective_of_pending hp] at h
    exact congrArg _ (Completion.throws.inj h)

theorem settled_of_pending_eq_none {m : Machine H} (h : m.pending = none) : m.settled = m := by
  obtain ⟨⟨heap, context, registry⟩, host⟩ := m
  obtain ⟨frame, depth, maxDepth, strict, global, builtins, cell, symbols⟩ := context
  obtain rfl : cell = .empty := ExceptionCell.eq_empty h
  rfl

end Machine

namespace Run

theorem lift_bind_apply (x : Action α) (f : α → Run H β) (m : Machine H) :
    ((liftM x : Run H α) >>= f) m = f (x m.realm).1 (m.withRealm (x m.realm).2) := rfl

theorem getHeap_bind_apply (f : Heap → Run H β) (m : Machine H) :
    ((liftM Realm.getHeap : Run H Heap) >>= f) m = f m.realm.heap m := rfl

theorem getContext_bind_apply (f : Context → Run H β) (m : Machine H) :
    ((liftM Realm.getContext : Run H Context) >>= f) m = f m.realm.context m := rfl

theorem textOf_bind_apply (v : Value) (f : String → Run H β) (m : Machine H) :
    ((liftM (Realm.textOf v) : Run H String) >>= f) m = f (v.text m.realm.heap.objectText) m := rfl

theorem lift_eq_some {x : Action α} {m m' : Machine H} {a : α} (h : (liftM x : Run H α) m = some (a, m')) :
    a = (x m.realm).1 ∧ m' = m.withRealm (x m.realm).2 := by
  rw [lift_apply, Option.some.injEq, Prod.mk.injEq] at h
  exact ⟨h.1.symm, h.2.symm⟩

theorem pure_eq_some {a b : α} {m m' : Machine H} (h : (pure a : Run H α) m = some (b, m')) :
    b = a ∧ m' = m := by
  rw [pure_apply, Option.some.injEq, Prod.mk.injEq] at h
  exact ⟨h.1.symm, h.2.symm⟩

/-- Runs that go on alike from what the first one leaves are alike. -/
theorem bind_congr {x : Run H α} {f k : α → Run H β} {m : Machine H}
    (h : ∀ a m', x m = some (a, m') → f a m' = k a m') : (x >>= f) m = (x >>= k) m := by
  show (x m).bind (fun p => f p.1 p.2) = (x m).bind fun p => k p.1 p.2
  cases hx : x m with
  | none => rfl
  | some p => exact h p.1 p.2 hx

theorem bind_congr_left {x y : Run H α} {m : Machine H} (h : x m = y m) (f : α → Run H β) :
    (x >>= f) m = (y >>= f) m := by
  show (x m).bind (fun p => f p.1 p.2) = (y m).bind fun p => f p.1 p.2
  rw [h]

theorem bind_eq_of_eq_some {x : Run H α} {m m' : Machine H} {a : α} (h : x m = some (a, m'))
    (f : α → Run H β) : (x >>= f) m = f a m' := by
  show (x m).bind (fun p => f p.1 p.2) = _
  rw [h, Option.bind_some]

theorem takePending_apply (m : Machine H) :
    (liftM Realm.takePending : Run H Completion) m =
      some (.throws (m.pending.getD .undefined), m.settled) := by
  rw [Machine.pending, ← Context.exception_eq]
  rfl

theorem ifPending_of_pending {m : Machine H} {e : Value} (hp : m.pending = some e) (x y : Run H α) :
    (do if ← Realm.isPending then x else y : Run H α) m = x m := by
  show (if m.realm.context.cell.isPending = true then x else y) m = _
  rw [ExceptionCell.eq_holding hp]
  rfl

theorem ifPending_of_none {m : Machine H} (hp : m.pending = none) (x y : Run H α) :
    (do if ← Realm.isPending then x else y : Run H α) m = y m := by
  show (if m.realm.context.cell.isPending = true then x else y) m = _
  rw [ExceptionCell.eq_empty hp]
  rfl

/-- An operation that looks for an exception goes one of two ways, and looking changes nothing. -/
theorem ifPending_eq_some {x y : Run H α} {m : Machine H} {r : α × Machine H} :
    (do if ← Realm.isPending then x else y : Run H α) m = some r ↔
      (∃ e, m.pending = some e ∧ x m = some r) ∨ (m.pending = none ∧ y m = some r) := by
  cases hp : m.pending with
  | none =>
    rw [ifPending_of_none hp]
    simp
  | some e =>
    rw [ifPending_of_pending hp]
    simp

theorem takePending_of_pending {m : Machine H} {e : Value} (hp : m.pending = some e) :
    (liftM Realm.takePending : Run H Completion) m = some (.throws e, m.settled) := by
  rw [takePending_apply, hp]
  rfl

theorem bodyOutcome_apply (c : Completion) (m : Machine H) :
    (liftM (Iterator.bodyOutcome c) : Run H Completion) m = some (m.effective c, m.settled) := by
  obtain ⟨⟨heap, context, registry⟩, host⟩ := m
  obtain ⟨frame, depth, maxDepth, strict, global, builtins, cell, symbols⟩ := context
  cases h : cell.pending with
  | none =>
    obtain rfl := ExceptionCell.eq_empty h
    rfl
  | some e =>
    obtain rfl := ExceptionCell.eq_holding h
    rfl

theorem outcome_apply (v : Value) (m : Machine H) :
    (liftM (Iterator.outcome v) : Run H Completion) m = some (m.effective (.normal v), m.settled) :=
  bodyOutcome_apply (.normal v) m

end Run

/-- The two ways to a list, by a given method and by the method of the iterable, differ in the iterator alone. -/
theorem Iterator.toList_eq (g : Guest H) (v : Value) (method : Option Value) :
    toList g v method = (do
      let iterator ← method.elim (of g v) (ofMethod g v)
      iterator.elim (pure []) fun id => drain g g.rounds id #[]) := by
  unfold toList
  cases method with
  | none =>
    refine bind_congr fun iterator => ?_
    cases iterator <;> rfl
  | some method =>
    refine bind_congr fun iterator => ?_
    cases iterator <;> rfl

namespace Realm

theorem getHeap_bind_apply (f : Heap → Action α) (r : Realm) : (getHeap >>= f) r = f r.heap r := rfl

theorem getContext_bind_apply (f : Context → Action α) (r : Realm) : (getContext >>= f) r = f r.context r := rfl

/-! ## Raised errors -/

/-- The realm after a fresh error of that kind has been raised. -/
def withError (r : Realm) (kind : ErrorKind) (message : String) : Realm :=
  let e := Object.ofError kind message (r.context.intrinsic kind.prototype)
  { r with
    heap := (r.heap.alloc e).2
    context := { r.context with cell := .holding (.object (r.heap.alloc e).1) } }

/-- An action that leaves an exception pending in every realm. -/
def Raises (x : Action Unit) : Prop := ∀ r : Realm, (x r).2.context.pending.isSome = true

theorem raises_raiseTypeError (message : String) : Raises (raiseTypeError message) := fun _ => rfl

theorem raises_raiseNotResult (v : Value) : Raises (Iterator.raiseNotResult v) := fun _ => rfl

end Realm

theorem Run.raise_eq_some {x : Action Unit} (hx : Realm.Raises x) {a b : α} {m m' : Machine H}
    (h : (do x; return a : Run H α) m = some (b, m')) : b = a ∧ m'.pending.isSome = true := by
  rw [lift_bind_apply] at h
  obtain ⟨rfl, rfl⟩ := pure_eq_some h
  exact ⟨rfl, hx m.realm⟩

/-- The machine after a fresh error of that kind has been raised. -/
def Machine.withError (m : Machine H) (kind : ErrorKind) (message : String) : Machine H :=
  m.withRealm (m.realm.withError kind message)

theorem Machine.pending_withError (m : Machine H) (kind : ErrorKind) (message : String) :
    (m.withError kind message).pending = some (.object ⟨m.realm.heap.size⟩) := rfl

/-- In `r'` an error of that kind and message is pending which is no object of `r`. -/
def Realm.Raised (r r' : Realm) (kind : ErrorKind) (message : String) : Prop :=
  ∃ e, r'.context.pending = some (.object e) ∧ r.heap.get? e = none ∧
    r'.heap.get? e = some (.ofError kind message (r.context.intrinsic kind.prototype))

theorem Heap.get?_alloc_fst (h : Heap) (o : Object) : h.get? (h.alloc o).1 = none := by
  simp [Heap.alloc, Heap.get?]

theorem Realm.raised_withError (r : Realm) (kind : ErrorKind) (message : String) :
    r.Raised (r.withError kind message) kind message :=
  ⟨_, rfl, Heap.get?_alloc_fst _ _, Heap.get?_alloc_self _ _⟩

end IterationEngine
