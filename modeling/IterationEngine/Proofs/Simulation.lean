import IterationEngine.Proofs.Quiet

/-!
# Simulation

One operation on two machines at once.

The engine carries the state of its embedder and never looks at it, and of guest code it knows only how to call
a function object. So an operation on a machine `m` goes the same way on another machine `n` whose embedder and
guest code are different ones, as long as a relation `R` between `m` and `n` survives what the engine does by
itself (`Realm.Quiet`) and the calls of guest code. `Run.Sim` states this for a run, `Mirror` collects what is
asked of `R`, and there is one lemma for each operation.

With one machine on both sides, `R` is an invariant of a run; with a second machine that keeps a record, `R`
says that keeping it changes nothing.
-/

namespace IterationEngine

variable {H K α β : Type}

/-- From machines that `R` relates, both runs give no answer, or they give the same and `R` relates what they
leave. -/
def Run.Sim (R : Machine H → Machine K → Prop) (x : Run H α) (y : Run K α) : Prop :=
  ∀ m n, R m n → Option.Rel (fun p q => p.1 = q.1 ∧ R p.2 q.2) (x m) (y n)

namespace Run.Sim

variable {R : Machine H → Machine K → Prop}

theorem pure (a : α) : Sim R (Pure.pure a : Run H α) (Pure.pure a) :=
  fun _ _ hmn => .some ⟨rfl, hmn⟩

theorem diverge : Sim R (Run.diverge : Run H α) Run.diverge := fun _ _ _ => .none

/-- Runs that agree go on alike if what follows does, from all that the first ones may leave. -/
theorem rel_bind {R' : Machine H → Machine K → Prop} {x : Run H α} {y : Run K α} {f : α → Run H β}
    {k : α → Run K β} {m : Machine H} {n : Machine K}
    (hxy : Option.Rel (fun p q => p.1 = q.1 ∧ R' p.2 q.2) (x m) (y n))
    (hfk : ∀ a m' n', R' m' n' → Option.Rel (fun p q => p.1 = q.1 ∧ R p.2 q.2) (f a m') (k a n')) :
    Option.Rel (fun p q => p.1 = q.1 ∧ R p.2 q.2) ((x >>= f) m) ((y >>= k) n) := by
  show Option.Rel _ ((x m).bind fun p => f p.1 p.2) ((y n).bind fun p => k p.1 p.2)
  generalize x m = p at hxy
  generalize y n = q at hxy
  cases hxy with
  | none => exact .none
  | @some p q hpq =>
    obtain ⟨a, m'⟩ := p
    obtain ⟨b, n'⟩ := q
    obtain ⟨rfl, hR⟩ := hpq
    exact hfk a m' n' hR

theorem bind {x : Run H α} {y : Run K α} {f : α → Run H β} {k : α → Run K β} (hxy : Sim R x y)
    (hfk : ∀ a, Sim R (f a) (k a)) : Sim R (x >>= f) (y >>= k) :=
  fun m n hmn => rel_bind (hxy m n hmn) hfk

/-- An answer on the left is an answer on the right. -/
theorem exists_right {x : Run H α} {y : Run K α} (hxy : Sim R x y) {m m' : Machine H} {n : Machine K} {a : α}
    (hmn : R m n) (hx : x m = some (a, m')) : ∃ n', y n = some (a, n') ∧ R m' n' := by
  have hrel := hxy m n hmn
  rw [hx] at hrel
  generalize y n = q at hrel
  cases hrel with
  | @some _ q hpq =>
    obtain ⟨b, n'⟩ := q
    obtain ⟨rfl, hR⟩ := hpq
    exact ⟨n', rfl, hR⟩

/-- An answer on the right is an answer on the left. -/
theorem exists_left {x : Run H α} {y : Run K α} (hxy : Sim R x y) {m : Machine H} {n n' : Machine K} {a : α}
    (hmn : R m n) (hy : y n = some (a, n')) : ∃ m', x m = some (a, m') ∧ R m' n' := by
  have hrel := hxy m n hmn
  rw [hy] at hrel
  generalize x m = p at hrel
  cases hrel with
  | @some p _ hpq =>
    obtain ⟨b, m'⟩ := p
    obtain ⟨rfl, hR⟩ := hpq
    exact ⟨m', rfl, hR⟩

theorem eq_none_iff {x : Run H α} {y : Run K α} (hxy : Sim R x y) {m : Machine H} {n : Machine K} (hmn : R m n) :
    x m = none ↔ y n = none := by
  have hrel := hxy m n hmn
  generalize x m = p at hrel
  generalize y n = q at hrel
  cases hrel with
  | none => exact iff_of_true rfl rfl
  | some => exact ⟨nofun, nofun⟩

end Run.Sim

/-- `R` is kept by quiet changes of the realm, which both machines share, and by calls of guest code. -/
structure Mirror (R : Machine H → Machine K → Prop) (g : Guest H) (g' : Guest K) : Prop where
  realm : ∀ {m n}, R m n → n.realm = m.realm
  quiet : ∀ {m n r}, R m n → m.realm.Quiet r → R (m.withRealm r) (n.withRealm r)
  call : ∀ f v args, Run.Sim R (g.call f v args) (g'.call f v args)
  rounds : g.rounds = g'.rounds

namespace Mirror

variable {R : Machine H → Machine K → Prop} {g : Guest H} {g' : Guest K}

theorem action (M : Mirror R g g') {x : Action α} (hx : Realm.IsQuiet x) : Run.Sim R (liftM x) (liftM x) := by
  intro m n hmn
  rw [Run.lift_apply, Run.lift_apply, M.realm hmn]
  exact .some ⟨rfl, M.quiet hmn (hx m.realm)⟩

open Realm.IsQuiet

/-! ## Access -/

theorem get (M : Mirror R g g') (id : ObjectId) (key : String) (receiver : Value) :
    Run.Sim R (Access.get g id key receiver) (Access.get g' id key receiver) := by
  refine (M.action getHeap).bind fun heap => ?_
  split
  · exact .pure _
  · split
    · exact M.call _ _ _
    · exact .pure _
  · exact .pure _

theorem getFrom (M : Mirror R g g') (object : Handle) (key : String) :
    Run.Sim R (Access.getFrom g object key) (Access.getFrom g' object key) := by
  cases object with
  | some id => exact M.get id key _
  | none => exact (M.action (raiseTypeError _)).bind fun _ => .pure _

theorem getV (M : Mirror R g g') (v : Value) (key : String) :
    Run.Sim R (Access.getV g v key) (Access.getV g' v key) := by
  cases v with
  | undefined | null =>
    exact (M.action (textOf _)).bind fun _ => (M.action (raiseTypeError _)).bind fun _ => .pure _
  | object id => exact M.get id key _
  | boolean | number | string | symbol => exact .pure _

theorem getMethod (M : Mirror R g g') (v : Value) (key : String) :
    Run.Sim R (Access.getMethod g v key) (Access.getMethod g' v key) := by
  refine (M.getV v key).bind fun method => (M.action isPending).bind fun pending => ?_
  split
  · exact .pure _
  split
  · exact .pure _
  refine (M.action getHeap).bind fun heap => ?_
  split
  · exact .pure _
  · exact (M.action (raiseNotCallable _ _)).bind fun _ => .pure _

theorem callValue (M : Mirror R g g') (callable receiver : Value) (args : List Value) :
    Run.Sim R (Access.call g callable receiver args) (Access.call g' callable receiver args) := by
  refine (M.action getHeap).bind fun heap => ?_
  split
  · exact M.call _ _ _
  · exact (M.action (textOf _)).bind fun _ => (M.action (raiseTypeError _)).bind fun _ => .pure _

theorem invoke (M : Mirror R g g') (v : Value) (key : String) (args : List Value) :
    Run.Sim R (Access.invoke g v key args) (Access.invoke g' v key args) := by
  refine (M.getV v key).bind fun method => (M.action isPending).bind fun pending => ?_
  split
  · exact .pure _
  refine (M.action getHeap).bind fun heap => ?_
  split
  · exact M.call _ _ _
  · exact (M.action (raiseNotCallable _ _)).bind fun _ => .pure _

/-! ## The protocol -/

theorem ofMethod (M : Mirror R g g') (v method : Value) :
    Run.Sim R (Iterator.ofMethod g v method) (Iterator.ofMethod g' v method) := by
  refine (M.callValue method v []).bind fun iterator => (M.action isPending).bind fun pending => ?_
  split
  · exact .pure _
  split
  · exact .pure _
  · exact (M.action (raiseTypeError _)).bind fun _ => .pure _

theorem of (M : Mirror R g g') (v : Value) : Run.Sim R (Iterator.of g v) (Iterator.of g' v) := by
  refine (M.action getContext).bind fun context => ?_
  refine (M.getMethod v _).bind fun method => (M.action isPending).bind fun pending => ?_
  split
  · exact .pure _
  split
  · exact M.ofMethod v _
  · exact (M.action (textOf _)).bind fun _ => (M.action (raiseTypeError _)).bind fun _ => .pure _

theorem next (M : Mirror R g g') (iterator : Handle) (argument : Option Value) :
    Run.Sim R (Iterator.next g iterator argument) (Iterator.next g' iterator argument) := by
  refine (M.invoke _ _ _).bind fun result => (M.action isPending).bind fun pending => ?_
  split
  · exact .pure _
  split
  · exact .pure _
  · exact (M.action (raiseNotResult _)).bind fun _ => .pure _

theorem isDone (M : Mirror R g g') (result : ObjectId) :
    Run.Sim R (Iterator.isDone g result) (Iterator.isDone g' result) := by
  refine (M.getFrom _ _).bind fun done => (M.action isPending).bind fun pending => ?_
  split <;> exact .pure _

theorem value (M : Mirror R g g') (result : ObjectId) :
    Run.Sim R (Iterator.value g result) (Iterator.value g' result) :=
  M.getFrom _ _

theorem step (M : Mirror R g g') (iterator : Handle) :
    Run.Sim R (Iterator.step g iterator) (Iterator.step g' iterator) := by
  refine (M.next iterator none).bind fun result => ?_
  cases result with
  | none => exact .pure _
  | some result =>
    refine (M.isDone result).bind fun done => (M.action isPending).bind fun pending => ?_
    split
    · exact .pure _
    · split <;> exact .pure _

theorem isIterable (M : Mirror R g g') (v : Value) :
    Run.Sim R (Iterator.isIterable g v) (Iterator.isIterable g' v) := by
  unfold Iterator.isIterable
  split
  · refine (M.action getContext).bind fun context => ?_
    refine (M.getV v _).bind fun method => (M.action isPending).bind fun pending => ?_
    split
    · exact .pure _
    · exact (M.action getHeap).bind fun heap => .pure _
  · exact .pure _

theorem closeWith (M : Mirror R g g') (iterator : Handle) (c : Completion) :
    Run.Sim R (Iterator.closeWith g iterator c) (Iterator.closeWith g' iterator c) := by
  refine (M.getMethod _ _).bind fun method => (M.action isPending).bind fun pending => ?_
  split
  · exact M.action takePending
  split
  · exact .pure _
  · refine (M.call _ _ _).bind fun result => (M.action (outcome result)).bind fun inner => ?_
    split
    · exact .pure _
    · exact .pure _
    · exact (M.action (raiseNotResult _)).bind fun _ => M.action takePending

theorem close (M : Mirror R g g') (iterator : Handle) (c : Completion) :
    Run.Sim R (Iterator.close g iterator c) (Iterator.close g' iterator c) := by
  refine (M.action isPending).bind fun pending => ?_
  split
  · exact (M.action takePending).bind fun pending => M.closeWith iterator pending
  · exact M.closeWith iterator c

/-! ## Consumers -/

theorem item (M : Mirror R g g') (iterator : ObjectId) :
    Run.Sim R (Iterator.item g iterator) (Iterator.item g' iterator) := by
  refine (M.step _).bind fun result => (M.action isPending).bind fun pending => ?_
  split
  · exact .pure _
  cases result with
  | none => exact .pure _
  | some r =>
    refine (M.value r).bind fun v => (M.action isPending).bind fun pending => ?_
    split <;> exact .pure _

theorem drain (M : Mirror R g g') (rounds : Nat) (iterator : ObjectId) (taken : Array Value) :
    Run.Sim R (Iterator.drain g rounds iterator taken) (Iterator.drain g' rounds iterator taken) := by
  induction rounds generalizing taken with
  | zero => exact .diverge
  | succ rounds ih =>
    refine (M.item iterator).bind fun item => ?_
    cases item with
    | failed => exact .pure _
    | exhausted => exact .pure _
    | value v => exact ih _

theorem toList (M : Mirror R g g') (iterable : Value) (method : Option Value) :
    Run.Sim R (Iterator.toList g iterable method) (Iterator.toList g' iterable method) := by
  have hiterator : Run.Sim R (method.elim (Iterator.of g iterable) (Iterator.ofMethod g iterable))
      (method.elim (Iterator.of g' iterable) (Iterator.ofMethod g' iterable)) := by
    cases method with
    | none => exact M.of iterable
    | some method => exact M.ofMethod iterable method
  rw [Iterator.toList_eq, Iterator.toList_eq]
  refine hiterator.bind fun iterator => ?_
  cases iterator with
  | none => exact .pure _
  | some id =>
    rw [← M.rounds]
    exact M.drain _ id #[]

theorem leaveLoop (M : Mirror R g g') (iterator : ObjectId) (last : Value) (c : Completion) :
    Run.Sim R (Iterator.leaveLoop g iterator last c) (Iterator.leaveLoop g' iterator last c) := by
  refine (M.close _ c).bind fun closed => ?_
  split <;> exact .pure _

section Loops

variable {body : Value → Run H Completion} {body' : Value → Run K Completion}

theorem loop (M : Mirror R g g') (hbody : ∀ v, Run.Sim R (body v) (body' v)) (rounds : Nat)
    (iterator : ObjectId) (last : Value) :
    Run.Sim R (Iterator.loop g body rounds iterator last) (Iterator.loop g' body' rounds iterator last) := by
  induction rounds generalizing last with
  | zero => exact .diverge
  | succ rounds ih =>
    refine (M.item iterator).bind fun item => ?_
    cases item with
    | failed => exact M.action takePending
    | exhausted => exact .pure _
    | value v =>
      refine (hbody v).bind fun c => (M.action (bodyOutcome c)).bind fun result => ?_
      split
      · exact ih _
      · exact ih _
      · exact M.leaveLoop _ _ _

theorem forOf (M : Mirror R g g') (hbody : ∀ v, Run.Sim R (body v) (body' v)) (iterable : Value) :
    Run.Sim R (Iterator.forOf g iterable body) (Iterator.forOf g' iterable body') := by
  refine (M.of iterable).bind fun iterator => ?_
  cases iterator with
  | none => exact M.action takePending
  | some iterator =>
    rw [← M.rounds]
    exact M.loop hbody _ iterator _

end Loops

theorem entryOf (M : Mirror R g g') (v : Value) :
    Run.Sim R (Iterator.entryOf g v) (Iterator.entryOf g' v) := by
  unfold Iterator.entryOf
  split
  · refine (M.getFrom _ _).bind fun key => (M.action isPending).bind fun pending => ?_
    split
    · exact .pure _
    refine (M.getFrom _ _).bind fun entryValue => (M.action isPending).bind fun pending => ?_
    split <;> exact .pure _
  · exact (M.action (textOf _)).bind fun _ => (M.action (raiseTypeError _)).bind fun _ => .pure _

theorem fillSet (M : Mirror R g g') (rounds : Nat) (iterator set : ObjectId) :
    Run.Sim R (Iterator.fillSet g rounds iterator set) (Iterator.fillSet g' rounds iterator set) := by
  induction rounds with
  | zero => exact .diverge
  | succ rounds ih =>
    refine (M.item iterator).bind fun item => ?_
    cases item with
    | failed => exact .pure _
    | exhausted => exact .pure _
    | value v => exact (M.action (insertValue set v)).bind fun _ => ih

theorem toSet (M : Mirror R g g') (iterable : Value) :
    Run.Sim R (Iterator.toSet g iterable) (Iterator.toSet g' iterable) := by
  refine (M.action (intrinsic _)).bind fun prototype => (M.action (alloc _)).bind fun set => ?_
  split
  · exact .pure _
  refine (M.of iterable).bind fun iterator => ?_
  cases iterator with
  | none => exact .pure _
  | some iterator =>
    rw [← M.rounds]
    exact M.fillSet _ iterator set

/-! Filling a map makes an exception pending again, so it asks of `R` that raising a value keeps it. -/

section Maps

variable (hraise : ∀ v, Run.Sim R (liftM (Realm.raise v)) (liftM (Realm.raise v)))
include hraise

theorem closeFailed (M : Mirror R g g') (iterator : ObjectId) :
    Run.Sim R (Iterator.closeFailed g iterator) (Iterator.closeFailed g' iterator) := by
  refine (M.action takePending).bind fun thrown => (M.close _ thrown).bind fun outcome => ?_
  cases outcome with
  | throws v => exact hraise v
  | normal | returns | breaks | continues => exact M.action (.pure ())

theorem fillMap (M : Mirror R g g') (rounds : Nat) (iterator map : ObjectId) :
    Run.Sim R (Iterator.fillMap g rounds iterator map) (Iterator.fillMap g' rounds iterator map) := by
  induction rounds with
  | zero => exact .diverge
  | succ rounds ih =>
    refine (M.item iterator).bind fun item => ?_
    cases item with
    | failed => exact .pure _
    | exhausted => exact .pure _
    | value v =>
      refine (M.entryOf v).bind fun entry => ?_
      cases entry with
      | none => exact (M.closeFailed hraise iterator).bind fun _ => .pure _
      | some entry => exact (M.action (insertEntry map _ _)).bind fun _ => ih

theorem toMap (M : Mirror R g g') (iterable : Value) :
    Run.Sim R (Iterator.toMap g iterable) (Iterator.toMap g' iterable) := by
  refine (M.action (intrinsic _)).bind fun prototype => (M.action (alloc _)).bind fun map => ?_
  split
  · exact .pure _
  refine (M.of iterable).bind fun iterator => ?_
  cases iterator with
  | none => exact .pure _
  | some iterator =>
    rw [← M.rounds]
    exact M.fillMap hraise _ iterator map

end Maps

end Mirror

end IterationEngine
