import IterationEngine.Proofs.Commands

/-!
# Operations, part by part

What an operation of the engine is put together of.

`Run.Composable` says of a property of runs that sequences inherit it and that the parts have it of which operations
are made: calls of function objects, questions about the realm, what is done to the pending exception, fresh objects,
and entries and values that are added to a map or a set. The property may depend on the objects that the run has made
itself, since an operation adds to no collection but its own. Then every operation has the property, every command that
is no single action (`Run.Composable.perform`), and every call if the code has it that is called
(`Run.Composable.callFunction`).
-/

namespace IterationEngine

variable {H α β : Type}

/-- A property that a sequence of runs inherits from its parts, and that the parts have of which operations are made.
It is given the objects that have been made on the way. -/
structure Run.Composable (g : Guest H) (P : List ObjectId → {α : Type} → Run H α → Prop) : Prop where
  pure : ∀ {own : List ObjectId} {α : Type} (a : α), P own (Pure.pure a : Run H α)
  diverge : ∀ {own : List ObjectId} {α : Type}, P own (Run.diverge : Run H α)
  bind : ∀ {own : List ObjectId} {α β : Type} {x : Run H α} {f : α → Run H β},
    P own x → (∀ a, P own (f a)) → P own (x >>= f)
  call : ∀ {own : List ObjectId} (f : ObjectId) (v : Value) (args : List Value), P own (g.call f v args)
  ask : ∀ {own : List ObjectId} {α : Type} {x : Action α}, (∀ r, (x r).2 = r) → P own (liftM x)
  raise : ∀ {own : List ObjectId} (v : Value), P own (liftM (Realm.raise v))
  takePending : ∀ {own : List ObjectId}, P own (liftM Realm.takePending)
  /-- What follows may count the fresh object among its own. -/
  alloc : ∀ {own : List ObjectId} {o : Object} {β : Type} {f : ObjectId → Run H β}, o.Made →
    (∀ id, P (id :: own) (f id)) → P own (liftM (Realm.alloc o) >>= f)
  insertEntry : ∀ {own : List ObjectId} {map : ObjectId} (key v : Value), map ∈ own →
    P own (liftM (Iterator.insertEntry map key v))
  insertValue : ∀ {own : List ObjectId} {set : ObjectId} (v : Value), set ∈ own →
    P own (liftM (Iterator.insertValue set v))

namespace Run.Composable

variable {g : Guest H} {P : List ObjectId → {α : Type} → Run H α → Prop} {own : List ObjectId} (C : Composable g P)
include C

/-! ## Actions -/

/-- A sequence of actions is a sequence of runs. -/
theorem lift {x : Action α} {f : α → Action β} (hx : P own (liftM x)) (hf : ∀ a, P own (liftM (f a))) :
    P own (liftM (x >>= f)) :=
  C.bind hx hf

theorem liftAlloc {o : Object} {f : ObjectId → Action β} (ho : o.Made) (hf : ∀ id, P (id :: own) (liftM (f id))) :
    P own (liftM (Realm.alloc o >>= f)) :=
  C.alloc ho hf

theorem getHeap : P own (liftM Realm.getHeap) := C.ask fun _ => rfl

theorem getContext : P own (liftM Realm.getContext) := C.ask fun _ => rfl

theorem isPending : P own (liftM Realm.isPending) := C.ask fun _ => rfl

theorem textOf (v : Value) : P own (liftM (Realm.textOf v)) := C.ask fun _ => rfl

theorem intrinsic (i : Intrinsic) : P own (liftM (Realm.intrinsic i)) := C.ask fun _ => rfl

theorem ifPending {x y : Run H α} (hx : P own x) (hy : P own y) :
    P own (do if ← Realm.isPending then x else y : Run H α) := by
  refine C.bind C.isPending fun pending => ?_
  cases pending with
  | true => exact hx
  | false => exact hy

theorem rethrow (c : Completion) : P own (liftM (Realm.rethrow c)) := by
  cases c with
  | throws v => exact C.raise v
  | normal | returns | breaks | continues => exact C.pure ()

/-- A fresh object as the answer. -/
theorem make {o : Object} (ho : o.Made) : P own (liftM (Realm.alloc o)) := C.alloc ho fun id => C.pure id

theorem createResult (v : Value) (done : Bool) : P own (liftM (Realm.createResult v done)) :=
  C.lift (C.intrinsic _) fun _ => C.make (.ofResult _ v done)

theorem raiseError (kind : ErrorKind) (message : String) : P own (liftM (Realm.raiseError kind message)) :=
  C.lift (C.intrinsic _) fun _ => C.liftAlloc (.ofError kind message _) fun _ => C.raise _

theorem raiseTypeError (message : String) : P own (liftM (Realm.raiseTypeError message)) := C.raiseError _ message

/-- An error that is raised leaves an answer that says nothing. -/
theorem raiseThen (message : String) (a : α) : P own (do Realm.raiseTypeError message; return a : Run H α) :=
  C.bind (C.raiseTypeError message) fun _ => C.pure a

theorem raiseNotCallable (key : String) (v : Value) : P own (liftM (Access.raiseNotCallable key v)) :=
  C.lift C.getHeap fun _ => C.raiseTypeError _

theorem raiseNotResult (v : Value) : P own (liftM (Iterator.raiseNotResult v)) :=
  C.lift (C.textOf v) fun _ => C.raiseTypeError _

theorem bodyOutcome (c : Completion) : P own (liftM (Iterator.bodyOutcome c)) := by
  refine C.lift C.isPending fun pending => ?_
  cases pending with
  | true => exact C.takePending
  | false => exact C.pure c

theorem outcome (v : Value) : P own (liftM (Iterator.outcome v)) := C.bodyOutcome (.normal v)

/-- A fresh iterator over a collection. -/
theorem makeIterator (i : Intrinsic) (kind : ObjectKind) :
    P own (liftM (do let prototype ← Realm.intrinsic i
                     let iterator ← Realm.alloc { kind, prototype }
                     return some iterator : Action Handle)) :=
  C.lift (C.intrinsic i) fun _ => C.liftAlloc (.bare kind _ .empty) fun _ => C.pure _

theorem ofMap (source : Value) (kind : IterationKind) : P own (liftM (CollectionIterator.ofMap source kind)) := by
  refine C.lift C.getHeap fun heap => ?_
  split
  · split
    · exact C.makeIterator _ _
    · exact C.raiseThen _ _
  · exact C.lift (C.textOf _) fun _ => C.raiseThen _ _

theorem ofSet (source : Value) (kind : IterationKind) : P own (liftM (CollectionIterator.ofSet source kind)) := by
  refine C.lift C.getHeap fun heap => ?_
  split
  · split
    · exact C.makeIterator _ _
    · exact C.raiseThen _ _
  · exact C.lift (C.textOf _) fun _ => C.raiseThen _ _

/-! ## Access -/

theorem get (id : ObjectId) (key : String) (receiver : Value) : P own (Access.get g id key receiver) := by
  refine C.bind C.getHeap fun heap => ?_
  split
  · exact C.pure _
  · split
    · exact C.call _ _ _
    · exact C.pure _
  · exact C.pure _

theorem getFrom (object : Handle) (key : String) : P own (Access.getFrom g object key) := by
  cases object with
  | some id => exact C.get id key _
  | none => exact C.raiseThen _ _

theorem getV (v : Value) (key : String) : P own (Access.getV g v key) := by
  cases v with
  | undefined | null => exact C.bind (C.textOf _) fun _ => C.raiseThen _ _
  | object id => exact C.get id key _
  | boolean | number | string | symbol => exact C.pure _

theorem getMethod (v : Value) (key : String) : P own (Access.getMethod g v key) := by
  refine C.bind (C.getV v key) fun method => C.ifPending (C.pure _) ?_
  split
  · exact C.pure _
  refine C.bind C.getHeap fun heap => ?_
  split
  · exact C.pure _
  · exact C.bind (C.raiseNotCallable _ _) fun _ => C.pure _

theorem callValue (callable receiver : Value) (args : List Value) : P own (Access.call g callable receiver args) := by
  refine C.bind C.getHeap fun heap => ?_
  split
  · exact C.call _ _ _
  · exact C.bind (C.textOf _) fun _ => C.raiseThen _ _

theorem invoke (v : Value) (key : String) (args : List Value) : P own (Access.invoke g v key args) := by
  refine C.bind (C.getV v key) fun method => C.ifPending (C.pure _) ?_
  refine C.bind C.getHeap fun heap => ?_
  split
  · exact C.call _ _ _
  · exact C.bind (C.raiseNotCallable _ _) fun _ => C.pure _

/-! ## The protocol -/

theorem ofMethod (v method : Value) : P own (Iterator.ofMethod g v method) := by
  refine C.bind (C.callValue method v []) fun iterator => C.ifPending (C.pure _) ?_
  split
  · exact C.pure _
  · exact C.raiseThen _ _

theorem of (v : Value) : P own (Iterator.of g v) := by
  refine C.bind C.getContext fun context => C.bind (C.getMethod v _) fun method => C.ifPending (C.pure _) ?_
  split
  · exact C.ofMethod v _
  · exact C.bind (C.textOf _) fun _ => C.raiseThen _ _

theorem next (iterator : Handle) (argument : Option Value) : P own (Iterator.next g iterator argument) := by
  refine C.bind (C.invoke _ _ _) fun result => C.ifPending (C.pure _) ?_
  split
  · exact C.pure _
  · exact C.bind (C.raiseNotResult _) fun _ => C.pure _

theorem isDone (result : ObjectId) : P own (Iterator.isDone g result) :=
  C.bind (C.getFrom _ _) fun _ => C.ifPending (C.pure _) (C.pure _)

theorem value (result : ObjectId) : P own (Iterator.value g result) := C.getFrom _ _

theorem step (iterator : Handle) : P own (Iterator.step g iterator) := by
  refine C.bind (C.next iterator none) fun result => ?_
  cases result with
  | none => exact C.pure _
  | some result =>
    refine C.bind (C.isDone result) fun done => C.ifPending (C.pure _) ?_
    split <;> exact C.pure _

theorem isIterable (v : Value) : P own (Iterator.isIterable g v) := by
  unfold Iterator.isIterable
  split
  · refine C.bind C.getContext fun context => C.bind (C.getV v _) fun method => C.ifPending (C.pure _) ?_
    exact C.bind C.getHeap fun heap => C.pure _
  · exact C.pure _

theorem closeWith (iterator : Handle) (c : Completion) : P own (Iterator.closeWith g iterator c) := by
  refine C.bind (C.getMethod _ _) fun method => C.ifPending C.takePending ?_
  split
  · exact C.pure _
  · refine C.bind (C.call _ _ _) fun result => C.bind (C.outcome result) fun inner => ?_
    split
    · exact C.pure _
    · exact C.pure _
    · exact C.bind (C.raiseNotResult _) fun _ => C.takePending

theorem close (iterator : Handle) (c : Completion) : P own (Iterator.close g iterator c) :=
  C.ifPending (C.bind C.takePending fun pending => C.closeWith iterator pending) (C.closeWith iterator c)

/-! ## Consumers -/

theorem item (iterator : ObjectId) : P own (Iterator.item g iterator) := by
  refine C.bind (C.step _) fun result => C.ifPending (C.pure _) ?_
  cases result with
  | none => exact C.pure _
  | some r => exact C.bind (C.value r) fun v => C.ifPending (C.pure _) (C.pure _)

theorem drain (rounds : Nat) (iterator : ObjectId) (taken : Array Value) :
    P own (Iterator.drain g rounds iterator taken) := by
  induction rounds generalizing taken with
  | zero => exact C.diverge
  | succ rounds ih =>
    refine C.bind (C.item iterator) fun item => ?_
    cases item with
    | failed => exact C.pure _
    | exhausted => exact C.pure _
    | value v => exact ih _

theorem toList (iterable : Value) (method : Option Value) : P own (Iterator.toList g iterable method) := by
  have hiterator : P own (method.elim (Iterator.of g iterable) (Iterator.ofMethod g iterable)) := by
    cases method with
    | none => exact C.of iterable
    | some method => exact C.ofMethod iterable method
  rw [Iterator.toList_eq]
  refine C.bind hiterator fun iterator => ?_
  cases iterator with
  | none => exact C.pure _
  | some id => exact C.drain _ id #[]

theorem leaveLoop (iterator : ObjectId) (last : Value) (c : Completion) :
    P own (Iterator.leaveLoop g iterator last c) := by
  refine C.bind (C.close _ c) fun closed => ?_
  split <;> exact C.pure _

section Loops

variable {body : Value → Run H Completion}

theorem loop (hbody : ∀ v, P own (body v)) (rounds : Nat) (iterator : ObjectId) (last : Value) :
    P own (Iterator.loop g body rounds iterator last) := by
  induction rounds generalizing last with
  | zero => exact C.diverge
  | succ rounds ih =>
    refine C.bind (C.item iterator) fun item => ?_
    cases item with
    | failed => exact C.takePending
    | exhausted => exact C.pure _
    | value v =>
      refine C.bind (hbody v) fun c => C.bind (C.bodyOutcome c) fun result => ?_
      split
      · exact ih _
      · exact ih _
      · exact C.leaveLoop _ _ _

theorem forOf (own : List ObjectId) (hbody : ∀ v, P own (body v)) (iterable : Value) :
    P own (Iterator.forOf g iterable body) := by
  refine C.bind (C.of iterable) fun iterator => ?_
  cases iterator with
  | none => exact C.takePending
  | some iterator => exact C.loop hbody _ iterator _

end Loops

theorem entryOf (v : Value) : P own (Iterator.entryOf g v) := by
  unfold Iterator.entryOf
  split
  · refine C.bind (C.getFrom _ _) fun key => C.ifPending (C.pure _) ?_
    exact C.bind (C.getFrom _ _) fun entryValue => C.ifPending (C.pure _) (C.pure _)
  · exact C.bind (C.textOf _) fun _ => C.raiseThen _ _

theorem closeFailed (iterator : ObjectId) : P own (Iterator.closeFailed g iterator) :=
  C.bind C.takePending fun thrown => C.bind (C.close _ thrown) fun outcome => C.rethrow outcome

/-- A map is filled by the operation that has made it. -/
theorem fillMap (rounds : Nat) (iterator : ObjectId) {map : ObjectId} (hmap : map ∈ own) :
    P own (Iterator.fillMap g rounds iterator map) := by
  induction rounds with
  | zero => exact C.diverge
  | succ rounds ih =>
    refine C.bind (C.item iterator) fun item => ?_
    cases item with
    | failed => exact C.pure _
    | exhausted => exact C.pure _
    | value v =>
      refine C.bind (C.entryOf v) fun entry => ?_
      cases entry with
      | none => exact C.bind (C.closeFailed iterator) fun _ => C.pure _
      | some entry => exact C.bind (C.insertEntry _ _ hmap) fun _ => ih

theorem toMap (iterable : Value) : P own (Iterator.toMap g iterable) := by
  refine C.bind (C.intrinsic _) fun prototype => C.alloc (.bare _ _ .empty) fun map => ?_
  split
  · exact C.pure _
  refine C.bind (C.of iterable) fun iterator => ?_
  cases iterator with
  | none => exact C.pure _
  | some iterator => exact C.fillMap _ iterator List.mem_cons_self

/-- A set is filled by the operation that has made it. -/
theorem fillSet (rounds : Nat) (iterator : ObjectId) {set : ObjectId} (hset : set ∈ own) :
    P own (Iterator.fillSet g rounds iterator set) := by
  induction rounds with
  | zero => exact C.diverge
  | succ rounds ih =>
    refine C.bind (C.item iterator) fun item => ?_
    cases item with
    | failed => exact C.pure _
    | exhausted => exact C.pure _
    | value v => exact C.bind (C.insertValue _ hset) fun _ => ih

theorem toSet (iterable : Value) : P own (Iterator.toSet g iterable) := by
  refine C.bind (C.intrinsic _) fun prototype => C.alloc (.bare _ _ .empty) fun set => ?_
  split
  · exact C.pure _
  refine C.bind (C.of iterable) fun iterator => ?_
  cases iterator with
  | none => exact C.pure _
  | some iterator => exact C.fillSet _ iterator List.mem_cons_self

/-! ## Commands -/

/-- A command, given its action if it is one. -/
theorem perform (own : List ObjectId) (c : Command) (haction : ∀ x, c.action? = some x → P own (liftM x)) :
    P own (c.perform g) := by
  cases hx : c.action? with
  | some x =>
    rw [c.perform_of_action g hx]
    exact haction x hx
  | none =>
    cases c with
    -- access and calls
    | get id key receiver => exact C.get id key receiver
    | getFrom object key => exact C.getFrom object key
    | getV v key => exact C.getV v key
    | getMethod v key => exact C.getMethod v key
    | call callable receiver args => exact C.callValue callable receiver args
    | invoke v key args => exact C.invoke v key args
    -- iteration
    | iterator v method =>
      cases method with
      | none => exact C.of v
      | some method => exact C.ofMethod v method
    | next iterator argument => exact C.next iterator argument
    | isDone result => exact C.isDone result
    | value result => exact C.value result
    | step iterator => exact C.step iterator
    | close iterator c => exact C.close iterator c
    | isIterable v => exact C.isIterable v
    | toList v method => exact C.toList v method
    -- collections
    | toMap v => exact C.toMap v
    | toSet v => exact C.toSet v
    | _ => cases hx

/-! ## Calls -/

/-- Every function that the engine supplies, given that a cursor may advance. -/
theorem builtin (hadvance : ∀ iterator, P own (liftM (ListIterator.advance iterator))) (b : Builtin) :
    P own (liftM b.run) := by
  cases b with
  | listNext =>
    refine C.lift C.getHeap fun heap => C.lift C.getContext fun context => ?_
    split
    · exact C.raiseThen _ _
    · split
      · exact C.lift (C.createResult _ _) fun _ => C.pure _
      · exact C.lift (hadvance _) fun _ => C.lift (C.createResult _ _) fun _ => C.pure _
  | mapIterator kind => exact C.lift C.getContext fun context => C.lift (C.ofMap _ _) fun _ => C.pure _
  | setIterator kind => exact C.lift C.getContext fun context => C.lift (C.ofSet _ _) fun _ => C.pure _
  | receiver => exact C.lift C.getContext fun context => C.pure _

/-- A call of a function object, given the guest code, that frames may be entered and left, and that a cursor may
advance. -/
theorem callFunction {guest : GuestCode H} (own : List ObjectId)
    (hframe : ∀ frame, P own (liftM (enterFrame frame)) ∧ P own (liftM (leaveFrame frame)))
    (hadvance : ∀ iterator, P own (liftM (ListIterator.advance iterator)))
    (hguest : ∀ code args, P own (guest code args)) (f : ObjectId) (v : Value) (args : List Value) :
    P own (IterationEngine.callFunction guest f v args) := by
  have hcode : ∀ code, P own (runCode guest code args) := by
    intro code
    cases code with
    | builtin b => exact C.builtin hadvance b
    | guest id => exact hguest id args
    | absent => exact C.pure _
  refine C.bind C.getContext fun context => ?_
  split
  · refine C.bind C.getHeap fun heap => C.bind (hframe _).1 fun _ => ?_
    exact C.bind (hcode _) fun result => C.bind (hframe _).2 fun _ => C.pure result
  · exact C.bind (C.raiseError _ _) fun _ => C.pure _

end Run.Composable

end IterationEngine
