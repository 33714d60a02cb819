import IterationEngine.Proofs.MapMaking

/-!
# Operations begun with an exception pending

What an operation of the protocol, or a consumer, does when an exception is pending before it starts.

No operation looks for an exception at its start. It reads a property first, or calls the method that it was given,
and looks after that. So an exception that is pending stops it before it goes on, but one function may have been
called until then, and it may have put another exception in the place of the first.

1. `StopsAfter`: an operation that answers a failure as soon as its first part leaves an exception.
2. `ReadHindered`, `CallHindered`: what follows, for a first part that reads a property and for one that calls a value.
3. `hindered`: all operations; `not_stopped_at_start` is the run of a getter in between.
-/

namespace IterationEngine

variable {H α β : Type}

/-! ## Reading a property -/

/-- The getter of an accessor pair. -/
def Property.getter? : Property → Handle
  | data .. => none
  | accessor getter _ _ => getter

/-- The property that reading the key of a value finds. -/
def Realm.found? (r : Realm) (v : Value) (key : String) : Option Property := v.object?.bind (r.heap.lookup · key)

/-- The function that reading the key of a value calls. -/
def Realm.getter? (r : Realm) (v : Value) (key : String) : Handle :=
  ((r.found? v key).bind Property.getter?).filter r.heap.isFunction

/-- What reading the key of a value answers if it calls nothing. -/
def Realm.plainValue (r : Realm) (v : Value) (key : String) : Value := (r.found? v key).elim .undefined Property.value

namespace Access

variable {g : Guest H} {m : Machine H} {v : Value} {key : String}

/-- Reading a key of a value that has properties. -/
theorem getV_apply (g : Guest H) (m : Machine H) (key : String) (hv : v.isNullish = false) :
    getV g v key m =
      (m.realm.getter? v key).elim (some (m.realm.plainValue v key, m)) fun f => g.call f v [] m := by
  cases v with
  | undefined | null => cases hv
  | boolean | number | string | symbol => rfl
  | object id =>
    rw [getV, get_apply]
    show _ = (((m.realm.heap.lookup id key).bind Property.getter?).filter m.realm.heap.isFunction).elim
      (some ((m.realm.heap.lookup id key).elim .undefined Property.value, m)) fun f => g.call f (.object id) [] m
    cases m.realm.heap.lookup id key with
    | none => rfl
    | some p =>
      cases p with
      | data w a => rfl
      | accessor getter setter a =>
        cases getter with
        | none => rfl
        | some getter =>
          show (if m.realm.heap.isFunction getter = true then _ else _) =
            ((some getter).filter m.realm.heap.isFunction).elim _ _
          rw [Option.filter_some]
          split <;> rfl

theorem getV_of_nullish (g : Guest H) (m : Machine H) (key : String) (hv : v.isNullish = true) :
    getV g v key m = some (.undefined, m.withError .typeError
      ("Cannot read properties of " ++ v.text m.realm.heap.objectText ++ " (reading '" ++ key ++ "')")) := by
  cases v with
  | undefined | null => rfl
  | boolean | number | string | symbol | object => cases hv

/-- A call of a value. -/
theorem call_apply (g : Guest H) (callable receiver : Value) (args : List Value) (m : Machine H) :
    call g callable receiver args m =
      (m.realm.heap.function? callable).elim
        (some (.undefined, m.withError .typeError (callable.text m.realm.heap.objectText ++ " is not a function")))
        fun f => g.call f receiver args m := by
  rw [call, Run.getHeap_bind_apply]
  cases m.realm.heap.function? callable <;> rfl

end Access

/-! ## Stopping after the first part -/

/-- An operation answers as `answer` says whenever its first part leaves an exception pending. These are the outcomes of
both. -/
def StopsAfter (first : Option (α × Machine H)) (answer : α → β) (whole : Option (β × Machine H)) : Prop :=
  ∀ w m' e, first = some (w, m') → m'.pending = some e → whole = some (answer w, m')

namespace StopsAfter

variable {γ : Type} {m : Machine H}

/-- The first part is followed by a look for an exception. -/
theorem checked (x : Run H α) (answer : α → β) (f : α → Run H β) (m : Machine H) :
    StopsAfter (x m) answer ((do let a ← x; if ← Realm.isPending then return answer a else f a : Run H β) m) := by
  intro w m' e hx hp
  rw [Run.bind_eq_of_eq_some hx]
  exact Run.ifPending_of_pending hp _ _

variable {first : Option (α × Machine H)} {answer : α → β} {op : Run H β}

/-- An operation that has stopped is followed by another look. -/
theorem checkedAgain {failure : γ} {f : β → Run H γ} (h : StopsAfter first answer (op m)) :
    StopsAfter first (fun _ => failure)
      ((do let b ← op; if ← Realm.isPending then return failure else f b : Run H γ) m) := by
  intro w m' e hx hp
  rw [Run.bind_eq_of_eq_some (h w m' e hx hp)]
  exact Run.ifPending_of_pending hp _ _

/-- An operation that has stopped is followed by nothing more. -/
theorem bind {failure : γ} {f : β → Run H γ} (h : StopsAfter first answer (op m))
    (hf : ∀ w, f (answer w) = pure failure) : StopsAfter first (fun _ => failure) ((op >>= f) m) := by
  intro w m' e hx hp
  rw [Run.bind_eq_of_eq_some (h w m' e hx hp), hf]
  rfl

end StopsAfter

namespace Iterator

variable (g : Guest H) (m : Machine H)

theorem stopsAfter_of (v : Value) :
    StopsAfter (Access.getV g v m.realm.context.iteratorKey m) (fun _ => none) (of g v m) := by
  have hmethod : StopsAfter (Access.getV g v m.realm.context.iteratorKey m) (fun _ => none)
      (Access.getMethod g v m.realm.context.iteratorKey m) := .checked _ _ _ m
  rw [of, Run.getContext_bind_apply]
  exact hmethod.checkedAgain

theorem stopsAfter_ofMethod (v method : Value) :
    StopsAfter (Access.call g method v [] m) (fun _ => none) (ofMethod g v method m) := .checked _ _ _ m

theorem stopsAfter_next (iterator : Handle) (argument : Option Value) :
    StopsAfter (Access.getV g (.ofHandle iterator) "next" m) (fun _ => none) (next g iterator argument m) := by
  have hinvoke : StopsAfter (Access.getV g (.ofHandle iterator) "next" m) (fun _ => .undefined)
      (Access.invoke g (.ofHandle iterator) "next" argument.toList m) := .checked _ _ _ m
  exact hinvoke.checkedAgain

theorem stopsAfter_isDone (result : ObjectId) :
    StopsAfter (Access.getV g (.object result) "done" m) (fun _ => false) (isDone g result m) := .checked _ _ _ m

theorem stopsAfter_value (result : ObjectId) :
    StopsAfter (Access.getV g (.object result) "value" m) (fun w => w) (value g result m) := fun _ _ _ hx _ => hx

theorem stopsAfter_step (iterator : Handle) :
    StopsAfter (Access.getV g (.ofHandle iterator) "next" m) (fun _ => none) (step g iterator m) :=
  (stopsAfter_next g m iterator none).bind fun _ => rfl

theorem stopsAfter_toList (v : Value) :
    StopsAfter (Access.getV g v m.realm.context.iteratorKey m) (fun _ => []) (toList g v none m) :=
  (stopsAfter_of g m v).bind fun _ => rfl

theorem stopsAfter_toList_method (v method : Value) :
    StopsAfter (Access.call g method v [] m) (fun _ => []) (toList g v (some method) m) :=
  (stopsAfter_ofMethod g m v method).bind fun _ => rfl

variable {v : Value} (hv : v.isNullish = false)
include hv

theorem stopsAfter_toMap :
    StopsAfter (Access.getV g v m.realm.context.iteratorKey (m.allocating m.emptyMap)) (fun _ => none)
      (toMap g v m) := by
  rw [toMap_apply, hv, if_neg Bool.false_ne_true]
  exact (stopsAfter_of g (m.allocating m.emptyMap) v).bind fun _ => rfl

theorem stopsAfter_toSet :
    StopsAfter (Access.getV g v m.realm.context.iteratorKey (m.allocating m.emptySet)) (fun _ => none)
      (toSet g v m) := by
  rw [toSet_apply, hv, if_neg Bool.false_ne_true]
  exact (stopsAfter_of g (m.allocating m.emptySet) v).bind fun _ => rfl

end Iterator

/-! ## Begun with an exception pending -/

/-- The machine on which an operation reads its first property, having made an object before, or not. -/
def Machine.begun (m : Machine H) (made : Option Object) : Machine H := made.elim m m.allocating

theorem Machine.pending_begun (m : Machine H) (made : Option Object) : (m.begun made).pending = m.pending := by
  cases made <;> rfl

/-- What becomes of an operation that is begun with an exception pending and reads a key of `v` first. It answers as
`answer` says for the value that was read. What is said for all guest code is said for code that keeps a journal too, so
the journal has no entry if none is mentioned.

The key has to be looked for in a chain of prototypes that ends, or that owns it: around a cycle without the key the
lookup goes on for ever, and what is said under `plain` is not about it. -/
structure ReadHindered (op : {K : Type} → Guest K → Run K α) (v : Value) (key : Context → String)
    (answer : Value → α) (made : {K : Type} → Machine K → Option Object) : Prop where
  /-- With no getter to call, nothing else is done. -/
  plain : ∀ {K : Type} (g : Guest K) {m : Machine K} {e : Value}, m.pending = some e → v.isNullish = false →
    (m.begun (made m)).realm.getter? v (key m.realm.context) = none →
    op g m = some (answer ((m.begun (made m)).realm.plainValue v (key m.realm.context)), m.begun (made m)) ∧
      (m.begun (made m)).pending = some e
  /-- A getter is called, and nothing else is if it leaves an exception. -/
  getter : ∀ {K : Type} {g : Guest K} {m m' : Machine K} {f : ObjectId} {w e : Value},
    (m.begun (made m)).realm.getter? v (key m.realm.context) = some f →
    g.call f v [] (m.begun (made m)) = some (w, m') → m'.pending = some e → op g m = some (answer w, m')
  /-- A value without properties is an error, which takes the place of the exception. -/
  nullish : ∀ {K : Type} (g : Guest K) (m : Machine K), v.isNullish = true →
    op g m = some (answer .undefined, (m.begun (made m)).withError .typeError
      ("Cannot read properties of " ++ v.text (m.begun (made m)).realm.heap.objectText ++
        " (reading '" ++ key m.realm.context ++ "')"))

/-- What becomes of an operation that is begun with an exception pending and calls a value first. -/
structure CallHindered (op : {K : Type} → Guest K → Run K α) (callable receiver : Value) (failure : α) : Prop where
  /-- A value that is no function is an error, which takes the place of the exception. -/
  refused : ∀ {K : Type} (g : Guest K) {m : Machine K}, m.realm.heap.function? callable = none →
    op g m = some (failure, m.withError .typeError
      (callable.text m.realm.heap.objectText ++ " is not a function"))
  /-- Nothing is called but the function if it leaves an exception. -/
  called : ∀ {K : Type} {g : Guest K} {m m' : Machine K} {f : ObjectId} {w e : Value},
    m.realm.heap.function? callable = some f → g.call f receiver [] m = some (w, m') → m'.pending = some e →
    op g m = some (failure, m')

section

variable {op : {K : Type} → Guest K → Run K α} {v : Value}

theorem ReadHindered.of_stopsAfter {key : Context → String} {answer : Value → α}
    {made : {K : Type} → Machine K → Option Object}
    (h : ∀ {K : Type} (g : Guest K) (m : Machine K),
      StopsAfter (Access.getV g v (key m.realm.context) (m.begun (made m))) answer (op g m)) :
    ReadHindered op v key answer made where
  plain {K} g {m e} hm hv hgetter := by
    have hp : (m.begun (made m)).pending = some e := (m.pending_begun (made m)).trans hm
    refine ⟨h g m _ _ e ?_ hp, hp⟩
    rw [Access.getV_apply g _ _ hv, hgetter]
    rfl
  getter {K g m m' f w e} hgetter hcall hp := by
    have hv : v.isNullish = false := by
      cases v with
      | undefined | null => cases hgetter
      | boolean | number | string | symbol | object => rfl
    refine h g m w m' e ?_ hp
    rw [Access.getV_apply g _ _ hv, hgetter]
    exact hcall
  nullish g m hv := h g m _ _ _ (Access.getV_of_nullish g _ _ hv) rfl

theorem CallHindered.of_stopsAfter {callable : Value} {failure : α}
    (h : ∀ {K : Type} (g : Guest K) (m : Machine K),
      StopsAfter (Access.call g callable v [] m) (fun _ => failure) (op g m)) :
    CallHindered op callable v failure where
  refused {K} g {m} hf := by
    refine h g m .undefined _ _ ?_ rfl
    rw [Access.call_apply, hf]
    rfl
  called {K g m m' f w e} hf hcall hp := by
    refine h g m w m' e ?_ hp
    rw [Access.call_apply, hf]
    exact hcall

end

/-- What those may rely on who begin an operation with an exception pending. -/
structure Hindered : Prop where
  of : ∀ v, ReadHindered (fun g => Iterator.of g v) v Context.iteratorKey (fun _ => none) fun _ => none
  ofMethod : ∀ v method, CallHindered (fun g => Iterator.ofMethod g v method) method v none
  next : ∀ iterator argument, ReadHindered (fun g => Iterator.next g iterator argument) (.ofHandle iterator)
    (fun _ => "next") (fun _ => none) fun _ => none
  isDone : ∀ result, ReadHindered (fun g => Iterator.isDone g result) (.object result) (fun _ => "done")
    (fun _ => false) fun _ => none
  /-- The value of a result is what is read of it. -/
  value : ∀ result, ReadHindered (fun g => Iterator.value g result) (.object result) (fun _ => "value")
    (fun w => w) fun _ => none
  step : ∀ iterator, ReadHindered (fun g => Iterator.step g iterator) (.ofHandle iterator) (fun _ => "next")
    (fun _ => none) fun _ => none
  toList : ∀ v, ReadHindered (fun g => Iterator.toList g v none) v Context.iteratorKey (fun _ => []) fun _ => none
  toListMethod : ∀ v method, CallHindered (fun g => Iterator.toList g v (some method)) method v []
  toMap : ∀ v, v.isNullish = false →
    ReadHindered (fun g => Iterator.toMap g v) v Context.iteratorKey (fun _ => none) fun m => some m.emptyMap
  toSet : ∀ v, v.isNullish = false →
    ReadHindered (fun g => Iterator.toSet g v) v Context.iteratorKey (fun _ => none) fun m => some m.emptySet
  /-- Without an iterable no property is read, so the exception stays. -/
  toMapNullish : ∀ {K : Type} (g : Guest K) (m : Machine K) {v : Value}, v.isNullish = true →
    ∃ r, Iterator.toMap g v m = some (r, m.allocating m.emptyMap) ∧ (m.allocating m.emptyMap).pending = m.pending
  toSetNullish : ∀ {K : Type} (g : Guest K) (m : Machine K) {v : Value}, v.isNullish = true →
    ∃ r, Iterator.toSet g v m = some (r, m.allocating m.emptySet) ∧ (m.allocating m.emptySet).pending = m.pending

theorem hindered : Hindered where
  of v := .of_stopsAfter fun g m => Iterator.stopsAfter_of g m v
  ofMethod v method := .of_stopsAfter fun g m => Iterator.stopsAfter_ofMethod g m v method
  next iterator argument := .of_stopsAfter fun g m => Iterator.stopsAfter_next g m iterator argument
  isDone result := .of_stopsAfter fun g m => Iterator.stopsAfter_isDone g m result
  value result := .of_stopsAfter fun g m => Iterator.stopsAfter_value g m result
  step iterator := .of_stopsAfter fun g m => Iterator.stopsAfter_step g m iterator
  toList v := .of_stopsAfter fun g m => Iterator.stopsAfter_toList g m v
  toListMethod v method := .of_stopsAfter fun g m => Iterator.stopsAfter_toList_method g m v method
  toMap v hv := .of_stopsAfter fun g m => Iterator.stopsAfter_toMap g m hv
  toSet v hv := .of_stopsAfter fun g m => Iterator.stopsAfter_toSet g m hv
  toMapNullish g m v hv := by
    rw [Iterator.toMap_apply, hv]
    exact ⟨_, rfl, rfl⟩
  toSetNullish g m v hv := by
    rw [Iterator.toSet_apply, hv]
    exact ⟨_, rfl, rfl⟩

/-! ## A getter in between -/

/-- Guest code that raises a value. -/
def raisingGuest : Guest Unit where
  call := fun _ _ _ m => some (.undefined, m.withRealm (Realm.raise (.string "second") m.realm).2)
  rounds := 8

/-- Object 0 has a getter for its iteration method, function 1. -/
def gettingHeap : Heap where
  objects := #[
    { kind := .plain .ordinary
      properties := PropertyTable.append .empty idleContext.iteratorKey (.accessor (some ⟨1⟩) none .accessor) },
    .ofCode "getter" 0 (.guest ⟨0⟩)]
  allocations := 2
  peak := 2

/-- An exception is pending. -/
def hinderedMachine : Machine Unit where
  realm :=
    { heap := gettingHeap, context := { idleContext with cell := .holding (.string "first") }, registry := {} }
  host := ()

/-- A getter that is called in between puts its own exception in the place of the pending one. Without a getter nothing
is called; a call of something that is no function, and a look into nothing, put an error in its place. -/
theorem hindered_hinderedMachine :
    (∃ m' : Machine Unit, Iterator.of raisingGuest (.object ⟨0⟩) hinderedMachine = some (none, m') ∧
      m'.pending = some (.string "second")) ∧
    (∃ m' : Machine Unit, Iterator.toList raisingGuest (.object ⟨1⟩) none hinderedMachine = some ([], m') ∧
      m'.pending = some (.string "first")) ∧
    (∃ m' : Machine Unit, Iterator.ofMethod raisingGuest (.object ⟨0⟩) .null hinderedMachine = some (none, m') ∧
      m'.pending = some (.object ⟨2⟩)) ∧
    ∃ m' : Machine Unit, Iterator.next raisingGuest none none hinderedMachine = some (none, m') ∧
      m'.pending = some (.object ⟨2⟩) := by
  have hfirst : hinderedMachine.pending = some (.string "first") := rfl
  refine ⟨?_, ?_, ?_, ?_⟩
  · have hgetter : hinderedMachine.realm.getter? (.object ⟨0⟩) hinderedMachine.realm.context.iteratorKey =
        some ⟨1⟩ := by decide +kernel
    exact ⟨_, (hindered.of (.object ⟨0⟩)).getter hgetter rfl rfl, rfl⟩
  · obtain ⟨hlist, hp⟩ := (hindered.toList (.object ⟨1⟩)).plain raisingGuest hfirst rfl (by decide +kernel)
    exact ⟨_, hlist, hp⟩
  · exact ⟨_, (hindered.ofMethod (.object ⟨0⟩) .null).refused raisingGuest rfl, rfl⟩
  · exact ⟨_, (hindered.next none none).nullish raisingGuest hinderedMachine rfl, rfl⟩

/-- Getting an iterator calls the getter although an exception is pending, and in the end another one is. -/
theorem not_stopped_at_start :
    ¬ ∀ {g : Guest Unit} {v e : Value} {r : Handle} {m m' : Machine Unit} {j : Journal}, m.pending = some e →
        Iterator.of g.recorded v (m.recording []) = some (r, m'.recording j) →
        j = [] ∧ r = none ∧ m'.pending = some e := by
  intro hstopped
  have hrun : (Iterator.of raisingGuest.recorded (.object ⟨0⟩) (hinderedMachine.recording [])).map
      (fun p => p.2.pending) = some (some (.string "second")) := by decide +kernel
  obtain ⟨⟨r, n⟩, hof, hsecond⟩ := Option.map_eq_some_iff.mp hrun
  have hfirst : hinderedMachine.pending = some (.string "first") := rfl
  obtain ⟨-, -, hp⟩ := @hstopped _ _ _ _ _ n.unrecorded n.journal hfirst hof
  have heq : some (Value.string "second") = some (Value.string "first") := hsecond.symm.trans hp
  exact absurd heq (by decide)

end IterationEngine
