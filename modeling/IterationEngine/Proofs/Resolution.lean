import IterationEngine.Proofs.ForOf

/-!
# Resolving methods

Three operations look a method up: `Access.getMethod`, whose function is then called, `Access.invoke`, which calls it
at once, and `Iterator.isIterable`, which only asks whether it is there. Each is written out on its own.

They agree. They read the property in the same way, getter and all, and part only over what they have read, where an
exception, a value that is no function and an absent method are told apart alike. What a method lookup leaves therefore
determines what a call of the method comes to.

1. `Access.invoke_of_function`, `invoke_of_pending`, `invoke_of_absent`, `invoke_of_unanswered`: the call, by what the
   lookup of the method has left.
2. `Iterator.isIterable_iff`: a value is iterable exactly when the lookup of its iterator method finds a function.
3. `resolutions_agree`: both, for every guest.
-/

namespace IterationEngine

variable {H : Type} {g : Guest H} {v : Value} {key : String} {m m' : Machine H}

theorem Heap.function?_of_nullish (h : Heap) (hv : v.isNullish = true) : h.function? v = none := by
  cases v with
  | undefined | null => rfl
  | boolean | number | string | symbol | object => cases hv

namespace Access

/-! ## Calls of methods -/

/-- A lookup goes on to an answer from wherever the reading of the property has led. -/
theorem exists_getMethod {w : Value} {m₁ : Machine H} (hv : getV g v key m = some (w, m₁)) :
    ∃ f m', getMethod g v key m = some (f, m') := by
  rw [getMethod, Run.bind_eq_of_eq_some hv]
  cases hp : m₁.pending with
  | some e => exact ⟨none, m₁, Run.ifPending_of_pending hp _ _⟩
  | none =>
    rw [Run.ifPending_of_none hp]
    split
    · exact ⟨none, m₁, rfl⟩
    · rw [Run.getHeap_bind_apply]
      cases m₁.realm.heap.function? w with
      | some f => exact ⟨some f, m₁, rfl⟩
      | none => exact ⟨none, _, rfl⟩

/-- The call of a method whose lookup does not return does not return. -/
theorem invoke_of_unanswered (h : getMethod g v key m = none) (args : List Value) : invoke g v key args m = none := by
  cases hv : getV g v key m with
  | none =>
    show (getV g v key m).bind _ = none
    rw [hv, Option.bind_none]
  | some p =>
    obtain ⟨f, m', hf⟩ := exists_getMethod hv
    cases h.symm.trans hf

/-- A lookup finds a function exactly when the property reads as that function and leaves no exception. -/
theorem getMethod_eq_some_function {f : ObjectId} :
    getMethod g v key m = some (some f, m') ↔
      getV g v key m = some (.object f, m') ∧ m'.pending = none ∧ m'.realm.heap.isFunction f = true := by
  constructor
  · intro h
    obtain ⟨w, m₁, hv, hfound⟩ := found_of_getMethod h
    cases hfound with
    | function hp hf =>
      obtain ⟨rfl, hfunction⟩ := Heap.function?_eq_some.mp hf
      exact ⟨hv, hp, hfunction⟩
  · rintro ⟨hv, hp, hfunction⟩
    have hnullish : (Value.object f).isNullish = false := rfl
    rw [getMethod, Run.bind_eq_of_eq_some hv, Run.ifPending_of_none hp, hnullish, if_neg Bool.false_ne_true,
      Run.getHeap_bind_apply, Heap.function?_eq_some.mpr ⟨rfl, hfunction⟩]
    rfl

/-- The call of a method that its lookup finds is the call of that function. -/
theorem invoke_of_function {f : ObjectId} (h : getMethod g v key m = some (some f, m')) (args : List Value) :
    invoke g v key args m = call g (.object f) v args m' := by
  obtain ⟨hv, hp, hfunction⟩ := getMethod_eq_some_function.mp h
  rw [invoke, Run.bind_eq_of_eq_some hv, Run.ifPending_of_none hp]
  rw [call, Run.getHeap_bind_apply, Run.getHeap_bind_apply, Heap.function?_eq_some.mpr ⟨rfl, hfunction⟩]

/-- The call of a method whose lookup leaves an exception leaves the same machine, and so the same exception. -/
theorem invoke_of_pending {f : Handle} {e : Value} (h : getMethod g v key m = some (f, m'))
    (he : m'.pending = some e) (args : List Value) : invoke g v key args m = some (.undefined, m') := by
  obtain ⟨w, m₁, hv, hfound⟩ := found_of_getMethod h
  rw [invoke, Run.bind_eq_of_eq_some hv]
  cases hfound with
  | failed hp => exact Run.ifPending_of_pending hp _ _
  | absent hp | function hp => cases hp.symm.trans he
  | refused hp _ hf =>
    rw [Run.ifPending_of_none hp, Run.getHeap_bind_apply, hf]
    rfl

/-- The call of a method that its lookup does not find is an error, which tells by which of the two it is absent. -/
theorem invoke_of_absent (h : getMethod g v key m = some (none, m')) (hp : m'.pending = none) :
    ∃ w : Value, w.isNullish = true ∧ ∀ args, invoke g v key args m = some (.undefined, m'.withError .typeError
      ("Property '" ++ key ++ "' is not a function (" ++ m'.realm.heap.typeName w ++ ")")) := by
  obtain ⟨w, m₁, hv, hfound⟩ := found_of_getMethod h
  cases hfound with
  | failed he => cases hp.symm.trans he
  | refused => cases hp
  | absent _ hw =>
    refine ⟨w, hw, fun args => ?_⟩
    rw [invoke, Run.bind_eq_of_eq_some hv, Run.ifPending_of_none hp, Run.getHeap_bind_apply]
    rw [Heap.function?_of_nullish _ hw]
    rfl

/-- A value without properties is read as `undefined`. -/
theorem getV_of_not_object {w : Value} (hv : v.isObject = false) (h : getV g v key m = some (w, m')) :
    w = .undefined := by
  cases v with
  | undefined | null =>
    rw [getV, Run.textOf_bind_apply, Run.lift_bind_apply] at h
    exact (Run.pure_eq_some h).1
  | boolean | number | string | symbol => exact (Run.pure_eq_some h).1
  | object => cases hv

/-- How a call of the method under a key goes, by what the lookup of the method leaves: without an answer, with the
function, with an exception, or with neither. -/
structure InvokeAgrees (g : Guest H) (v : Value) (key : String) (m : Machine H) : Prop where
  unanswered : getMethod g v key m = none → ∀ args, invoke g v key args m = none
  function : ∀ f m', getMethod g v key m = some (some f, m') →
    m'.pending = none ∧ ∀ args, invoke g v key args m = call g (.object f) v args m'
  failed : ∀ f m' e, getMethod g v key m = some (f, m') → m'.pending = some e →
    f = none ∧ ∀ args, invoke g v key args m = some (.undefined, m')
  absent : ∀ m', getMethod g v key m = some (none, m') → m'.pending = none →
    ∃ w : Value, w.isNullish = true ∧ ∀ args, invoke g v key args m = some (.undefined, m'.withError .typeError
      ("Property '" ++ key ++ "' is not a function (" ++ m'.realm.heap.typeName w ++ ")"))

theorem invokeAgrees (g : Guest H) (v : Value) (key : String) (m : Machine H) : InvokeAgrees g v key m where
  unanswered h args := invoke_of_unanswered h args
  function _ _ h := ⟨pending_of_getMethod h, invoke_of_function h⟩
  failed f _ _ h he := by
    refine ⟨?_, invoke_of_pending h he⟩
    cases f with
    | none => rfl
    | some f => cases (pending_of_getMethod h).symm.trans he
  absent _ h hp := invoke_of_absent h hp

/-- Without a function the call of a method runs no guest code but what the lookup has run. -/
theorem invoke_journal {n n' : Machine (H × Journal)} (h : getMethod g.recorded v key n = some (none, n'))
    (args : List Value) :
    ∃ n'', invoke g.recorded v key args n = some (.undefined, n'') ∧ n''.journal = n'.journal := by
  cases hp : n'.pending with
  | some e => exact ⟨n', invoke_of_pending h hp args, rfl⟩
  | none =>
    obtain ⟨w, -, hinvoke⟩ := invoke_of_absent h hp
    exact ⟨_, hinvoke args, rfl⟩

end Access

/-! ## Asking for a method -/

/-- A value is iterable exactly when the lookup of its iterator method finds a function, and asking leaves what the
lookup leaves. -/
theorem Iterator.isIterable_iff :
    isIterable g v m = some (true, m') ↔
      ∃ f, Access.getMethod g v m.realm.context.iteratorKey m = some (some f, m') := by
  unfold isIterable
  constructor
  · intro h
    split at h
    · rw [Run.getContext_bind_apply] at h
      obtain ⟨w, m₁, hv, h⟩ := Run.bind_eq_some.mp h
      rcases Run.ifPending_eq_some.mp h with ⟨e, _, h⟩ | ⟨hp, h⟩
      · cases (Run.pure_eq_some h).1
      · obtain ⟨hsome, rfl⟩ := Run.pure_eq_some h
        obtain ⟨f, hf⟩ := Option.isSome_iff_exists.mp hsome.symm
        obtain ⟨rfl, hfunction⟩ := Heap.function?_eq_some.mp hf
        exact ⟨f, Access.getMethod_eq_some_function.mpr ⟨hv, hp, hfunction⟩⟩
    · cases (Run.pure_eq_some h).1
  · rintro ⟨f, h⟩
    obtain ⟨hv, hp, hfunction⟩ := Access.getMethod_eq_some_function.mp h
    split
    · rw [Run.getContext_bind_apply, Run.bind_eq_of_eq_some hv, Run.ifPending_of_none hp]
      show some ((m'.realm.heap.function? (.object f)).isSome, m') = _
      rw [Heap.function?_eq_some.mpr ⟨rfl, hfunction⟩]
      rfl
    · next hobject => cases Access.getV_of_not_object (Bool.eq_false_iff.mpr hobject) hv

/-- The ways to resolve a method agree: what `Access.getMethod` leaves determines how `Access.invoke` goes, which runs
nothing more where there is no function to call, and what `Iterator.isIterable` answers. -/
structure ResolutionsAgree (g : Guest H) (v : Value) (m : Machine H) : Prop where
  invoke : ∀ key, Access.InvokeAgrees g v key m
  nothingMore : ∀ key j n, Access.getMethod g.recorded v key (m.recording j) = some (none, n) → ∀ args, ∃ n',
    Access.invoke g.recorded v key args (m.recording j) = some (.undefined, n') ∧ n'.journal = n.journal
  iterable : ∀ m', Iterator.isIterable g v m = some (true, m') ↔
    m'.pending = none ∧ ∃ f, Access.getMethod g v m.realm.context.iteratorKey m = some (some f, m')

theorem resolutions_agree (g : Guest H) (v : Value) (m : Machine H) : ResolutionsAgree g v m where
  invoke key := Access.invokeAgrees g v key m
  nothingMore _ _ _ h := Access.invoke_journal h
  iterable m' := by
    rw [Iterator.isIterable_iff]
    exact ⟨fun ⟨f, h⟩ => ⟨Access.pending_of_getMethod h, f, h⟩, fun ⟨_, h⟩ => h⟩

/-- The iterable has the method `next`, which is called as it is found, and no method `return`, whose call is an error;
and it is found to be iterable. -/
theorem resolutions_agree_iterableMachine :
    (∀ args, Access.invoke countingGuest (.object ⟨0⟩) "next" args iterableMachine =
      Access.call countingGuest (.object ⟨2⟩) (.object ⟨0⟩) args iterableMachine) ∧
    (∃ w : Value, w.isNullish = true ∧ ∀ args, Access.invoke countingGuest (.object ⟨0⟩) "return" args iterableMachine =
      some (.undefined, iterableMachine.withError .typeError
        ("Property 'return' is not a function (" ++ iterableMachine.realm.heap.typeName w ++ ")"))) ∧
    Iterator.isIterable countingGuest (.object ⟨0⟩) iterableMachine = some (true, iterableMachine) := by
  have hagree := resolutions_agree countingGuest (.object ⟨0⟩) iterableMachine
  refine ⟨?_, ?_, ?_⟩
  · exact ((hagree.invoke "next").function ⟨2⟩ iterableMachine rfl).2
  · exact (hagree.invoke "return").absent iterableMachine rfl rfl
  · exact (hagree.iterable iterableMachine).mpr ⟨rfl, ⟨1⟩, rfl⟩

end IterationEngine
