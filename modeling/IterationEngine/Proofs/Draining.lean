import IterationEngine.Proofs.Confined
import IterationEngine.Proofs.ListIterator

/-!
# Draining a list iterator

A list iterator whose own `next` still holds the function that it is bound to is drained exactly, whatever has been
done to all other objects. Each round reads `next` of the iterator itself, and `done` and `value` of the result that
the step has just made, so that nothing which guest code has put on a prototype is ever found.

1. `ListIterator.Ready`: such an iterator and the index that it has reached.
2. `Iterator.item_of_call`: one round; `ListIterator.Ready.call`: the call of the step function in it.
3. `Iterator.drain_of_ready`: all of the rounds, by induction on their number. `ListIterator.Drained` says what has
   become of the realm, and composes round by round.
4. `listIterator_drained`: the result, with a run on a machine whose prototypes have been tampered with.
-/

namespace IterationEngine

variable {H : Type}

/-! ## Own properties come first -/

namespace Access

theorem getFrom_of_own (g : Guest H) {m : Machine H} {id : ObjectId} {key : String} {v : Value} {a : Attributes}
    (hp : m.realm.heap.ownProperty? key id = some (.data v a)) : getFrom g (some id) key m = some (v, m) := by
  rw [getFrom, get_apply, Heap.lookup_of_own hp]

/-- A method that the object has of its own is called and nothing else. -/
theorem invoke_of_own (g : Guest H) {m : Machine H} {id f : ObjectId} {key : String} {a : Attributes}
    (hp : m.realm.heap.ownProperty? key id = some (.data (.object f) a)) (hf : m.realm.heap.isFunction f = true)
    (hpending : m.pending = none) (args : List Value) :
    invoke g (.object id) key args m = g.call f (.object id) args m := by
  have hmethod : getV g (.object id) key m = some (.object f, m) := getFrom_of_own g hp
  have hfunction : m.realm.heap.function? (.object f) = some f := if_pos hf
  rw [invoke, Run.bind_eq_of_eq_some hmethod, Run.ifPending_of_none hpending, Run.getHeap_bind_apply, hfunction]

end Access

/-! ## Iterators that are ready -/

namespace ListIterator

/-- The list iterator `it` over `xs` has reached the index `i`, and has the function `f`, to which it is bound, as a
data property `next` of its own. -/
structure Ready (h : Heap) (it f : ObjectId) (xs : List Value) (i : Nat) : Prop where
  cursor : h.listCursor? it = some { list := some xs, index := i, next := some f }
  reached : i ≤ xs.length
  code : h.code? f = some (.builtin .listNext)
  own : ∃ a, h.ownProperty? "next" it = some (.data (.object f) a)

/-- The realm after a step of the iterator from the index `i`. -/
def answered (r : Realm) (it : ObjectId) (xs : List Value) (i : Nat) : Realm := (stepped r (.ok (it, xs, i))).2

/-- The result that is made by a step from the index `i`. -/
def resultAt (r : Realm) (xs : List Value) (i : Nat) : Object :=
  .ofResult (r.context.intrinsic .objectPrototype) (xs[i]?.getD .undefined) xs[i]?.isNone

section Answered

variable {r : Realm} {it f id : ObjectId} {xs : List Value} {i : Nat} {o : Object}

theorem size_answered (r : Realm) (it : ObjectId) (xs : List Value) (i : Nat) :
    (answered r it xs i).heap.size = r.heap.size + 1 := by
  show ((moved r.heap it xs i).alloc (resultAt r xs i)).2.size = _
  rw [Heap.size_alloc, size_moved]

theorem allocations_answered (r : Realm) (it : ObjectId) (xs : List Value) (i : Nat) :
    (answered r it xs i).heap.allocations = r.heap.allocations + 1 := by
  show (moved r.heap it xs i).allocations + 1 = _
  unfold moved
  split <;> rfl

theorem get?_answered_result (r : Realm) (it : ObjectId) (xs : List Value) (i : Nat) :
    (answered r it xs i).heap.get? ⟨r.heap.size⟩ = some (resultAt r xs i) := by
  show ((moved r.heap it xs i).alloc (resultAt r xs i)).2.get? _ = _
  rw [Heap.get?_alloc, size_moved, if_pos rfl]

theorem get?_answered_of_ne (hid : id ≠ it) (ho : r.heap.get? id = some o) :
    (answered r it xs i).heap.get? id = some o := by
  refine Heap.get?_alloc_of_some ?_ _
  unfold moved
  split
  · rw [advanced, Heap.get?_modify, if_neg hid.symm, ho]
  · exact ho

/-- Of the iterator itself a step changes the index alone. -/
theorem get?_answered_self (ho : r.heap.get? it = some o)
    (hkind : o.kind = .listIterator { list := some xs, index := i, next := some f }) (hi : i ≤ xs.length) :
    (answered r it xs i).heap.get? it =
      some { o with kind := .listIterator { list := some xs, index := min (i + 1) xs.length, next := some f } } := by
  refine Heap.get?_alloc_of_some ?_ _
  obtain ⟨kind, prototype, properties, slots⟩ := o
  obtain rfl : kind = _ := hkind
  unfold moved
  split
  · next hlt =>
    rw [advanced, Heap.get?_modify, if_pos rfl, ho, Nat.min_eq_left hlt]
    rfl
  · next hge =>
    obtain rfl : i = xs.length := Nat.le_antisymm hi (Nat.le_of_not_lt hge)
    rw [ho, Nat.min_eq_right (Nat.le_succ _)]

/-- A call of the step function by which the iterator is bound. -/
theorem callFunction_of_cursor {m : Machine H} (hcan : m.realm.context.canCall = true)
    (hcode : m.realm.heap.code? f = some (.builtin .listNext))
    (hcursor : m.realm.heap.listCursor? it = some { list := some xs, index := i, next := some f }) (guest : GuestCode H)
    (args : List Value) :
    callFunction guest f (.object it) args m =
      some (.object ⟨m.realm.heap.size⟩, m.withRealm (answered m.realm it xs i)) := by
  have hid : ((moved m.realm.heap it xs i).alloc (resultAt m.realm xs i)).1 = ⟨m.realm.heap.size⟩ :=
    congrArg ObjectId.mk (size_moved m.realm.heap it xs i)
  rw [callFunction_listNext guest f _ args m hcan hcode, Realm.calleeFrame_object, permitted_of_listCursor? hcursor, ← hid]
  rfl

end Answered

namespace Ready

variable {h : Heap} {r : Realm} {it f : ObjectId} {xs : List Value} {i : Nat}

theorem of_objects {h' : Heap} (hr : Ready h it f xs i) (hobjects : h.objects = h'.objects) : Ready h' it f xs i := by
  obtain ⟨objects, allocations, peak, stored⟩ := h
  obtain rfl : objects = h'.objects := hobjects
  exact ⟨hr.cursor, hr.reached, hr.code, hr.own⟩

theorem isFunction (hr : Ready h it f xs i) : h.isFunction f = true := Heap.isFunction_of_code? hr.code

/-- After a step the iterator is ready for the next one. -/
theorem answered (hr : Ready r.heap it f xs i) :
    Ready (answered r it xs i).heap it f xs (min (i + 1) xs.length) := by
  obtain ⟨o, ho, hkind⟩ := Heap.listCursor?_eq_some.mp hr.cursor
  have ho' := get?_answered_self ho hkind hr.reached
  refine ⟨Heap.listCursor?_eq_some.mpr ⟨_, ho', rfl⟩, Nat.min_le_right _ _, ?_, ?_⟩
  · have hkeeps := (keepsCode_moved r.heap it xs i).trans (.ofKinds (.alloc _ (resultAt r xs i)))
    exact hkeeps f _ hr.code
  · obtain ⟨a, ha⟩ := hr.own
    rw [Heap.ownProperty?, ho] at ha
    refine ⟨a, ?_⟩
    rw [Heap.ownProperty?, ho']
    exact ha

/-- What a call of the step function on the iterator does. -/
theorem call {m : Machine H} (hr : Ready m.realm.heap it f xs i) (hcan : m.realm.context.canCall = true)
    (guest : GuestCode H) (args : List Value) :
    callFunction guest f (.object it) args m =
      some (.object ⟨m.realm.heap.size⟩, m.withRealm (ListIterator.answered m.realm it xs i)) :=
  callFunction_of_cursor hcan hr.code hr.cursor guest args

/-- The journal of a call of the step function. -/
theorem recorded_call {n : Machine (H × Journal)} (hr : Ready n.realm.heap it f xs i)
    (hcan : n.realm.context.canCall = true) {g : Guest H} {guest : GuestCode H} (hg : g.call = callFunction guest) :
    g.recorded.call f (.object it) [] n =
      some (.object ⟨n.realm.heap.size⟩,
        (n.unrecorded.withRealm (ListIterator.answered n.realm it xs i)).recording (n.journal ++
          [.called ⟨f, .object it, [], n.realm, .object ⟨n.realm.heap.size⟩,
            ListIterator.answered n.realm it xs i⟩])) := by
  have hcall := call (m := n.unrecorded) hr hcan guest []
  show (g.call f (.object it) [] n.unrecorded).map _ = _
  rw [hg, hcall]
  rfl

end Ready

end ListIterator

/-! ## One round -/

namespace Iterator

open ListIterator (Ready answered resultAt)

variable {g : Guest H} {m m' : Machine H} {it f : ObjectId} {xs : List Value} {i : Nat}

theorem ownProperty?_answered_done (r : Realm) (it : ObjectId) (xs : List Value) (i : Nat) :
    (answered r it xs i).heap.ownProperty? "done" ⟨r.heap.size⟩ = some (.data (.boolean xs[i]?.isNone) .all) := by
  rw [Heap.ownProperty?, ListIterator.get?_answered_result]
  rfl

theorem ownProperty?_answered_value (r : Realm) (it : ObjectId) (xs : List Value) (i : Nat) :
    (answered r it xs i).heap.ownProperty? "value" ⟨r.heap.size⟩ =
      some (.data (xs[i]?.getD .undefined) .all) := by
  rw [Heap.ownProperty?, ListIterator.get?_answered_result]
  rfl

/-- A step, given that the method answers a result which has `done` of its own. -/
theorem step_of_result {r : ObjectId} {done : Bool} {a : Attributes}
    (hinvoke : Access.invoke g (.ofHandle (some it)) "next" [] m = some (.object r, m')) (hp' : m'.pending = none)
    (hdone : m'.realm.heap.ownProperty? "done" r = some (.data (.boolean done) a)) :
    step g (some it) m = some (if done then none else some r, m') := by
  have hnext : next g (some it) none m = some (some r, m') := by
    rw [next, Option.toList_none, Run.bind_eq_of_eq_some hinvoke, Run.ifPending_of_none hp']
    rfl
  have hisDone : isDone g r m' = some (done, m') := by
    rw [isDone, Run.bind_eq_of_eq_some (Access.getFrom_of_own g hdone), Run.ifPending_of_none hp']
    rfl
  rw [step, Run.bind_eq_of_eq_some hnext]
  dsimp only
  rw [Run.bind_eq_of_eq_some hisDone, Run.ifPending_of_none hp']
  cases done <;> rfl

/-- One round, given what the call of the step function answers. The round reads nothing but own properties of the
iterator and of the result. -/
theorem item_of_call (hr : Ready m.realm.heap it f xs i) (hp : m.pending = none)
    (hcall : g.call f (.object it) [] m = some (.object ⟨m.realm.heap.size⟩, m'))
    (hm' : m'.realm = answered m.realm it xs i) :
    item g it m = some (xs[i]?.elim .exhausted .value, m') := by
  obtain ⟨a, ha⟩ := hr.own
  have hp' : m'.pending = none := by
    rw [Machine.pending, hm']
    exact hp
  have hstep := step_of_result ((Access.invoke_of_own g ha hr.isFunction hp []).trans hcall) hp'
    (hm' ▸ ownProperty?_answered_done m.realm it xs i)
  rw [item, Run.bind_eq_of_eq_some hstep, Run.ifPending_of_none hp']
  cases hx : xs[i]? with
  | none => rfl
  | some x =>
    have hget := Access.getFrom_of_own g (hm' ▸ ownProperty?_answered_value m.realm it xs i)
    have hvalue : value g ⟨m.realm.heap.size⟩ m' = some (x, m') := by
      rw [hx] at hget
      exact hget
    show ((value g ⟨m.realm.heap.size⟩ : Run H Value) >>= _) m' = _
    rw [Run.bind_eq_of_eq_some hvalue, Run.ifPending_of_none hp']
    rfl

end Iterator

/-! ## All rounds -/

namespace ListIterator

/-- What becomes of a realm while the list iterator is drained from the index `i` on. It allocates the results, of which
the last one is done; of the objects that there were it changes the index of the iterator, and nothing else. -/
structure Drained (it f : ObjectId) (xs : List Value) (i : Nat) (r r' : Realm) : Prop where
  iterator : ∀ o, r.heap.get? it = some o → r'.heap.get? it =
    some { o with kind := .listIterator { list := some xs, index := xs.length, next := some f } }
  others : ∀ id o, id ≠ it → r.heap.get? id = some o → r'.heap.get? id = some o
  results : ∀ k, k ≤ xs.length - i → r'.heap.get? ⟨r.heap.size + k⟩ = some (resultAt r xs (i + k))
  size : r'.heap.size = r.heap.size + (xs.length - i + 1)
  allocations : r'.heap.allocations = r.heap.allocations + (xs.length - i + 1)
  context : r'.context = r.context
  registry : r'.registry = r.registry

/-- A call of the function `f` with the iterator as its receiver and no arguments. -/
def IsStepCall (f it : ObjectId) (ev : Event) : Prop :=
  ∃ c, ev = .called c ∧ c.function = f ∧ c.receiver = .object it ∧ c.args = []

namespace Drained

variable {it f : ObjectId} {xs : List Value} {i : Nat} {r r' : Realm}

/-- The last round, which finds no value. -/
theorem last (hr : Ready r.heap it f xs xs.length) : Drained it f xs xs.length r (answered r it xs xs.length) where
  iterator o ho := by
    obtain ⟨o', ho', hkind⟩ := Heap.listCursor?_eq_some.mp hr.cursor
    obtain rfl := Option.some.inj (ho.symm.trans ho')
    rw [get?_answered_self ho hkind (Nat.le_refl _), Nat.min_eq_right (Nat.le_succ _)]
  others id o hid ho := get?_answered_of_ne hid ho
  results k hk := by
    obtain rfl : k = 0 := by omega
    exact get?_answered_result r it xs xs.length
  size := by rw [size_answered, Nat.sub_self]
  allocations := by rw [allocations_answered, Nat.sub_self]
  context := rfl
  registry := rfl

/-- A round that finds a value, and the rounds after it. -/
theorem round (hr : Ready r.heap it f xs i) (hi : i < xs.length)
    (hrest : Drained it f xs (i + 1) (answered r it xs i) r') : Drained it f xs i r r' where
  iterator o ho := by
    obtain ⟨o', ho', hkind⟩ := Heap.listCursor?_eq_some.mp hr.cursor
    obtain rfl := Option.some.inj (ho.symm.trans ho')
    have hlater := hrest.iterator _ (get?_answered_self ho hkind hr.reached)
    exact hlater
  others id o hid ho := hrest.others id o hid (get?_answered_of_ne hid ho)
  results k hk := by
    cases k with
    | zero =>
      have hne : (⟨r.heap.size⟩ : ObjectId) ≠ it := by
        rintro rfl
        obtain ⟨o, ho, -⟩ := Heap.listCursor?_eq_some.mp hr.cursor
        exact Nat.lt_irrefl _ (Array.getElem?_eq_some_iff.mp ho).1
      exact hrest.others _ _ hne (get?_answered_result r it xs i)
    | succ k =>
      have hresult := hrest.results k (by omega)
      rw [size_answered, Nat.add_assoc, Nat.add_assoc, Nat.add_comm 1 k] at hresult
      exact hresult
  size := by
    rw [hrest.size, size_answered]
    omega
  allocations := by
    rw [hrest.allocations, allocations_answered]
    omega
  context := hrest.context
  registry := hrest.registry

end Drained

end ListIterator

namespace Iterator

open ListIterator (Ready Drained IsStepCall)

variable {g : Guest H} {guest : GuestCode H} {it f : ObjectId} {xs : List Value} {i : Nat}

/-- Draining an iterator that is ready, with a journal of the calls. As many rounds as there are values left are enough,
and one more in which the iterator says that it is done. -/
theorem drain_of_ready (hg : g.call = callFunction guest) {rounds : Nat} {n : Machine (H × Journal)}
    (hr : Ready n.realm.heap it f xs i) (hp : n.pending = none) (hcan : n.realm.context.canCall = true)
    (hrounds : xs.length - i < rounds) (taken : Array Value) :
    ∃ r calls, drain g.recorded rounds it taken n =
        some (taken.toList ++ xs.drop i, (n.unrecorded.withRealm r).recording (n.journal ++ calls)) ∧
      Drained it f xs i n.realm r ∧ calls.length = xs.length - i + 1 ∧ ∀ ev ∈ calls, IsStepCall f it ev := by
  induction rounds generalizing i n taken with
  | zero => exact absurd hrounds (Nat.not_lt_zero _)
  | succ rounds ih =>
    let r₁ := ListIterator.answered n.realm it xs i
    let ev : Event := .called ⟨f, .object it, [], n.realm, .object ⟨n.realm.heap.size⟩, r₁⟩
    let n₁ := (n.unrecorded.withRealm r₁).recording (n.journal ++ [ev])
    have hev : IsStepCall f it ev := ⟨_, rfl, rfl, rfl, rfl⟩
    have hitem : item g.recorded it n = some (xs[i]?.elim .exhausted .value, n₁) :=
      item_of_call hr hp (hr.recorded_call hcan hg) rfl
    by_cases hi : i < xs.length
    · have hready := hr.answered
      rw [Nat.min_eq_left (show i + 1 ≤ xs.length from hi)] at hready
      obtain ⟨r, calls, hdrain, hdrained, hlength, hcalls⟩ :=
        ih (n := n₁) hready hp hcan (by omega) (taken.push xs[i])
      refine ⟨r, ev :: calls, ?_, .round hr hi hdrained, ?_, ?_⟩
      · rw [drain, Run.bind_eq_of_eq_some hitem, List.getElem?_eq_getElem hi]
        show drain g.recorded rounds it (taken.push xs[i]) n₁ = _
        rw [hdrain, Array.toList_push, List.append_assoc, List.singleton_append, ← List.drop_eq_getElem_cons hi,
          ← List.singleton_append, ← List.append_assoc]
        rfl
      · rw [List.length_cons, hlength]
        omega
      · exact List.forall_mem_cons.mpr ⟨hev, hcalls⟩
    · obtain rfl : i = xs.length := Nat.le_antisymm hr.reached (Nat.le_of_not_lt hi)
      refine ⟨r₁, [ev], ?_, .last hr, ?_, List.forall_mem_singleton.mpr hev⟩
      · rw [drain, Run.bind_eq_of_eq_some hitem, List.getElem?_eq_none (Nat.le_refl _), List.drop_length,
          List.append_nil]
        rfl
      · rw [List.length_singleton, Nat.sub_self]

/-- What a list is made of if the list iterator `it` over `xs` is got for it on the machine `m` and has reached the index
`i`: of the values from there on. -/
structure DrainsTo (g : Guest H) (items : Value) (method : Option Value) (m₀ m : Machine H) (it f : ObjectId)
    (xs : List Value) (i : Nat) (m' : Machine H) : Prop where
  list : toList g items method m₀ = some (xs.drop i, m')
  cursor : m'.realm.heap.listCursor? it = some { list := some xs, index := xs.length, next := some f }
  pending : m'.pending = none
  realm : Drained it f xs i m.realm m'.realm
  /-- No guest code has run. -/
  host : m'.host = m.host
  /-- Once the iterator has been got, nothing is called but its own function. -/
  calls : ∃ started calls,
    (method.elim (of g.recorded items) (ofMethod g.recorded items)) (m₀.recording []) =
      some (some it, m.recording started) ∧
    toList g.recorded items method (m₀.recording []) = some (xs.drop i, m'.recording (started ++ calls)) ∧
    calls.length = xs.length - i + 1 ∧ ∀ ev ∈ calls, IsStepCall f it ev

/-- Getting an iterator that is ready, and the rest of making a list. -/
theorem drainsTo_of_ready (hg : g.call = callFunction guest) {items : Value} {method : Option Value} {m₀ m : Machine H}
    (hgot : (method.elim (of g items) (ofMethod g items)) m₀ = some (some it, m))
    (hr : Ready m.realm.heap it f xs i) (hcan : m.realm.context.canCall = true) (hrounds : xs.length - i < g.rounds) :
    ∃ m', DrainsTo g items method m₀ m it f xs i m' := by
  have M := mirror_recorded g
  have hsignals : Run.Signals (method.elim (of g items) (ofMethod g items)) := by
    cases method with
    | none => exact signals_of g items
    | some method => exact signals_ofMethod g items method
  have hsim : Run.Sim Records (method.elim (of g items) (ofMethod g items))
      (method.elim (of g.recorded items) (ofMethod g.recorded items)) := by
    cases method with
    | none => exact M.of items
    | some method => exact M.ofMethod items method
  obtain ⟨started, hstarted⟩ := hsim.exists_journal hgot []
  obtain ⟨r, calls, hdrain, hdrained, hlength, hcalls⟩ := drain_of_ready (n := m.recording started) hg hr
    (pending_of_signals hsignals hgot) hcan hrounds #[]
  have hrecorded : toList g.recorded items method (m₀.recording []) =
      some (xs.drop i, (m.withRealm r).recording (started ++ calls)) := by
    rw [toList_eq, Run.bind_eq_of_eq_some hstarted]
    exact hdrain
  obtain ⟨m', hlist, hm'⟩ := (M.toList items method).exists_left rfl hrecorded
  obtain rfl : m.withRealm r = m' := hm'
  obtain ⟨o, ho, -⟩ := Heap.listCursor?_eq_some.mp hr.cursor
  refine ⟨m.withRealm r, hlist, ?_, ?_, hdrained, rfl, started, calls, hstarted, hrecorded, hlength, hcalls⟩
  · exact Heap.listCursor?_eq_some.mpr ⟨_, hdrained.iterator o ho, rfl⟩
  · rw [Machine.pending, Machine.realm_withRealm, hdrained.context]
    exact pending_of_signals hsignals hgot

end Iterator

/-! ## Iterators that have been made -/

section Histories

open ListIterator (Ready)

variable {S : Type}

/-- A list iterator that has been made, and bound by nobody since, is ready as long as its own `next` has not been
changed. The index that it has reached is the number of its steps, up to the end of the list. -/
theorem ready_of_history {m : Machine (Embedder S)} {j pre post : Journal} {xs : List Value} {it : ObjectId} {h₀ : Heap}
    (h : History m j) (hj : j = pre ++ .performed (.createListIterator xs) it h₀ :: post)
    (hpost : ∀ ev ∈ post, ev.rebinds it = false) :
    ∃ f, m.realm.heap.listCursor? it =
        some { list := some xs, index := min (post.steps f it) xs.length, next := some f } ∧
      ∀ a, m.realm.heap.ownProperty? "next" it = some (.data (.object f) a) →
        Ready m.realm.heap it f xs (min (post.steps f it) xs.length) := by
  obtain ⟨f, hserves⟩ := (accounts_of_history h).serves hj hpost
  exact ⟨f, hserves.now, fun a ha => ⟨hserves.now, Nat.min_le_right _ _, hserves.code, a, ha⟩⟩

/-- Lists made of what list iterators have left. Whatever has been done to any other object, the list is what follows
the index that the iterator has reached; at that, no guest code runs, and nothing changes but that index and the results
that are allocated. -/
theorem listIterator_drained :
    (∀ {m : Machine (Embedder S)} {j : Journal}, History m j → ∀ (pre post : Journal) xs it h₀,
      j = pre ++ .performed (.createListIterator xs) it h₀ :: post → (∀ ev ∈ post, ev.rebinds it = false) →
      ∃ f, m.realm.heap.listCursor? it =
          some { list := some xs, index := min (post.steps f it) xs.length, next := some f } ∧
        ∀ a, m.realm.heap.ownProperty? "next" it = some (.data (.object f) a) →
          Ready m.realm.heap it f xs (min (post.steps f it) xs.length)) ∧
    ∀ (g : Guest H) (guest : GuestCode H), g.call = callFunction guest →
      ∀ items method m₀ it m, (method.elim (Iterator.of g items) (Iterator.ofMethod g items)) m₀ = some (some it, m) →
        m.realm.context.canCall = true → ∀ f xs i, Ready m.realm.heap it f xs i → xs.length - i < g.rounds →
        ∃ m', Iterator.DrainsTo g items method m₀ m it f xs i m' := by
  refine ⟨?_, ?_⟩
  · intro m j h pre post xs it h₀ hj hpost
    exact ready_of_history h hj hpost
  · intro g guest hg items method m₀ it m hgot hcan f xs i hr hrounds
    exact Iterator.drainsTo_of_ready hg hgot hr hcan hrounds

end Histories

/-! ## Prototypes that have been tampered with -/

/-- Guest code that leaves an exception pending. -/
def failing : Program Unit := .perform (.raise (.string "called")) fun _ => .finish (.normal .undefined)

/-- Makes a list iterator over two values and takes one step. Before that, its prototype and the prototype of results
have become an object whose every property of the protocol is read by a function that fails. The last command makes the
function that answers its receiver. -/
def tamper : Program Unit :=
  .perform (.createListIterator [.boolean true, .boolean false]) fun it =>
    .define "failing" 0 (fun _ => failing) fun getter =>
      .perform (.createObject none .ordinary []) fun trap =>
        .perform (.defineAccessor trap "next" (some getter) none .all) fun _ =>
          .perform (.defineAccessor trap "done" (some getter) none .all) fun _ =>
            .perform (.defineAccessor trap "value" (some getter) none .all) fun _ =>
              .perform (.setPrototype it (some trap)) fun _ =>
                .perform (.registerBuiltin Intrinsic.objectPrototype.name (some trap)) fun _ =>
                  .perform (.step (some it)) fun _ =>
                    .perform (.createFunction "self" 0 (some .receiver)) fun _ => .finish (.normal .undefined)

/-- The list is made all the same, of the one value that is left. -/
theorem listIterator_drained_tamper :
    ∃ (m₀ m m' : Machine (Embedder Unit)) (post : Journal) (h₀ : Heap),
      History m₀ (.performed (.createListIterator [.boolean true, .boolean false]) ⟨0⟩ h₀ :: post) ∧
      m₀.realm.heap.ownProperty? "done" ⟨3⟩ = some (.accessor (some ⟨2⟩) none .all) ∧
      m₀.realm.context.intrinsic .objectPrototype = some ⟨3⟩ ∧
      Iterator.DrainsTo (Program.guest 8 2) (.object ⟨0⟩) (some (.object ⟨5⟩)) m₀ m ⟨0⟩ ⟨1⟩
        [.boolean true, .boolean false] 1 m' := by
  have hcheck : (tamper.runWithinNoted ⟨2, 8⟩ (embeddingMachine.recording [])).any (fun p =>
      p.2.journal.head?.bind Event.made? == some ([.boolean true, .boolean false], ⟨0⟩) &&
      p.2.journal.tail.all (fun ev => !ev.rebinds ⟨0⟩) &&
      Journal.steps ⟨1⟩ ⟨0⟩ p.2.journal.tail == 1 &&
      p.2.realm.heap.ownProperty? "done" ⟨3⟩ == some (.accessor (some ⟨2⟩) none .all) &&
      p.2.realm.context.intrinsic .objectPrototype == some ⟨3⟩ &&
      (p.2.realm.heap.listCursor? ⟨0⟩).bind (·.next) == some ⟨1⟩ &&
      p.2.realm.heap.ownProperty? "next" ⟨0⟩ == some (.data (.object ⟨1⟩) .hidden) &&
      (Iterator.ofMethod (Program.guest 8 2) (.object ⟨0⟩) (.object ⟨5⟩) p.2.unrecorded).any fun q =>
        q.1 == some ⟨0⟩ && q.2.realm.heap.objects == p.2.realm.heap.objects && q.2.realm.context.canCall) = true := by
    decide +kernel
  obtain ⟨⟨c, n⟩, hrun, hn⟩ := (Option.any_eq_true _ _).mp hcheck
  simp only [Bool.and_eq_true, beq_iff_eq, Option.any_eq_true] at hn
  obtain ⟨⟨⟨⟨⟨⟨⟨hmade, hfree⟩, hsteps⟩, hdone⟩, hproto⟩, hbound⟩, hown⟩, ⟨it, m⟩, hgot, ⟨rfl, hobjects⟩, hcan⟩ := hn
  have hhistory : History n.unrecorded n.journal := .run (.start embeddingMachine) hrun
  obtain ⟨h₀, post, hj⟩ := Journal.eq_cons_of_made? hmade
  rw [hj] at hfree hsteps hhistory
  have hfree : ∀ ev ∈ post, ev.rebinds ⟨0⟩ = false := by
    intro ev hev
    exact (Bool.not_eq_true' _).mp (List.all_eq_true.mp hfree ev hev)
  have hresult := listIterator_drained (H := Embedder Unit) (S := Unit)
  obtain ⟨f, hcursor, hready⟩ := hresult.1 hhistory [] post _ _ h₀ rfl hfree
  change n.realm.heap.listCursor? ⟨0⟩ = _ at hcursor
  rw [hcursor] at hbound
  obtain rfl : f = ⟨1⟩ := Option.some.inj hbound
  change Journal.steps ⟨1⟩ ⟨0⟩ post = 1 at hsteps
  rw [hsteps] at hready
  have hm := (hready _ hown).of_objects hobjects.symm
  obtain ⟨m', hm'⟩ := hresult.2 (Program.guest 8 2) _ rfl _ (some (.object ⟨5⟩)) _ _ _ hgot hcan _ _ _ hm (by decide)
  exact ⟨n.unrecorded, m, m', post, h₀, hhistory, hdone, hproto, hm'⟩

end IterationEngine
