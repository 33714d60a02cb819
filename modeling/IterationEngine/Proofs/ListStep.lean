import IterationEngine.Proofs.Call
import IterationEngine.Proofs.Kinds

/-!
# Steps of list iterators

What a call of the step function of a list iterator does.

1. `permitted_eq_ok`, `permitted_of_listCursor?`: when a step is permitted.
2. `callFunction_listNext`: the result of a call, and the realm that it leaves to the caller.
3. `listCursor?_moved`, `listCursor?_moved_of_ne`: the cursors before and after.
-/

namespace IterationEngine

variable {H : Type}

namespace ListIterator

/-- A step is permitted for a receiver that is a list iterator with a list and bound to the running function. -/
theorem permitted_eq_ok {h : Heap} {frame : Frame} {it : ObjectId} {values : List Value} {index : Nat}
    (hp : permitted h frame = .ok (it, values, index)) :
    frame.receiver = .object it ∧ h.listCursor? it = some { list := some values, index, next := frame.active } := by
  obtain ⟨receiver, active⟩ := frame
  unfold permitted at hp
  cases receiver with
  | object id =>
    dsimp only at hp ⊢
    cases hc : h.listCursor? id with
    | none =>
      rw [hc] at hp
      cases hp
    | some cursor =>
      obtain ⟨list, i, next⟩ := cursor
      rw [hc] at hp
      cases next with
      | none => cases hp
      | some bound =>
        dsimp only at hp
        split at hp
        · next ha =>
          subst ha
          cases list with
          | none => cases hp
          | some list =>
            cases hp
            exact ⟨rfl, hc⟩
        · cases hp
  | undefined | null | boolean | number | string | symbol => cases hp

theorem permitted_of_listCursor? {h : Heap} {it f : ObjectId} {values : List Value} {index : Nat}
    (hc : h.listCursor? it = some { list := some values, index, next := some f }) :
    permitted h { receiver := .object it, active := some f } = .ok (it, values, index) := by
  unfold permitted
  dsimp only
  rw [hc]
  exact if_pos rfl

/-- The heap after the cursor of a list iterator has been moved. -/
def advanced (h : Heap) (it : ObjectId) : Heap :=
  h.modify it fun o =>
    match o.kind with
    | .listIterator cursor => { o with kind := .listIterator { cursor with index := cursor.index + 1 } }
    | _ => o

/-- The heap that a permitted step leaves, before the result is made. -/
def moved (h : Heap) (it : ObjectId) (values : List Value) (index : Nat) : Heap :=
  if index < values.length then advanced h it else h

/-- What a call of step code does, given what it is permitted: the result and the realm it leaves. -/
def stepped (r : Realm) : Except Refusal (ObjectId × List Value × Nat) → Value × Realm
  | .error refusal => (.undefined, r.withError .typeError refusal.message)
  | .ok (it, values, index) =>
    let heap := moved r.heap it values index
    let result := Object.ofResult (r.context.intrinsic .objectPrototype) (values[index]?.getD .undefined)
      values[index]?.isNone
    (.object (heap.alloc result).1, { r with heap := (heap.alloc result).2 })

theorem next_apply (r : Realm) : next r = stepped r (permitted r.heap r.context.frame) := by
  unfold next
  rw [Realm.getHeap_bind_apply, Realm.getContext_bind_apply]
  cases permitted r.heap r.context.frame with
  | error refusal => rfl
  | ok permission =>
    obtain ⟨it, values, index⟩ := permission
    unfold stepped moved
    dsimp only
    by_cases hlt : index < values.length
    · rw [List.getElem?_eq_getElem hlt, if_pos hlt]
      rfl
    · rw [List.getElem?_eq_none (Nat.le_of_not_lt hlt), if_neg hlt]
      rfl

/-- The step itself does not look at the frame, and what it leaves is put back into the frame of the caller. -/
theorem leaveFrame_stepped (r : Realm) (frame : Frame) (x : Except Refusal (ObjectId × List Value × Nat)) :
    (leaveFrame r.context.frame (stepped (enterFrame frame r).2 x).2).2 = (stepped r x).2 := by
  rcases x with refusal | ⟨it, values, index⟩ <;> rfl

theorem stepped_enterFrame (r : Realm) (frame : Frame) (x : Except Refusal (ObjectId × List Value × Nat)) :
    (stepped (enterFrame frame r).2 x).1 = (stepped r x).1 := by
  rcases x with refusal | ⟨it, values, index⟩ <;> rfl

end ListIterator

/-- What a call of step code does. -/
theorem callFunction_listNext (guest : GuestCode H) (f : ObjectId) (v : Value) (args : List Value) (m : Machine H)
    (hcan : m.realm.context.canCall = true) (hcode : m.realm.heap.code? f = some (.builtin .listNext)) :
    callFunction guest f v args m =
      let p := ListIterator.stepped m.realm (ListIterator.permitted m.realm.heap (m.realm.calleeFrame f v))
      some (p.1, m.withRealm p.2) := by
  let frame := m.realm.calleeFrame f v
  let p := ListIterator.stepped (enterFrame frame m.realm).2 (ListIterator.permitted m.realm.heap frame)
  rw [callFunction_of_canCall guest f v args hcan, hcode, runFramed, Run.lift_bind_apply]
  show ((liftM ListIterator.next : Run H Value) >>= _) _ = _
  rw [Run.lift_bind_apply, ListIterator.next_apply]
  show some (p.1, m.withRealm (leaveFrame m.realm.context.frame p.2).2) = _
  rw [ListIterator.stepped_enterFrame, ListIterator.leaveFrame_stepped]

namespace ListIterator

theorem keepsCode_advanced (h : Heap) (it : ObjectId) : h.KeepsCode (advanced h it) := by
  refine .modify (fun o => ?_) h it
  obtain ⟨kind, _, _, _⟩ := o
  cases kind with
  | listIterator c => exact .inl ⟨c, rfl⟩
  | _ => exact .inr rfl

theorem listCursor?_advanced {h : Heap} {it : ObjectId} {cursor : ListCursor}
    (hc : h.listCursor? it = some cursor) :
    (advanced h it).listCursor? it = some { cursor with index := cursor.index + 1 } := by
  obtain ⟨⟨kind, prototype, properties, slots⟩, ho, rfl⟩ := Heap.listCursor?_eq_some.mp hc
  have hmoved : (advanced h it).get? it = some
      { kind := .listIterator { cursor with index := cursor.index + 1 }, prototype, properties, slots } := by
    rw [advanced, Heap.get?_modify, if_pos rfl, ho]
    rfl
  exact Heap.listCursor?_eq_some.mpr ⟨_, hmoved, rfl⟩

theorem keepsCode_moved (h : Heap) (it : ObjectId) (values : List Value) (index : Nat) :
    h.KeepsCode (moved h it values index) := by
  unfold moved
  split
  · exact keepsCode_advanced h it
  · exact .ofKinds (.refl h)

theorem listCursor?_moved_of_ne {h : Heap} {it id : ObjectId} (hne : it ≠ id) (values : List Value) (index : Nat) :
    (moved h it values index).listCursor? id = h.listCursor? id := by
  unfold moved
  split
  · exact Heap.listCursor?_modify_of_ne hne _
  · rfl

/-- The cursor stops at the end of the list. -/
theorem listCursor?_moved {h : Heap} {it : ObjectId} {values : List Value} {k : Nat} {next : Handle}
    (hc : h.listCursor? it = some { list := some values, index := min k values.length, next }) :
    (moved h it values (min k values.length)).listCursor? it =
      some { list := some values, index := min (k + 1) values.length, next } := by
  unfold moved
  split
  · next hlt =>
    have hk : min (k + 1) values.length = min k values.length + 1 := by omega
    rw [listCursor?_advanced hc, hk]
  · next hge =>
    have hk : min (k + 1) values.length = min k values.length := by omega
    rw [hc, hk]

theorem size_moved (h : Heap) (it : ObjectId) (values : List Value) (index : Nat) :
    (moved h it values index).size = h.size := by
  unfold moved
  split
  · exact Heap.size_modify h it _
  · rfl

/-! ## Results -/

theorem ownProperty?_value (h : Heap) (prototype : Handle) (v : Value) (done : Bool) :
    (h.alloc (.ofResult prototype v done)).2.ownProperty? "value" (h.alloc (.ofResult prototype v done)).1 =
      some (.data v .all) := by
  unfold Heap.ownProperty?
  rw [Heap.get?_alloc_self]
  rfl

theorem ownProperty?_done (h : Heap) (prototype : Handle) (v : Value) (done : Bool) :
    (h.alloc (.ofResult prototype v done)).2.ownProperty? "done" (h.alloc (.ofResult prototype v done)).1 =
      some (.data (.boolean done) .all) := by
  unfold Heap.ownProperty?
  rw [Heap.get?_alloc_self]
  rfl

/-- The result is a new object. -/
theorem get?_result (h : Heap) (it : ObjectId) (values : List Value) (index : Nat) (o : Object) :
    h.get? ((moved h it values index).alloc o).1 = none := by
  show h.objects[(moved h it values index).size]? = none
  rw [size_moved]
  exact Array.getElem?_eq_none (Nat.le_refl _)

/-- Past the end of a list there is nothing, however far. -/
theorem getElem?_min (values : List Value) (k : Nat) : values[min k values.length]? = values[k]? := by
  by_cases hk : k < values.length
  · rw [Nat.min_eq_left (Nat.le_of_lt hk)]
  · rw [Nat.min_eq_right (Nat.le_of_not_lt hk), List.getElem?_eq_none (Nat.le_refl _),
      List.getElem?_eq_none (Nat.le_of_not_lt hk)]

/-! ## Making and binding -/

/-- A list iterator as it is made: at its first value, and bound to a function of its own, which has the step code and is
its method `next`. -/
structure Made (h : Heap) (it f : ObjectId) (xs : List Value) : Prop where
  cursor : h.listCursor? it = some { list := some xs, next := some f }
  code : h.code? f = some (.builtin .listNext)
  own : h.ownProperty? "next" it = some (.data (.object f) .hidden)

theorem made_create (list : List Value) (r : Realm) :
    ∃ f, Made (create list r).2.heap (create list r).1 f list := by
  let o : Object := { kind := .listIterator { list := some list }, prototype := r.context.intrinsic .iteratorPrototype }
  let h₁ := (r.heap.alloc o).2
  let it := (r.heap.alloc o).1
  let step := Object.ofCode "next" 0 (.builtin .listNext)
  let f := (h₁.alloc step).1
  have hit : h₁.get? it = some o := Heap.get?_alloc_self _ _
  have hne : it ≠ f := by
    intro heq
    rw [heq, Heap.get?_alloc_fst] at hit
    cases hit
  have hbound : (create list r).2.heap.get? it = some
      { o with
        kind := .listIterator { list := some list, next := some f }
        properties := PropertyTable.setMethod o.properties "next" (.object f) } := by
    show (((h₁.alloc step).2.modify it _).modify it _).get? it = _
    rw [Heap.get?_modify, if_pos rfl, Heap.get?_modify, if_pos rfl, Heap.get?_alloc_of_some hit]
    rfl
  have hstep : (create list r).2.heap.get? f = some step := by
    show (((h₁.alloc step).2.modify it _).modify it _).get? f = _
    rw [Heap.get?_modify, if_neg hne, Heap.get?_modify, if_neg hne, Heap.get?_alloc_self]
  refine ⟨f, Heap.listCursor?_eq_some.mpr ⟨_, hbound, rfl⟩, Heap.code?_eq_some.mpr ⟨step, "next", 0, hstep, rfl⟩, ?_⟩
  show ((create list r).2.heap.get? it).bind _ = _
  rw [hbound]
  rfl

theorem keepsCode_bindNext (it : ObjectId) (next : Handle) (r : Realm) :
    r.heap.KeepsCode (bindNext it next r).2.heap := by
  refine .modify (fun o => ?_) r.heap it
  obtain ⟨kind, _, _, _⟩ := o
  cases kind with
  | listIterator c => exact .inl ⟨c, rfl⟩
  | _ => exact .inr rfl

end ListIterator

end IterationEngine
